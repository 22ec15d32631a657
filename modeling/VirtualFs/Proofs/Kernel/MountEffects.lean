import VirtualFs.Proofs.Kernel.FileEffects

/-!
# What comes of a job on mount tables

`MountEffect s job p s'` lists all that a job on mount tables can come to from the store `s`.  No
such job touches tables or open directories (`KeepsFiles`).  A record is given to a node where a
driver is registered, or where its filesystem has refused to give it up; it is taken from its node
where it is unregistered or unmounted.

* `ensures_register`, `ensures_unregister`, `ensures_detach`, `ensures_reattach`: what each does to
  the records.
* `Job.ensures_mountEffect`: every job on mount tables.
* `Happens.mountEffect`: every step of a run on mount tables has one of the effects.
* `Happens.effect`: every step of a run has one of these effects, or one of those on files.
-/

namespace VirtualFs

namespace Store

variable {s s' s'' : Store} {v w : VfsId} {i : Instance} {n m : Mount.NodeId} {r : Record}

/-- The record of the driver that node `n` of file system `v` owns. -/
def record? (s : Store) (v : VfsId) (n : Mount.NodeId) : Option Record :=
  (s.instances[v]?).bind (·.graph.record? n)

theorem record?_of_instance (hi : s.instances[v]? = some i) (n : Mount.NodeId) :
    s.record? v n = i.graph.record? n := by
  rw [record?, hi, Option.bind_some]

theorem record?_congr (h : s'.instances = s.instances) (v : VfsId) (n : Mount.NodeId) :
    s'.record? v n = s.record? v n := by
  rw [record?, record?, h]

/-- Another state of one file system. -/
theorem record?_setInstance (hi : s.instances[v]? = some i) (j : Instance) (w : VfsId)
    (m : Mount.NodeId) :
    ({ s with instances := s.instances.setIfInBounds v j } : Store).record? w m =
      if w = v then j.graph.record? m else s.record? w m := by
  obtain ⟨hlt, -⟩ := Array.getElem?_eq_some_iff.mp hi
  rw [record?, Array.getElem?_setIfInBounds]
  by_cases hw : v = w
  · subst hw
    rw [if_pos rfl, if_pos hlt, if_pos rfl, Option.bind_some]
  · rw [if_neg hw, if_neg (Ne.symm hw), record?]

/-- One more file system, in which nothing is mounted. -/
theorem record?_push {j : Instance} (hj : ∀ n, j.graph.record? n = none)
    {next : Nat} (w : VfsId) (m : Mount.NodeId) :
    ({ s with instances := s.instances.push j, nextRecord := next } : Store).record? w m =
      s.record? w m := by
  rw [record?, record?, Array.getElem?_push]
  split
  · rename_i hw
    rw [hw, Array.getElem?_size, Option.bind_some, hj, Option.bind_none]
  · rfl

/-- Neither tables nor open directories have changed, and no file system has gone. -/
structure KeepsFiles (s s' : Store) : Prop where
  tables : s'.tables = s.tables
  openDirectories : s'.openDirectories = s.openDirectories
  nextRecord : s.nextRecord ≤ s'.nextRecord
  instances : s.instances.size ≤ s'.instances.size

theorem KeepsFiles.refl (s : Store) : s.KeepsFiles s :=
  ⟨rfl, rfl, Nat.le_refl _, Nat.le_refl _⟩

/-- Another state of one file system. -/
theorem keepsFiles_setInstance (s : Store) (v : VfsId) (j : Instance) :
    s.KeepsFiles { s with instances := s.instances.setIfInBounds v j } :=
  ⟨rfl, rfl, Nat.le_refl _, Nat.le_of_eq Array.size_setIfInBounds.symm⟩

theorem keepsFiles_withGraph (s : Store) (v : VfsId) (i : Instance) (g : Mount.Graph Record) :
    s.KeepsFiles (s.withGraph v i g) := s.keepsFiles_setInstance v _

/-- Every node owns what it did. -/
def KeepsRecords (s s' : Store) : Prop := ∀ w m, s'.record? w m = s.record? w m

/-- Node `n` of file system `v`, which owned nothing, owns the record. -/
structure Gives (s : Store) (v : VfsId) (n : Mount.NodeId) (r : Record) (s' : Store) : Prop where
  vacant : s.record? v n = none
  records : ∀ w m, s'.record? w m = if w = v ∧ m = n then some r else s.record? w m

/-- Node `n` of file system `v` owns the record no more. -/
structure Takes (s : Store) (v : VfsId) (n : Mount.NodeId) (r : Record) (s' : Store) : Prop where
  owned : s.record? v n = some r
  records : ∀ w m, s'.record? w m = if w = v ∧ m = n then none else s.record? w m

theorem keepsRecords_setInstance (hi : s.instances[v]? = some i) {j : Instance}
    (h : ∀ n, j.graph.record? n = i.graph.record? n) :
    s.KeepsRecords { s with instances := s.instances.setIfInBounds v j } := by
  intro w m
  rw [record?_setInstance hi]
  split
  · rename_i hw
    rw [hw, h, record?_of_instance hi]
  · rfl

/-- Another record at one node, and at no other. -/
theorem record?_withRecord (hi : s.instances[v]? = some i) {g : Mount.Graph Record}
    {record : Option Record} (h : ∀ j, g.record? j = if j = n then record else i.graph.record? j)
    (w : VfsId) (m : Mount.NodeId) : (s.withGraph v i g).record? w m =
      if w = v ∧ m = n then record else s.record? w m := by
  rw [withGraph, record?_setInstance hi, h]
  by_cases hw : w = v
  · subst hw
    by_cases hm : m = n
    · rw [if_pos rfl, if_pos hm, if_pos ⟨rfl, hm⟩]
    · rw [if_pos rfl, if_neg hm, if_neg fun e => hm e.2, record?_of_instance hi]
  · rw [if_neg hw, if_neg fun e => hw e.1]

theorem gives_withGraph (hi : s.instances[v]? = some i) {g : Mount.Graph Record}
    (h : i.graph.Gives n r g) : s.Gives v n r (s.withGraph v i g) :=
  ⟨(record?_of_instance hi n).trans h.vacant, record?_withRecord hi h.records⟩

theorem takes_withGraph (hi : s.instances[v]? = some i) {g : Mount.Graph Record}
    (h : i.graph.Takes n r g) : s.Takes v n r (s.withGraph v i g) :=
  ⟨(record?_of_instance hi n).trans h.owned, record?_withRecord hi h.records⟩

end Store

/-- The filesystem that is asked to make a driver. -/
def Frame.maker? : Frame → Option FileSystem
  | .probing _ _ _ fs _ | .mounting _ _ _ fs => some fs
  | _ => none

namespace Job

/-- The record of a driver that a filesystem has made. -/
def built? (s : Store) : Job → Option Record
  | .resume frame (.mounted driver) => frame.maker?.map (⟨s.nextRecord, driver, some ·⟩)
  | _ => none

theorem built?_eq_none {s : Store} {frame : Frame} {reply : Reply} (h : frame.maker? = none) :
    (Job.resume frame reply).built? s = none := by
  cases reply with
  | mounted driver =>
      rw [built?, h]
      rfl
  | _ => rfl

/-- The record of a driver that is to be registered. -/
def made? (s : Store) : Job → Option Record
  | .begin (.register _ _ driver fs) => some ⟨s.nextRecord, driver, fs⟩
  | job => job.built? s

end Job

/-- **What comes of a job on mount tables.** -/
inductive MountEffect (s : Store) : Job → Progress → Store → Prop
  /-- The call returns, and every node owns what it did. -/
  | settles {job : Job} {s' : Store} (result : Except Error Answer) (hjob : job.made? s = none)
      (h : s.KeepsFiles s') (hr : s.KeepsRecords s') : MountEffect s job (.finished result) s'
  /-- A driver cannot be registered, and its record is no node's. -/
  | refuses {call : Call} {r : Record} {s' : Store} (e : Error)
      (hjob : (Job.begin call).made? s = some r) (h : s.KeepsFiles s')
      (hnext : s.nextRecord < s'.nextRecord) (hr : s.KeepsRecords s') :
      MountEffect s (.begin call) (.failed e) s'
  /-- A driver is registered under a new record. -/
  | registers {job : Job} {v : VfsId} {n : Mount.NodeId} {r : Record} {s' : Store}
      (result : Except Error Answer) (hjob : job.made? s = some r) (h : s.KeepsFiles s')
      (hnext : s.nextRecord < s'.nextRecord) (hr : s.Gives v n r s') :
      MountEffect s job (.finished result) s'
  /-- A driver is unregistered, or unmounted and no filesystem wants to know. -/
  | removes {call : Call} {v : VfsId} {n : Mount.NodeId} {r : Record} {s' : Store}
      (result : Except Error Answer) (hjob : (Job.begin call).made? s = none)
      (h : s.KeepsFiles s') (hr : s.Takes v n r s') :
      MountEffect s (.begin call) (.finished result) s'
  /-- A filesystem is asked to make a driver. -/
  | asks {job : Job} {fs : FileSystem} {path device : Path} {frame : Frame}
      {cpu : Sync.Cpu LockId} (hjob : job.made? s = none) (hframe : frame.maker? = some fs) :
      MountEffect s job (.waiting (.mount fs path device) frame cpu) s
  /-- A filesystem is asked to give up the driver that it has made, which cannot be registered. -/
  | undoes {job : Job} {r : Record} {fs : FileSystem} {cpu : Sync.Cpu LockId} {s' : Store}
      (device : Path) (e : Error) (hjob : job.built? s = some r) (hfs : r.fs = some fs)
      (h : s.KeepsFiles s') (hnext : s.nextRecord < s'.nextRecord) (hr : s.KeepsRecords s') :
      MountEffect s job (.waiting (.unmount fs r.driver) (.undoing device e) cpu) s'
  /-- A filesystem is asked to give up a driver, whose record is no node's any more. -/
  | unmounts {v : VfsId} {n : Mount.NodeId} {path : Path} {r : Record} {fs : FileSystem}
      {cpu : Sync.Cpu LockId} {s' : Store} (hfs : r.fs = some fs) (h : s.KeepsFiles s')
      (hr : s.Takes v n r s') : MountEffect s (.begin (.unmount v path))
        (.waiting (.unmount fs r.driver) (.unmounting v path r) cpu) s'
  /-- The filesystem has refused to give up its driver, whose record goes back to a node. -/
  | restores {v : VfsId} {n : Mount.NodeId} {path : Path} {r : Record} {s' : Store} (e : Error)
      (h : s.KeepsFiles s') (hr : s.Gives v n r s') :
      MountEffect s (.resume (.unmounting v path r) (.failed e)) (.failed e) s'

namespace Action

variable {s s' : Store} {v : VfsId} {fs : Option FileSystem} {driver : Driver} {record : Record}

/-! ### Records and nodes -/

/-- What comes of registering a driver. -/
inductive Registers (s : Store) (v : VfsId) (r : Record) : Except Error Registration → Store → Prop
  | refused {s' : Store} (e : Error) (h : s.KeepsFiles s')
      (hnext : s.nextRecord < s'.nextRecord) (hr : s.KeepsRecords s') :
      Registers s v r (.error e) s'
  | registered {n : Mount.NodeId} {s' : Store} (h : s.KeepsFiles s')
      (hnext : s.nextRecord < s'.nextRecord) (hr : s.Gives v n r s') :
      Registers s v r (.ok ⟨n, r⟩) s'

/-- What comes of detaching a driver. -/
inductive Detaches (s : Store) (v : VfsId) : Except Error Record → Store → Prop
  | refused {s' : Store} (e : Error) (h : s.KeepsFiles s') (hr : s.KeepsRecords s') :
      Detaches s v (.error e) s'
  | detached {n : Mount.NodeId} {r : Record} {s' : Store} (h : s.KeepsFiles s')
      (hr : s.Takes v n r s') : Detaches s v (.ok r) s'

/-- **Registering a driver.** -/
theorem ensures_register (k : s.Served) (v : VfsId) (path : Path) (driver : Driver)
    (fs : Option FileSystem) : (register v path driver fs).Ensures s
      (Registers s v ⟨s.nextRecord, driver, fs⟩) := by
  refine (ensures_registering v path driver fs).mono ?_
  rintro _ _ (⟨-, rfl, rfl⟩ | ⟨clean, i, g, changes, answer, -, hi, hmount, rfl, rfl⟩)
  · exact .refused _ ⟨rfl, rfl, Nat.le_succ _, Nat.le_refl _⟩ (Nat.lt_succ_self _) fun _ _ => rfl
  have hkeeps : s.KeepsFiles (s.withNewRecord.withGraph v i g) :=
    ⟨rfl, rfl, Nat.le_succ _, (Store.keepsFiles_withGraph s v i g).instances⟩
  rcases (k.graphs hi).regular.record?_mount hmount with ⟨e, rfl, hsame⟩ | ⟨n, rfl, hgives⟩
  · exact .refused e hkeeps (Nat.lt_succ_self _) (Store.keepsRecords_setInstance hi hsame)
  · have hr := Store.gives_withGraph hi hgives
    exact .registered hkeeps (Nat.lt_succ_self _) ⟨hr.vacant, hr.records⟩

/-- A driver is detached from a node, or nothing is. -/
theorem ensures_editDetaching (k : s.Served) (v : VfsId)
    {edit : Mount.Graph Record → Checked (Mount.Edit Record (Except Error Record))}
    (hedit : ∀ {g h changes answer}, g.Regular → edit g = .ok ⟨h, changes, answer⟩ →
      (∃ e, answer = .error e ∧ ∀ j, h.record? j = g.record? j) ∨
      ∃ n r, answer = .ok r ∧ g.Takes n r h) :
    (editGraph v edit).Ensures s (Detaches s v) := by
  refine (ensures_editGraph v edit).mono ?_
  rintro answer _ ⟨i, g, changes, hi, heq, rfl⟩
  have hkeeps := Store.keepsFiles_withGraph s v i g
  rcases hedit (k.graphs hi).regular heq with ⟨e, rfl, hsame⟩ | ⟨n, r, rfl, htakes⟩
  · exact .refused e hkeeps (Store.keepsRecords_setInstance hi hsame)
  · exact .detached hkeeps (Store.takes_withGraph hi htakes)

/-- **Taking a registration back.** -/
theorem ensures_unregister (k : s.Served) (v : VfsId) (registration : Registration) :
    (unregister v registration).Ensures s fun result s' =>
      ∃ result', result = result'.map (fun _ => ()) ∧ Detaches s v result' s' := by
  refine (ensures_editDetaching k v fun r h =>
    (r.record?_detach h).imp_right fun h => ⟨_, _, h⟩).bind ?_
  rintro (e | record) s' h
  · exact ensures_pure ⟨.error e, rfl, h⟩
  · exact (ensures_note _).bind_same fun _ => ensures_pure ⟨.ok record, rfl, h⟩

/-- **Detaching the driver at a path.** -/
theorem ensures_detach (k : s.Served) (v : VfsId) (path : Path) :
    (detach v path).Ensures s (Detaches s v) := by
  rw [detach]
  cases Path.absolute? path with
  | none => exact ensures_pure (.refused _ (.refl s) fun _ _ => rfl)
  | some clean =>
      refine (ensures_editDetaching k v fun r h => r.record?_unmount h).bind ?_
      rintro (e | record) s' h
      · exact ensures_pure h
      · exact (ensures_note _).bind_same fun _ => ensures_pure h

/-- **Attaching a record again.** -/
theorem ensures_reattach (k : s.Served) (v : VfsId) (path : Path) (record : Record) :
    (reattach v path record).Ensures s fun _ s' => s.KeepsFiles s' ∧
      (s.KeepsRecords s' ∨ ∃ n, s.Gives v n record s') := by
  rw [reattach]
  cases Path.absolute? path with
  | none => exact ensures_pure ⟨.refl s, .inl fun _ _ => rfl⟩
  | some clean =>
      refine (ensures_editGraph v _).bind ?_
      rintro answer _ ⟨i, g, changes, hi, hattach, rfl⟩
      have hkeeps := Store.keepsFiles_withGraph s v i g
      rcases (k.graphs hi).regular.record?_attach hattach with ⟨e, rfl, hsame⟩ | ⟨n, rfl, hgives⟩
      · exact ensures_pure ⟨hkeeps, .inl (Store.keepsRecords_setInstance hi hsame)⟩
      · exact ensures_pure ⟨hkeeps, .inr ⟨n, Store.gives_withGraph hi hgives⟩⟩

/-! ### Calls -/

theorem ensures_registerFilesystem (v : VfsId) (fs : FileSystem) :
    (registerFilesystem v fs).Ensures s fun _ s' => s.KeepsFiles s' ∧ s.KeepsRecords s' := by
  rw [registerFilesystem]
  refine Ensures.bind (P := fun _ s' => s.KeepsFiles s' ∧ s.KeepsRecords s')
    (ensures_locked _ ((Section.ensures_getVfs v).bind ?_)) ?_
  · rintro i s₁ ⟨hi, rfl⟩
    split
    · exact Section.ensures_pure ⟨.refl _, fun _ _ => rfl⟩
    · intro isNew s' h
      cases h
      exact ⟨s₁.keepsFiles_setInstance v _, Store.keepsRecords_setInstance hi fun _ => rfl⟩
  · rintro (_ | _) s' h
    · exact ensures_pure h
    · exact (ensures_note _).bind_same fun _ => ensures_pure h

/-- The next filesystem is asked to make a driver, if there is one. -/
theorem ensures_probe {job : Job} (hjob : job.made? s = none) (v : VfsId)
    (path device : Path) (known : List FileSystem) :
    (probe v path device known).Ensures s (MountEffect s job) := by
  cases known with
  | nil => exact ensures_pure (.settles _ hjob (.refl s) fun _ _ => rfl)
  | cons fs rest => exact ensures_ask fun _ => .asks hjob rfl

theorem ensures_mount (v : VfsId) (path device : Path) (fsType : Option String) :
    (mount v path device fsType).Ensures s
      (MountEffect s (.begin (.mount v path device fsType))) := by
  refine (ensures_filesystems v).bind_same fun known => ?_
  cases fsType with
  | none => exact ensures_probe rfl v path device known
  | some fsType =>
      dsimp only
      cases known.find? (·.fsType = fsType) with
      | none =>
          exact (ensures_note _).bind_same fun _ =>
            ensures_pure (.settles _ rfl (.refl s) fun _ _ => rfl)
      | some fs => exact ensures_ask fun _ => .asks rfl rfl

theorem ensures_unmount (k : s.Served) (v : VfsId) (path : Path) :
    (unmount v path).Ensures s (MountEffect s (.begin (.unmount v path))) := by
  refine (ensures_detach k v path).bind ?_
  rintro _ s' (⟨e, h, hr⟩ | @⟨n, record, _, h, hr⟩)
  · exact ensures_pure (.settles _ rfl h hr)
  · dsimp only
    cases hfs : record.fs with
    | some fs => exact ensures_ask fun _ => .unmounts hfs h hr
    | none => exact (ensures_note _).bind_same fun _ => ensures_pure (.removes _ rfl h hr)

/-- **A filesystem has made a driver**: it is registered, or the filesystem gives it up. -/
theorem ensures_mountMade (k : s.Served) {frame : Frame} {fs : FileSystem}
    (hframe : frame.maker? = some fs) (v : VfsId) (path device : Path) (driver : Driver) :
    (mountMade v path device fs driver).Ensures s
      (MountEffect s (.resume frame (.mounted driver))) := by
  have hjob : (Job.resume frame (.mounted driver)).built? s =
      some ⟨s.nextRecord, driver, some fs⟩ := by
    rw [Job.built?, hframe]
    rfl
  refine (ensures_register k v path driver (some fs)).bind ?_
  rintro _ s' (⟨e, h, hnext, hr⟩ | ⟨h, hnext, hr⟩)
  · exact ensures_ask fun _ => .undoes device e hjob rfl h hnext hr
  · exact (ensures_note _).bind_same fun _ => ensures_pure (.registers _ hjob h hnext hr)

/-- **A filesystem has given up a driver**, or has refused to. -/
theorem ensures_unmounted (k : s.Served) (v : VfsId) (path : Path) (record : Record)
    (failure : Option Error) : (unmounted v path record failure).Ensures s fun p s' =>
      (s.KeepsFiles s' ∧ s.KeepsRecords s' ∧ ∃ result, p = .finished result) ∨
      ∃ e n, failure = some e ∧ p = .failed e ∧ s.KeepsFiles s' ∧ s.Gives v n record s' := by
  cases failure with
  | none =>
      exact (ensures_note _).bind_same fun _ =>
        ensures_pure (.inl ⟨.refl s, fun _ _ => rfl, _, rfl⟩)
  | some e =>
      refine (ensures_reattach k v path record).bind ?_
      rintro result s' ⟨h, hr⟩
      have hend : Ensures (pure (Progress.failed e) : Action Progress) s' fun p s'' =>
          (s.KeepsFiles s'' ∧ s.KeepsRecords s'' ∧ ∃ result, p = .finished result) ∨
          ∃ e' n, some e = some e' ∧ p = .failed e' ∧ s.KeepsFiles s'' ∧
            s.Gives v n record s'' := by
        rcases hr with hr | ⟨n, hr⟩
        · exact ensures_pure (.inl ⟨h, hr, _, rfl⟩)
        · exact ensures_pure (.inr ⟨e, n, rfl, rfl, h, hr⟩)
      cases result with
      | ok _ => exact hend
      | error lost => exact (ensures_note _).bind_same fun _ => hend

theorem ensures_undone (device : Path) (error : Error) (failure : Option Error) :
    (undone device error failure).Ensures s fun p s' => p = .failed error ∧ s' = s := by
  cases failure with
  | none => exact ensures_pure ⟨rfl, rfl⟩
  | some e => exact (ensures_note _).bind_same fun _ => ensures_pure ⟨rfl, rfl⟩

/-! ### Every job -/

/-- A call on a mount table. -/
theorem ensures_performMount (k : s.Served) {call : Call}
    (hmounts : (Job.begin call).mounts = true) :
    (perform call).Ensures s (MountEffect s (.begin call)) := by
  cases call with
  | createVfs nodeLimit =>
      intro kernel p kernel' hk h
      cases h
      subst hk
      refine .settles _ rfl ⟨rfl, rfl, Nat.le_succ _, by simp⟩ fun w m => ?_
      exact Store.record?_push (fun n => Mount.Graph.record?_withLimit nodeLimit n) w m
  | register v path driver fs =>
      refine (ensures_register k v path driver fs).bind ?_
      rintro _ s' (⟨e, h, hnext, hr⟩ | ⟨h, hnext, hr⟩)
      · exact ensures_pure (.refuses e rfl h hnext hr)
      · exact ensures_pure (.registers _ rfl h hnext hr)
  | unregister v registration =>
      refine (ensures_unregister k v registration).bind ?_
      rintro _ s' ⟨_, rfl, ⟨e, h, hr⟩ | ⟨h, hr⟩⟩
      · exact ensures_pure (.settles _ rfl h hr)
      · exact ensures_pure (.removes _ rfl h hr)
  | registerFilesystem v fs =>
      exact (ensures_registerFilesystem v fs).bind fun _ _ h =>
        ensures_pure (.settles _ rfl h.1 h.2)
  | mount v path device fsType => exact ensures_mount v path device fsType
  | unmount v path => exact ensures_unmount k v path
  | _ => cases hmounts

/-- A call on a mount table whose question has failed. -/
theorem ensures_recoverMount (k : s.Served) {frame : Frame} (hmounts : frame.table?.isNone = true)
    (e : Error) : (recover e frame).Ensures s (MountEffect s (.resume frame (.failed e))) := by
  cases frame with
  | probing v path device fs rest =>
      exact (ensures_note _).bind_same fun _ =>
        ensures_probe rfl v path device rest
  | mounting v path device fs => exact ensures_pure (.settles _ rfl (.refl s) fun _ _ => rfl)
  | undoing device error =>
      refine (ensures_undone device error (some e)).mono ?_
      rintro _ s₁ ⟨rfl, rfl⟩
      exact .settles _ rfl (.refl s₁) fun _ _ => rfl
  | unmounting v path record =>
      refine (ensures_unmounted k v path record (some e)).mono ?_
      rintro p s' (⟨h, hr, result, rfl⟩ | ⟨e', n, he, rfl, h, hr⟩)
      · exact .settles _ rfl h hr
      · cases he
        exact .restores e h hr
  | _ => cases hmounts

/-- A call on a mount table whose question has been answered. -/
theorem ensures_proceedMount (k : s.Served) {frame : Frame} (hmounts : frame.table?.isNone = true)
    {reply : Reply} (hreply : ∀ e, reply ≠ .failed e)
    (ha : Machine.accepts s frame reply = true) :
    (proceed frame reply).Ensures s (MountEffect s (.resume frame reply)) := by
  cases frame with
  | probing v path device fs rest =>
      cases reply with
      | mounted driver => exact ensures_mountMade k rfl v path device driver
      | failed e => exact absurd rfl (hreply e)
      | _ => cases ha
  | mounting v path device fs =>
      cases reply with
      | mounted driver => exact ensures_mountMade k rfl v path device driver
      | failed e => exact absurd rfl (hreply e)
      | _ => cases ha
  | undoing device error =>
      refine (ensures_undone device error none).mono ?_
      rintro _ s₁ ⟨rfl, rfl⟩
      exact .settles _ (Job.built?_eq_none rfl) (.refl s₁) fun _ _ => rfl
  | unmounting v path record =>
      refine (ensures_unmounted k v path record none).mono ?_
      rintro p s' (⟨h, hr, result, rfl⟩ | ⟨e, n, he, -⟩)
      · exact .settles _ (Job.built?_eq_none rfl) h hr
      · cases he
  | _ => cases hmounts

end Action

/-- **Every job on mount tables** has one of these effects. -/
theorem Job.ensures_mountEffect {s : Store} (k : s.Served) {job : Job} (hmounts : job.mounts = true)
    (ha : ∀ frame reply, job = .resume frame reply → Machine.accepts s frame reply = true) :
    job.action.Ensures s (MountEffect s job) := by
  cases job with
  | begin call => exact Action.ensures_performMount k hmounts
  | reject e => cases hmounts
  | resume frame reply =>
      by_cases hreply : ∃ e, reply = .failed e
      · obtain ⟨e, rfl⟩ := hreply
        exact Action.ensures_recoverMount k hmounts e
      · have hproceed := Action.ensures_proceedMount k hmounts (fun e he => hreply ⟨e, he⟩)
          (ha frame reply rfl)
        cases reply with
        | failed e => exact absurd ⟨e, rfl⟩ hreply
        | _ => exact hproceed

namespace MountEffect

variable {s s' : Store} {job : Job} {p : Progress}

theorem keepsFiles (h : MountEffect s job p s') : s.KeepsFiles s' := by
  cases h with
  | settles result hjob h => exact h
  | refuses e hjob h => exact h
  | registers result hjob h => exact h
  | removes result hjob h => exact h
  | asks => exact .refl s
  | undoes device e hjob hfs h => exact h
  | unmounts hfs h => exact h
  | restores e h => exact h

/-- The number of a record that is made is used up. -/
theorem nextRecord_lt (h : MountEffect s job p s') {r : Record} (hmade : job.made? s = some r) :
    s.nextRecord < s'.nextRecord := by
  cases h with
  | settles result hjob => cases hjob.symm.trans hmade
  | refuses e hjob h hnext => exact hnext
  | registers result hjob h hnext => exact hnext
  | removes result hjob => cases hjob.symm.trans hmade
  | asks hjob => cases hjob.symm.trans hmade
  | undoes device e hjob hfs h hnext => exact hnext
  | _ => cases hmade

/-- Descriptor numbers stay small. -/
theorem bounded (h : MountEffect s job p s') (hb : s.Bounded) : s'.Bounded :=
  hb.congr h.keepsFiles.tables

/-- A call on a mount table that is suspended works on no table of descriptors. -/
theorem table?_eq_none {question : HookCall} {frame : Frame} {cpu : Sync.Cpu LockId}
    (h : MountEffect s job (.waiting question frame cpu) s') : frame.table? = none := by
  cases h with
  | asks hjob hframe => cases frame <;> first | rfl | cases hframe
  | _ => rfl

end MountEffect

/-- **A job on mount tables** that is set going has one of these effects. -/
theorem Machine.Sound.ensures_mountEffect {H : History} {m : Machine} (h : m.Sound H) {e : Event}
    {job : Job} {origin : Origin} (hjob : m.job? e = some (job, origin))
    (hmounts : job.mounts = true) :
    job.action.Ensures m.kernel.store (MountEffect m.kernel.store job) :=
  Job.ensures_mountEffect h.served hmounts fun _ _ he => (h.resumes (he ▸ hjob)).2

/-- **A step on mount tables** of any run has one of these effects. -/
theorem Happens.mountEffect {past : List Moment} {now : Moment} (h : Happens past now) {job : Job}
    {origin : Origin} {p : Progress}
    (c : Machine.Carried now.before now.event now.outcome now.after job origin p)
    (hmounts : job.mounts = true) :
    MountEffect now.before.kernel.store job p now.after.kernel.store := by
  obtain ⟨H, r⟩ := h.before
  exact c.ensures (r.sound.ensures_mountEffect c.sets hmounts)

/-- **Every job** that is set going is on files and tables, or on mount tables. -/
theorem Machine.Sound.ensures_effect {H : History} {m : Machine} (h : m.Sound H) {e : Event}
    {job : Job} {origin : Origin} (hjob : m.job? e = some (job, origin)) :
    job.action.Ensures m.kernel.store fun p s' =>
      FileEffect m.kernel.store job p s' ∨ MountEffect m.kernel.store job p s' := by
  cases hmounts : job.mounts with
  | false => exact (h.ensures_fileEffect hjob hmounts).mono fun _ _ => .inl
  | true => exact (h.ensures_mountEffect hjob hmounts).mono fun _ _ => .inr

/-- **Every step** is on files and tables, or on mount tables. -/
theorem Happens.effect {past : List Moment} {now : Moment} (h : Happens past now) {job : Job}
    {origin : Origin} {p : Progress}
    (c : Machine.Carried now.before now.event now.outcome now.after job origin p) :
    FileEffect now.before.kernel.store job p now.after.kernel.store ∨
      MountEffect now.before.kernel.store job p now.after.kernel.store := by
  obtain ⟨H, r⟩ := h.before
  exact c.ensures (r.sound.ensures_effect c.sets)

end VirtualFs

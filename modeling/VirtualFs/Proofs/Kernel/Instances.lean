import VirtualFs.Proofs.Kernel.MountEffects
import VirtualFs.Proofs.Since

/-!
# What of a file system a job may change

A job on mount tables works on the mount graph of one file system (`Job.mountTable?`) or on the
filesystem types of one (`Job.catalog?`), and on neither if it only asks a filesystem.  All other
file systems stay as they are, node numbers and free numbers included, and none ever goes.

* `Job.keepsInstances`, `Happens.keepsInstances`: every job, and so every step.
* `Untouched.step`: a graph that no step has worked on since some moment is the one of that moment.
* `Catalog.step`: the filesystem types are those that were registered, in this order.
-/

namespace VirtualFs

namespace Store

variable {s s' : Store} {v w : VfsId} {table catalog : Option VfsId} {i j : Instance}

/-- All file systems stay as they are, but for the graph of one and the filesystem types of one at
most.  A new one has no filesystem types, and serves its own nodes. -/
structure KeepsInstances (table catalog : Option VfsId) (s s' : Store) : Prop where
  kept : ∀ {v : VfsId} {i : Instance}, s.instances[v]? = some i →
    ∃ j : Instance, s'.instances[v]? = some j ∧ j.directories = i.directories ∧
      (table ≠ some v → j.graph = i.graph) ∧ (catalog ≠ some v → j.filesystems = i.filesystems)
  fresh : ∀ {v : VfsId} {j : Instance}, s.instances[v]? = none → s'.instances[v]? = some j →
    j.directories.driver = .directory v ∧ j.filesystems = []

theorem keepsInstances_of_eq (table catalog : Option VfsId) (h : s'.instances = s.instances) :
    KeepsInstances table catalog s s' where
  kept hi := ⟨_, h ▸ hi, rfl, fun _ => rfl, fun _ => rfl⟩
  fresh hnone hj := by rw [h, hnone] at hj; cases hj

theorem KeepsInstances.refl (table catalog : Option VfsId) (s : Store) :
    KeepsInstances table catalog s s :=
  keepsInstances_of_eq table catalog rfl

/-- Another state of one file system. -/
theorem keepsInstances_set (hw : s.instances[w]? = some i) (hdirectories : j.directories =
    i.directories) (htable : table ≠ some w → j.graph = i.graph)
    (hcatalog : catalog ≠ some w → j.filesystems = i.filesystems) :
    KeepsInstances table catalog s { s with instances := s.instances.setIfInBounds w j } := by
  have hset : ∀ u, (s.instances.setIfInBounds w j)[u]? =
      if u = w then some j else s.instances[u]? := by
    intro u
    rw [Array.getElem?_setIfInBounds]
    by_cases hu : u = w
    · rw [if_pos hu.symm, if_pos hu, if_pos (Array.getElem?_eq_some_iff.mp hw).1]
    · rw [if_neg (Ne.symm hu), if_neg hu]
  refine ⟨fun {u k} hk => ?_, fun {u k} hnone hk => ?_⟩
  · rw [hset]
    split
    · rename_i hu
      rw [hu] at hk ⊢
      cases hw.symm.trans hk
      exact ⟨j, rfl, hdirectories, htable, hcatalog⟩
    · exact ⟨k, hk, rfl, fun _ => rfl, fun _ => rfl⟩
  · rw [hset] at hk
    split at hk
    · rename_i hu
      cases (hu ▸ hw).symm.trans hnone
    · cases hk.symm.trans hnone

/-- Another graph. -/
theorem keepsInstances_withGraph (hw : s.instances[w]? = some i) (g : Mount.Graph Record) :
    KeepsInstances (some w) none s (s.withGraph w i g) :=
  keepsInstances_set (j := { i with graph := g }) hw rfl (fun h => absurd rfl h) fun _ => rfl

/-- One more file system. -/
theorem keepsInstances_push (s : Store) (hdirectories : j.directories.driver =
    .directory s.instances.size) (hempty : j.filesystems = []) (next : Nat) :
    KeepsInstances table catalog s
      { s with instances := s.instances.push j, nextRecord := next } := by
  refine ⟨fun {v i} hi => ?_, fun {v k} hnone hk => ?_⟩
  · obtain ⟨hlt, -⟩ := Array.getElem?_eq_some_iff.mp hi
    refine ⟨i, ?_, rfl, fun _ => rfl, fun _ => rfl⟩
    rwa [Array.getElem?_push, if_neg (Nat.ne_of_lt hlt)]
  · rw [Array.getElem?_push] at hk
    split at hk
    · rename_i hv
      cases hk
      exact ⟨hv ▸ hdirectories, hempty⟩
    · cases hk.symm.trans hnone

end Store

/-! ### Actions -/

namespace Action

variable {s : Store}

theorem keepsInstances_editGraph {α : Type} (v : VfsId)
    (edit : Mount.Graph Record → Checked (Mount.Edit Record α)) :
    (editGraph v edit).Ensures s fun _ s' => s.KeepsInstances (some v) none s' := by
  refine (ensures_editGraph v edit).mono ?_
  rintro answer _ ⟨i, g, changes, hi, -, rfl⟩
  exact Store.keepsInstances_withGraph hi g

theorem keepsInstances_register (v : VfsId) (path : Path) (driver : Driver)
    (fs : Option FileSystem) :
    (register v path driver fs).Ensures s fun _ s' => s.KeepsInstances (some v) none s' := by
  refine (ensures_registering v path driver fs).mono ?_
  rintro _ _ (⟨-, rfl, rfl⟩ | ⟨clean, i, g, changes, answer, -, hi, -, rfl, rfl⟩)
  · exact Store.keepsInstances_of_eq _ _ rfl
  · have hkeeps := Store.keepsInstances_withGraph hi g
    exact ⟨hkeeps.kept, hkeeps.fresh⟩

theorem keepsInstances_unregister (v : VfsId) (registration : Registration) :
    (unregister v registration).Ensures s fun _ s' => s.KeepsInstances (some v) none s' := by
  refine (keepsInstances_editGraph v _).bind ?_
  rintro (e | record) s' h
  · exact ensures_pure h
  · exact (ensures_note _).bind_same fun _ => ensures_pure h

theorem keepsInstances_detach (v : VfsId) (path : Path) :
    (detach v path).Ensures s fun _ s' => s.KeepsInstances (some v) none s' := by
  rw [detach]
  cases Path.absolute? path with
  | none => exact ensures_pure (.refl _ _ s)
  | some clean =>
    refine (keepsInstances_editGraph v _).bind ?_
    rintro (e | record) s' h
    · exact ensures_pure h
    · exact (ensures_note _).bind_same fun _ => ensures_pure h

theorem keepsInstances_reattach (v : VfsId) (path : Path) (record : Record) :
    (reattach v path record).Ensures s fun _ s' => s.KeepsInstances (some v) none s' := by
  rw [reattach]
  cases Path.absolute? path with
  | none => exact ensures_pure (.refl _ _ s)
  | some clean =>
    refine (keepsInstances_editGraph v _).bind ?_
    rintro (e | _) s' h <;> exact ensures_pure h

/-- **Registering a filesystem** adds it behind the others, unless its type is taken. -/
theorem ensures_enrolling (v : VfsId) (fs : FileSystem) :
    (registerFilesystem v fs).Ensures s fun result s' => ∃ i, s.instances[v]? = some i ∧
      ((result = .error .alreadyExists ∧ s' = s) ∨
        result = .ok () ∧ (∀ known ∈ i.filesystems, known.fsType ≠ fs.fsType) ∧
          s' = s.withFilesystem v i fs) := by
  rw [registerFilesystem]
  refine Ensures.bind (P := fun isNew s' => ∃ i, s.instances[v]? = some i ∧
      ((isNew = false ∧ s' = s) ∨
        isNew = true ∧ (∀ known ∈ i.filesystems, known.fsType ≠ fs.fsType) ∧
          s' = s.withFilesystem v i fs))
    (ensures_locked _ ((Section.ensures_getVfs v).bind ?_)) ?_
  · rintro i s₁ ⟨hi, rfl⟩
    split
    · exact Section.ensures_pure ⟨i, hi, .inl ⟨rfl, rfl⟩⟩
    · rename_i hnew
      intro isNew s' h
      cases h
      refine ⟨i, hi, .inr ⟨rfl, fun known hmem he => hnew ?_, rfl⟩⟩
      exact List.any_eq_true.mpr ⟨known, hmem, decide_eq_true he⟩
  · rintro _ s' ⟨i, hi, ⟨rfl, rfl⟩ | ⟨rfl, hnew, rfl⟩⟩
    · exact ensures_pure ⟨i, hi, .inl ⟨rfl, rfl⟩⟩
    · exact (ensures_note _).bind_same fun _ => ensures_pure ⟨i, hi, .inr ⟨rfl, hnew, rfl⟩⟩

theorem keepsInstances_mountMade (v : VfsId) (path device : Path) (fs : FileSystem)
    (driver : Driver) :
    (mountMade v path device fs driver).Ensures s fun _ s' =>
      s.KeepsInstances (some v) none s' := by
  refine (keepsInstances_register v path driver (some fs)).bind ?_
  rintro (e | registration) s' h
  · exact ensures_ask fun _ => h
  · exact (ensures_note _).bind_same fun _ => ensures_pure h

theorem keepsInstances_unmount (v : VfsId) (path : Path) :
    (unmount v path).Ensures s fun _ s' => s.KeepsInstances (some v) none s' := by
  refine (keepsInstances_detach v path).bind ?_
  rintro (e | record) s' h
  · exact ensures_pure h
  · dsimp only
    cases record.fs with
    | some fs => exact ensures_ask fun _ => h
    | none => exact (ensures_note _).bind_same fun _ => ensures_pure h

theorem keepsInstances_unmounted (v : VfsId) (path : Path) (record : Record)
    (failure : Option Error) :
    (unmounted v path record failure).Ensures s fun _ s' =>
      s.KeepsInstances (some v) none s' := by
  cases failure with
  | none => exact (ensures_note _).bind_same fun _ => ensures_pure (.refl _ _ s)
  | some e =>
    refine (keepsInstances_reattach v path record).bind ?_
    rintro (lost | _) s' h
    · exact (ensures_note _).bind_same fun _ => ensures_pure h
    · exact ensures_pure h

theorem ensures_knownFilesystems (v : VfsId) :
    (filesystems v).Ensures s fun known s' =>
      (∃ i, s.instances[v]? = some i ∧ known = i.filesystems) ∧ s' = s := by
  refine ensures_locked _ ((Section.ensures_getVfs v).bind ?_)
  rintro i _ ⟨hi, rfl⟩
  exact Section.ensures_pure ⟨⟨i, hi, rfl⟩, rfl⟩

/-- The next of these filesystems is asked to take a device, if there is one. -/
inductive Probes (v : VfsId) (path device : Path) : List FileSystem → Progress → Prop
  | fails : Probes v path device [] (.failed .notSupported)
  | asks {fs : FileSystem} {rest : List FileSystem} {cpu : Sync.Cpu LockId} :
      Probes v path device (fs :: rest)
        (.waiting (.mount fs path device) (.probing v path device fs rest) cpu)

theorem ensures_probing (v : VfsId) (path device : Path) (known : List FileSystem) :
    (probe v path device known).Ensures s fun p s' => s' = s ∧ Probes v path device known p := by
  cases known with
  | nil => exact ensures_pure ⟨rfl, .fails⟩
  | cons fs rest => exact ensures_ask fun _ => ⟨rfl, .asks⟩

/-- How a call begins that mounts a device, if these filesystems are known. -/
inductive MountBegins (v : VfsId) (path device : Path) (known : List FileSystem) :
    Option String → Progress → Prop
  | probes {p : Progress} (h : Probes v path device known p) :
      MountBegins v path device known none p
  | missing {fsType : String} (hfind : known.find? (·.fsType = fsType) = none) :
      MountBegins v path device known (some fsType) (.failed .notFound)
  | asks {fsType : String} {fs : FileSystem} {cpu : Sync.Cpu LockId}
      (hfind : known.find? (·.fsType = fsType) = some fs) :
      MountBegins v path device known (some fsType)
        (.waiting (.mount fs path device) (.mounting v path device fs) cpu)

/-- **Beginning to mount** changes nothing: at most a filesystem is asked. -/
theorem ensures_mountBegins (v : VfsId) (path device : Path) (fsType : Option String) :
    (mount v path device fsType).Ensures s fun p s' => s' = s ∧ ∃ i, s.instances[v]? = some i ∧
      MountBegins v path device i.filesystems fsType p := by
  refine (ensures_knownFilesystems v).bind ?_
  rintro _ _ ⟨⟨i, hi, rfl⟩, rfl⟩
  cases fsType with
  | none =>
    exact (ensures_probing v path device _).mono fun _ _ h => ⟨h.1, i, hi, .probes h.2⟩
  | some fsType =>
    dsimp only
    cases hfind : i.filesystems.find? (·.fsType = fsType) with
    | none =>
      exact (ensures_note _).bind_same fun _ => ensures_pure ⟨rfl, i, hi, .missing hfind⟩
    | some fs => exact ensures_ask fun _ => ⟨rfl, i, hi, .asks hfind⟩

end Action

/-! ### Every job -/

namespace Job

/-- The file system whose mount graph the job may change. -/
def mountTable? : Job → Option VfsId
  | .begin (.register v _ _ _) | .begin (.unregister v _) | .begin (.unmount v _)
  | .resume (.probing v _ _ _ _) _ | .resume (.mounting v _ _ _) _
  | .resume (.unmounting v _ _) _ => some v
  | _ => none

/-- The file system whose filesystem types the job may change. -/
def catalog? : Job → Option VfsId
  | .begin (.registerFilesystem v _) => some v
  | _ => none

end Job

namespace Action

variable {s : Store}

theorem keepsInstances_perform {call : Call} (hmounts : (Job.begin call).mounts = true) :
    (perform call).Ensures s fun _ s' =>
      s.KeepsInstances (Job.begin call).mountTable? (Job.begin call).catalog? s' := by
  cases call with
  | createVfs nodeLimit =>
    intro kernel p kernel' hk h
    cases h
    subst hk
    exact kernel.store.keepsInstances_push rfl rfl _
  | register v path driver fs =>
    exact (keepsInstances_register v path driver fs).bind fun _ _ h => ensures_pure h
  | unregister v registration =>
    exact (keepsInstances_unregister v registration).bind fun _ _ h => ensures_pure h
  | registerFilesystem v fs =>
    refine (ensures_enrolling v fs).bind ?_
    rintro result s' ⟨i, hi, ⟨rfl, rfl⟩ | ⟨rfl, -, rfl⟩⟩
    · exact ensures_pure (.refl _ _ _)
    · exact ensures_pure (Store.keepsInstances_set
        (j := { i with filesystems := i.filesystems ++ [fs] }) hi rfl (fun _ => rfl)
        (fun h => absurd rfl h))
  | mount v path device fsType =>
    refine (ensures_mountBegins v path device fsType).mono ?_
    rintro _ _ ⟨rfl, -⟩
    exact .refl _ _ _
  | unmount v path => exact keepsInstances_unmount v path
  | _ => cases hmounts

theorem keepsInstances_resume {frame : Frame} (hmounts : frame.table?.isNone = true)
    (reply : Reply) : (resume frame reply).Ensures s fun _ s' =>
      s.KeepsInstances (Job.resume frame reply).mountTable? none s' := by
  cases frame with
  | probing v path device fs rest =>
    cases reply with
    | mounted driver => exact keepsInstances_mountMade v path device fs driver
    | failed e =>
      refine (ensures_note _).bind_same fun _ => (ensures_probing v path device rest).mono ?_
      rintro _ _ ⟨rfl, -⟩
      exact .refl _ _ _
    | _ => exact ensures_throw _
  | mounting v path device fs =>
    cases reply with
    | mounted driver => exact keepsInstances_mountMade v path device fs driver
    | failed e => exact ensures_pure (.refl _ _ s)
    | _ => exact ensures_throw _
  | undoing device error =>
    have hundone : ∀ failure, (undone device error failure).Ensures s fun _ s' =>
        s.KeepsInstances none none s' := fun failure => by
      refine (ensures_undone device error failure).mono ?_
      rintro _ _ ⟨-, rfl⟩
      exact .refl _ _ _
    cases reply with
    | failed e => exact hundone (some e)
    | _ => exact hundone none
  | unmounting v path record =>
    cases reply with
    | failed e => exact keepsInstances_unmounted v path record (some e)
    | _ => exact keepsInstances_unmounted v path record none
  | _ => cases hmounts

end Action

/-- **A job on mount tables** keeps the file systems that it does not work on. -/
theorem Job.keepsInstances {s : Store} {job : Job} (hmounts : job.mounts = true) :
    job.action.Ensures s fun _ s' => s.KeepsInstances job.mountTable? job.catalog? s' := by
  cases job with
  | begin call => exact Action.keepsInstances_perform hmounts
  | reject e => cases hmounts
  | resume frame reply => exact Action.keepsInstances_resume hmounts reply

/-! ### Runs -/

namespace Moment

/-- The file system whose mount graph the step may change. -/
def mountTable? (n : Moment) : Option VfsId :=
  (n.before.job? n.event).bind (·.1.mountTable?)

/-- The filesystem that the step has registered with file system `v`. -/
def enrolls? (v : VfsId) (n : Moment) : Option FileSystem :=
  match n.event, n.outcome with
  | .call (.registerFilesystem w fs), .returned (.ok .done) => if w = v then some fs else none
  | _, _ => none

end Moment

variable {past : List Moment} {now : Moment} {m : Machine}

namespace Happens

/-- **A step** keeps the file systems that its job does not work on. -/
theorem keepsInstances (h : Happens past now) {job : Job} {origin : Origin} {p : Progress}
    (c : Machine.Carried now.before now.event now.outcome now.after job origin p) :
    now.before.kernel.store.KeepsInstances job.mountTable? job.catalog?
      now.after.kernel.store := by
  cases hmounts : job.mounts with
  | false =>
    obtain ⟨H, r⟩ := h.before
    have heffect := c.ensures (r.sound.ensures_fileEffect c.sets hmounts)
    exact Store.keepsInstances_of_eq _ _ heffect.instances_eq.1
  | true => exact c.ensures (Job.keepsInstances hmounts)

/-- The mount graphs that a step does not work on stay as they are. -/
theorem graph_eq (h : Happens past now) {v : VfsId} {i : Instance}
    (hv : now.mountTable? ≠ some v) (hi : now.before.kernel.store.instances[v]? = some i) :
    ∃ j, now.after.kernel.store.instances[v]? = some j ∧ j.graph = i.graph := by
  rcases Machine.step_cases h.step with ⟨-, -, hafter⟩ | ⟨job, origin, p, c⟩
  · exact ⟨i, hafter ▸ hi, rfl⟩
  rw [Moment.mountTable?, c.sets, Option.bind_some] at hv
  obtain ⟨j, hj, -, hgraph, -⟩ := (h.keepsInstances c).kept hi
  exact ⟨j, hj, hgraph hv⟩

end Happens

/-! ### Filesystem types -/

/-- What a process asks for is no call on mount tables. -/
theorem Machine.event_of_mounts {m : Machine} {e : Event} {call : Call} {origin : Origin}
    (hjob : m.job? e = some (.begin call, origin)) (hmounts : (Job.begin call).mounts = true) :
    e = .call call := by
  cases e with
  | call begun =>
    simp only [job?] at hjob
    split at hjob <;> cases hjob
    rfl
  | process current asked =>
    have hfiles : ∀ begun, Process.call (Process.currentTable current) asked = .ok begun →
        (Job.begin begun).mounts = false := by
      intro begun hbegun
      cases asked with
      | «open» path flags mode =>
        cases hbegun
        rfl
      | _ fd =>
        simp only [Process.call] at hbegun
        cases hfd : Process.descriptor fd <;> rw [hfd] at hbegun <;> cases hbegun
        rfl
    simp only [job?] at hjob
    split at hjob
    · cases hcall : Process.call (Process.currentTable current) asked with
      | ok begun =>
        rw [hcall] at hjob
        cases hjob
        cases (hfiles _ hcall).symm.trans hmounts
      | error e =>
        rw [hcall] at hjob
        cases hjob
    · cases hjob
  | reply reply =>
    obtain ⟨kernel, stack⟩ := m
    cases stack with
    | nil => cases hjob
    | cons pending rest =>
      simp only [job?] at hjob
      split at hjob <;> cases hjob

namespace Moment

/-- Only a call to register a filesystem registers one. -/
theorem enrolls?_eq_some {n : Moment} {v : VfsId} {fs : FileSystem} :
    n.enrolls? v = some fs ↔
      n.event = .call (.registerFilesystem v fs) ∧ n.outcome = .returned (.ok .done) := by
  unfold enrolls?
  split
  · rename_i w fs' he ho
    rw [he, ho]
    by_cases hw : w = v
    · simp [hw]
    · simp [hw]
  · rename_i hnot
    exact iff_of_false nofun fun h => hnot v fs h.1 h.2

end Moment

namespace Happens

/-- **A step that may register a filesystem** has registered it behind the others, which are of
other types, or has changed nothing. -/
theorem enrolling (h : Happens past now) {w : VfsId} {fs : FileSystem} {origin : Origin}
    {p : Progress} (c : Machine.Carried now.before now.event now.outcome now.after
      (.begin (.registerFilesystem w fs)) origin p) :
    (now.enrolls? w = some fs ∧ ∃ i, now.before.kernel.store.instances[w]? = some i ∧
      (∀ known ∈ i.filesystems, known.fsType ≠ fs.fsType) ∧
      now.after.kernel.store = now.before.kernel.store.withFilesystem w i fs) ∨
    (∀ v, now.enrolls? v = none) ∧ now.after.kernel.store = now.before.kernel.store := by
  have he := Machine.event_of_mounts c.sets rfl
  have hv : now.before.kernel.store.hasVfs w = true := Machine.admits_of_job c.sets
  obtain ⟨p', c'⟩ := h.carries he hv
  obtain ⟨result, i, rfl, hi, hcases⟩ := c'.ensures (Q := fun p s' => ∃ result i,
      p = .finished (result.map fun _ => .done) ∧
        now.before.kernel.store.instances[w]? = some i ∧
        ((result = .error .alreadyExists ∧ s' = now.before.kernel.store) ∨
          result = .ok () ∧ (∀ known ∈ i.filesystems, known.fsType ≠ fs.fsType) ∧
            s' = now.before.kernel.store.withFilesystem w i fs))
    ((Action.ensures_enrolling w fs).bind fun result s' ⟨i, hi, hs⟩ =>
      Action.ensures_pure ⟨result, i, rfl, hi, hs⟩)
  have ho := c'.ends.of_finished.1
  rcases hcases with ⟨rfl, hs⟩ | ⟨rfl, hnew, hs⟩
  · refine .inr ⟨fun v => Option.eq_none_iff_forall_not_mem.mpr fun fs' hfs => ?_, hs⟩
    cases ho.symm.trans (Moment.enrolls?_eq_some.mp hfs).2
  · exact .inl ⟨Moment.enrolls?_eq_some.mpr ⟨he, ho⟩, i, hi, hnew, hs⟩

/-- What a step registers is for one file system, which exists. -/
theorem catalog_of_enrolls (h : Happens past now) {v : VfsId} {fs : FileSystem}
    (he : now.enrolls? v = some fs) : now.before.kernel.store.hasVfs v = true ∧
      ∃ p, Machine.Carried now.before now.event now.outcome now.after
        (.begin (.registerFilesystem v fs)) .direct p := by
  obtain ⟨hevent, ho⟩ := Moment.enrolls?_eq_some.mp he
  have hv := h.admits hevent ho
  exact ⟨hv, h.carries hevent hv⟩

end Happens

namespace Happens

/-- No file system goes, and each keeps the driver that serves its nodes. -/
theorem kept (h : Happens past now) {v : VfsId} {i : Instance}
    (hi : now.before.kernel.store.instances[v]? = some i) :
    ∃ j : Instance, now.after.kernel.store.instances[v]? = some j ∧
      j.directories = i.directories := by
  rcases Machine.step_cases h.step with ⟨-, -, hafter⟩ | ⟨job, origin, p, c⟩
  · exact ⟨i, hafter ▸ hi, rfl⟩
  obtain ⟨j, hj, hdirectories, -⟩ := (h.keepsInstances c).kept hi
  exact ⟨j, hj, hdirectories⟩

/-- **What a step adds** to the filesystem types of a file system, which may be a new one. -/
theorem enrolls (h : Happens past now) (v : VfsId) {j : Instance}
    (hj : now.after.kernel.store.instances[v]? = some j) :
    (∃ i, now.before.kernel.store.instances[v]? = some i ∧ j.directories = i.directories ∧
      j.filesystems = i.filesystems ++ (now.enrolls? v).toList ∧
      ∀ fs, now.enrolls? v = some fs → ∀ known ∈ i.filesystems, known.fsType ≠ fs.fsType) ∨
    (now.before.kernel.store.instances[v]? = none ∧ now.enrolls? v = none ∧
      j.directories.driver = .directory v ∧ j.filesystems = []) := by
  rcases Machine.step_cases h.step with ⟨-, hrefused, hafter⟩ | ⟨job, origin, p, c⟩
  · have hnone : now.enrolls? v = none := Option.eq_none_iff_forall_not_mem.mpr fun fs hfs => by
      cases hrefused.symm.trans (Moment.enrolls?_eq_some.mp hfs).2
    exact .inl ⟨j, hafter ▸ hj, rfl, by rw [hnone, Option.toList_none, List.append_nil],
      by rw [hnone]; nofun⟩
  have hkeeps := h.keepsInstances c
  by_cases hcatalog : job.catalog? = some v
  · -- the job is to register a filesystem with `v`, and so `v` exists
    obtain ⟨fs, rfl⟩ : ∃ fs, job = .begin (.registerFilesystem v fs) := by
      unfold Job.catalog? at hcatalog
      split at hcatalog <;> cases hcatalog
      exact ⟨_, rfl⟩
    rcases h.enrolling c with ⟨hfs, i, hi, hnew, hs⟩ | ⟨hnone, hs⟩
    · refine .inl ⟨i, hi, ?_⟩
      obtain ⟨hlt, -⟩ := Array.getElem?_eq_some_iff.mp hi
      rw [hs, Store.withFilesystem, Array.getElem?_setIfInBounds_self_of_lt hlt] at hj
      cases hj
      rw [hfs]
      exact ⟨rfl, rfl, fun fs' he => by cases he; exact hnew⟩
    · rw [hs] at hj
      exact .inl ⟨j, hj, rfl, by rw [hnone v, Option.toList_none, List.append_nil],
        by rw [hnone v]; nofun⟩
  · have hnone : now.enrolls? v = none := Option.eq_none_iff_forall_not_mem.mpr fun fs hfs => by
      obtain ⟨-, p', c'⟩ := h.catalog_of_enrolls hfs
      cases c.sets.symm.trans c'.sets
      exact hcatalog rfl
    rw [hnone, Option.toList_none]
    cases hi : now.before.kernel.store.instances[v]? with
    | some i =>
      obtain ⟨j', hj', hdirectories, -, hfilesystems⟩ := hkeeps.kept hi
      cases hj.symm.trans hj'
      exact .inl ⟨i, rfl, hdirectories, by rw [hfilesystems hcatalog, List.append_nil], nofun⟩
    | none => exact .inr ⟨rfl, rfl, hkeeps.fresh hi hj⟩

end Happens

/-- **What is known of file systems** after the moments of the past: the filesystem types are those
that were registered, in this order and all different, and nodes without a driver are served by the
driver of their own file system. -/
structure Catalog (past : List Moment) (m : Machine) : Prop where
  enrolled : ∀ (v : VfsId) (i : Instance), m.kernel.store.instances[v]? = some i →
    i.filesystems = past.filterMap (·.enrolls? v)
  distinct : ∀ (v : VfsId) (i : Instance), m.kernel.store.instances[v]? = some i →
    (i.filesystems.map (·.fsType)).Nodup
  own : ∀ (v : VfsId) (i : Instance), m.kernel.store.instances[v]? = some i →
    i.directories.driver = .directory v
  known : ∀ n ∈ past, ∀ v fs, n.enrolls? v = some fs → m.kernel.store.hasVfs v = true

namespace Catalog

theorem initial (word enableMask : Sync.Word) : Catalog [] (.initial word enableMask) where
  enrolled v i hi := by simp [Machine.initial, Store.initial] at hi
  distinct v i hi := by simp [Machine.initial, Store.initial] at hi
  own v i hi := by simp [Machine.initial, Store.initial] at hi
  known n hn := by cases hn

/-- **Every step** keeps what is known of file systems. -/
theorem step (h : Happens past now) (k : Catalog past now.before) :
    Catalog (past ++ [now]) now.after := by
  have happend : ∀ v, (past ++ [now]).filterMap (·.enrolls? v) =
      past.filterMap (·.enrolls? v) ++ (now.enrolls? v).toList := by
    intro v
    rw [List.filterMap_append]
    cases hfs : now.enrolls? v <;> simp [hfs]
  have hcases : ∀ (v : VfsId) (j : Instance), now.after.kernel.store.instances[v]? = some j →
      j.filesystems = (past ++ [now]).filterMap (·.enrolls? v) ∧
        (j.filesystems.map (·.fsType)).Nodup ∧ j.directories.driver = .directory v := by
    intro v j hj
    rw [happend]
    rcases h.enrolls v hj with ⟨i, hi, hdirectories, hadds, hnew⟩ | ⟨hi, hnone, hown, hempty⟩
    · rw [hadds, hdirectories]
      refine ⟨by rw [k.enrolled v i hi], ?_, k.own v i hi⟩
      cases hfs : now.enrolls? v with
      | none => simpa using k.distinct v i hi
      | some fs =>
        rw [Option.toList_some, List.map_append, List.map_singleton, ← List.concat_eq_append,
          List.nodup_concat]
        refine ⟨fun hmem => ?_, k.distinct v i hi⟩
        obtain ⟨known, hknown, hsame⟩ := List.mem_map.mp hmem
        exact hnew fs hfs known hknown hsame
    · rw [hempty, hnone, Option.toList_none, List.append_nil]
      refine ⟨(List.filterMap_eq_nil_iff.mpr fun n hn => ?_).symm, List.nodup_nil, hown⟩
      -- nothing was registered with a file system that did not exist
      refine Option.eq_none_iff_forall_not_mem.mpr fun fs hfs => ?_
      obtain ⟨i, hi'⟩ := Store.exists_instance (k.known n hn v fs hfs)
      cases hi.symm.trans hi'
  refine ⟨fun v j hj => (hcases v j hj).1, fun v j hj => (hcases v j hj).2.1,
    fun v j hj => (hcases v j hj).2.2, fun n hn v fs hfs => ?_⟩
  have hv : now.before.kernel.store.hasVfs v = true := by
    rcases List.mem_append.mp hn with hn | hn
    · exact k.known n hn v fs hfs
    · cases List.mem_singleton.mp hn
      exact (h.catalog_of_enrolls hfs).1
  obtain ⟨i, hi⟩ := Store.exists_instance hv
  obtain ⟨j, hj, -⟩ := h.kept hi
  exact decide_eq_true (Array.getElem?_eq_some_iff.mp hj).1

end Catalog

/-! ### Graphs that are left alone -/

/-- A mount graph that no step has worked on since some moment is the one of that moment. -/
def Untouched (past : List Moment) (m : Machine) : Prop :=
  ∀ a start b v i, past = a ++ start :: b → (∀ n ∈ b, n.mountTable? ≠ some v) →
    start.after.kernel.store.instances[v]? = some i →
    ∃ j, m.kernel.store.instances[v]? = some j ∧ j.graph = i.graph

namespace Untouched

theorem initial (word enableMask : Sync.Word) : Untouched [] (.initial word enableMask) := by
  intro a start b v i h
  simp at h

theorem step (h : Happens past now) (k : Untouched past now.before) :
    Untouched (past ++ [now]) now.after := by
  intro a start b v i heq hb hi
  rcases concat_eq_append_cons heq with ⟨-, rfl, rfl⟩ | ⟨b, rfl, rfl⟩
  · exact ⟨i, hi, rfl⟩
  · rw [List.forall_mem_append, List.forall_mem_singleton] at hb
    obtain ⟨j, hj, hsame⟩ := k _ _ _ v i rfl hb.1 hi
    obtain ⟨j', hj', hsame'⟩ := h.graph_eq hb.2 hj
    exact ⟨j', hj', hsame'.trans hsame⟩

end Untouched

end VirtualFs

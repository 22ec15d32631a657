import VirtualFs.Kernel.Machine
import VirtualFs.Proofs.Kernel.Files
import VirtualFs.Proofs.Kernel.Tables

/-!
# Every call

Every call that makes sense lands, and so does going on with a suspended call, whatever the answer.
What is left to show here are the calls that touch no table: mounting, questions, and making a
file system.

* `yields_query`: a question changes nothing.
* `lands_perform`: a call from outside, by cases on the call.
* `lands_resume`: a suspended call and the answer to its question, by cases on both.
-/

namespace VirtualFs

/-- The store after a new file system has been made. -/
def Store.withNewVfs (s : Store) (nodeLimit : Nat) : Store :=
  { s with
    instances := s.instances.push
      ⟨.withLimit nodeLimit, [], ⟨s.nextRecord, .directory s.instances.size, none⟩⟩
    nextRecord := s.nextRecord + 1 }

/-- A new file system is in order, and serves its nodes itself. -/
theorem Store.Served.withNewVfs {s : Store} (k : s.Served) (nodeLimit : Nat) :
    (s.withNewVfs nodeLimit).Served := by
  have hsize : s.instances.size ≤ (s.withNewVfs nodeLimit).instances.size := by
    simp [Store.withNewVfs]
  have hcases : ∀ {v : VfsId} {i : Instance}, (s.withNewVfs nodeLimit).instances[v]? = some i →
      i = ⟨.withLimit nodeLimit, [], ⟨s.nextRecord, .directory s.instances.size, none⟩⟩ ∨
        s.instances[v]? = some i := by
    intro v i hi
    rw [Store.withNewVfs, Array.getElem?_push] at hi
    split at hi
    · exact .inl (Option.some.inj hi).symm
    · exact .inr hi
  constructor
  · intro v i hi
    rcases hcases hi with rfl | hi
    · exact Mount.Graph.stocked_withLimit _ nodeLimit
    · exact (k.graphs hi).imp fun _ => Store.hasDriver_mono hsize
  · intro v i hi
    rcases hcases hi with rfl | hi
    · exact decide_eq_true (by simp [Store.withNewVfs])
    · exact Store.hasDriver_mono hsize (k.directories hi)

namespace Action

variable {α : Type} {cpu : Sync.Cpu LockId} {H : History} {C : List Closing}
  {except : Option TableId} {s : Store} {v : VfsId} {P : α → Store → Prop}

/-! ### Mounting -/

/-- An action on a mount table, and another after it. -/
theorem Serves.bind_lands {act : Action α} {f : α → Action Progress} (h : act.Serves cpu s P)
    (b : Books H C s) (hf : ∀ a s', P a s' → Books H C s' → s'.Served → s.SameFiles s' →
      (f a).Lands cpu H C except s') : (act >>= f).Lands cpu H C except s := by
  obtain ⟨a, s', hy, hs, hsame, hP⟩ := h
  exact .bind hy hsame.spares (hf a s' hP (b.sameFiles hsame) hs hsame)

theorem hasVfs_of_sameFiles {s' : Store} (h : s.SameFiles s') (hv : s.hasVfs v = true) :
    s'.hasVfs v = true := by
  rw [Store.hasVfs, h.instances]
  exact hv

/-- The filesystem has made a driver: it is registered, or given up. -/
theorem lands_mountMade (b : Books H C s) (k : s.Served) (hcpu : cpu.held = [])
    (hv : s.hasVfs v = true) (path device : Path) (fs : FileSystem) {driver : Driver}
    (hd : s.hasDriver driver = true) :
    (mountMade v path device fs driver).Lands cpu H C none s := by
  have hregister := serves_register k (isLocked_of_held hcpu (.mounts v)) hv path (some fs) hd
  rw [mountMade]
  refine hregister.bind_lands b ?_
  intro result s' _ b' k' _
  cases result with
  | error e => exact lands_waiting (yields_ask _ _) b' k' (.refl none s') trivial rfl rfl rfl
  | ok registration => exact .bind_same (yields_note _) (lands_pure b' k' _)

/-- The next filesystem is asked to take the device. -/
theorem lands_probe (b : Books H C s) (k : s.Served) (hv : s.hasVfs v = true) (path device : Path)
    (known : List FileSystem) : (probe v path device known).Lands cpu H C none s := by
  cases known with
  | nil => exact lands_pure b k _
  | cons fs rest => exact lands_waiting (yields_ask _ _) b k (.refl none s) hv rfl rfl rfl

theorem lands_mount (b : Books H C s) (k : s.Served) (hcpu : cpu.held = [])
    (hv : s.hasVfs v = true) (path device : Path) (fsType : Option String) :
    (mount v path device fsType).Lands cpu H C none s := by
  obtain ⟨i, hi⟩ := Store.exists_instance hv
  rw [mount]
  refine .bind_same (yields_filesystems (isLocked_of_held hcpu _) hi) ?_
  cases fsType with
  | none => exact lands_probe b k hv path device _
  | some fsType =>
      dsimp only
      cases i.filesystems.find? (·.fsType = fsType) with
      | none => exact .bind_same (yields_note _) (lands_pure b k _)
      | some fs => exact lands_waiting (yields_ask _ _) b k (.refl none s) hv rfl rfl rfl

theorem lands_unmount (b : Books H C s) (k : s.Served) (hcpu : cpu.held = [])
    (hv : s.hasVfs v = true) (path : Path) : (unmount v path).Lands cpu H C none s := by
  have hdetach := serves_detach k (isLocked_of_held hcpu (.mounts v)) hv path
  rw [unmount]
  refine hdetach.bind_lands b ?_
  intro result s' hdriver b' k' hsame
  cases result with
  | error e => exact lands_pure b' k' _
  | ok record =>
      dsimp only
      cases record.fs with
      | none => exact .bind_same (yields_note _) (lands_pure b' k' _)
      | some fs =>
          exact lands_waiting (yields_ask _ _) b' k' (.refl none s')
            ⟨hasVfs_of_sameFiles hsame hv, hdriver record rfl⟩ rfl rfl rfl

/-- A driver that its filesystem does not give up is attached again, if it can be. -/
theorem lands_unmounted (b : Books H C s) (k : s.Served) (hcpu : cpu.held = []) {path : Path}
    {record : Record} (hv : (Frame.unmounting v path record).Valid s) (failure : Option Error) :
    (unmounted v path record failure).Lands cpu H C none s := by
  rw [unmounted.eq_def]
  cases failure with
  | none => exact .bind_same (yields_note _) (lands_pure b k _)
  | some e =>
      have hreattach := serves_reattach k (isLocked_of_held hcpu (.mounts v)) hv.1 path hv.2
      refine hreattach.bind_lands b ?_
      intro result s' _ b' k' _
      cases result with
      | error lost => exact .bind_same (yields_note _) (lands_pure b' k' _)
      | ok _ => exact lands_pure b' k' _

/-! ### Questions and new file systems -/

/-- The entry of a slot. -/
theorem yields_entry (hcpu : cpu.held = []) (ht : s.tableState? t = some st) (fd : Nat) :
    ∃ result, (entry t fd).Yields cpu s result s := by
  have hget : (onTable t fun table => pure (table.get fd)).Yields cpu s (st.table.get fd) s :=
    yields_onTable (isLocked_of_held hcpu _) ht rfl
  rw [entry]
  cases hentry : st.table.get fd with
  | error e =>
      rw [hentry] at hget
      exact ⟨_, hget.bind (yields_pure _)⟩
  | ok entry =>
      rw [hentry] at hget
      have hcount : (locked (.references entry.descriptor.id) do
          return (← get).references.count entry.descriptor.id).Yields cpu s
          (s.references.count entry.descriptor.id) s :=
        yields_locked (isLocked_of_held hcpu _) rfl
      exact ⟨_, hget.bind (hcount.bind (yields_pure _))⟩

/-- What a mount table says of a path, if the path may be used. -/
theorem yields_onClean (hcpu : cpu.held = []) (hv : s.hasVfs v = true) (path : Path)
    (ask : Mount.Graph Record → Path → Bool) :
    ∃ result, (onClean v path ask).Yields cpu s result s := by
  obtain ⟨i, hi⟩ := Store.exists_instance hv
  rw [onClean]
  cases Path.absolute? path with
  | none => exact ⟨_, yields_pure _⟩
  | some clean =>
      have hask := yields_askGraph (isLocked_of_held hcpu (.mounts v)) hi (ask · clean)
      exact ⟨_, hask.bind (yields_pure _)⟩

/-- **A question** is answered and changes nothing. -/
theorem yields_query (b : Books H C s) (k : s.Served) (hcpu : cpu.held = []) {q : Query}
    (h : Machine.admitsQuery s q = true) : ∃ result, (query q).Yields cpu s result s := by
  have hl := isLocked_of_held hcpu
  cases q with
  | entry t fd =>
      obtain ⟨st, ht, -⟩ := Store.isReachable_iff.mp h
      exact yields_entry hcpu ht fd
  | used t =>
      obtain ⟨st, ht, -⟩ := Store.isReachable_iff.mp h
      exact ⟨_, (yields_onTable (hl _) ht (b.regular ht).used_eq).bind (yields_pure _)⟩
  | resolve v path =>
      obtain ⟨i, hi⟩ := Store.exists_instance h
      exact ⟨_, (yields_askGraph (hl _) hi (·.resolve path)).bind (yields_pure _)⟩
  | contains v path => exact yields_onClean hcpu h path _
  | isMounted v path => exact yields_onClean hcpu h path _
  | mounts v =>
      obtain ⟨i, hi⟩ := Store.exists_instance h
      obtain ⟨paths, hpaths⟩ := Mount.Graph.exists_mountPaths (k.graphs hi).regular.linked
      exact ⟨_, (yields_onGraph (hl _) hi hpaths).bind (yields_pure _)⟩
  | nodeCount v =>
      obtain ⟨i, hi⟩ := Store.exists_instance h
      exact ⟨_, (yields_askGraph (hl _) hi (·.live)).bind (yields_pure _)⟩
  | filesystems v =>
      obtain ⟨i, hi⟩ := Store.exists_instance h
      exact ⟨_, (yields_filesystems (hl _) hi).bind (yields_pure _)⟩
  | hasFilesystem v fsType =>
      obtain ⟨i, hi⟩ := Store.exists_instance h
      exact ⟨_, (yields_filesystems (hl _) hi).bind (yields_pure _)⟩

/-- **Making a file system.** -/
theorem lands_createVfs (b : Books H C s) (k : s.Served) (nodeLimit : Nat) :
    (perform (.createVfs nodeLimit)).Lands cpu H C none s := by
  have hsize : s.instances.size ≤ (s.withNewVfs nodeLimit).instances.size := by
    simp [Store.withNewVfs]
  have b' : Books H C (s.withNewVfs nodeLimit) :=
    b.congr rfl (fun _ => rfl) (Nat.le_refl _) rfl (Nat.le_refl _) hsize
  exact lands_finished (r := .ok (.vfs s.instances.size)) (yields_unlocked rfl) b'
    (k.withNewVfs nodeLimit) (Store.spares_of_tables rfl hsize)

end Action

/-! ### Calls from outside -/

/-- The table that a call lets go. -/
def Call.dropped? : Call → Option TableId
  | .dropTable t => some t
  | _ => none

namespace Machine

/-- The files that suspended calls are closing. -/
def closings (m : Machine) : List Closing :=
  m.stack.filterMap (·.frame.closing?)

/-- From a table that no suspended call uses, no file is being closed. -/
theorem table_ne_of_not_isUsed {m : Machine} {t : TableId} (h : m.isUsed t = false) :
    ∀ c ∈ m.closings, c.table ≠ t := by
  rintro c hc rfl
  obtain ⟨p, hp, hclosing⟩ := List.mem_filterMap.mp hc
  have htable : p.frame.table? = some c.table := by
    cases hf : p.frame <;> rw [hf] at hclosing <;> cases hclosing
    rfl
  have hnot := List.any_eq_false.mp h p hp
  exact hnot (decide_eq_true htable)

end Machine

namespace Action

variable {H : History} {m : Machine}

/-- **Every call that makes sense lands.** -/
theorem lands_perform (b : Books H m.closings m.kernel.store) (k : m.kernel.store.Served)
    (hcpu : m.kernel.cpu.held = []) {call : Call} (h : m.admits call = true) :
    (perform call).Lands m.kernel.cpu H m.closings call.dropped? m.kernel.store := by
  have hl := isLocked_of_held hcpu
  cases call with
  | query q =>
      obtain ⟨result, hy⟩ := yields_query b k hcpu h
      exact .bind_same hy (lands_pure b k _)
  | createVfs nodeLimit => exact lands_createVfs b k nodeLimit
  | register v path driver fs =>
      obtain ⟨hv, hd⟩ := Bool.and_eq_true_iff.mp h
      exact (serves_register k (hl _) hv path fs hd).bind_lands b
        fun _ _ _ b' k' _ => lands_pure b' k' _
  | unregister v registration =>
      exact (serves_unregister k (hl _) h registration).bind_lands b
        fun _ _ _ b' k' _ => lands_pure b' k' _
  | registerFilesystem v fs =>
      exact (serves_registerFilesystem k (hl _) h fs).bind_lands b
        fun _ _ _ b' k' _ => lands_pure b' k' _
  | mount v path device fsType => exact lands_mount b k hcpu h path device fsType
  | unmount v path => exact lands_unmount b k hcpu h path
  | createTable capacity => exact lands_createTable b k capacity
  | copyTable t budget =>
      obtain ⟨st, ht, hr⟩ := Store.isReachable_iff.mp h
      exact lands_copyTable b k hcpu ht budget
  | destroyTable t =>
      obtain ⟨st, ht, hr⟩ := Store.isReachable_iff.mp h
      exact lands_destroyTable b k hcpu ht hr
  | dropTable t =>
      simp only [Machine.admits, Bool.and_eq_true, Bool.not_eq_true'] at h
      obtain ⟨st, ht, hr⟩ := Store.isReachable_iff.mp h.1.1
      exact lands_dropTable b k hcpu ht (Machine.table_ne_of_not_isUsed h.2)
  | «open» v t path flags mode =>
      obtain ⟨hv, hr⟩ := Bool.and_eq_true_iff.mp h
      exact lands_openFile b k hcpu hv hr path flags mode
  | close t fd =>
      obtain ⟨st, ht, hr⟩ := Store.isReachable_iff.mp h
      exact lands_closeFile b k hcpu ht hr fd
  | transfer t fd op =>
      obtain ⟨st, ht, hr⟩ := Store.isReachable_iff.mp h
      exact lands_transfer b k hcpu ht fd op

end Action

/-! ### Answers -/

/-- What an answer adds to what is remembered: a driver that has opened a file has given out a
handle, and a handle that was closed for a slot is spent. -/
def History.answered (H : History) (s : Store) : Frame → Reply → History
  | .opening _ _ _ _ _, .opened => H.give (.external s.nextHandle)
  | .closing _ _ entry, .done => H.spend entry.descriptor.handle
  | _, _ => H

namespace Action

variable {cpu : Sync.Cpu LockId} {H : History} {C : List Closing} {s : Store}

/-- Whatever the driver answers, the call that waited for it fails. -/
theorem lands_abandoned (b : Books H C s) (k : s.Served) (path : Path) (failure : Option Error) :
    (abandoned path failure).Lands cpu H C none s := by
  rw [abandoned.eq_def]
  cases failure with
  | none => exact lands_pure b k _
  | some e => exact .bind_same (yields_note _) (lands_pure b k _)

theorem lands_undone (b : Books H C s) (k : s.Served) (device : Path) (error : Error)
    (failure : Option Error) : (undone device error failure).Lands cpu H C none s := by
  rw [undone.eq_def]
  cases failure with
  | none => exact lands_pure b k _
  | some e => exact .bind_same (yields_note _) (lands_pure b k _)

/-- The question failed. -/
theorem lands_recover {frame : Frame} (b : Books H (frame.closing?.toList ++ C) s) (k : s.Served)
    (hcpu : cpu.held = []) (hv : frame.Valid s) (e : Error) :
    (recover e frame).Lands cpu H C frame.dropped? s := by
  cases frame with
  | opening t path record flags mode => exact lands_pure b k _
  | abandoning t path => exact lands_abandoned b k path (some e)
  | closing t fd entry => exact lands_refused (c := ⟨t, fd, entry⟩) b k hcpu hv e
  | sweeping t purpose entry remaining next =>
      have hsweep := lands_sweepOn b k hcpu hv (some e)
      cases purpose with
      | destroy => exact hsweep
      | drop => exact hsweep
  | unwinding t entry rest => exact hv.elim
  | transferring t op => exact lands_pure b k _
  | probing v path device fs rest =>
      exact .bind_same (yields_note _) (lands_probe b k hv path device rest)
  | mounting v path device fs => exact lands_pure b k _
  | undoing device error => exact lands_undone b k device error (some e)
  | unmounting v path record => exact lands_unmounted b k hcpu hv (some e)

/-- The question was answered. -/
theorem lands_proceed {frame : Frame} (b : Books H (frame.closing?.toList ++ C) s) (k : s.Served)
    (hcpu : cpu.held = []) (hv : frame.Valid s) {reply : Reply} (hreply : ∀ e, reply ≠ .failed e)
    (ha : Machine.accepts s frame reply = true) :
    (proceed frame reply).Lands cpu (H.answered s frame reply) C frame.dropped? s := by
  cases frame with
  | opening t path record flags mode =>
      cases reply with
      | opened => exact lands_opened b k hcpu hv
      | failed e => exact absurd rfl (hreply e)
      | _ => cases ha
  | abandoning t path => exact lands_abandoned b k path none
  | closing t fd entry =>
      cases reply with
      | done => exact lands_closed (c := ⟨t, fd, entry⟩) b k hcpu hv
      | failed e => exact absurd rfl (hreply e)
      | _ => cases ha
  | sweeping t purpose entry remaining next =>
      have hsweep := lands_sweepOn b k hcpu hv none
      cases purpose with
      | destroy => exact hsweep
      | drop => exact hsweep
  | unwinding t entry rest => exact hv.elim
  | transferring t op =>
      have hsome : (op.answer? reply).isSome = true := by
        cases reply with
        | failed e => exact absurd rfl (hreply e)
        | _ => exact ha
      obtain ⟨answer, hanswer⟩ := Option.isSome_iff_exists.mp hsome
      rw [proceed, hanswer]
      exact lands_pure b k _
  | probing v path device fs rest =>
      cases reply with
      | mounted driver => exact lands_mountMade b k hcpu hv path device fs ha
      | failed e => exact absurd rfl (hreply e)
      | _ => cases ha
  | mounting v path device fs =>
      cases reply with
      | mounted driver => exact lands_mountMade b k hcpu hv path device fs ha
      | failed e => exact absurd rfl (hreply e)
      | _ => cases ha
  | undoing device error => exact lands_undone b k device error none
  | unmounting v path record => exact lands_unmounted b k hcpu hv none

/-- **Every answer that makes sense** lets a suspended call land. -/
theorem lands_resume {frame : Frame} (b : Books H (frame.closing?.toList ++ C) s) (k : s.Served)
    (hcpu : cpu.held = []) (hv : frame.Valid s) {reply : Reply}
    (ha : Machine.accepts s frame reply = true) :
    (resume frame reply).Lands cpu (H.answered s frame reply) C frame.dropped? s := by
  by_cases hreply : ∃ e, reply = .failed e
  · obtain ⟨e, rfl⟩ := hreply
    have hrecover := lands_recover b k hcpu hv e
    cases frame <;> exact hrecover
  · have hproceed := lands_proceed b k hcpu hv (fun e he => hreply ⟨e, he⟩) ha
    cases reply with
    | failed e => exact absurd ⟨e, rfl⟩ hreply
    | _ => exact hproceed

end Action

end VirtualFs

import VirtualFs.Proofs.Kernel.Steps

/-!
# What comes of a job on files

`FileEffect s job p s'` lists all that a job on files and tables can come to from the store `s`: how
far its call gets, and which store it leaves.  Most jobs put no file into a slot and mount nothing
(`Keeps`).  A file comes into a slot in two ways only: a driver has opened it, and it takes the
first free slot; or its driver has refused to close it, and it goes back into its own.

* `keeps_withState`, `Keeps.withNewTable`: tables in which nothing is open that was not.
* `FileEffect.bounded`: no table has more slots than a signed word of 32 bits can number.
* `ensures_sweep`, `ensures_unwind`: emptying tables, by induction on the slots that are left.
* `ensures_opening`, `ensures_openedFile`: opening a file, exactly.
* `Job.ensures_fileEffect`: every job on files and tables.
-/

namespace VirtualFs

namespace Store

variable {s s' s'' : Store} {t : TableId} {st : TableState} {fd : Nat} {entry : FdEntry}

/-- Slot number `fd` of some table is open and holds the entry. -/
def Open (s : Store) (fd : Nat) (entry : FdEntry) : Prop :=
  ∃ t, s.slot? t fd = some (.opened entry)

theorem open_of_table (ht : s.tableState? t = some st)
    (hslot : st.table.slots[fd]? = some (.opened entry)) : s.Open fd entry :=
  ⟨t, Option.bind_eq_some_iff.mpr ⟨st, ht, hslot⟩⟩

/-- The descriptor numbers of every table fit a signed word of 32 bits. -/
def Bounded (s : Store) : Prop :=
  ∀ t st, s.tableState? t = some st → st.table.capacity ≤ Limits.maxCapacity

theorem Bounded.congr (hb : s.Bounded) (h : s'.tables = s.tables) : s'.Bounded := by
  intro t st hst
  rw [tableState?, h] at hst
  exact hb t st hst

/-- Another state of one table. -/
theorem Bounded.withState (hb : s.Bounded) (ht : s.tableState? t = some st)
    {state : Option TableState}
    (h : ∀ st', state = some st' → st'.table.capacity = st.table.capacity) :
    (s.withState t state).Bounded := by
  intro u st' hst
  rw [tableState?_withState ht] at hst
  split at hst
  · rw [h st' hst]
    exact hb t st ht
  · exact hb u st' hst

/-- A new table. -/
theorem Bounded.withNewTable (hb : s.Bounded) {table : FdTable}
    (h : table.capacity ≤ Limits.maxCapacity) : (s.withNewTable table).Bounded := by
  intro u st' hst
  rw [tableState?_withNewTable] at hst
  split at hst
  · cases hst
    exact h
  · exact hb u st' hst

/-- No file has come into a slot, nothing is mounted or unmounted, and no directory is read. -/
structure Keeps (s s' : Store) : Prop where
  opened : ∀ {fd entry}, s'.Open fd entry → s.Open fd entry
  /-- What is open in a table that was there was open in that table. -/
  slots : ∀ {t fd entry}, t < s.tables.size → s'.slot? t fd = some (.opened entry) →
    s.slot? t fd = some (.opened entry)
  size : s.tables.size ≤ s'.tables.size
  bounded : s.Bounded → s'.Bounded
  instances : s'.instances = s.instances
  openDirectories : s'.openDirectories = s.openDirectories
  nextRecord : s'.nextRecord = s.nextRecord

theorem Keeps.refl (s : Store) : s.Keeps s :=
  ⟨id, fun _ h => h, Nat.le_refl _, id, rfl, rfl, rfl⟩

theorem Keeps.trans (h : s.Keeps s') (h' : s'.Keeps s'') : s.Keeps s'' where
  opened ho := h.opened (h'.opened ho)
  slots ht hslot := h.slots ht (h'.slots (Nat.lt_of_lt_of_le ht h.size) hslot)
  size := Nat.le_trans h.size h'.size
  bounded hb := h'.bounded (h.bounded hb)
  instances := h'.instances.trans h.instances
  openDirectories := h'.openDirectories.trans h.openDirectories
  nextRecord := h'.nextRecord.trans h.nextRecord

theorem keeps_withReferences (s : Store) (r : References) : s.Keeps (s.withReferences r) :=
  ⟨id, fun _ h => h, Nat.le_refl _, id, rfl, rfl, rfl⟩

/-- Tables in which nothing is open that was not. -/
theorem keeps_of_slots {tables : Array (Option TableState)}
    (hsize : tables.size = s.tables.size)
    (hbounded : s.Bounded → ({ s with tables := tables } : Store).Bounded)
    (h : ∀ {u fd entry}, ({ s with tables := tables } : Store).slot? u fd = some (.opened entry) →
      s.slot? u fd = some (.opened entry)) : s.Keeps { s with tables := tables } where
  opened := fun ⟨u, hu⟩ => ⟨u, h hu⟩
  slots _ hslot := h hslot
  size := Nat.le_of_eq hsize.symm
  bounded := hbounded
  instances := rfl
  openDirectories := rfl
  nextRecord := rfl

/-- **Another state of a table**, in which nothing is open that was not. -/
theorem keeps_withState (ht : s.tableState? t = some st) {state : Option TableState}
    (hc : ∀ st', state = some st' → st'.table.capacity = st.table.capacity)
    (h : ∀ {fd : Nat} {entry}, state.bind (·.table.slots[fd]?) = some (.opened entry) →
      st.table.slots[fd]? = some (.opened entry)) : s.Keeps (s.withState t state) := by
  refine keeps_of_slots Array.size_setIfInBounds (·.withState ht hc) fun {u fd entry} hu => ?_
  have hstate := tableState?_withState ht state u
  rw [withState] at hstate
  rw [slot?, hstate] at hu
  split at hu
  · rename_i hut
    rw [slot?, hut, ht]
    exact h hu
  · exact hu

/-- One slot is given up, or its file is being closed. -/
theorem keeps_withSlot (ht : s.tableState? t = some st) {old new : Slot}
    (hslot : st.table.slots[fd]? = some old) (hnew : ∀ entry, new ≠ .opened entry)
    {table : FdTable} (hc : table.capacity = st.table.capacity)
    (htable : table.slots = (st.table.withSlot fd new).slots) :
    s.Keeps (s.withTable t st table) := by
  have hbounded : s.Bounded → (s.withTable t st table).Bounded := fun hb =>
    hb.withState ht fun _ he => by cases he; exact hc
  refine keeps_of_slots Array.size_setIfInBounds hbounded fun {u i entry} hu => ?_
  have hslots := slot?_withSlot ht hslot htable u i
  rw [withTable, withState] at hslots
  rw [hslots] at hu
  split at hu
  · exact absurd (Option.some.inj hu) (hnew entry)
  · exact hu

/-- **A new table**, in which nothing is open that was not. -/
theorem Keeps.withNewTable (k : s.Keeps s') {table : FdTable}
    (hc : s.Bounded → table.capacity ≤ Limits.maxCapacity)
    (h : ∀ {fd : Nat} {entry}, table.slots[fd]? = some (.opened entry) → s.Open fd entry) :
    s.Keeps (s'.withNewTable table) where
  opened := by
    rintro fd entry ⟨u, hu⟩
    obtain ⟨st, hst, hslot⟩ := Option.bind_eq_some_iff.mp hu
    rw [tableState?_withNewTable] at hst
    split at hst
    · cases hst
      exact h hslot
    · exact k.opened (open_of_table hst hslot)
  slots {t fd entry} ht hslot := by
    refine k.slots ht ?_
    rwa [slot?, tableState?_withNewTable, if_neg (Nat.ne_of_lt (Nat.lt_of_lt_of_le ht k.size))]
      at hslot
  size := by
    rw [Store.withNewTable, Array.size_push]
    exact Nat.le_succ_of_le k.size
  bounded hb := (k.bounded hb).withNewTable (hc hb)
  instances := k.instances
  openDirectories := k.openDirectories
  nextRecord := k.nextRecord

/-- A table that is forgotten. -/
theorem keeps_forget (s : Store) (t : TableId) : s.Keeps (s.withState t none) := by
  have hstate : ∀ {u st}, (s.withState t none).tableState? u = some st →
      s.tableState? u = some st := by
    intro u st hst
    rw [tableState?, withState, Array.getD_eq_getD_getElem?, Array.getElem?_setIfInBounds] at hst
    rw [tableState?, Array.getD_eq_getD_getElem?]
    split at hst
    · split at hst <;> cases hst
    · exact hst
  refine keeps_of_slots Array.size_setIfInBounds (fun hb u st hst => hb u st (hstate hst))
    fun {u fd entry} hu => ?_
  obtain ⟨st, hst, hslot⟩ := Option.bind_eq_some_iff.mp hu
  exact Option.bind_eq_some_iff.mpr ⟨st, hstate hst, hslot⟩

/-- At most a directory has been opened, and a descriptor made for it. -/
structure Tries (s s' : Store) : Prop where
  tables : s'.tables = s.tables
  instances : s'.instances = s.instances
  openDirectories : ∀ {n : Nat} {d}, s.openDirectories[n]? = some d →
    s'.openDirectories[n]? = some d
  nextRecord : s'.nextRecord = s.nextRecord

theorem Tries.refl (s : Store) : s.Tries s := ⟨rfl, rfl, id, rfl⟩

theorem Tries.slot? (h : s.Tries s') (t : TableId) (fd : Nat) : s'.slot? t fd = s.slot? t fd :=
  slot?_congr h.tables t fd

theorem Tries.withReferences (h : s.Tries s') (r : References) : s.Tries (s'.withReferences r) :=
  ⟨h.tables, h.instances, h.openDirectories, h.nextRecord⟩

end Store

/-- The question is to the driver of the entry, and is to close its file. -/
def HookCall.Closes (question : HookCall) (entry : FdEntry) : Prop :=
  ∃ driver, entry.descriptor.record.driver = .external driver ∧
    question = .close driver entry.descriptor.handle

/-- The file of a slot that has been given up. -/
def Frame.vacated? : Frame → Option FdEntry
  | .sweeping _ _ entry _ _ | .unwinding _ entry _ => some entry
  | _ => none

namespace Job

/-- The slot that the job is about. -/
def slot? : Job → Option (TableId × Nat)
  | .begin (.close t fd) | .begin (.transfer t fd _) => some (t, fd)
  | _ => none

/-- The table, the flags and the mode that the job opens a file with. -/
def opening? : Job → Option (TableId × OpenFlags × UInt32)
  | .begin (.open _ t _ flags mode) | .resume (.opening t _ _ flags mode) _ => some (t, flags, mode)
  | _ => none

/-- The job is on a mount table, or makes a file system. -/
def mounts : Job → Bool
  | .begin (.createVfs _) | .begin (.register _ _ _ _) | .begin (.unregister _ _)
  | .begin (.registerFilesystem _ _) | .begin (.mount _ _ _ _) | .begin (.unmount _ _) => true
  | .resume frame _ => frame.table?.isNone
  | _ => false

/-- Opening a file mounts nothing. -/
theorem mounts_of_opening {job : Job} {opening : TableId × OpenFlags × UInt32}
    (h : job.opening? = some opening) : job.mounts = false := by
  cases job with
  | begin call => cases call <;> first | rfl | cases h
  | reject e => rfl
  | resume frame reply => cases frame <;> first | rfl | cases h

end Job

/-- The name behind which an open directory is read on. -/
def Cursor.last? : Cursor → Option Segment
  | .after name => some name
  | .start | .finished => none

/-- The record of the driver that serves a path. -/
def Instance.recordOf (i : Instance) : Mount.Resolution Record → Record
  | .driver record _ => record
  | .node => i.directories

/-- Who serves a clean path, and the path that it is given. -/
def Instance.server (i : Instance) (clean : Path) : Except Error (Record × Path) :=
  (i.graph.resolve clean).map fun resolution => (i.recordOf resolution, resolution.relative clean)

/-- In file system `v` the driver of the record serves the path, and is given `rest` of its clean
form. -/
structure Store.Directs (s : Store) (v : VfsId) (path clean : Path) (record : Record)
    (rest : Path) : Prop where
  absolute : Path.absolute? path = some clean
  server : ∃ i, s.instances[v]? = some i ∧ i.server clean = .ok (record, rest)

/-- **How a driver knows a file** that a job has opened at a clean path: a driver from outside by a
new handle, the built-in one by a new open directory. -/
inductive Knows (s s' : Store) : Job → Path → Record → Handle → Prop
  | external {t : TableId} {path : Path} {record : Record} {flags : OpenFlags} {mode : UInt32}
      {driver : External} (hdriver : record.driver = .external driver) :
      Knows s s' (.resume (.opening t path record flags mode) .opened) path record
        (.external s.nextHandle)
  | directory {v w : VfsId} {t : TableId} {path clean relative : Path} {flags : OpenFlags}
      {mode : UInt32} {record : Record} {i : Instance} (hdriver : record.driver = .directory w)
      (hi : s.instances[w]? = some i) (hcontains : i.graph.contains relative = true)
      (hopen : s'.openDirectories[s.openDirectories.size]? = some ⟨relative, .start⟩) :
      Knows s s' (.begin (.open v t path flags mode)) clean record
        (.directory s.openDirectories.size)

/-- Of the store that the job leaves, only its open directories matter. -/
theorem Knows.congr {s s₁ s' : Store} {job : Job} {path : Path} {record : Record} {handle : Handle}
    (h : Knows s s₁ job path record handle) (hopen : s'.openDirectories = s₁.openDirectories) :
    Knows s s' job path record handle := by
  cases h with
  | external hdriver => exact .external hdriver
  | directory hdriver hi hcontains hknown => exact .directory hdriver hi hcontains (hopen ▸ hknown)

/-- **What comes of a job on files and tables.** -/
inductive FileEffect (s : Store) : Job → Progress → Store → Prop
  /-- The call returns, and no file has come into a slot. -/
  | settles {job : Job} {s' : Store} (result : Except Error Answer) (hjob : job.opening? = none)
      (h : s.Keeps s') : FileEffect s job (.finished result) s'
  /-- The driver of a slot is asked to close its file. -/
  | closes {t : TableId} {fd : Nat} {entry : FdEntry} {question : HookCall}
      {cpu : Sync.Cpu LockId} {s' : Store} (hslot : s.slot? t fd = some (.opened entry))
      (hquestion : question.Closes entry) (h : s.Keeps s') : FileEffect s (.begin (.close t fd))
        (.waiting question (.closing t fd entry) cpu) s'
  /-- The driver of a slot that has been given up is asked to close its file. -/
  | empties {job : Job} {fd : Nat} {entry : FdEntry} {question : HookCall} {frame : Frame}
      {cpu : Sync.Cpu LockId} {s' : Store} (hjob : job.opening? = none) (hslot : job.slot? = none)
      (hopen : s.Open fd entry) (hquestion : question.Closes entry)
      (hframe : frame.vacated? = some entry) (h : s.Keeps s') :
      FileEffect s job (.waiting question frame cpu) s'
  /-- The driver has refused to close its file, which goes back into its slot. -/
  | restores {t : TableId} {fd : Nat} {entry : FdEntry} {st : TableState} {old : Slot}
      (e : Error) (r : References) (ht : s.tableState? t = some st)
      (hslot : st.table.slots[fd]? = some old) :
      FileEffect s (.resume (.closing t fd entry) (.failed e)) (.failed e)
        ((s.withReferences r).withTable t st (st.table.withSlot fd (.opened entry)))
  /-- The driver of an open slot that has the permission is asked. -/
  | transfers {t : TableId} {fd : Nat} {op : Transfer} {entry : FdEntry} {driver : External}
      {cpu : Sync.Cpu LockId} (hslot : s.slot? t fd = some (.opened entry))
      (hpermission : entry.flags.contains op.permission = true)
      (hdriver : entry.descriptor.record.driver = .external driver) :
      FileEffect s (.begin (.transfer t fd op))
        (.waiting (op.question driver entry.descriptor.handle) (.transferring t op) cpu) s
  /-- The directory of an open slot that has the permission is read. -/
  | lists {t : TableId} {fd : Nat} {entry : FdEntry} {v : VfsId} {serial : Nat}
      (d : Directory) (result : Except Error Answer)
      (hslot : s.slot? t fd = some (.opened entry))
      (hpermission : entry.flags.contains .permRead = true)
      (hdriver : entry.descriptor.record.driver = .directory v)
      (hhandle : entry.descriptor.handle = .directory serial) :
      FileEffect s (.begin (.transfer t fd .readdir)) (.finished result)
        { s with openDirectories := s.openDirectories.setIfInBounds serial d }
  /-- A driver from outside is asked to open a file. -/
  | opens {v : VfsId} {t : TableId} {path clean relative : Path} {flags : OpenFlags} {mode : UInt32}
      {record : Record} {driver : External} {cpu : Sync.Cpu LockId}
      (hdriver : record.driver = .external driver) :
      FileEffect s (.begin (.open v t path flags mode))
        (.waiting (.open driver relative flags mode) (.opening t clean record flags mode) cpu) s
  /-- No file is opened, or there is no slot for it. -/
  | misses {job : Job} {opening : TableId × OpenFlags × UInt32} {s' : Store} (e : Error)
      (hjob : job.opening? = some opening) (h : s.Tries s') : FileEffect s job (.failed e) s'
  /-- There is no slot for a file, and its driver is asked to close it again. -/
  | abandons {t : TableId} {path : Path} {record : Record} {flags : OpenFlags} {mode : UInt32}
      {driver : External} {cpu : Sync.Cpu LockId} {s' : Store}
      (hdriver : record.driver = .external driver) (h : s.Tries s') :
      FileEffect s (.resume (.opening t path record flags mode) .opened)
        (.waiting (.close driver (.external s.nextHandle)) (.abandoning t path) cpu) s'
  /-- **A file takes the first free slot.** -/
  | places {job : Job} {t : TableId} {flags : OpenFlags} {mode : UInt32} {path : Path}
      {record : Record} {handle : Handle} {st : TableState} {fd : Nat} {s' : Store}
      (hjob : job.opening? = some (t, flags, mode)) (hknows : Knows s s' job path record handle)
      (h : s.Tries s') (ht : s.tableState? t = some st)
      (hslot : st.table.slots[fd]? = some .free) :
      FileEffect s job (.succeeded (.fd fd)) (s'.withTable t st
        (st.table.installed fd ⟨⟨s.references.next, path, handle, record⟩, flags, mode⟩))

namespace Action

variable {α : Type} {s s' : Store} {t : TableId} {fd : Nat} {entry : FdEntry}

/-! ### Giving up slots -/

/-- What comes of giving up slots: the call returns, or the driver of a file that was open is asked
to close it. -/
inductive Releases (s : Store) : Progress → Store → Prop
  | settles {s' : Store} (result : Except Error Answer) (h : s.Keeps s') :
      Releases s (.finished result) s'
  | asks {fd : Nat} {entry : FdEntry} {question : HookCall} {frame : Frame}
      {cpu : Sync.Cpu LockId} {s' : Store} (hopen : s.Open fd entry)
      (hquestion : question.Closes entry) (hframe : frame.vacated? = some entry)
      (h : s.Keeps s') : Releases s (.waiting question frame cpu) s'

/-- What was open later was open before. -/
theorem Releases.after {p : Progress} {s'' : Store} (h : s.Keeps s') (r : Releases s' p s'') :
    Releases s p s'' := by
  cases r with
  | settles result h' => exact .settles result (h.trans h')
  | asks hopen hquestion hframe h' => exact .asks (h.opened hopen) hquestion hframe (h.trans h')

/-- An action that keeps the files, and another after it. -/
theorem Ensures.bind_releases {act : Action α} {f : α → Action Progress} {P : α → Store → Prop}
    (h : act.Ensures s P) (hkeeps : ∀ a s', P a s' → s.Keeps s')
    (hf : ∀ a s', P a s' → (f a).Ensures s' (Releases s')) :
    (act >>= f).Ensures s (Releases s) :=
  h.bind fun a s' ha => (hf a s' ha).mono fun _ _ r => r.after (hkeeps a s' ha)

/-- **Releasing a reference**: the driver is asked if it was the last. -/
theorem ensures_release (entry : FdEntry) :
    (releaseReference entry).Ensures s fun question s' =>
      0 < s.references.count entry.descriptor.id ∧ question = entry.lastClose? s.references ∧
        s' = s.withReferences (s.references.less entry.descriptor) := by
  refine (ensures_editReferences _ _).bind ?_
  rintro outcome _ ⟨r, hrelease, rfl⟩
  have hpos : 0 < s.references.count entry.descriptor.id := by
    refine Nat.pos_of_ne_zero fun hzero => ?_
    rw [References.release, hzero] at hrelease
    cases hrelease
  rw [FdEntry.lastClose?, FdEntry.close?]
  rcases References.release_cases hpos with ⟨hone, he⟩ | ⟨hmore, he⟩
  · cases he.symm.trans hrelease
    rw [if_pos hone]
    dsimp only
    cases entry.descriptor.record.driver with
    | external driver => exact ensures_pure ⟨hpos, rfl, rfl⟩
    | directory v => exact ensures_pure ⟨hpos, rfl, rfl⟩
  · cases he.symm.trans hrelease
    rw [if_neg (Nat.ne_of_gt hmore)]
    exact ensures_pure ⟨hpos, rfl, rfl⟩

theorem ensures_releaseReference (entry : FdEntry) :
    (releaseReference entry).Ensures s fun result s' => s.Keeps s' ∧
      ∀ question, result = some question → question.Closes entry := by
  refine (ensures_release entry).mono ?_
  rintro _ _ ⟨-, rfl, rfl⟩
  refine ⟨s.keeps_withReferences _, fun question hquestion => ?_⟩
  exact FdEntry.close?_eq_some.mp (FdEntry.lastClose?_eq_some.mp hquestion).2

/-- An open slot is given up; then it is open no more. -/
theorem ensures_take (t : TableId) (next : Nat) :
    (editTable t fun table => table.take next).Ensures s fun found s' => s.Keeps s' ∧
      (∀ entry, found = some entry → s.Open next entry) ∧ t < s.tables.size ∧
      ∀ entry, s'.slot? t next ≠ some (.opened entry) := by
  refine (ensures_editTable t _).mono ?_
  rintro found _ ⟨st, table, ht, htake, rfl⟩
  have hlt := Store.lt_size_of_tableState? ht
  rcases FdTable.take_eq_ok htake with ⟨rfl, rfl, hnot⟩ | ⟨entry, rfl, hslot, rfl⟩
  · refine ⟨Store.keeps_withState ht (fun _ he => by cases he; rfl) id, nofun, hlt,
      fun entry => ?_⟩
    rw [Store.slot?_withTable ht, if_pos rfl]
    exact hnot entry
  · refine ⟨Store.keeps_withSlot ht hslot (fun _ => Slot.noConfusion) rfl
      (FdTable.vacated_slots _ _), fun _ he => ?_, hlt, fun entry => ?_⟩
    · cases he
      exact Store.open_of_table ht hslot
    · rw [Store.slot?_withSlot ht hslot (FdTable.vacated_slots _ _), if_pos ⟨rfl, rfl⟩]
      exact nofun

/-! ### Emptying a table -/

theorem ensures_swept (t : TableId) (purpose : SweepPurpose) :
    (swept t purpose).Ensures s (Releases s) := by
  cases purpose with
  | destroy => exact ensures_pure (.settles _ (.refl s))
  | drop =>
      intro k p k' hk h
      cases h
      rw [← hk]
      exact .settles _ (k.store.keeps_forget t)

/-- **Emptying a table** from slot `next` on, by induction on the slots that are left. -/
theorem ensures_sweep (t : TableId) (purpose : SweepPurpose) (remaining next : Nat) :
    (sweep t purpose remaining next).Ensures s (Releases s) := by
  induction remaining generalizing s next with
  | zero => exact ensures_swept t purpose
  | succ remaining ih =>
      refine (ensures_take t next).bind ?_
      rintro (_ | entry) s₁ ⟨hkeeps, hopen, -, -⟩
      · exact (ih (next + 1)).mono fun _ _ r => r.after hkeeps
      · refine (ensures_releaseReference entry).bind ?_
        rintro (_ | question) s₂ ⟨hkeeps', hquestion⟩
        · exact (ih (next + 1)).mono fun _ _ r => r.after (hkeeps.trans hkeeps')
        · exact ensures_ask fun _ =>
            .asks (hopen entry rfl) (hquestion question rfl) rfl (hkeeps.trans hkeeps')

theorem ensures_sweepOn (t : TableId) (purpose : SweepPurpose) (entry : FdEntry)
    (remaining next : Nat) (failure : Option Error) :
    (sweepOn t purpose entry remaining next failure).Ensures s (Releases s) := by
  cases failure with
  | none => exact ensures_sweep t purpose remaining next
  | some e => exact (ensures_note _).bind_same fun _ => ensures_sweep t purpose remaining next

theorem ensures_destroyTable (t : TableId) : (destroyTable t).Ensures s (Releases s) := by
  refine (ensures_unlocked (Section.ensures_getTable t)).bind ?_
  rintro table _ ⟨-, rfl⟩
  exact ensures_sweep t .destroy _ 0

theorem ensures_dropTable (t : TableId) : (dropTable t).Ensures s (Releases s) := by
  have hforget : Section.Ensures (do
      let table ← Section.getTable t
      Section.setTableState t (some ⟨table, false⟩)
      return table.capacity) s fun _ s' => s.Keeps s' := by
    refine (Section.ensures_getTable t).bind ?_
    rintro _ _ ⟨⟨st, ht, rfl⟩, rfl⟩ capacity s' h
    cases h
    exact Store.keeps_withState ht (fun _ he => by cases he; rfl) id
  exact (ensures_unlocked hforget).bind_releases (fun _ _ h => h) fun _ _ _ =>
    ensures_sweep t .drop _ 0

/-! ### Copying a table -/

/-- Copying slots changes nothing but the references. -/
theorem ensures_shareSlots (budget : Option Nat) (fd : Nat) (slots : List Slot) :
    (shareSlots budget fd slots).Ensures s fun copied s' => (∃ r, s' = s.withReferences r) ∧
      copied.slots <+: slots.map Slot.shared := by
  induction slots generalizing s fd with
  | nil => exact ensures_pure ⟨⟨s.references, rfl⟩, List.nil_prefix⟩
  | cons slot rest ih =>
      simp only [shareSlots]
      by_cases hbudget : budget.any (· ≤ fd) = true
      · rw [if_pos hbudget]
        exact ensures_pure ⟨⟨s.references, rfl⟩, List.nil_prefix⟩
      rw [if_neg hbudget]
      cases slot with
      | opened entry =>
          refine (ensures_editReferences _ _).bind ?_
          rintro _ _ ⟨r, -, rfl⟩
          refine (ih (fd + 1)).bind ?_
          rintro more _ ⟨⟨r', rfl⟩, h⟩
          exact ensures_pure ⟨⟨r', rfl⟩, List.cons_prefix_cons.mpr ⟨rfl, h⟩⟩
      | free | closing =>
          exact (ih (fd + 1)).bind fun _ _ h =>
            ensures_pure ⟨h.1, List.cons_prefix_cons.mpr ⟨rfl, h.2⟩⟩

/-- What is in a slot of a copy is in the same slot of what was copied. -/
theorem getElem?_of_copies {slots copies : List Slot} (h : copies <+: slots.map Slot.shared)
    {i : Nat} (hi : copies[i]? = some (.opened entry)) : slots[i]? = some (.opened entry) := by
  obtain ⟨hlt, -⟩ := List.getElem?_eq_some_iff.mp hi
  obtain ⟨more, hmore⟩ := h
  have hshared : (slots.map Slot.shared)[i]? = some (.opened entry) := by
    rw [← hmore, List.getElem?_append_left hlt, hi]
  rw [List.getElem?_map] at hshared
  obtain ⟨slot, hslot, he⟩ := Option.map_eq_some_iff.mp hshared
  rw [hslot, Slot.shared_eq_opened he]

/-- Releasing what a failed copy holds, by induction on its slots. -/
theorem ensures_unwind {s₀ : Store} (t : TableId) {slots : List Slot} (hkeeps : s₀.Keeps s)
    (hopen : ∀ entry, .opened entry ∈ slots → ∃ fd, s₀.Open fd entry) :
    (unwind t slots).Ensures s (Releases s₀) := by
  induction slots generalizing s with
  | nil => exact ensures_pure (.settles _ hkeeps)
  | cons slot rest ih =>
      have hrest : ∀ entry, .opened entry ∈ rest → ∃ fd, s₀.Open fd entry := fun entry hmem =>
        hopen entry (List.mem_cons_of_mem _ hmem)
      cases slot with
      | opened entry =>
          obtain ⟨fd, hentry⟩ := hopen entry List.mem_cons_self
          refine (ensures_releaseReference entry).bind ?_
          rintro (_ | question) s₁ ⟨h, hquestion⟩
          · exact ih (hkeeps.trans h) hrest
          · exact ensures_ask fun _ =>
              .asks hentry (hquestion question rfl) rfl (hkeeps.trans h)
      | free | closing => exact ih hkeeps hrest

/-- The slots of a copy hold what the same slots of the table hold. -/
theorem ensures_copySlots (t : TableId) (budget : Option Nat) :
    Action.Ensures (do
      let table ← unlocked (Section.getTable t)
      return (table.capacity, ← shareSlots budget 0 table.slots.toList)) s fun p s' =>
        (∃ r, s' = s.withReferences r) ∧
          (∃ st, s.tableState? t = some st ∧ p.1 = st.table.capacity) ∧
          ∀ {fd : Nat} {entry}, p.2.slots[fd]? = some (.opened entry) →
            s.slot? t fd = some (.opened entry) := by
  refine (ensures_unlocked (Section.ensures_getTable t)).bind ?_
  rintro _ _ ⟨⟨st, ht, rfl⟩, rfl⟩
  refine (ensures_shareSlots budget 0 _).bind ?_
  rintro copied s₁ ⟨h, hcopies⟩
  refine ensures_pure ⟨h, ⟨st, ht, rfl⟩, fun hi => Option.bind_eq_some_iff.mpr ⟨st, ht, ?_⟩⟩
  rw [← Array.getElem?_toList]
  exact getElem?_of_copies hcopies hi

theorem ensures_copyTable (t : TableId) (budget : Option Nat) :
    (copyTable t budget).Ensures s (Releases s) := by
  refine (ensures_holding _ (ensures_copySlots t budget)).bind ?_
  rintro ⟨capacity, copied⟩ _ ⟨⟨r, rfl⟩, ⟨st, ht, rfl⟩, hopen⟩
  have h := s.keeps_withReferences r
  dsimp only
  split
  · intro k p k' hk hend
    cases hend
    exact .settles _ (hk ▸ h.withNewTable (fun hb => hb t st ht)
      fun hslot => ⟨t, hopen (by simpa using hslot)⟩)
  · refine ensures_unwind t h fun entry hmem => ?_
    obtain ⟨fd, hfd⟩ := List.mem_iff_getElem?.mp hmem
    exact ⟨fd, t, hopen hfd⟩

theorem ensures_createTable (capacity : Nat) :
    (createTable capacity).Ensures s fun _ s' => s.Keeps s' := by
  intro k result k' hk h
  by_cases hc : Limits.maxCapacity < capacity
  · rw [createTable, FdTable.withCapacity, if_pos hc] at h
    cases h
    exact hk ▸ .refl s
  · rw [createTable, FdTable.withCapacity, if_neg hc] at h
    cases h
    have hfree : ∀ {fd : Nat} {entry},
        (FdTable.ofCapacity capacity).slots[fd]? ≠ some (.opened entry) := by
      intro fd entry hslot
      rw [FdTable.ofCapacity, Array.getElem?_replicate] at hslot
      split at hslot <;> cases hslot
    exact hk ▸ (Store.Keeps.refl s).withNewTable (fun _ => Nat.le_of_not_lt hc)
      fun hslot => absurd hslot hfree

/-! ### Closing -/

/-- A closed slot is given up. -/
theorem ensures_vacate (t : TableId) (fd : Nat) :
    (vacate t fd).Ensures s fun p s' => p = .succeeded .done ∧ ∃ st old,
      s.tableState? t = some st ∧ st.table.slots[fd]? = some old ∧
        s' = s.withTable t st (st.table.vacated fd) := by
  refine (ensures_editTable t _).bind ?_
  rintro _ _ ⟨st, table, ht, hvacate, rfl⟩
  obtain ⟨table', hvacate, he⟩ := Checked.exists_of_bind hvacate
  cases he
  obtain ⟨old, hslot, rfl⟩ := FdTable.exists_slot_of_vacate hvacate
  exact ensures_pure ⟨rfl, st, old, ht, hslot, rfl⟩

/-- What comes of the answer of a driver that was asked to close the file of a slot: it has closed
the file, or it has refused to. -/
inductive Closed (s : Store) (t : TableId) (fd : Nat) (entry : FdEntry) :
    Option Error → Progress → Store → Prop
  | vacated {st : TableState} {old : Slot} (ht : s.tableState? t = some st)
      (hslot : st.table.slots[fd]? = some old) :
      Closed s t fd entry none (.succeeded .done) (s.withTable t st (st.table.vacated fd))
  | restored {st : TableState} {old : Slot} {r : References} {e : Error}
      (ht : s.tableState? t = some st) (hslot : st.table.slots[fd]? = some old)
      (hrestore : s.references.restore entry.descriptor = .ok r) :
      Closed s t fd entry (some e) (.failed e)
        ((s.withReferences r).withTable t st (st.table.withSlot fd (.opened entry)))

/-- **The driver has closed** the file of a slot, or has refused to. -/
theorem ensures_closed (t : TableId) (fd : Nat) (entry : FdEntry) (failure : Option Error) :
    (closed t fd entry failure).Ensures s (Closed s t fd entry failure) := by
  cases failure with
  | none =>
      refine (ensures_note _).bind_same fun _ => (ensures_vacate t fd).mono ?_
      rintro p s' ⟨rfl, st, old, ht, hslot, rfl⟩
      exact .vacated ht hslot
  | some e =>
      refine (ensures_note _).bind_same fun _ => (ensures_editReferences _ _).bind ?_
      rintro _ _ ⟨r, hedit, rfl⟩
      obtain ⟨r', hrestore, he⟩ := Checked.exists_of_bind hedit
      cases he
      refine (ensures_editTable t _).bind ?_
      rintro _ _ ⟨st, table, ht, hset, rfl⟩
      obtain ⟨table', hset, he⟩ := Checked.exists_of_bind hset
      cases he
      obtain ⟨old, hslot, rfl⟩ := FdTable.exists_slot_of_setSlot hset
      exact ensures_pure (.restored ht hslot hrestore)

/-- **How closing the file of a slot begins**: how far the call gets, and which store it leaves. -/
inductive Shuts (s : Store) (t : TableId) (fd : Nat) : Progress → Store → Prop
  /-- The slot is not open. -/
  | refused {st : TableState} {e : Error} (ht : s.tableState? t = some st)
      (hget : st.table.get fd = .error e) : Shuts s t fd (.failed e) s
  /-- Other slots hold the file. -/
  | shared {st : TableState} {entry : FdEntry} {r : References} (ht : s.tableState? t = some st)
      (hslot : st.table.slots[fd]? = some (.opened entry))
      (hrelease : s.references.release entry.descriptor = .ok (.shared, r)) :
      Shuts s t fd (.succeeded .done) ((s.withTable t st (st.table.vacated fd)).withReferences r)
  /-- No other slot holds the file, and the built-in driver has nothing to close. -/
  | vacated {st : TableState} {entry : FdEntry} {r : References} {v : VfsId}
      (ht : s.tableState? t = some st) (hslot : st.table.slots[fd]? = some (.opened entry))
      (hrelease : s.references.release entry.descriptor = .ok (.last, r))
      (hdriver : entry.descriptor.record.driver = .directory v) :
      Shuts s t fd (.succeeded .done) ((s.withTable t st (st.table.vacated fd)).withReferences r)
  /-- No other slot holds the file, and its driver is asked to close it. -/
  | asks {st : TableState} {entry : FdEntry} {r : References} {driver : External}
      {cpu : Sync.Cpu LockId} (ht : s.tableState? t = some st)
      (hslot : st.table.slots[fd]? = some (.opened entry))
      (hrelease : s.references.release entry.descriptor = .ok (.last, r))
      (hdriver : entry.descriptor.record.driver = .external driver) :
      Shuts s t fd (.waiting (.close driver entry.descriptor.handle) (.closing t fd entry) cpu)
        ((s.withTable t st (st.table.withSlot fd .closing)).withReferences r)

/-- A slot is given up whose file was taken out to be closed. -/
theorem ensures_vacate_taken {st : TableState} (ht : s.tableState? t = some st) (r : References) :
    (vacate t fd).Ensures ((s.withTable t st (st.table.withSlot fd .closing)).withReferences r)
      fun p s' => p = .succeeded .done ∧
        s' = (s.withTable t st (st.table.vacated fd)).withReferences r := by
  refine (ensures_vacate t fd).mono ?_
  rintro p s' ⟨rfl, st', old', ht', -, rfl⟩
  cases ht'.symm.trans (Store.tableState?_withState_self ht _)
  rw [Store.withTable_withTable, FdTable.vacated_withSlot]
  exact ⟨rfl, rfl⟩

/-- **Closing the file of a slot** begins in one of these ways. -/
theorem ensures_closing (t : TableId) (fd : Nat) : (closeFile t fd).Ensures s (Shuts s t fd) := by
  refine (ensures_tryEditTable t _).bind ?_
  rintro _ _ ⟨st, ht, ⟨e, rfl, hclosing, rfl⟩ | ⟨entry, table, rfl, hclosing, rfl⟩⟩
  · cases hget : st.table.get fd with
    | error e' =>
        rw [FdTable.startClosing, hget] at hclosing
        cases hclosing
        exact ensures_pure (.refused ht hget)
    | ok entry =>
        rw [FdTable.startClosing, hget] at hclosing
        cases hclosing
  rcases st.table.startClosing_cases fd with ⟨e, he⟩ | ⟨entry', hslot, he⟩
  · rw [he] at hclosing
    cases hclosing
  rw [he] at hclosing
  cases hclosing
  refine (ensures_editReferences _ _).bind ?_
  rintro (_ | _) _ ⟨r, hrelease, rfl⟩
  · refine (ensures_vacate_taken ht r).mono ?_
    rintro _ _ ⟨rfl, rfl⟩
    exact .shared ht hslot hrelease
  · dsimp only
    cases hdriver : entry.descriptor.record.driver with
    | external driver => exact ensures_ask fun _ => .asks ht hslot hrelease hdriver
    | directory v =>
        refine (ensures_note _).bind_same fun _ => (ensures_vacate_taken ht r).mono ?_
        rintro _ _ ⟨rfl, rfl⟩
        exact .vacated ht hslot hrelease hdriver

/-- A slot that is given up lets nothing in. -/
theorem keeps_vacated {st : TableState} {old : Slot} (ht : s.tableState? t = some st)
    (hslot : st.table.slots[fd]? = some old) :
    s.Keeps (s.withTable t st (st.table.vacated fd)) :=
  Store.keeps_withSlot ht hslot (fun _ => Slot.noConfusion) rfl (FdTable.vacated_slots _ _)

/-- What comes of closing the file of a slot, as far as it has come. -/
theorem Shuts.effect {p : Progress} (h : Shuts s t fd p s') :
    FileEffect s (.begin (.close t fd)) p s' := by
  cases h with
  | refused => exact .settles _ rfl (.refl _)
  | shared ht hslot | vacated ht hslot =>
      exact .settles _ rfl ((keeps_vacated ht hslot).trans (Store.keeps_withReferences _ _))
  | @asks st entry r driver _ ht hslot hrelease hdriver =>
      have hkeeps : s.Keeps (s.withTable t st (st.table.withSlot fd .closing)) :=
        Store.keeps_withSlot ht hslot (fun _ => Slot.noConfusion) rfl rfl
      exact .closes (Option.bind_eq_some_iff.mpr ⟨_, ht, hslot⟩) ⟨_, hdriver, rfl⟩
        (hkeeps.trans (Store.keeps_withReferences _ _))

/-- What comes of the answer of the driver. -/
theorem Closed.effect {failure : Option Error} {reply : Reply} {p : Progress}
    (h : Closed s t fd entry failure p s') (hreply : ∀ e, failure = some e → reply = .failed e) :
    FileEffect s (.resume (.closing t fd entry) reply) p s' := by
  cases h with
  | vacated ht hslot => exact .settles _ rfl (keeps_vacated ht hslot)
  | restored ht hslot =>
      obtain rfl := hreply _ rfl
      exact .restores _ _ ht hslot

/-! ### Opening -/

/-- What comes of putting a file into a slot. -/
inductive Places (s : Store) (t : TableId) (entry : FdEntry) : Progress → Store → Prop
  | placed {st : TableState} {fd : Nat} (ht : s.tableState? t = some st)
      (hslot : st.table.slots[fd]? = some .free) :
      Places s t entry (.succeeded (.fd fd))
        ((s.withReferences s.references.create).withTable t st (st.table.installed fd entry))
  | refused {w : VfsId} {st : TableState}
      (hdriver : entry.descriptor.record.driver = .directory w)
      (ht : s.tableState? t = some st) (hfull : st.table.free = []) :
      Places s t entry (.failed .tooManyOpenFiles) (s.withReferences s.references.create)
  | abandoned {driver : External} {st : TableState} {cpu : Sync.Cpu LockId}
      (hdriver : entry.descriptor.record.driver = .external driver)
      (ht : s.tableState? t = some st) (hfull : st.table.free = []) :
      Places s t entry (.waiting (.close driver entry.descriptor.handle)
        (.abandoning t entry.descriptor.path) cpu) (s.withReferences s.references.create)

theorem ensures_newDescriptor (path : Path) (handle : Handle) (record : Record) :
    (newDescriptor path handle record).Ensures s fun d s' =>
      d = ⟨s.references.next, path, handle, record⟩ ∧
        s' = s.withReferences s.references.create := by
  intro k d k' hk h
  cases h
  exact ⟨by rw [← hk], by rw [← hk]; rfl⟩

theorem ensures_newHandle : newHandle.Ensures s fun handle s' =>
    handle = .external s.nextHandle ∧ s' = { s with nextHandle := s.nextHandle + 1 } := by
  intro k handle k' hk h
  cases h
  exact ⟨by rw [← hk], by rw [← hk]⟩

/-- **A file that is open** comes into the first free slot, if there is one. -/
theorem ensures_openedFile (t : TableId) (path : Path) (record : Record) (handle : Handle)
    (flags : OpenFlags) (mode : UInt32) :
    (openedFile t path record handle flags mode).Ensures s
      (Places s t ⟨⟨s.references.next, path, handle, record⟩, flags, mode⟩) := by
  refine (ensures_note _).bind_same fun _ => (ensures_newDescriptor path handle record).bind ?_
  rintro _ _ ⟨rfl, rfl⟩
  refine (ensures_tryEditTable t _).bind ?_
  rintro _ _ ⟨st, ht, ⟨e, rfl, hfull, rfl⟩ | ⟨fd, table, rfl, hinstall, rfl⟩⟩
  · obtain ⟨hfree, rfl⟩ := FdTable.install_eq_error hfull
    dsimp only
    cases hdriver : record.driver with
    | external driver => exact ensures_ask fun _ => .abandoned hdriver ht hfree
    | directory v => exact ensures_pure (.refused hdriver ht hfree)
  · obtain ⟨-, hslot, rfl⟩ := FdTable.install_eq_ok hinstall
    exact ensures_pure (.placed ht hslot)

/-- What comes of putting a file into a slot, once its driver knows it. -/
theorem Places.effect {s₁ : Store} {job : Job} {flags : OpenFlags} {mode : UInt32} {path : Path}
    {record : Record} {handle : Handle} {p : Progress}
    (r : Places s₁ t ⟨⟨s₁.references.next, path, handle, record⟩, flags, mode⟩ p s')
    (hjob : job.opening? = some (t, flags, mode)) (hknows : Knows s s₁ job path record handle)
    (h : s.Tries s₁) (hreferences : s₁.references = s.references) : FileEffect s job p s' := by
  cases r with
  | placed ht hslot =>
      rw [hreferences]
      rw [Store.tableState?, h.tables] at ht
      exact .places hjob (hknows.congr rfl) (h.withReferences _) ht hslot
  | refused => exact .misses _ hjob (h.withReferences _)
  | abandoned hdriver =>
      cases hknows with
      | external hdriver' =>
          cases hjob
          exact .abandons hdriver (h.withReferences _)
      | directory hdriver' _ _ _ =>
          rw [hdriver'] at hdriver
          cases hdriver

/-- **A driver has opened a file.** -/
theorem ensures_opened (t : TableId) (path : Path) {record : Record} (flags : OpenFlags)
    (mode : UInt32) {driver : External} (hdriver : record.driver = .external driver) :
    Ensures (do openedFile t path record (← newHandle) flags mode) s
      (FileEffect s (.resume (.opening t path record flags mode) .opened)) := by
  refine ensures_newHandle.bind ?_
  rintro _ _ ⟨rfl, rfl⟩
  refine (ensures_openedFile t path record _ flags mode).mono fun p s' r => ?_
  exact r.effect rfl (.external hdriver) ⟨rfl, rfl, id, rfl⟩ rfl

/-- A node is opened as a directory, if there is one. -/
theorem ensures_openDirectory (w : VfsId) (relative : Path) :
    (openDirectory w relative).Ensures s fun result s' => ∃ i, s.instances[w]? = some i ∧
      ((i.graph.contains relative = false ∧ result = .error .notFound ∧ s' = s) ∨
        i.graph.contains relative = true ∧ result = .ok (.directory s.openDirectories.size) ∧
          s' = { s with openDirectories := s.openDirectories.push ⟨relative, .start⟩ }) := by
  refine (ensures_onGraph w _).bind ?_
  rintro found _ ⟨⟨i, hi, hfound⟩, rfl⟩
  cases hfound
  split
  · rename_i hcontains
    intro k result k' hk h
    cases h
    exact ⟨i, hk ▸ hi, .inr ⟨hcontains, by rw [← hk], by rw [← hk]⟩⟩
  · exact ensures_pure ⟨i, hi, .inl ⟨Bool.eq_false_iff.mpr ‹_›, rfl, rfl⟩⟩

/-- **How opening a file begins**: how far the call gets, and which store it leaves. -/
inductive Begins (s : Store) (v : VfsId) (t : TableId) (path : Path) (flags : OpenFlags)
    (mode : UInt32) : Progress → Store → Prop
  | invalid (h : Path.absolute? path = none) : Begins s v t path flags mode
      (.failed .invalidArgument) s
  /-- Nobody serves the path. -/
  | missing {clean : Path} {i : Instance} {e : Error} (hclean : Path.absolute? path = some clean)
      (hi : s.instances[v]? = some i) (h : i.server clean = .error e) :
      Begins s v t path flags mode (.failed e) s
  /-- A driver from outside is asked. -/
  | asks {clean rest : Path} {record : Record} {driver : External} {cpu : Sync.Cpu LockId}
      (h : s.Directs v path clean record rest) (hdriver : record.driver = .external driver) :
      Begins s v t path flags mode (.waiting (.open driver rest flags mode)
        (.opening t clean record flags mode) cpu) s
  /-- The built-in driver has no node at the path that it is given. -/
  | unlisted {clean rest : Path} {record : Record} {w : VfsId} {i : Instance}
      (h : s.Directs v path clean record rest) (hdriver : record.driver = .directory w)
      (hi : s.instances[w]? = some i) (hmissing : i.graph.contains rest = false) :
      Begins s v t path flags mode (.failed .notFound) s
  /-- The built-in driver opens a node as a directory. -/
  | lists {clean rest : Path} {record : Record} {w : VfsId} {i : Instance} {p : Progress}
      {s' : Store} (h : s.Directs v path clean record rest)
      (hdriver : record.driver = .directory w) (hi : s.instances[w]? = some i)
      (hcontains : i.graph.contains rest = true)
      (hplaces : Places { s with openDirectories := s.openDirectories.push ⟨rest, .start⟩ } t
        ⟨⟨s.references.next, clean, .directory s.openDirectories.size, record⟩, flags, mode⟩ p s') :
      Begins s v t path flags mode p s'

variable {v : VfsId} {path clean rest : Path} {record : Record} {flags : OpenFlags} {mode : UInt32}

/-- The driver that serves the path is asked, or opens the node. -/
theorem ensures_openWith (h : s.Directs v path clean record rest) (t : TableId) (flags : OpenFlags)
    (mode : UInt32) :
    Ensures (match record.driver with
      | .external driver =>
        ask (.open driver rest flags mode) (.opening t clean record flags mode)
      | .directory w => do
        match ← openDirectory w rest with
        | .error e => return .failed e
        | .ok handle => openedFile t clean record handle flags mode) s
      (Begins s v t path flags mode) := by
  cases hdriver : record.driver with
  | external driver => exact ensures_ask fun _ => .asks h hdriver
  | directory w =>
      refine (ensures_openDirectory w rest).bind ?_
      rintro _ _ ⟨i, hi, ⟨hmissing, rfl, rfl⟩ | ⟨hcontains, rfl, rfl⟩⟩
      · exact ensures_pure (.unlisted h hdriver hi hmissing)
      · exact (ensures_openedFile t clean record _ flags mode).mono fun _ _ r =>
          .lists h hdriver hi hcontains r

/-- **Opening the file at a path** begins in one of these ways. -/
theorem ensures_opening (v : VfsId) (t : TableId) (path : Path) (flags : OpenFlags)
    (mode : UInt32) :
    (openFile v t path flags mode).Ensures s (Begins s v t path flags mode) := by
  rw [openFile]
  cases habs : Path.absolute? path with
  | none => exact ensures_pure (.invalid habs)
  | some clean =>
      refine (ensures_onGraph v _).bind ?_
      rintro (e | resolution) _ ⟨⟨i, hi, hresolve⟩, rfl⟩
      · exact ensures_pure (.missing habs hi (by rw [Instance.server, Except.ok.inj hresolve]; rfl))
      have hserver : i.server clean = .ok (i.recordOf resolution, resolution.relative clean) := by
        rw [Instance.server, Except.ok.inj hresolve]
        rfl
      cases resolution with
      | driver record offset => exact ensures_openWith ⟨habs, i, hi, hserver⟩ t flags mode
      | node =>
          have hdirectories : Section.Ensures (do return (← Section.getVfs v).directories) _
              fun record s' => record = i.directories ∧ s' = _ :=
            (Section.ensures_getVfs v).bind fun j _ h => Section.ensures_pure
              ⟨by cases hi.symm.trans h.1; rfl, h.2⟩
          refine (ensures_unlocked hdirectories).bind ?_
          rintro _ _ ⟨rfl, rfl⟩
          exact ensures_openWith ⟨habs, i, hi, hserver⟩ t flags mode

/-- What comes of opening a file, as far as it has come. -/
theorem Begins.effect {p : Progress} (h : Begins s v t path flags mode p s') :
    FileEffect s (.begin (.open v t path flags mode)) p s' := by
  cases h with
  | invalid => exact .misses _ rfl (.refl s)
  | missing => exact .misses _ rfl (.refl s)
  | asks h hdriver => exact .opens hdriver
  | unlisted => exact .misses _ rfl (.refl s)
  | lists h hdriver hi hcontains hplaces =>
      refine hplaces.effect rfl (.directory hdriver hi hcontains (by simp)) ⟨rfl, rfl, ?_, rfl⟩ rfl
      rintro n d hd
      rw [Array.getElem?_push, if_neg (Nat.ne_of_lt (Array.getElem?_eq_some_iff.mp hd).1)]
      exact hd

/-! ### Operations -/

/-- The entry of an open slot is given out exactly if it has the permission. -/
theorem ensures_permitted (t : TableId) (fd : Nat) (permission : OpenFlags) :
    (permitted t fd permission).Ensures s fun result s' => s' = s ∧
      ∀ entry, result = .ok entry ↔ s.slot? t fd = some (.opened entry) ∧
        entry.flags.contains permission = true := by
  refine (ensures_onTable t _).bind ?_
  rintro found s' ⟨⟨st, ht, hget⟩, rfl⟩
  cases hget
  have hslot : ∀ entry, s'.slot? t fd = some (.opened entry) ↔ st.table.get fd = .ok entry :=
    fun entry => by rw [FdTable.get_eq_ok_iff, Store.slot?, ht, Option.bind_some]
  simp only [hslot]
  cases st.table.get fd with
  | error e =>
      exact ensures_pure ⟨rfl, fun entry => ⟨fun he => (by cases he), fun h => by cases h.1⟩⟩
  | ok entry =>
      refine ensures_pure ⟨rfl, fun other => ?_⟩
      by_cases hcontains : entry.flags.contains permission = true
      · rw [if_pos hcontains]
        exact ⟨fun he => ⟨he, Except.ok.inj he ▸ hcontains⟩, And.left⟩
      · rw [if_neg hcontains]
        refine ⟨fun he => (by cases he), fun h => ?_⟩
        cases h.1
        exact absurd h.2 hcontains

/-- What comes of reading an open directory on. -/
inductive Advances (s : Store) (v : VfsId) (serial : Nat) : Except Error ReadDir → Store → Prop
  | ended {path : Path} (hd : s.openDirectories[serial]? = some ⟨path, .finished⟩) :
      Advances s v serial (.error .invalidArgument) s
  | failed {path : Path} {cursor : Cursor} {i : Instance} {e : Error}
      (hd : s.openDirectories[serial]? = some ⟨path, cursor⟩) (hcursor : cursor ≠ .finished)
      (hi : s.instances[v]? = some i) (hnext : i.graph.entryAfter path cursor.last? = .error e) :
      Advances s v serial (.error e) s
  | entry {path : Path} {cursor : Cursor} {i : Instance} {entry : DirEntry}
      (hd : s.openDirectories[serial]? = some ⟨path, cursor⟩) (hcursor : cursor ≠ .finished)
      (hi : s.instances[v]? = some i)
      (hnext : i.graph.entryAfter path cursor.last? = .ok (some entry)) :
      Advances s v serial (.ok (.entry entry)) { s with
        openDirectories := s.openDirectories.setIfInBounds serial ⟨path, .after entry.name⟩ }
  | finished {path : Path} {cursor : Cursor} {i : Instance}
      (hd : s.openDirectories[serial]? = some ⟨path, cursor⟩) (hcursor : cursor ≠ .finished)
      (hi : s.instances[v]? = some i)
      (hnext : i.graph.entryAfter path cursor.last? = .ok none) :
      Advances s v serial (.ok .finished) { s with
        openDirectories := s.openDirectories.setIfInBounds serial ⟨path, .finished⟩ }

/-- **Reading an open directory on** moves the cursor behind the entry, or keeps it. -/
theorem ensures_advance (v : VfsId) (serial : Nat) :
    (advance v serial).Ensures s (Advances s v serial) := by
  have hdirectory : (directory serial).Ensures s fun d s' =>
      s.openDirectories[serial]? = some d ∧ s' = s := by
    refine ensures_unlocked (Section.ensures_get.bind ?_)
    rintro _ _ ⟨rfl, rfl⟩
    exact Section.ensures_orUnknown _
  have hcursor : ∀ d cursor, (setCursor serial d cursor).Ensures s fun _ s' => s' =
      { s with openDirectories := s.openDirectories.setIfInBounds serial ⟨d.path, cursor⟩ } := by
    intro d cursor k u k' hk h
    cases h
    rw [← hk]
  refine hdirectory.bind ?_
  rintro ⟨path, cursor⟩ s' ⟨hd, rfl⟩
  cases cursor with
  | finished => exact ensures_pure (.ended hd)
  -- before the end, the graph tells the next entry
  | start | after =>
      refine (ensures_onGraph v _).bind ?_
      rintro (e | _ | entry) s'' ⟨⟨i, hi, hnext⟩, rfl⟩
      · exact ensures_pure (.failed hd Cursor.noConfusion hi (Except.ok.inj hnext))
      · refine (hcursor _ _).bind ?_
        rintro _ _ rfl
        exact ensures_pure (.finished hd Cursor.noConfusion hi (Except.ok.inj hnext))
      · refine (hcursor _ _).bind ?_
        rintro _ _ rfl
        exact ensures_pure (.entry hd Cursor.noConfusion hi (Except.ok.inj hnext))

/-- **An operation on an open file.** -/
theorem ensures_transfer (t : TableId) (fd : Nat) (op : Transfer) :
    (transfer t fd op).Ensures s (FileEffect s (.begin (.transfer t fd op))) := by
  refine (ensures_permitted t fd op.permission).bind ?_
  rintro (e | entry) s' ⟨rfl, hentry⟩
  · exact ensures_pure (.settles _ rfl (.refl s'))
  obtain ⟨hslot, hpermission⟩ := (hentry entry).mp rfl
  dsimp only
  cases hdriver : entry.descriptor.record.driver with
  | external driver => exact ensures_ask fun _ => .transfers hslot hpermission hdriver
  | directory v =>
      cases op with
      | readdir =>
          cases hhandle : entry.descriptor.handle with
          | external n => exact ensures_pure (.settles _ rfl (.refl s'))
          | directory serial =>
              refine (ensures_holding _ (ensures_advance v serial)).bind fun result s'' h => ?_
              cases h with
              | ended | failed => exact ensures_pure (.settles _ rfl (.refl _))
              | entry | finished =>
                  exact ensures_pure (.lists _ _ hslot hpermission hdriver hhandle)
      | read length => exact ensures_pure (.settles _ rfl (.refl s'))
      | write data => exact ensures_pure (.settles _ rfl (.refl s'))
      | control code argument => exact ensures_pure (.settles _ rfl (.refl s'))

/-! ### Questions -/

theorem ensures_filesystems (v : VfsId) : (filesystems v).Ensures s fun _ s' => s' = s :=
  ensures_locked _ ((Section.ensures_getVfs v).bind fun _ _ h => Section.ensures_pure h.2)

/-- **A question changes nothing.** -/
theorem ensures_query (q : Query) : (query q).Ensures s fun _ s' => s' = s := by
  have hgraph : ∀ {α : Type} (v : VfsId) (read : Mount.Graph Record → Checked α),
      (onGraph v read).Ensures s fun _ s' => s' = s := fun v read =>
    (ensures_onGraph v read).mono fun _ _ h => h.2
  have htable : ∀ {α : Type} (t : TableId) (read : FdTable → Checked α),
      (onTable t read).Ensures s fun _ s' => s' = s := fun t read =>
    (ensures_onTable t read).mono fun _ _ h => h.2
  have hclean : ∀ v path ask, (onClean v path ask).Ensures s fun _ s' => s' = s := by
    intro v path ask
    rw [onClean]
    cases Path.absolute? path with
    | none => exact ensures_pure rfl
    | some clean => exact (hgraph v _).bind_same fun _ => ensures_pure rfl
  cases q with
  | entry t fd =>
      refine (htable t _).bind_same ?_
      rintro (e | entry)
      · exact ensures_pure rfl
      · have hcount : (locked (.references entry.descriptor.id) do
            return (← get).references.count entry.descriptor.id).Ensures s fun _ s' => s' = s :=
          ensures_locked _ (Section.ensures_get.bind fun _ _ h => Section.ensures_pure h.2)
        exact hcount.bind_same fun _ => ensures_pure rfl
  | used t => exact (htable t _).bind_same fun _ => ensures_pure rfl
  | resolve v path => exact (hgraph v _).bind_same fun _ => ensures_pure rfl
  | contains v path => exact hclean v path _
  | isMounted v path => exact hclean v path _
  | mounts v => exact (hgraph v _).bind_same fun _ => ensures_pure rfl
  | nodeCount v => exact (hgraph v _).bind_same fun _ => ensures_pure rfl
  | filesystems v => exact (ensures_filesystems v).bind_same fun _ => ensures_pure rfl
  | hasFilesystem v fsType => exact (ensures_filesystems v).bind_same fun _ => ensures_pure rfl

/-! ### Every job -/

/-- Where a table is emptied or copied, or nothing is done for a file. -/
theorem Releases.effect {job : Job} {p : Progress} (r : Releases s p s')
    (hjob : job.opening? = none) (hslot : job.slot? = none) : FileEffect s job p s' := by
  cases r with
  | settles result h => exact .settles result hjob h
  | asks hopen hquestion hframe h => exact .empties hjob hslot hopen hquestion hframe h

theorem ensures_abandoned (path : Path) (failure : Option Error) :
    (abandoned path failure).Ensures s fun p s' => p = .failed .tooManyOpenFiles ∧ s' = s := by
  cases failure with
  | none => exact ensures_pure ⟨rfl, rfl⟩
  | some e => exact (ensures_note _).bind_same fun _ => ensures_pure ⟨rfl, rfl⟩

/-- Whatever the driver answers that had to close a file again, there was no slot for it. -/
theorem ensures_abandoning (t : TableId) (path : Path) (reply : Reply) :
    (resume (.abandoning t path) reply).Ensures s fun p s' =>
      p = .failed .tooManyOpenFiles ∧ s' = s := by
  cases reply with
  | failed e => exact ensures_abandoned path (some e)
  | _ => exact ensures_abandoned path none

/-- A call on files and tables. -/
theorem ensures_performFile {call : Call} (hmounts : (Job.begin call).mounts = false) :
    (perform call).Ensures s (FileEffect s (.begin call)) := by
  cases call with
  | query q => exact (ensures_query q).bind_same fun _ => ensures_pure (.settles _ rfl (.refl s))
  | createTable capacity =>
      exact (ensures_createTable capacity).bind fun _ _ h => ensures_pure (.settles _ rfl h)
  | copyTable t budget => exact (ensures_copyTable t budget).mono fun _ _ r => r.effect rfl rfl
  | destroyTable t => exact (ensures_destroyTable t).mono fun _ _ r => r.effect rfl rfl
  | dropTable t => exact (ensures_dropTable t).mono fun _ _ r => r.effect rfl rfl
  | «open» v t path flags mode =>
      exact (ensures_opening v t path flags mode).mono fun _ _ h => h.effect
  | close t fd => exact (ensures_closing t fd).mono fun _ _ h => h.effect
  | transfer t fd op => exact ensures_transfer t fd op
  | _ => cases hmounts

/-- A call on files and tables whose question has failed. -/
theorem ensures_recoverFile {frame : Frame} (hv : frame.Valid s)
    (hmounts : frame.table?.isNone = false) (e : Error) :
    (recover e frame).Ensures s (FileEffect s (.resume frame (.failed e))) := by
  cases frame with
  | opening t path record flags mode => exact ensures_pure (.misses e rfl (.refl s))
  | abandoning t path =>
      refine (ensures_abandoned path (some e)).mono ?_
      rintro _ _ ⟨rfl, rfl⟩
      exact .settles _ rfl (.refl _)
  | closing t fd entry =>
      refine (ensures_closed t fd entry (some e)).mono fun _ _ h => h.effect ?_
      rintro _ ⟨rfl⟩
      rfl
  | sweeping t purpose entry remaining next =>
      exact (ensures_sweepOn t purpose entry remaining next (some e)).mono fun _ _ r =>
        r.effect rfl rfl
  | unwinding t entry rest => exact hv.elim
  | transferring t op => exact ensures_pure (.settles _ rfl (.refl s))
  | _ => cases hmounts

/-- A call on files and tables whose question has been answered. -/
theorem ensures_proceedFile {frame : Frame} (hv : frame.Valid s)
    (hmounts : frame.table?.isNone = false) {reply : Reply} (hreply : ∀ e, reply ≠ .failed e)
    (ha : Machine.accepts s frame reply = true) :
    (proceed frame reply).Ensures s (FileEffect s (.resume frame reply)) := by
  cases frame with
  | opening t path record flags mode =>
      obtain ⟨-, driver, hdriver⟩ := hv
      cases reply with
      | opened => exact ensures_opened t path flags mode hdriver
      | failed e => exact absurd rfl (hreply e)
      | _ => cases ha
  | abandoning t path =>
      refine (ensures_abandoned path none).mono ?_
      rintro _ _ ⟨rfl, rfl⟩
      exact .settles _ rfl (.refl _)
  | closing t fd entry =>
      exact (ensures_closed t fd entry none).mono fun _ _ h => h.effect nofun
  | sweeping t purpose entry remaining next =>
      exact (ensures_sweepOn t purpose entry remaining next none).mono fun _ _ r =>
        r.effect rfl rfl
  | unwinding t entry rest => exact hv.elim
  | transferring t op =>
      rw [proceed]
      cases op.answer? reply with
      | some answer => exact ensures_pure (.settles _ rfl (.refl s))
      | none => exact ensures_throw _
  | _ => cases hmounts

end Action

/-- **Every job on files and tables** has one of these effects. -/
theorem Job.ensures_fileEffect {s : Store} {job : Job} (hmounts : job.mounts = false)
    (hresume : ∀ frame reply, job = .resume frame reply →
      frame.Valid s ∧ Machine.accepts s frame reply = true) :
    job.action.Ensures s (FileEffect s job) := by
  cases job with
  | begin call => exact Action.ensures_performFile hmounts
  | reject e => exact Action.ensures_pure (.settles _ rfl (.refl s))
  | resume frame reply =>
      obtain ⟨hv, ha⟩ := hresume frame reply rfl
      by_cases hreply : ∃ e, reply = .failed e
      · obtain ⟨e, rfl⟩ := hreply
        exact Action.ensures_recoverFile hv hmounts e
      · have hproceed := Action.ensures_proceedFile hv hmounts (fun e he => hreply ⟨e, he⟩) ha
        cases reply with
        | failed e => exact absurd ⟨e, rfl⟩ hreply
        | _ => exact hproceed

namespace FileEffect

variable {s s' : Store} {job : Job} {p : Progress} {question : HookCall} {frame : Frame}
  {cpu : Sync.Cpu LockId}

/-- A call on files that is suspended works on a table. -/
theorem table?_ne_none (h : FileEffect s job (.waiting question frame cpu) s') :
    frame.table? ≠ none := by
  cases h with
  | empties hjob hslot hopen hquestion hframe =>
      cases frame with
      | sweeping t purpose entry remaining next => exact nofun
      | unwinding t entry rest => exact nofun
      | _ => cases hframe
  | _ => exact nofun

/-- It mounts nothing. -/
theorem instances_eq (h : FileEffect s job p s') :
    s'.instances = s.instances ∧ s'.nextRecord = s.nextRecord := by
  cases h with
  | settles result hjob h => exact ⟨h.instances, h.nextRecord⟩
  | closes hslot hquestion h => exact ⟨h.instances, h.nextRecord⟩
  | empties hjob hslot hopen hquestion hframe h => exact ⟨h.instances, h.nextRecord⟩
  | misses e hjob h => exact ⟨h.instances, h.nextRecord⟩
  | abandons hdriver h => exact ⟨h.instances, h.nextRecord⟩
  | places hjob hknows h => exact ⟨h.instances, h.nextRecord⟩
  | _ => exact ⟨rfl, rfl⟩

/-- **Descriptor numbers stay small.** -/
theorem bounded (h : FileEffect s job p s') (hb : s.Bounded) : s'.Bounded := by
  cases h with
  | settles result hjob h => exact h.bounded hb
  | closes hslot hquestion h => exact h.bounded hb
  | empties hjob hslot hopen hquestion hframe h => exact h.bounded hb
  | restores e r ht hslot =>
      have hb' : (s.withReferences r).Bounded := hb.congr rfl
      exact hb'.withState ht fun _ he => by cases he; rfl
  | misses e hjob h => exact hb.congr h.tables
  | abandons hdriver h => exact hb.congr h.tables
  | places hjob hknows h ht hslot =>
      rw [Store.tableState?, ← h.tables] at ht
      exact (hb.congr h.tables).withState ht fun _ he => by cases he; rfl
  | _ => exact hb.congr rfl

end FileEffect

/-- What a suspended call relies on is so when it goes on, and the answer is one to its question. -/
theorem Machine.Sound.resumes {H : History} {m : Machine} (h : m.Sound H) {e : Event}
    {frame : Frame} {reply : Reply} {origin : Origin}
    (hjob : m.job? e = some (.resume frame reply, origin)) :
    frame.Valid m.kernel.store ∧ accepts m.kernel.store frame reply = true := by
  obtain ⟨-, hstack, ha⟩ := stack_of_job hjob
  exact ⟨h.valid ⟨frame, origin⟩ (hstack ▸ List.mem_cons_self), ha⟩

theorem Happens.resumes {past : List Moment} {now : Moment} (h : Happens past now) {frame : Frame}
    {reply : Reply} {origin : Origin}
    (hjob : now.before.job? now.event = some (.resume frame reply, origin)) :
    frame.Valid now.before.kernel.store ∧
      Machine.accepts now.before.kernel.store frame reply = true := by
  obtain ⟨H, r⟩ := h.before
  exact r.sound.resumes hjob

/-- **A job on files and tables** that is set going has one of these effects. -/
theorem Machine.Sound.ensures_fileEffect {H : History} {m : Machine} (h : m.Sound H) {e : Event}
    {job : Job} {origin : Origin} (hjob : m.job? e = some (job, origin))
    (hmounts : job.mounts = false) :
    job.action.Ensures m.kernel.store (FileEffect m.kernel.store job) :=
  Job.ensures_fileEffect hmounts fun _ _ he => h.resumes (he ▸ hjob)

/-- **A step on files and tables** of any run has one of these effects. -/
theorem Happens.fileEffect {past : List Moment} {now : Moment} (h : Happens past now) {job : Job}
    {origin : Origin} {p : Progress}
    (c : Machine.Carried now.before now.event now.outcome now.after job origin p)
    (hmounts : job.mounts = false) :
    FileEffect now.before.kernel.store job p now.after.kernel.store := by
  obtain ⟨H, r⟩ := h.before
  exact c.ensures (r.sound.ensures_fileEffect c.sets hmounts)

end VirtualFs

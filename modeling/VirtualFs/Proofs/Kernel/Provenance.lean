import VirtualFs.Proofs.Kernel.Questions

/-!
# Where open files come from

Every file that is open has been opened by its driver, which knows it by the handle that it gave out
then, and with the flags and the mode that the slot still has (`Moment.Makes`).  Copies of a table
share the file, a closing that fails puts it back, and what is mounted meanwhile is of no account.
So a driver is asked to use only what it has opened itself, and only as it was opened.

* `FileEffect.opened`, `FileEffect.asks_file`: what comes into slots and is asked about files.
* `Provenance.step`: what is known of open files after a step.
* `Action.transfer_denied`, `Happens.denied`: an operation without its permission.
* `files_have_provenance`: every moment of every run.
-/

namespace VirtualFs

namespace HookCall

/-- The open file that a driver is asked to use or to close: the driver and its handle. -/
def file? : HookCall → Option (External × Handle)
  | .close driver handle | .read driver handle _ | .write driver handle _ | .readdir driver handle
  | .control driver handle _ _ => some (driver, handle)
  | _ => none

/-- The permission that using an open file needs; closing it needs none. -/
def permission? : HookCall → Option OpenFlags
  | .write _ _ _ => some .permWrite
  | .read _ _ _ | .readdir _ _ | .control _ _ _ _ => some .permRead
  | _ => none

variable {question : HookCall} {entry : FdEntry} {driver : External} {handle : Handle}

theorem Closes.file? (h : question.Closes entry) (hfile : question.file? = some (driver, handle)) :
    entry.descriptor.record.driver = .external driver ∧ entry.descriptor.handle = handle ∧
      question.permission? = none := by
  obtain ⟨_, hdriver, rfl⟩ := h
  cases hfile
  exact ⟨hdriver, rfl, rfl⟩

end HookCall

theorem Transfer.question_file? (op : Transfer) (driver : External) (handle : Handle) :
    (op.question driver handle).file? = some (driver, handle) ∧
      (op.question driver handle).permission? = some op.permission := by
  cases op <;> exact ⟨rfl, rfl⟩

/-! ### What comes into slots -/

namespace Store

variable {s s' : Store} {t : TableId} {st : TableState} {fd i : Nat} {entry e : FdEntry}

/-- No file has come into a slot but this one. -/
def OpensOnly (s s' : Store) (fd : Nat) (entry : FdEntry) : Prop :=
  ∀ i e, s'.Open i e → s.Open i e ∨ i = fd ∧ e = entry

theorem opensOnly_withSlot (ht : s.tableState? t = some st) {old : Slot}
    (hslot : st.table.slots[fd]? = some old) {table : FdTable}
    (htable : table.slots = (st.table.withSlot fd (.opened entry)).slots) :
    s.OpensOnly (s.withTable t st table) fd entry := by
  rintro i e ⟨u, hu⟩
  rw [slot?_withSlot ht hslot htable] at hu
  split at hu
  · rename_i hui
    cases hu
    exact .inr ⟨hui.2, rfl⟩
  · exact .inl ⟨u, hu⟩

theorem Open.congr (htables : s'.tables = s.tables) (h : s'.Open fd entry) : s.Open fd entry := by
  obtain ⟨t, ht⟩ := h
  refine ⟨t, ?_⟩
  rw [slot?, tableState?, ← htables]
  exact ht

theorem Open.opens_pos (h : s.Open fd entry) : 0 < s.opens entry.descriptor := by
  obtain ⟨t, ht⟩ := h
  exact opens_pos_iff.mpr ⟨t, fd, entry, ht, rfl⟩

theorem Tries.size_le (h : s.Tries s') : s.openDirectories.size ≤ s'.openDirectories.size := by
  refine Nat.le_of_not_lt fun hlt => ?_
  have hget := h.openDirectories (Array.getElem?_eq_getElem hlt)
  rw [Array.getElem?_size] at hget
  cases hget

end Store

/-- **Which file comes into a slot** by the job: one that it opens, or one that its driver has
refused to close. -/
inductive Job.Fills (s s' : Store) (fd : Nat) (entry : FdEntry) : Job → Prop
  | placed {job : Job} {t : TableId} (hjob : job.opening? = some (t, entry.flags, entry.mode))
      (hknows : Knows s s' job entry.descriptor.path entry.descriptor.record
        entry.descriptor.handle) (hid : entry.descriptor.id = s.references.next) :
      Job.Fills s s' fd entry job
  | restored {t : TableId} (e : Error) :
      Job.Fills s s' fd entry (.resume (.closing t fd entry) (.failed e))

/-- The cursor of an open directory changes only where the directory is read on. -/
def Store.ReadsOn (s s' : Store) (job : Job) : Prop :=
  ∀ (serial : Nat) (d : Directory), s.openDirectories[serial]? = some d →
    s'.openDirectories[serial]? = some d ∨ ∃ t fd entry v,
      job = .begin (.transfer t fd .readdir) ∧ s.slot? t fd = some (.opened entry) ∧
      entry.flags.contains .permRead = true ∧ entry.descriptor.record.driver = .directory v ∧
      entry.descriptor.handle = .directory serial

namespace FileEffect

variable {s s' : Store} {job : Job} {p : Progress} {question : HookCall} {frame : Frame}
  {cpu : Sync.Cpu LockId} {t : TableId} {fd : Nat} {entry : FdEntry}

/-- **What comes into a slot.** -/
theorem opened (h : FileEffect s job p s') : (∀ {fd entry}, s'.Open fd entry → s.Open fd entry) ∨
    ∃ fd entry, s.OpensOnly s' fd entry ∧ job.Fills s s' fd entry := by
  cases h with
  | settles result hjob h => exact .inl h.opened
  | closes hslot hquestion h => exact .inl h.opened
  | empties hjob hslot hopen hquestion hframe h => exact .inl h.opened
  | @restores t fd entry st old e r ht hslot =>
      exact .inr ⟨fd, entry, Store.opensOnly_withSlot ht hslot rfl, .restored e⟩
  | misses e hjob h => exact .inl fun ho => ho.congr h.tables
  | abandons hdriver h => exact .inl fun ho => ho.congr h.tables
  | @places _ t flags mode path record handle st fd s₁ hjob hknows h ht hslot =>
      have ht' : s₁.tableState? t = some st := by
        rw [Store.tableState?, h.tables]
        exact ht
      have honly := Store.opensOnly_withSlot ht' hslot (FdTable.installed_slots st.table fd
        ⟨⟨s.references.next, path, handle, record⟩, flags, mode⟩)
      exact .inr ⟨fd, _, fun i e ho => (honly i e ho).imp_left fun ho => ho.congr h.tables,
        .placed hjob (hknows.congr rfl) rfl⟩
  | _ => exact .inl id

/-- **What is asked about a file**: it is open in a slot, with the permission; or it has been opened
just now and there is no slot for it. -/
theorem asks_file (h : FileEffect s job (.waiting question frame cpu) s') {driver : External}
    {handle : Handle} (hfile : question.file? = some (driver, handle)) :
    (∃ fd entry, s.Open fd entry ∧ entry.descriptor.record.driver = .external driver ∧
      entry.descriptor.handle = handle ∧ ∀ permission, question.permission? = some permission →
        entry.flags.contains permission = true) ∨
    ∃ t path record flags mode, job = .resume (.opening t path record flags mode) .opened ∧
      record.driver = .external driver ∧ handle = .external s.nextHandle ∧
      question.permission? = none := by
  cases h with
  | @closes t fd entry _ _ _ hslot hquestion =>
      obtain ⟨hdriver, hhandle, hnone⟩ := hquestion.file? hfile
      exact .inl ⟨fd, entry, ⟨t, hslot⟩, hdriver, hhandle, fun _ he => by cases hnone.symm.trans he⟩
  | @empties _ fd entry _ _ _ _ hjob hslot hopen hquestion =>
      obtain ⟨hdriver, hhandle, hnone⟩ := hquestion.file? hfile
      exact .inl ⟨fd, entry, hopen, hdriver, hhandle, fun _ he => by cases hnone.symm.trans he⟩
  | @transfers t fd op entry driver' _ hslot hpermission hdriver =>
      obtain ⟨hsame, hneeds⟩ := op.question_file? driver' entry.descriptor.handle
      cases hsame.symm.trans hfile
      refine .inl ⟨fd, entry, ⟨t, hslot⟩, hdriver, rfl, fun permission he => ?_⟩
      cases hneeds.symm.trans he
      exact hpermission
  | opens hdriver => cases hfile
  | @abandons t path record flags mode driver' _ _ hdriver =>
      cases hfile
      exact .inr ⟨t, path, record, flags, mode, rfl, hdriver, rfl, rfl⟩

/-- The file of a slot that is being closed was open. -/
theorem slot_of_closing (h : FileEffect s job (.waiting question (.closing t fd entry) cpu) s') :
    s.slot? t fd = some (.opened entry) := by
  cases h with
  | closes hslot => exact hslot
  | empties hjob hslot hopen hquestion hframe => cases hframe

/-- **Directories** stay open, and only a slot that may read one moves its cursor. -/
theorem readsOn (h : FileEffect s job p s') : s.ReadsOn s' job := by
  intro serial d hd
  cases h with
  | settles result hjob h => exact .inl (h.openDirectories ▸ hd)
  | closes hslot hquestion h => exact .inl (h.openDirectories ▸ hd)
  | empties hjob hslot hopen hquestion hframe h => exact .inl (h.openDirectories ▸ hd)
  | @lists t fd entry v n d' result hslot hpermission hdriver hhandle =>
      by_cases hn : n = serial
      · subst hn
        exact .inr ⟨t, fd, entry, v, rfl, hslot, hpermission, hdriver, hhandle⟩
      · exact .inl (by rw [Array.getElem?_setIfInBounds_ne hn, hd])
  | misses e hjob h => exact .inl (h.openDirectories hd)
  | abandons hdriver h => exact .inl (h.openDirectories hd)
  | places hjob hknows h => exact .inl (h.openDirectories hd)
  | _ => exact .inl hd

theorem size_le (h : FileEffect s job p s') :
    s.openDirectories.size ≤ s'.openDirectories.size := by
  cases h with
  | settles result hjob h => exact Nat.le_of_eq (by rw [h.openDirectories])
  | closes hslot hquestion h => exact Nat.le_of_eq (by rw [h.openDirectories])
  | empties hjob hslot hopen hquestion hframe h => exact Nat.le_of_eq (by rw [h.openDirectories])
  | lists => exact Nat.le_of_eq (by rw [Array.size_setIfInBounds])
  | misses e hjob h => exact h.size_le
  | abandons hdriver h => exact h.size_le
  | places hjob hknows h => exact h.size_le
  | _ => exact Nat.le_refl _

end FileEffect

/-- No filesystem is asked about open files. -/
theorem MountEffect.file?_eq_none {s s' : Store} {job : Job} {question : HookCall} {frame : Frame}
    (h : MountEffect s job (.waiting question frame cpu) s') : question.file? = none := by
  cases h <;> rfl

/-! ### What opens a file -/

/-- **The step opens a file**: its driver answers with a new handle, or the built-in driver opens a
directory.  The flags and the mode are those that the driver is asked with. -/
inductive Moment.Makes (n : Moment) (entry : FdEntry) : Prop
  | external {driver : External} {path : Path}
      (hdriver : entry.descriptor.record.driver = .external driver)
      (hanswered : n.answered? = some (.open driver path entry.flags entry.mode, .opened))
      (hhandle : n.opened? = some entry.descriptor.handle)
  | directory {v w : VfsId} {t : TableId} {path relative : Path} {origin : Origin} {i : Instance}
      (hdriver : entry.descriptor.record.driver = .directory w)
      (hjob : n.before.job? n.event =
        some (.begin (.open v t path entry.flags entry.mode), origin))
      (hhandle : entry.descriptor.handle =
        .directory n.before.kernel.store.openDirectories.size)
      (hi : n.before.kernel.store.instances[w]? = some i)
      (hcontains : i.graph.contains relative = true)
      (hopen : n.after.kernel.store.openDirectories[n.before.kernel.store.openDirectories.size]? =
        some ⟨relative, .start⟩)

/-- Some moment of the past has opened the file. -/
def Made (past : List Moment) (entry : FdEntry) : Prop := ∃ n ∈ past, n.Makes entry

theorem Made.append {past : List Moment} {entry : FdEntry} (h : Made past entry) (now : Moment) :
    Made (past ++ [now]) entry := by
  obtain ⟨n, hn, hmakes⟩ := h
  exact ⟨n, List.mem_append_left _ hn, hmakes⟩

/-- A driver from outside has answered. -/
theorem Moment.Makes.opened {n : Moment} {entry : FdEntry} (h : n.Makes entry) {driver : External}
    (hdriver : entry.descriptor.record.driver = .external driver) :
    (∃ path, n.answered? = some (.open driver path entry.flags entry.mode, .opened)) ∧
      n.opened? = some entry.descriptor.handle := by
  cases h with
  | external hdriver' hanswered hhandle =>
      cases hdriver'.symm.trans hdriver
      exact ⟨⟨_, hanswered⟩, hhandle⟩
  | directory hdriver' => cases hdriver'.symm.trans hdriver

/-- The handle under which a driver opens a file is the next one. -/
theorem Moment.opened?_eq {n : Moment} {handle : Handle} (h : n.opened? = some handle) :
    handle = .external n.before.kernel.store.nextHandle := by
  rw [Moment.opened?] at h
  split at h
  · exact (Option.some.inj h).symm
  · cases h

namespace Happens

variable {past : List Moment} {now : Moment} {job : Job} {origin : Origin} {p : Progress}
  {fd : Nat} {entry : FdEntry}

/-- What a driver knows of by a step has been opened in it. -/
theorem makes_of_knows (ha : Asking now.questions now.before.stack)
    (c : Machine.Carried now.before now.event now.outcome now.after job origin p) {t : TableId}
    (hjob : job.opening? = some (t, entry.flags, entry.mode))
    (hknows : Knows now.before.kernel.store now.after.kernel.store job entry.descriptor.path
      entry.descriptor.record entry.descriptor.handle) : now.Makes entry := by
  obtain ⟨⟨id, path, handle, record⟩, flags, mode⟩ := entry
  cases hknows with
  | external hdriver =>
      cases hjob
      obtain ⟨question, hanswered, driver, relative, hdriver', rfl⟩ := answers ha c
      refine .external hdriver' hanswered ?_
      rw [Moment.opened?, hanswered]
  | directory hdriver hi hcontains hopen =>
      cases hjob
      exact .directory hdriver c.sets rfl hi hcontains hopen

/-- What comes into a slot has been opened in this step, or was being closed. -/
theorem makes_of_fills (ha : Asking now.questions now.before.stack)
    (c : Machine.Carried now.before now.event now.outcome now.after job origin p)
    (hfills : job.Fills now.before.kernel.store now.after.kernel.store fd entry) :
    now.Makes entry ∨ ∃ t, ⟨.closing t fd entry, origin⟩ ∈ now.before.stack := by
  cases hfills with
  | placed hjob hknows hid => exact .inl (makes_of_knows ha c hjob hknows)
  | @restored t e =>
      obtain ⟨-, hstack, -⟩ := Machine.stack_of_job c.sets
      exact .inr ⟨t, hstack ▸ List.mem_cons_self⟩

/-- What comes into a slot is in no other. -/
theorem not_open_of_fills (h : Happens past now)
    (c : Machine.Carried now.before now.event now.outcome now.after job origin p)
    (hfills : job.Fills now.before.kernel.store now.after.kernel.store fd entry) {i : Nat}
    {e : FdEntry} (ho : now.before.kernel.store.Open i e) : e.descriptor ≠ entry.descriptor := by
  obtain ⟨H, r⟩ := h.before
  have b := r.sound.books
  intro he
  cases hfills with
  -- a new descriptor has a number above all others
  | placed hjob hknows hid =>
      have hlt := b.numbered (b.opened ho.opens_pos)
      rw [he, hid] at hlt
      exact Nat.lt_irrefl _ hlt
  -- a file that is being closed has no other slot
  | @restored t failure =>
      obtain ⟨-, hstack, -⟩ := Machine.stack_of_job c.sets
      have hmem : (⟨t, fd, entry⟩ : Closing) ∈ now.before.closings :=
        List.mem_filterMap.mpr ⟨_, hstack ▸ List.mem_cons_self, rfl⟩
      have hpos := ho.opens_pos
      rw [he, (b.idle _ hmem).2] at hpos
      exact Nat.lt_irrefl _ hpos

/-- **What comes into a slot** in a step. -/
theorem opened (h : Happens past now) (ha : Asking now.questions now.before.stack) :
    (∀ {i e}, now.after.kernel.store.Open i e → now.before.kernel.store.Open i e) ∨
    ∃ fd entry, now.before.kernel.store.OpensOnly now.after.kernel.store fd entry ∧
      (∀ {i e}, now.before.kernel.store.Open i e → e.descriptor ≠ entry.descriptor) ∧
      (now.Makes entry ∨ ∃ t origin, ⟨.closing t fd entry, origin⟩ ∈ now.before.stack) := by
  rcases Machine.step_cases h.step with ⟨-, -, hafter⟩ | ⟨job, origin, p, c⟩
  · exact .inl fun ho => hafter ▸ ho
  rcases h.effect c with hfile | hmount
  · refine hfile.opened.imp_right ?_
    rintro ⟨fd, entry, honly, hfills⟩
    exact ⟨fd, entry, honly, h.not_open_of_fills c hfills,
      (makes_of_fills ha c hfills).imp_right fun ⟨t, ht⟩ => ⟨t, origin, ht⟩⟩
  · exact .inl fun ho => ho.congr hmount.keepsFiles.tables

/-- What is suspended below a step was suspended before. -/
theorem mem_stack_of_mem_below {m : Machine} {e : Event} {pending : Pending}
    (hmem : pending ∈ m.below e) : pending ∈ m.stack := by
  cases e with
  | reply reply => exact List.mem_of_mem_tail hmem
  | _ => exact hmem

/-- **What is being closed** was being closed before, or was open in that slot. -/
theorem closing (h : Happens past now) {t : TableId}
    (hmem : ⟨.closing t fd entry, origin⟩ ∈ now.after.stack) :
    ⟨.closing t fd entry, origin⟩ ∈ now.before.stack ∨
      now.before.kernel.store.slot? t fd = some (.opened entry) := by
  rcases Machine.step_cases h.step with ⟨-, -, hafter⟩ | ⟨job, origin', p, c⟩
  · exact .inl (hafter ▸ hmem)
  cases p with
  | finished result => exact .inl (mem_stack_of_mem_below (c.ends.of_finished.2 ▸ hmem))
  | waiting question frame cpu =>
      rw [c.ends.of_waiting.2] at hmem
      rcases List.mem_cons.mp hmem with he | hmem
      · cases he
        rcases h.effect c with hfile | hmount
        · exact .inr hfile.slot_of_closing
        · cases hmount.table?_eq_none
      · exact .inl (mem_stack_of_mem_below hmem)

/-- Open directories are never forgotten. -/
theorem size_le (h : Happens past now) :
    now.before.kernel.store.openDirectories.size ≤ now.after.kernel.store.openDirectories.size := by
  rcases Machine.step_cases h.step with ⟨-, -, hafter⟩ | ⟨job, origin, p, c⟩
  · rw [hafter]
  rcases h.effect c with hfile | hmount
  · exact hfile.size_le
  · rw [hmount.keepsFiles.openDirectories]

end Happens

/-! ### Descriptors that have been in a slot -/

/-- After some moment of the past the descriptor has been in a slot. -/
def Seen (past : List Moment) (d : Descriptor) : Prop := ∃ n ∈ past, 0 < n.opens d

theorem Seen.append {past : List Moment} {d : Descriptor} (h : Seen past d) (now : Moment) :
    Seen (past ++ [now]) d := by
  obtain ⟨n, hn, hpos⟩ := h
  exact ⟨n, List.mem_append_left _ hn, hpos⟩

/-- What is in a slot, or is being closed, has been in a slot. -/
structure Witnessed (past : List Moment) (m : Machine) : Prop where
  opened : ∀ {d}, 0 < m.kernel.store.opens d → Seen past d
  closing : ∀ {t fd entry origin}, ⟨.closing t fd entry, origin⟩ ∈ m.stack →
    Seen past entry.descriptor

namespace Witnessed

variable {past : List Moment} {now : Moment}

theorem initial (word enableMask : Sync.Word) : Witnessed [] (.initial word enableMask) where
  opened hpos := by
    obtain ⟨t, fd, entry, hslot, -⟩ := Store.opens_pos_iff.mp hpos
    cases Machine.slot?_initial hslot
  closing hmem := by cases hmem

theorem step (h : Happens past now) (k : Witnessed past now.before) :
    Witnessed (past ++ [now]) now.after where
  opened hpos := ⟨now, List.mem_append_right _ List.mem_cons_self, hpos⟩
  closing hmem := by
    refine Seen.append ?_ now
    rcases h.closing hmem with hmem | hslot
    · exact k.closing hmem
    · exact k.opened (Store.Open.opens_pos ⟨_, hslot⟩)

end Witnessed

/-! ### Runs -/

/-- **What is known of open files** after the moments of the past. -/
structure Provenance (past : List Moment) (m : Machine) : Prop where
  made : ∀ {fd entry}, m.kernel.store.Open fd entry → Made past entry
  closing : ∀ {t fd entry origin}, ⟨.closing t fd entry, origin⟩ ∈ m.stack → Made past entry
  /-- Slots that hold one descriptor have one number and hold it with the same flags and mode. -/
  same : ∀ {i j e e'}, m.kernel.store.Open i e → m.kernel.store.Open j e' →
    e.descriptor = e'.descriptor → i = j ∧ e = e'
  directories : ∀ n ∈ past, ∀ entry, n.Makes entry → ∀ serial,
    entry.descriptor.handle = .directory serial → serial < m.kernel.store.openDirectories.size
  once : past.Pairwise fun n n' => ∀ e e', n.Makes e → n'.Makes e' →
    e.descriptor.handle ≠ e'.descriptor.handle

namespace Provenance

variable {past : List Moment} {now : Moment} {H : History}

theorem initial (word enableMask : Sync.Word) : Provenance [] (.initial word enableMask) where
  made := by
    rintro fd entry ⟨t, ht⟩
    cases Machine.slot?_initial ht
  closing h := by cases h
  same := by
    rintro i j e e' ⟨t, ht⟩
    cases Machine.slot?_initial ht
  directories n hn := by cases hn
  once := .nil

/-- **A handle is new** when a file is opened under it. -/
theorem fresh (k : Provenance past now.before) {questions : List HookCall}
    (r : Recalls H past now.before questions) {n : Moment} (hn : n ∈ past) {e e' : FdEntry}
    (h : n.Makes e) (h' : now.Makes e') : e.descriptor.handle ≠ e'.descriptor.handle := by
  intro he
  cases h' with
  -- handles from outside are told from the past by their number, open directories by theirs
  | external hdriver' hanswered' hhandle' =>
      have hnew := he.trans (Moment.opened?_eq hhandle')
      cases h with
      | external hdriver hanswered hhandle =>
          obtain ⟨serial, hlt, hserial⟩ := r.sound.books.given (r.given n hn _ hhandle)
          cases hserial.symm.trans hnew
          exact Nat.lt_irrefl _ hlt
      | directory hdriver hjob hhandle => cases hhandle.symm.trans hnew
  | directory hdriver' hjob' hhandle' =>
      exact Nat.lt_irrefl _ (k.directories n hn e h _ (he.trans hhandle'))

/-- **Every step** keeps what is known of open files. -/
theorem step (h : Happens past now) (ha : Asking now.questions now.before.stack)
    (k : Provenance past now.before) : Provenance (past ++ [now]) now.after where
  made := by
    intro fd entry ho
    rcases h.opened ha with hopened | ⟨fd₀, entry₀, honly, -, hmade⟩
    · exact (k.made (hopened ho)).append now
    · rcases honly fd entry ho with ho | ⟨rfl, rfl⟩
      · exact (k.made ho).append now
      · rcases hmade with hmakes | ⟨t, origin, hmem⟩
        · exact ⟨now, List.mem_append_right _ List.mem_cons_self, hmakes⟩
        · exact (k.closing hmem).append now
  closing hmem := by
    rcases h.closing hmem with hmem | hslot
    · exact (k.closing hmem).append now
    · exact (k.made ⟨_, hslot⟩).append now
  same := by
    intro i j e e' ho ho' he
    rcases h.opened ha with hopened | ⟨fd₀, entry₀, honly, hfresh, -⟩
    · exact k.same (hopened ho) (hopened ho') he
    · rcases honly i e ho with ho | ⟨rfl, rfl⟩ <;> rcases honly j e' ho' with ho' | ⟨rfl, rfl⟩
      · exact k.same ho ho' he
      · exact absurd he (hfresh ho)
      · exact absurd he.symm (hfresh ho')
      · exact ⟨rfl, rfl⟩
  directories n hn entry hmakes serial hserial := by
    rcases List.mem_append.mp hn with hn | hn
    · exact Nat.lt_of_lt_of_le (k.directories n hn entry hmakes serial hserial) h.size_le
    · cases List.mem_singleton.mp hn
      cases hmakes with
      | external hdriver hanswered hhandle =>
          cases hserial.symm.trans (Moment.opened?_eq hhandle)
      | directory hdriver hjob hhandle hi hcontains hopen =>
          cases hserial.symm.trans hhandle
          exact (Array.getElem?_eq_some_iff.mp hopen).1
  once := by
    obtain ⟨H, r⟩ := h.before
    refine List.pairwise_append.mpr ⟨k.once, List.pairwise_singleton _ _, ?_⟩
    intro n hn n' hn' e e' hmakes hmakes'
    cases List.mem_singleton.mp hn'
    exact k.fresh r hn hmakes hmakes'

end Provenance

/-! ### Operations without the permission -/

/-- What the journal says of a call that fails for lack of a permission. -/
def Origin.denials : Origin → List Notice
  | .direct => []
  | .process op => [.processFailed op .permissionDenied]

/-- **Without the permission** an operation does nothing. -/
theorem Action.transfer_denied {kernel : Kernel} {t : TableId} {fd : Nat} {op : Transfer}
    {entry : FdEntry} (hl : kernel.cpu.isLocked (.table t) = false)
    (hslot : kernel.store.slot? t fd = some (.opened entry))
    (hlacks : entry.flags.contains op.permission = false) :
    Action.transfer t fd op kernel = .ok (.failed .permissionDenied, kernel) := by
  obtain ⟨st, ht, hst⟩ := Option.bind_eq_some_iff.mp hslot
  have hget : onTable t (fun table => pure (table.get fd)) kernel = .ok (.ok entry, kernel) := by
    refine locked_eq hl (Section.bind_eq (Section.getTable_eq ht) ?_)
    dsimp only
    rw [FdTable.get_eq_ok_iff.mpr hst]
    rfl
  simp only [transfer, permitted, bind, StateT.bind, Except.bind, hget]
  rw [hlacks]
  rfl

/-- **A step without the permission** asks nothing and changes nothing but, for a process, the
journal. -/
theorem Happens.denied {past : List Moment} {now : Moment} (h : Happens past now) {t : TableId}
    {fd : Nat} {op : Transfer} {origin : Origin} {entry : FdEntry}
    (hjob : now.before.job? now.event = some (.begin (.transfer t fd op), origin))
    (hslot : now.before.kernel.store.slot? t fd = some (.opened entry))
    (hlacks : entry.flags.contains op.permission = false) :
    now.outcome = .returned (origin.receives (.error .permissionDenied)) ∧
      now.after = ⟨{ now.before.kernel with
        journal := now.before.kernel.journal ++ origin.denials }, now.before.stack⟩ := by
  obtain ⟨H, r⟩ := h.before
  have hl := Action.isLocked_of_held r.sound.unlocked (.table t)
  have hstep := h.step
  rw [Machine.step_eq, hjob] at hstep
  have hbelow : now.before.below now.event = now.before.stack :=
    Machine.below_of_job hjob fun _ _ => Job.noConfusion
  have hact : (Job.begin (.transfer t fd op)).action now.before.kernel =
      .ok (.failed .permissionDenied, now.before.kernel) :=
    Action.transfer_denied hl hslot hlacks
  simp only [Machine.run, hact, hbelow, bind, Except.bind, Progress.failed] at hstep
  cases origin with
  | direct =>
      obtain ⟨houtcome, hafter⟩ := Prod.mk.inj (Except.ok.inj hstep)
      rw [← houtcome, ← hafter, Origin.denials, List.append_nil]
      exact ⟨rfl, rfl⟩
  | process op =>
      obtain ⟨houtcome, hafter⟩ := Prod.mk.inj (Except.ok.inj hstep)
      rw [← houtcome, ← hafter]
      exact ⟨rfl, rfl⟩

/-! ### What drivers are asked -/

/-- **Open files have a provenance** now, after the moments of the past. -/
structure Moment.KeepsProvenance (past : List Moment) (now : Moment) : Prop where
  /-- No two steps open files under the same handle. -/
  once : (past ++ [now]).Pairwise fun n n' => ∀ e e', n.Makes e → n'.Makes e' →
    e.descriptor.handle ≠ e'.descriptor.handle
  /-- The file of an open slot has been opened by its driver under its handle, and with the flags
  and the mode of the slot. -/
  made : ∀ {t fd entry}, now.after.kernel.store.slot? t fd = some (.opened entry) →
    ∃ n ∈ past ++ [now], n.Makes entry
  /-- Slots of any tables that hold one descriptor have the same number and hold the same. -/
  same : ∀ {t u i j e e'}, now.after.kernel.store.slot? t i = some (.opened e) →
    now.after.kernel.store.slot? u j = some (.opened e') → e.descriptor.id = e'.descriptor.id →
    i = j ∧ e = e'
  /-- A driver is asked to use or to close a file only under a handle with which it has opened one
  itself, and to use it only if it was asked to open it with the permission. -/
  asked : ∀ {question driver handle}, now.outcome = .asked question →
    question.file? = some (driver, handle) → ∃ n ∈ past ++ [now], ∃ path flags mode,
      n.answered? = some (.open driver path flags mode, .opened) ∧ n.opened? = some handle ∧
      ∀ permission, question.permission? = some permission → flags.contains permission = true
  /-- An operation on a slot is asked of the driver of its file, under its handle. -/
  transfers : ∀ {t fd op origin question},
    now.before.job? now.event = some (.begin (.transfer t fd op), origin) →
    now.outcome = .asked question → ∃ entry driver,
      now.before.kernel.store.slot? t fd = some (.opened entry) ∧
      entry.descriptor.record.driver = .external driver ∧
      question = op.question driver entry.descriptor.handle
  /-- So is the closing of a slot. -/
  closes : ∀ {t fd origin question},
    now.before.job? now.event = some (.begin (.close t fd), origin) →
    now.outcome = .asked question → ∃ entry driver,
      now.before.kernel.store.slot? t fd = some (.opened entry) ∧
      entry.descriptor.record.driver = .external driver ∧
      question = .close driver entry.descriptor.handle
  /-- An open directory is read on only by an operation on a slot that holds it and may read. -/
  reads : ∀ {serial d}, now.before.kernel.store.openDirectories[serial]? = some d →
    now.after.kernel.store.openDirectories[serial]? = some d ∨ ∃ t fd origin entry v,
      now.before.job? now.event = some (.begin (.transfer t fd .readdir), origin) ∧
      now.before.kernel.store.slot? t fd = some (.opened entry) ∧
      entry.flags.contains .permRead = true ∧ entry.descriptor.record.driver = .directory v ∧
      entry.descriptor.handle = .directory serial
  /-- An operation on a slot that lacks the permission is denied: nothing is asked, and nothing
  changes but the journal, where it names the cause that a process does not get to see. -/
  denied : ∀ {t fd op origin entry},
    now.before.job? now.event = some (.begin (.transfer t fd op), origin) →
    now.before.kernel.store.slot? t fd = some (.opened entry) →
    entry.flags.contains op.permission = false →
    now.outcome = .returned (origin.receives (.error .permissionDenied)) ∧
      now.after = ⟨{ now.before.kernel with
        journal := now.before.kernel.journal ++ origin.denials }, now.before.stack⟩

namespace Happens

variable {past : List Moment} {now : Moment} {question : HookCall}

/-- **What a driver is asked about a file.** -/
theorem asked_file (h : Happens past now) (ha : Asking now.questions now.before.stack)
    (k : Provenance past now.before) (hasked : now.outcome = .asked question) {driver : External}
    {handle : Handle} (hfile : question.file? = some (driver, handle)) :
    ∃ n ∈ past ++ [now], ∃ path flags mode,
      n.answered? = some (.open driver path flags mode, .opened) ∧ n.opened? = some handle ∧
      ∀ permission, question.permission? = some permission → flags.contains permission = true := by
  obtain ⟨job, origin, frame, cpu, c⟩ := h.waits hasked
  rcases h.effect c with heffect | hmount
  · rcases heffect.asks_file hfile with
      ⟨fd, entry, ho, hdriver, rfl, hpermission⟩ |
      ⟨t, path, record, flags, mode, rfl, hdriver, rfl, hnone⟩
    · obtain ⟨n, hn, hmakes⟩ := k.made ho
      obtain ⟨⟨path, hanswered⟩, hopened⟩ := hmakes.opened hdriver
      exact ⟨n, List.mem_append_left _ hn, path, entry.flags, entry.mode, hanswered, hopened,
        hpermission⟩
    -- there is no slot for the file, and the handle is the one that the driver has just answered
    · obtain ⟨_, hanswered, driver', relative, hdriver', rfl⟩ := answers ha c
      cases hdriver.symm.trans hdriver'
      refine ⟨now, List.mem_append_right _ List.mem_cons_self, relative, flags, mode, hanswered,
        ?_, fun _ he => by cases hnone.symm.trans he⟩
      rw [Moment.opened?, hanswered]
  · cases hfile.symm.trans hmount.file?_eq_none

theorem transfers (h : Happens past now) {t : TableId} {fd : Nat} {op : Transfer} {origin : Origin}
    (hjob : now.before.job? now.event = some (.begin (.transfer t fd op), origin))
    (hasked : now.outcome = .asked question) : ∃ entry driver,
      now.before.kernel.store.slot? t fd = some (.opened entry) ∧
      entry.descriptor.record.driver = .external driver ∧
      question = op.question driver entry.descriptor.handle := by
  obtain ⟨job, origin', frame, cpu, c⟩ := h.waits hasked
  cases hjob.symm.trans c.sets
  have heffect := h.fileEffect c rfl
  generalize now.after.kernel.store = s' at heffect
  cases heffect with
  | transfers hslot hpermission hdriver => exact ⟨_, _, hslot, hdriver, rfl⟩
  | empties hjob hslot => cases hslot

theorem closes (h : Happens past now) {t : TableId} {fd : Nat} {origin : Origin}
    (hjob : now.before.job? now.event = some (.begin (.close t fd), origin))
    (hasked : now.outcome = .asked question) : ∃ entry driver,
      now.before.kernel.store.slot? t fd = some (.opened entry) ∧
      entry.descriptor.record.driver = .external driver ∧
      question = .close driver entry.descriptor.handle := by
  obtain ⟨job, origin', frame, cpu, c⟩ := h.waits hasked
  cases hjob.symm.trans c.sets
  cases h.fileEffect c rfl with
  | closes hslot hquestion =>
      obtain ⟨driver, hdriver, he⟩ := hquestion
      exact ⟨_, driver, hslot, hdriver, he⟩
  | empties hjob hslot => cases hslot

/-- **What is read of open directories.** -/
theorem reads (h : Happens past now) {serial : Nat} {d : Directory}
    (hd : now.before.kernel.store.openDirectories[serial]? = some d) :
    now.after.kernel.store.openDirectories[serial]? = some d ∨ ∃ t fd origin entry v,
      now.before.job? now.event = some (.begin (.transfer t fd .readdir), origin) ∧
      now.before.kernel.store.slot? t fd = some (.opened entry) ∧
      entry.flags.contains .permRead = true ∧ entry.descriptor.record.driver = .directory v ∧
      entry.descriptor.handle = .directory serial := by
  rcases Machine.step_cases h.step with ⟨-, -, hafter⟩ | ⟨job, origin, p, c⟩
  · exact .inl (hafter ▸ hd)
  rcases h.effect c with hfile | hmount
  · refine (hfile.readsOn serial d hd).imp_right ?_
    rintro ⟨t, fd, entry, v, rfl, hslot⟩
    exact ⟨t, fd, origin, entry, v, c.sets, hslot⟩
  · exact .inl (hmount.keepsFiles.openDirectories ▸ hd)

end Happens

/-- **Open files have a provenance** at every moment of every run: whatever tables are copied,
whatever is mounted and whatever drivers call while they are asked, a driver is asked to use only
files that it has opened itself, under the handles that it gave out, and only as they were
opened. -/
theorem files_have_provenance (word enableMask : Sync.Word) (events : List Event) :
    ∃ moments, (Machine.initial word enableMask).trace [] events = .ok moments ∧
      ∀ past now future, moments = past ++ now :: future → now.KeepsProvenance past := by
  obtain ⟨moments, htrace, hmoments⟩ := Recalls.reached_asking (I := Provenance)
    (fun h ha k => k.step h ha) word enableMask (.initial word enableMask) events
  refine ⟨moments, htrace, fun past now future he => ?_⟩
  obtain ⟨h, ha, k, k'⟩ := hmoments past now future he
  obtain ⟨H, r⟩ := h.after
  have b := r.sound.books
  exact
    { once := k'.once
      made := fun hslot => k'.made ⟨_, hslot⟩
      same := by
        intro t u i j e e' hslot hslot' hid
        have ho : now.after.kernel.store.Open i e := ⟨t, hslot⟩
        have ho' : now.after.kernel.store.Open j e' := ⟨u, hslot'⟩
        exact k'.same ho ho' (b.ids (b.opened ho.opens_pos) (b.opened ho'.opens_pos) hid)
      asked := fun hasked hfile => h.asked_file ha k hasked hfile
      transfers := h.transfers
      closes := h.closes
      reads := h.reads
      denied := h.denied }

/-- A file that is open for reading, in a copy of the table that it was opened in. -/
example : (do
    let ram : External := ⟨0, "ram"⟩
    let moments ← (Machine.initial 0 0).trace [] [.call (.createVfs 4),
      .call (.register 0 "/m".toList (.external ram) none), .call (.createTable 2),
      .call (.open 0 1 "/m/f".toList .readOnly 0), .reply .opened, .call (.copyTable 1 none),
      .call (.transfer 2 0 (.write [7])), .call (.transfer 2 0 (.read 8))]
    return (moments.drop 6).map fun n : Moment => n.outcome) =
    .ok [.returned (.error .permissionDenied), .asked (.read ⟨0, "ram"⟩ (.external 0) 8)] := by
  cbv

end VirtualFs

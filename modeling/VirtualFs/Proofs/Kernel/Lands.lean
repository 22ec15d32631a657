import VirtualFs.Proofs.Kernel.Books
import VirtualFs.Proofs.Kernel.Served

/-!
# Where an action lands

An action on the kernel ends with a result or with a question (`Progress`), and then the books
agree again, mount tables are in order, and whatever suspended calls rely on is still there.
`Action.Lands` is this contract: every action that a call begins or goes on with fulfils it.

* `Store.Spares`: from one store to another nothing is lost that a suspended call relies on.
* `Frame.Valid`, `Frame.Puts`: what a suspended call relies on, and which question it has put.
* `Action.Lands`: the contract; `Action.Lands.bind` puts two actions together.
-/

namespace VirtualFs

namespace Store

variable {s s' s'' : Store} {except : Option TableId} {t : TableId} {st : TableState}

/-- File systems stay, tables within reach stay so and keep their capacity, and tables out of reach
are not touched; nothing is said of table `except`. -/
structure Spares (except : Option TableId) (s s' : Store) : Prop where
  instances : s.instances.size ≤ s'.instances.size
  reachable : ∀ {t st}, except ≠ some t → s.tableState? t = some st → st.reachable = true →
    ∃ st', s'.tableState? t = some st' ∧ st'.reachable = true ∧
      st'.table.capacity = st.table.capacity
  unreachable : ∀ {t st}, except ≠ some t → s.tableState? t = some st → st.reachable = false →
    s'.tableState? t = some st

theorem Spares.refl (except : Option TableId) (s : Store) : Spares except s s where
  instances := Nat.le_refl _
  reachable _ h hr := ⟨_, h, hr, rfl⟩
  unreachable _ h _ := h

theorem Spares.trans (h : Spares except s s') (h' : Spares except s' s'') :
    Spares except s s'' where
  instances := Nat.le_trans h.instances h'.instances
  reachable hne ht hr := by
    obtain ⟨st', ht', hr', hc'⟩ := h.reachable hne ht hr
    obtain ⟨st'', ht'', hr'', hc''⟩ := h'.reachable hne ht' hr'
    exact ⟨st'', ht'', hr'', hc''.trans hc'⟩
  unreachable hne ht hr := h'.unreachable hne (h.unreachable hne ht hr) hr

/-- Where the tables are the same, nothing is lost. -/
theorem spares_of_tables (htables : s'.tables = s.tables)
    (hinstances : s.instances.size ≤ s'.instances.size) : Spares except s s' := by
  have hstate : s'.tableState? = s.tableState? := by
    funext t
    rw [tableState?, tableState?, htables]
  exact
    { instances := hinstances
      reachable := fun _ ht hr => ⟨_, hstate ▸ ht, hr, rfl⟩
      unreachable := fun _ ht _ => hstate ▸ ht }

theorem SameFiles.spares (h : s.SameFiles s') : Spares except s s' :=
  spares_of_tables h.tables (Nat.le_of_eq h.instances.symm)

/-- Another table in the place of one within reach, or of the excepted one. -/
theorem spares_withTable (ht : s.tableState? t = some st)
    (hr : st.reachable = true ∨ except = some t) {table : FdTable}
    (hc : table.capacity = st.table.capacity) : Spares except s (s.withTable t st table) where
  instances := Nat.le_refl _
  reachable {u st'} hne hu hr' := by
    rw [withTable, tableState?_withState ht]
    split
    · rename_i he
      subst he
      rw [ht] at hu
      cases hu
      exact ⟨_, rfl, hr', hc⟩
    · exact ⟨st', hu, hr', rfl⟩
  unreachable {u st'} hne hu hr' := by
    rw [withTable, tableState?_withState ht, if_neg]
    · exact hu
    · rintro rfl
      rw [ht] at hu
      cases hu
      rcases hr with hr | hr
      · rw [hr] at hr'
        cases hr'
      · exact hne hr

/-- Another state of the excepted table. -/
theorem spares_withState (ht : s.tableState? t = some st) (state : Option TableState) :
    Spares (some t) s (s.withState t state) where
  instances := Nat.le_refl _
  reachable {u st'} hne hu hr := by
    rw [tableState?_withState ht, if_neg fun e => hne (congrArg some e.symm)]
    exact ⟨st', hu, hr, rfl⟩
  unreachable {u st'} hne hu hr := by
    rw [tableState?_withState ht, if_neg fun e => hne (congrArg some e.symm)]
    exact hu

/-- A new table takes nothing away. -/
theorem spares_withNewTable (s : Store) (table : FdTable) :
    Spares except s (s.withNewTable table) where
  instances := Nat.le_refl _
  reachable {u st'} _ hu hr := by
    refine ⟨st', ?_, hr, rfl⟩
    rw [tableState?_withNewTable, if_neg (Nat.ne_of_lt (lt_size_of_tableState? hu))]
    exact hu
  unreachable {u st'} _ hu _ := by
    rw [tableState?_withNewTable, if_neg (Nat.ne_of_lt (lt_size_of_tableState? hu))]
    exact hu

/-- Reference counts are no matter. -/
theorem Spares.withReferences (h : Spares except s s') (r : References) :
    Spares except s (s'.withReferences r) :=
  ⟨h.instances, h.reachable, h.unreachable⟩

theorem isReachable_iff : s.isReachable t = true ↔
    ∃ st, s.tableState? t = some st ∧ st.reachable = true := by
  rw [isReachable, Option.any_eq_true]

end Store

/-! ### Suspended calls -/

/-- The handle that a driver is asked to close. -/
def HookCall.closes? : HookCall → Option Handle
  | .close _ handle => some handle
  | _ => none

/-- How far a table has been emptied, before slot `next`: a table within reach may have been filled
again, but one out of reach is free up to there, and no file of it is being closed. -/
def SweepPurpose.Reaches (next : Nat) (st : TableState) : SweepPurpose → Prop
  | .destroy => st.reachable = true
  | .drop => st.reachable = false ∧ (∀ fd < next, st.table.slots[fd]? = some .free) ∧
      ∀ fd : Nat, st.table.slots[fd]? ≠ some .closing

namespace Frame

/-- The file that is being closed from a slot. -/
def closing? : Frame → Option Closing
  | .closing t fd entry => some ⟨t, fd, entry⟩
  | _ => none

/-- The table that is being emptied to be forgotten. -/
def dropped? : Frame → Option TableId
  | .sweeping t .drop _ _ _ => some t
  | _ => none

/-- What a suspended call relies on. -/
def Valid (s : Store) : Frame → Prop
  | .opening t _ record _ _ => s.isReachable t = true ∧ ∃ driver, record.driver = .external driver
  | .closing t _ entry => s.isReachable t = true ∧
      ∃ driver, entry.descriptor.record.driver = .external driver
  | .sweeping t purpose _ remaining next => ∃ st, s.tableState? t = some st ∧
      next + remaining = st.table.capacity ∧ purpose.Reaches next st
  | .unwinding _ _ _ => False
  | .probing v _ _ _ _ | .mounting v _ _ _ => s.hasVfs v = true
  | .unmounting v _ record => s.hasVfs v = true ∧ s.hasDriver record.driver = true
  | .abandoning _ _ | .transferring _ _ | .undoing _ _ => True

/-- The question that a suspended call has put.  One that looks at the answer to a closing asks for
the handle of its slot; one that does not, for a handle that is then spent; the others ask for
something else. -/
def Puts (H H' : History) (question : HookCall) : Frame → Prop
  | .closing _ _ entry => question.closes? = some entry.descriptor.handle
  | .abandoning _ _ | .sweeping _ _ _ _ _ | .unwinding _ _ _ =>
      ∃ handle, question.closes? = some handle ∧ ¬ H.spent handle ∧ H'.spent handle
  | _ => question.closes? = none

variable {s s' : Store} {except : Option TableId} {frame : Frame}

/-- **A suspended call can still rely** on what it did, unless it was on the excepted table. -/
theorem Valid.spares (hv : frame.Valid s) (hs : s.Spares except s')
    (hexcept : ∀ {t}, frame.table? = some t → (∃ st, s.tableState? t = some st ∧
      (st.reachable = true ∨ frame.dropped? = some t)) → except ≠ some t) : frame.Valid s' := by
  have hvfs : ∀ {v}, s.hasVfs v = true → s'.hasVfs v = true := fun h =>
    decide_eq_true (Nat.lt_of_lt_of_le (decide_eq_true_eq.mp h) hs.instances)
  have hreach : ∀ {t}, frame.table? = some t → s.isReachable t = true →
      s'.isReachable t = true := fun {t} hf h => by
    obtain ⟨st, ht, hr⟩ := Store.isReachable_iff.mp h
    obtain ⟨st', ht', hr', -⟩ := hs.reachable (hexcept hf ⟨st, ht, .inl hr⟩) ht hr
    exact Store.isReachable_iff.mpr ⟨st', ht', hr'⟩
  cases frame with
  | opening t path record flags mode => exact ⟨hreach rfl hv.1, hv.2⟩
  | closing t fd entry => exact ⟨hreach rfl hv.1, hv.2⟩
  | sweeping t purpose entry remaining next =>
      obtain ⟨st, ht, hsize, hp⟩ := hv
      cases purpose with
      | destroy =>
          obtain ⟨st', ht', hr', hc'⟩ := hs.reachable (hexcept rfl ⟨st, ht, .inl hp⟩) ht hp
          exact ⟨st', ht', hsize.trans hc'.symm, hr'⟩
      | drop =>
          exact ⟨st, hs.unreachable (hexcept rfl ⟨st, ht, .inr rfl⟩) ht hp.1, hsize, hp⟩
  | unwinding t entry rest => exact hv
  | probing v path device fs rest => exact hvfs hv
  | mounting v path device fs => exact hvfs hv
  | unmounting v path record => exact ⟨hvfs hv.1, Store.hasDriver_mono hs.instances hv.2⟩
  | _ => trivial

end Frame

namespace Progress

/-- The file whose closing is now waited for. -/
def closings : Progress → List Closing
  | .finished _ => []
  | .waiting _ frame _ => frame.closing?.toList

/-- The handle that a driver is now asked to close. -/
def closes? : Progress → Option Handle
  | .finished _ => none
  | .waiting question _ _ => question.closes?

end Progress

/-! ### The contract -/

/-- What is remembered afterwards, where no closing was asked for but that of the handle
`closes`. -/
structure History.Leads (H : History) (closes : Option Handle) (H' : History) : Prop where
  installed : ∀ {d}, H.installed d → H'.installed d
  given : ∀ {h}, H.given h → H'.given h
  asked : ∀ {h}, H'.asked h → H.asked h ∨ closes = some h
  spent : ∀ {h}, H.spent h → H'.spent h

theorem History.Leads.refl (H : History) (closes : Option Handle) : H.Leads closes H :=
  ⟨id, id, .inl, id⟩

/-- Asking a driver to close a handle. -/
theorem History.leads_ask (H : History) (handle : Handle) :
    H.Leads (some handle) (H.ask handle) where
  installed := id
  given := id
  asked h := by
    rcases h with rfl | h
    · exact .inr rfl
    · exact .inl h
  spent := id

/-- A descriptor comes into a slot. -/
theorem History.leads_install (H : History) (d : Descriptor) : H.Leads none (H.install d) where
  installed := .inr
  given := id
  asked := .inl
  spent := id

/-- The store after an action: how it is related to the one before. -/
structure Landed (H : History) (C : List Closing) (except : Option TableId) (s : Store)
    (p : Progress) (s' : Store) : Prop where
  exists_books : ∃ H', H.Leads p.closes? H' ∧ Books H' (p.closings ++ C) s' ∧
    ∀ question frame cpu, p = .waiting question frame cpu → frame.Puts H H' question
  served : s'.Served
  spares : s.Spares except s'
  waits : ∀ question frame cpu, p = .waiting question frame cpu → frame.Valid s' ∧
    ∀ t, frame.dropped? = some t → except = some t

namespace Action

variable {α : Type} {cpu : Sync.Cpu LockId} {H : History} {C : List Closing}
  {except : Option TableId} {s s' : Store} {t : TableId} {st : TableState}

/-- The action stops with no fault, and the books agree afterwards.  A question is put with the
processor as it was at the beginning. -/
def Lands (act : Action Progress) (cpu : Sync.Cpu LockId) (H : History) (C : List Closing)
    (except : Option TableId) (s : Store) : Prop :=
  ∃ p s', act.Yields cpu s p s' ∧ p.cpu cpu = cpu ∧ Landed H C except s p s'

/-- A result, and more to remember. -/
theorem lands_leading {H' : History} {act : Action Progress} {r : Except Error Answer}
    (hy : act.Yields cpu s (.finished r) s') (hleads : H.Leads none H') (b : Books H' C s')
    (k : s'.Served) (hs : s.Spares except s') : act.Lands cpu H C except s :=
  ⟨.finished r, s', hy, rfl,
    ⟨H', hleads, b, fun _ _ _ e => by cases e⟩, k, hs, fun _ _ _ e => by cases e⟩

/-- A result with the books as they are. -/
theorem lands_finished {act : Action Progress} {r : Except Error Answer}
    (hy : act.Yields cpu s (.finished r) s') (b : Books H C s') (k : s'.Served)
    (hs : s.Spares except s') : act.Lands cpu H C except s :=
  lands_leading hy (.refl H none) b k hs

/-- A question that is not about closing. -/
theorem lands_waiting {act : Action Progress} {question : HookCall} {frame : Frame}
    (hy : act.Yields cpu s (.waiting question frame cpu) s') (b : Books H C s') (k : s'.Served)
    (hs : s.Spares except s') (hv : frame.Valid s') (hclosing : frame.closing? = none)
    (hdropped : frame.dropped? = none) (hputs : frame.Puts H H question) :
    act.Lands cpu H C except s := by
  have hb : Books H ((Progress.waiting question frame cpu).closings ++ C) s' := by
    rw [Progress.closings, hclosing]
    exact b
  refine ⟨_, s', hy, rfl, ⟨H, .refl H _, hb, fun q f c e => ?_⟩, k, hs, fun q f c e => ?_⟩
  · cases e
    exact hputs
  · cases e
    exact ⟨hv, fun t ht => by rw [hdropped] at ht; cases ht⟩

/-- A driver is asked to close a handle that no slot holds any more, whatever it answers. -/
theorem lands_spending {act : Action Progress} {handle : Handle} (driver : External)
    (frame : Frame) (hy : act.Yields cpu s (.waiting (.close driver handle) frame cpu) s')
    (b : Books ((H.ask handle).spend handle) C s') (k : s'.Served) (hs : s.Spares except s')
    (hv : frame.Valid s') (hclosing : frame.closing? = none)
    (hdropped : ∀ t, frame.dropped? = some t → except = some t)
    (hputs : frame.Puts H ((H.ask handle).spend handle) (.close driver handle)) :
    act.Lands cpu H C except s := by
  have hb : Books ((H.ask handle).spend handle)
      ((Progress.waiting (.close driver handle) frame cpu).closings ++ C) s' := by
    rw [Progress.closings, hclosing]
    exact b
  have hleads := H.leads_ask handle
  refine ⟨_, s', hy, rfl, ⟨(H.ask handle).spend handle,
    ⟨hleads.installed, hleads.given, hleads.asked, .inr⟩, hb, ?_⟩, k, hs, ?_⟩
  · rintro question f c he
    cases he
    exact hputs
  · rintro question f c he
    cases he
    exact ⟨hv, hdropped⟩

/-- A driver is asked to close the file of a slot, and the answer will be looked at. -/
theorem lands_closing {act : Action Progress} (driver : External) {fd : Nat} {entry : FdEntry}
    (hy : act.Yields cpu s
      (.waiting (.close driver entry.descriptor.handle) (.closing t fd entry) cpu) s')
    (b : Books (H.ask entry.descriptor.handle) (⟨t, fd, entry⟩ :: C) s') (k : s'.Served)
    (hs : s.Spares except s') (hv : (Frame.closing t fd entry).Valid s') :
    act.Lands cpu H C except s := by
  refine ⟨_, s', hy, rfl, ⟨H.ask entry.descriptor.handle, H.leads_ask _, b, ?_⟩, k, hs, ?_⟩
  · rintro question frame c he
    cases he
    rfl
  · rintro question frame c he
    cases he
    exact ⟨hv, nofun⟩

/-- **One action after another.** -/
theorem Lands.bind {act : Action α} {f : α → Action Progress} {a : α}
    (h : act.Yields cpu s a s') (hs : s.Spares except s') (hf : (f a).Lands cpu H C except s') :
    (act >>= f).Lands cpu H C except s := by
  obtain ⟨p, s'', hy, hcpu, hl⟩ := hf
  exact ⟨p, s'', h.bind hy, hcpu, hl.exists_books, hl.served, hs.trans hl.spares, hl.waits⟩

/-- An action that leaves the store, and another after it. -/
theorem Lands.bind_same {act : Action α} {f : α → Action Progress} {a : α}
    (h : act.Yields cpu s a s) (hf : (f a).Lands cpu H C except s) :
    (act >>= f).Lands cpu H C except s :=
  Lands.bind h (.refl except s) hf

/-- A result with nothing done. -/
theorem lands_pure (b : Books H C s) (k : s.Served) (result : Except Error Answer) :
    Lands (pure (.finished result)) cpu H C except s :=
  lands_finished (yields_pure _) b k (.refl except s)

/-- The reference of an open slot is released: it was the last, or there are others. -/
theorem yields_release (b : Books H C s) (hcpu : cpu.held = []) (ht : s.tableState? t = some st)
    {fd : Nat} {entry : FdEntry} (hslot : st.table.slots[fd]? = some (.opened entry))
    (table : FdTable) :
    ∃ outcome, (editReferences entry.descriptor fun r => r.release entry.descriptor).Yields cpu
        (s.withTable t st table) outcome
        ((s.withTable t st table).withReferences (s.references.less entry.descriptor)) ∧
      (outcome = .last ↔ s.opens entry.descriptor = 1) := by
  have hcount := b.counted (b.opened (Books.opens_pos ht hslot))
  rcases References.release_cases (b.count_pos ht hslot) with ⟨hone, hrelease⟩ | ⟨hmore, hrelease⟩
  · exact ⟨.last, yields_editReferences (isLocked_of_held hcpu _) hrelease,
      iff_of_true rfl (hcount ▸ hone)⟩
  · exact ⟨.shared, yields_editReferences (isLocked_of_held hcpu _) hrelease,
      iff_of_false Release.noConfusion (hcount ▸ Nat.ne_of_gt hmore)⟩

end Action

/-- The books do not look at mount tables. -/
theorem Books.sameFiles {H : History} {C : List Closing} {s s' : Store} (b : Books H C s)
    (h : s.SameFiles s') : Books H C s' :=
  b.congr h.tables (fun _ => by rw [h.references]) (Nat.le_of_eq (by rw [h.references]))
    h.nextHandle (Nat.le_of_eq (by rw [h.openDirectories])) (Nat.le_of_eq h.instances.symm)

end VirtualFs

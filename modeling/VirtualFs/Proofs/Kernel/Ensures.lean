import VirtualFs.Proofs.Kernel.Mounting
import VirtualFs.Proofs.Kernel.Slots

/-!
# What every end of an action satisfies

`act.Ensures s Q` says that `Q` holds of the answer and of the store whenever the action, begun with
the store `s`, comes to an end.  It says nothing of faults, and so asks for nothing: neither that
locks are free nor that the books agree.  Together with the fact that no step is a fault it tells
what a step does.

* `Ensures.bind`: one action after the other.
* `ensures_editTable`, `ensures_tryEditTable`, `ensures_editReferences`, `ensures_editGraph`: what
  an edit under its lock comes to.
* `ensures_registering`: what registering a driver comes to.
-/

namespace VirtualFs

variable {α β : Type} {s : Store} {a : α}

/-- A computation that ends has ended in its first part. -/
theorem Checked.exists_of_bind {c : Checked α} {f : α → Checked β} {b : β}
    (h : c >>= f = .ok b) : ∃ a, c = .ok a ∧ f a = .ok b := by
  cases c with
  | error e => cases h
  | ok a => exact ⟨a, rfl, h⟩

/-! ### Sections -/

namespace Section

/-- Whatever the section answers, and whatever store it leaves, satisfies `Q`. -/
def Ensures (sec : Section α) (s : Store) (Q : α → Store → Prop) : Prop :=
  ∀ a s', sec s = .ok (a, s') → Q a s'

variable {sec : Section α} {f : α → Section β} {P Q : α → Store → Prop} {R : β → Store → Prop}

theorem Ensures.bind (h : sec.Ensures s P) (hf : ∀ a s', P a s' → (f a).Ensures s' R) :
    (sec >>= f).Ensures s R := by
  intro b s'' hb
  obtain ⟨⟨a, s'⟩, ha, hb⟩ := Checked.exists_of_bind hb
  exact hf a s' (h a s' ha) b s'' hb

theorem ensures_pure (h : Q a s) : (pure a : Section α).Ensures s Q := by
  intro b s' hb
  cases hb
  exact h

theorem ensures_lift (c : Checked α) :
    (liftM c : Section α).Ensures s fun a s' => c = .ok a ∧ s' = s := by
  intro a s' ha
  obtain ⟨b, hb, he⟩ := Checked.exists_of_bind ha
  cases he
  exact ⟨hb, rfl⟩

theorem ensures_orUnknown (o : Option α) :
    (orUnknown o).Ensures s fun a s' => o = some a ∧ s' = s := by
  cases o with
  | none => exact nofun
  | some a => exact ensures_pure ⟨rfl, rfl⟩

theorem ensures_get : (get : Section Store).Ensures s fun a s' => a = s ∧ s' = s := by
  intro a s' h
  cases h
  exact ⟨rfl, rfl⟩

theorem ensures_getVfs (v : VfsId) :
    (getVfs v).Ensures s fun i s' => s.instances[v]? = some i ∧ s' = s := by
  refine ensures_get.bind ?_
  rintro _ _ ⟨rfl, rfl⟩
  exact ensures_orUnknown _

theorem ensures_getTable (t : TableId) :
    (getTable t).Ensures s fun table s' =>
      (∃ st, s.tableState? t = some st ∧ table = st.table) ∧ s' = s := by
  refine ensures_get.bind ?_
  rintro _ _ ⟨rfl, rfl⟩ table s' h
  obtain ⟨htable, he⟩ := ensures_orUnknown _ _ _ h
  obtain ⟨st, ht, hst⟩ := Option.map_eq_some_iff.mp htable
  exact ⟨⟨st, ht, hst.symm⟩, he⟩

theorem ensures_setTable {t : TableId} {st : TableState} (ht : s.tableState? t = some st)
    (table : FdTable) : (setTable t table).Ensures s fun _ s' => s' = s.withTable t st table := by
  intro u s' h
  rw [setTable_eq ht] at h
  cases h
  rfl

theorem ensures_editGraph (v : VfsId)
    (edit : Mount.Graph Record → Checked (Mount.Edit Record α)) :
    (editGraph v edit).Ensures s fun p s' => ∃ i g, s.instances[v]? = some i ∧
      edit i.graph = .ok ⟨g, p.1, p.2⟩ ∧ s' = s.withGraph v i g := by
  refine (ensures_getVfs v).bind ?_
  rintro i _ ⟨hi, rfl⟩
  refine (ensures_lift _).bind ?_
  rintro ⟨g, changes, a⟩ _ ⟨hedit, rfl⟩ p s' h
  cases h
  exact ⟨i, g, hi, hedit, rfl⟩

end Section

/-! ### Actions -/

namespace Action

/-- Whatever the action answers, and whatever store it leaves, satisfies `Q`. -/
def Ensures (act : Action α) (s : Store) (Q : α → Store → Prop) : Prop :=
  ∀ k a k', k.store = s → act k = .ok (a, k') → Q a k'.store

variable {act : Action α} {f : α → Action β} {P Q : α → Store → Prop} {R : β → Store → Prop}

theorem Ensures.mono (h : act.Ensures s P) (hPQ : ∀ a s', P a s' → Q a s') : act.Ensures s Q :=
  fun k a k' hk ha => hPQ a _ (h k a k' hk ha)

/-- What an action comes to satisfies what it ensures. -/
theorem Yields.ensures {cpu : Sync.Cpu LockId} {s' : Store} {a : α} (h : act.Yields cpu s a s')
    (hQ : act.Ensures s Q) : Q a s' := by
  obtain ⟨journal, h⟩ := h []
  exact hQ _ a _ rfl h

/-- **One action after another.** -/
theorem Ensures.bind (h : act.Ensures s P) (hf : ∀ a s', P a s' → (f a).Ensures s' R) :
    (act >>= f).Ensures s R := by
  intro k b k'' hk hb
  obtain ⟨⟨a, k'⟩, ha, hb⟩ := Checked.exists_of_bind hb
  exact hf a _ (h k a k' hk ha) k' b k'' rfl hb

/-- An action that leaves the store, and another after it. -/
theorem Ensures.bind_same (h : act.Ensures s fun _ s' => s' = s) (hf : ∀ a, (f a).Ensures s R) :
    (act >>= f).Ensures s R :=
  h.bind fun a _ he => he ▸ hf a

theorem ensures_pure (h : Q a s) : (pure a : Action α).Ensures s Q := by
  intro k b k' hk hb
  cases hb
  exact hk ▸ h

theorem ensures_ask {question : HookCall} {frame : Frame} {Q : Progress → Store → Prop}
    (h : ∀ cpu, Q (.waiting question frame cpu) s) : (ask question frame).Ensures s Q := by
  intro k p k' hk hp
  cases hp
  exact hk ▸ h k.cpu

theorem ensures_throw (e : Fault) : (throw e : Action α).Ensures s Q := by
  intro k b k' hk hb
  cases hb

theorem ensures_note (n : Notice) : (note n).Ensures s fun _ s' => s' = s := by
  intro k u k' hk h
  cases h
  exact hk

theorem ensures_noteChanges (changes : List Mount.Change) :
    (noteChanges changes).Ensures s fun _ s' => s' = s := by
  intro k u k' hk h
  cases h
  exact hk

theorem ensures_unlocked {sec : Section α} (h : sec.Ensures s Q) :
    (unlocked sec).Ensures s Q := by
  intro k a k' hk ha
  obtain ⟨⟨b, s'⟩, hb, he⟩ := Checked.exists_of_bind ha
  cases he
  exact h _ _ (hk ▸ hb)

theorem ensures_locked (l : LockId) {sec : Section α} (h : sec.Ensures s Q) :
    (locked l sec).Ensures s Q := by
  intro k a k' hk ha
  rw [locked] at ha
  cases hl : k.cpu.lock? l with
  | none =>
      rw [hl] at ha
      cases ha
  | some cpu =>
      rw [hl] at ha
      obtain ⟨⟨b, s'⟩, hb, he⟩ := Checked.exists_of_bind ha
      cases he
      exact h _ _ (hk ▸ hb)

theorem ensures_holding (l : LockId) (h : act.Ensures s Q) : (holding l act).Ensures s Q := by
  intro k a k' hk ha
  rw [holding] at ha
  cases hl : k.cpu.lock? l with
  | none =>
      rw [hl] at ha
      cases ha
  | some cpu =>
      rw [hl] at ha
      obtain ⟨⟨b, k''⟩, hb, he⟩ := Checked.exists_of_bind ha
      cases he
      exact h { k with cpu := cpu } a k'' hk hb

/-! ### Reading and editing -/

theorem ensures_onGraph (v : VfsId) (read : Mount.Graph Record → Checked α) :
    (onGraph v read).Ensures s fun a s' =>
      (∃ i, s.instances[v]? = some i ∧ read i.graph = .ok a) ∧ s' = s := by
  refine ensures_locked _ ((Section.ensures_getVfs v).bind ?_)
  rintro i _ ⟨hi, rfl⟩ a s' h
  obtain ⟨ha, he⟩ := Section.ensures_lift _ _ _ h
  exact ⟨⟨i, hi, ha⟩, he⟩

theorem ensures_onTable (t : TableId) (read : FdTable → Checked α) :
    (onTable t read).Ensures s fun a s' =>
      (∃ st, s.tableState? t = some st ∧ read st.table = .ok a) ∧ s' = s := by
  refine ensures_locked _ ((Section.ensures_getTable t).bind ?_)
  rintro _ _ ⟨⟨st, ht, rfl⟩, rfl⟩ a s' h
  obtain ⟨ha, he⟩ := Section.ensures_lift _ _ _ h
  exact ⟨⟨st, ht, ha⟩, he⟩

/-- **Changing a graph.** -/
theorem ensures_editGraph (v : VfsId)
    (edit : Mount.Graph Record → Checked (Mount.Edit Record α)) :
    (editGraph v edit).Ensures s fun a s' => ∃ i g changes, s.instances[v]? = some i ∧
      edit i.graph = .ok ⟨g, changes, a⟩ ∧ s' = s.withGraph v i g := by
  refine (ensures_locked _ (Section.ensures_editGraph v edit)).bind ?_
  rintro ⟨changes, a⟩ s' ⟨i, g, hi, hedit, hs⟩
  exact (ensures_noteChanges changes).bind_same fun _ =>
    ensures_pure ⟨i, g, changes, hi, hedit, hs⟩

/-- **Changing a table.** -/
theorem ensures_editTable (t : TableId) (edit : FdTable → Checked (α × FdTable)) :
    (editTable t edit).Ensures s fun a s' => ∃ st table, s.tableState? t = some st ∧
      edit st.table = .ok (a, table) ∧ s' = s.withTable t st table := by
  refine ensures_locked _ ((Section.ensures_getTable t).bind ?_)
  rintro _ _ ⟨⟨st, ht, rfl⟩, rfl⟩
  refine (Section.ensures_lift _).bind ?_
  rintro ⟨a, table⟩ _ ⟨hedit, rfl⟩
  refine (Section.ensures_setTable ht table).bind ?_
  rintro _ _ rfl
  exact Section.ensures_pure ⟨st, table, ht, hedit, rfl⟩

/-- **Changing a table, unless the change fails.** -/
theorem ensures_tryEditTable (t : TableId)
    (edit : FdTable → Checked (Except Error (α × FdTable))) :
    (tryEditTable t edit).Ensures s fun result s' => ∃ st, s.tableState? t = some st ∧
      ((∃ e, result = .error e ∧ edit st.table = .ok (.error e) ∧ s' = s) ∨
      ∃ a table, result = .ok a ∧ edit st.table = .ok (.ok (a, table)) ∧
        s' = s.withTable t st table) := by
  refine ensures_locked _ ((Section.ensures_getTable t).bind ?_)
  rintro _ _ ⟨⟨st, ht, rfl⟩, rfl⟩
  refine (Section.ensures_lift _).bind ?_
  rintro (e | ⟨a, table⟩) _ ⟨hedit, rfl⟩
  · exact Section.ensures_pure ⟨st, ht, .inl ⟨e, rfl, hedit, rfl⟩⟩
  · refine (Section.ensures_setTable ht table).bind ?_
    rintro _ _ rfl
    exact Section.ensures_pure ⟨st, ht, .inr ⟨a, table, rfl, hedit, rfl⟩⟩

/-- **Changing a reference count.** -/
theorem ensures_editReferences (d : Descriptor) (edit : References → Checked (α × References)) :
    (editReferences d edit).Ensures s fun a s' => ∃ r, edit s.references = .ok (a, r) ∧
      s' = s.withReferences r := by
  refine ensures_locked _ (Section.ensures_get.bind ?_)
  rintro _ _ ⟨rfl, rfl⟩
  refine (Section.ensures_lift _).bind ?_
  rintro ⟨a, r⟩ _ ⟨hedit, rfl⟩
  rintro b s' h
  cases h
  exact ⟨r, hedit, rfl⟩

/-! ### Registering -/

theorem ensures_newRecord (driver : Driver) (fs : Option FileSystem) :
    (newRecord driver fs).Ensures s fun record s' =>
      record = ⟨s.nextRecord, driver, fs⟩ ∧ s' = s.withNewRecord := by
  intro k record k' hk h
  cases h
  subst hk
  exact ⟨rfl, rfl⟩

/-- **Registering a driver** takes a new record, and mounts it if the path may be used. -/
theorem ensures_registering (v : VfsId) (path : Path) (driver : Driver) (fs : Option FileSystem) :
    (register v path driver fs).Ensures s fun result s' =>
      (Path.absolute? path = none ∧ result = .error .invalidArgument ∧ s' = s.withNewRecord) ∨
      ∃ clean i g changes answer, Path.absolute? path = some clean ∧ s.instances[v]? = some i ∧
        i.graph.mount clean ⟨s.nextRecord, driver, fs⟩ = .ok ⟨g, changes, answer⟩ ∧
        result = answer.map (Registration.mk · ⟨s.nextRecord, driver, fs⟩) ∧
        s' = s.withNewRecord.withGraph v i g := by
  refine (ensures_newRecord driver fs).bind ?_
  rintro _ _ ⟨rfl, rfl⟩
  cases Path.absolute? path with
  | none => exact ensures_pure (.inl ⟨rfl, rfl, rfl⟩)
  | some clean =>
    refine (ensures_editGraph v _).bind ?_
    rintro (e | node) s' ⟨i, g, changes, hi, hmount, hs⟩
    · exact ensures_pure (.inr ⟨clean, i, g, changes, _, rfl, hi, hmount, rfl, hs⟩)
    · exact (ensures_note _).bind_same fun _ =>
        ensures_pure (.inr ⟨clean, i, g, changes, _, rfl, hi, hmount, rfl, hs⟩)

end Action

end VirtualFs

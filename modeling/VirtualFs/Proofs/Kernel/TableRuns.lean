import VirtualFs.Proofs.Kernel.FileEffects

/-!
# Tables in runs

At every moment of every run the slots of every descriptor table are accounted for: the queue names
each free slot once and no other.  So a file that is opened comes into a slot that was free, never
into one that is open or whose file is still being closed, and it comes into none only if none is
free.

* `Moment.Fills`: what opening a file does to the slots.
* `tables_accounted`: every moment of every run.
-/

namespace VirtualFs

/-- The descriptor number that a call answers with, to a caller or to a process. -/
def Outcome.fd? : Outcome → Option Nat
  | .returned (.ok (.fd fd)) => some fd
  | .returned (.ok (.returned value _ _)) => value.toNat?
  | _ => none

namespace Moment

/-- The table that the step is to open a file in: the call begins, or the driver has answered. -/
def opensIn? (n : Moment) : Option TableId :=
  (n.before.job? n.event).bind fun found => found.1.opening?.map (·.1)

/-- **What opening a file in table `t` does to the slots**, where the table's state is `st`. -/
structure Fills (n : Moment) (t : TableId) (st : TableState) : Prop where
  /-- A descriptor number that is given out is that of a slot that was free and is open now; all
  other slots, of all tables, are as they were. -/
  filled : ∀ fd, n.outcome.fd? = some fd → fd < st.table.capacity ∧
    st.table.slots[fd]? = some .free ∧
    ∃ entry, ∀ u i, n.after.kernel.store.slot? u i =
      if u = t ∧ i = fd then some (.opened entry) else n.before.kernel.store.slot? u i
  /-- Where no slot is free, none is given out, and all tables are as they were. -/
  full : (∀ fd : Nat, st.table.slots[fd]? ≠ some .free) → n.outcome.fd? = none ∧
    n.after.kernel.store.tables = n.before.kernel.store.tables

/-- **The tables are accounted for** after the step. -/
structure AccountsTables (n : Moment) : Prop where
  accounted : ∀ {t st}, n.after.kernel.store.tableState? t = some st → st.table.Accounted
  /-- An entry is refused where no slot is free, which changes nothing, and else it comes into one
  that is. -/
  installs : ∀ {t st}, n.after.kernel.store.tableState? t = some st → ∀ entry,
    (∀ fd : Nat, st.table.slots[fd]? ≠ some .free) ∧
      Action.tryEditTable t (·.install entry) n.after.kernel =
        .ok (.error .tooManyOpenFiles, n.after.kernel) ∨
    ∃ (fd : Nat) (kernel : Kernel), st.table.slots[fd]? = some .free ∧
      Action.tryEditTable t (·.install entry) n.after.kernel = .ok (.ok fd, kernel) ∧
        kernel.store.slot? t fd = some (.opened entry)
  fills : ∀ {t}, n.opensIn? = some t →
    ∃ st, n.before.kernel.store.tableState? t = some st ∧ n.Fills t st

end Moment

/-! ### Installing -/

/-- **An entry is installed** exactly if a slot is free. -/
theorem FdTable.Regular.install_iff {t : FdTable} (r : t.Regular) (entry : FdEntry) :
    (∀ fd : Nat, t.slots[fd]? ≠ some .free) ∧ t.install entry = .ok (.error .tooManyOpenFiles) ∨
    ∃ fd : Nat, t.slots[fd]? = some .free ∧
      t.install entry = .ok (.ok (fd, t.installed fd entry)) := by
  rcases r.install_cases entry with hfull | ⟨fd, -, -, hslot, hinstall⟩
  · refine .inl ⟨fun fd hslot => ?_, hfull⟩
    have hfree := (r.free fd).mpr hslot
    rw [(install_eq_error hfull).1] at hfree
    cases hfree
  · exact .inr ⟨fd, hslot, hinstall⟩

/-- **Installing an entry** in a table of the kernel. -/
theorem Machine.Sound.installs {H : History} {m : Machine} (h : m.Sound H) {t : TableId}
    {st : TableState} (ht : m.kernel.store.tableState? t = some st) (entry : FdEntry) :
    (∀ fd : Nat, st.table.slots[fd]? ≠ some .free) ∧
      Action.tryEditTable t (·.install entry) m.kernel =
        .ok (.error .tooManyOpenFiles, m.kernel) ∨
    ∃ (fd : Nat) (kernel : Kernel), st.table.slots[fd]? = some .free ∧
      Action.tryEditTable t (·.install entry) m.kernel = .ok (.ok fd, kernel) ∧
        kernel.store.slot? t fd = some (.opened entry) := by
  have hl := Action.isLocked_of_held h.unlocked (.table t)
  rcases (h.books.regular ht).install_iff entry with ⟨hfull, hinstall⟩ | ⟨fd, hslot, hinstall⟩
  · refine .inl ⟨hfull, Action.locked_eq hl ?_⟩
    exact Section.bind_eq (Section.getTable_eq ht)
      (Section.bind_eq (Section.lift_eq hinstall _) rfl)
  · have hsection : Section.tryEditTable t (·.install entry) m.kernel.store =
        .ok (.ok fd, m.kernel.store.withTable t st (st.table.installed fd entry)) :=
      Section.bind_eq (Section.getTable_eq ht) (Section.bind_eq (Section.lift_eq hinstall _)
        (Section.bind_eq (Section.setTable_eq ht _) rfl))
    refine .inr ⟨fd, _, hslot, Action.locked_eq hl hsection, ?_⟩
    rw [Store.slot?_withSlot ht hslot (FdTable.installed_slots _ _ _), if_pos ⟨rfl, rfl⟩]

/-! ### Opening -/

/-- A failure gives no number out. -/
theorem Outcome.fd?_of_error (origin : Origin) (e : Error) :
    (Outcome.returned (origin.receives (.error e))).fd? = none := by
  cases origin <;> rfl

/-- The number that is given out is that of the slot. -/
theorem Outcome.fd?_of_ok {origin : Origin} {fd fd' : Nat}
    (h : (Outcome.returned (origin.receives (.ok (.fd fd')))).fd? = some fd) : fd' = fd := by
  cases origin with
  | direct => exact Option.some.inj h
  | process op =>
      have hbind : (Except.ok (Answer.fd fd')).bind Process.returned =
          if fd' ≤ Limits.maxCapacity then .ok (.returned fd' [] none)
          else .error .tooManyOpenFiles := rfl
      rw [Origin.receives, hbind] at h
      split at h
      · rename_i answer he
        split at he
        · cases he
          exact Option.some.inj h
        · cases he
      · cases h

/-- A file is opened in a table that can be named. -/
theorem Happens.isReachable_of_opening {past : List Moment} {now : Moment} (h : Happens past now)
    {job : Job} {origin : Origin} (hjob : now.before.job? now.event = some (job, origin))
    {t : TableId} {flags : OpenFlags} {mode : UInt32}
    (hopening : job.opening? = some (t, flags, mode)) :
    now.before.kernel.store.isReachable t = true := by
  cases job with
  | begin call =>
      cases call with
      | «open» v u path _ _ =>
          cases hopening
          exact (Bool.and_eq_true_iff.mp (Machine.admits_of_job hjob)).2
      | _ => cases hopening
  | reject e => cases hopening
  | resume frame reply =>
      cases frame with
      | opening u path record _ _ =>
          cases hopening
          exact (h.resumes hjob).1.1
      | _ => cases hopening

/-- A step that gives no number out and leaves the tables fills no slot. -/
theorem Moment.fills_of_tables {n : Moment} (hfd : n.outcome.fd? = none)
    (htables : n.after.kernel.store.tables = n.before.kernel.store.tables) (t : TableId)
    (st : TableState) : n.Fills t st where
  filled fd h := by
    rw [hfd] at h
    cases h
  full _ := ⟨hfd, htables⟩

/-- **A step that opens a file** fills a free slot, or none. -/
theorem Happens.fills {past : List Moment} {now : Moment} (h : Happens past now) {t : TableId}
    (hopens : now.opensIn? = some t) :
    ∃ st, now.before.kernel.store.tableState? t = some st ∧ now.Fills t st := by
  rcases Machine.step_cases h.step with ⟨hjob, -, -⟩ | ⟨job, origin, p, c⟩
  · rw [Moment.opensIn?, hjob] at hopens
    cases hopens
  rw [Moment.opensIn?, c.sets] at hopens
  obtain ⟨⟨u, flags, mode⟩, hopening, rfl⟩ := Option.map_eq_some_iff.mp hopens
  obtain ⟨st, hst, -⟩ := Store.isReachable_iff.mp (h.isReachable_of_opening c.sets hopening)
  refine ⟨st, hst, ?_⟩
  have heffect := h.fileEffect c (Job.mounts_of_opening hopening)
  have hends := c.ends
  generalize hs' : now.after.kernel.store = s' at heffect
  cases heffect with
  | settles result hjob => cases hjob.symm.trans hopening
  | empties hjob => cases hjob.symm.trans hopening
  | misses e hjob hs =>
      obtain ⟨hreturned, -⟩ := hends.of_finished
      refine Moment.fills_of_tables ?_ (hs' ▸ hs.tables) _ st
      rw [hreturned]
      exact Outcome.fd?_of_error origin e
  | abandons hdriver hs =>
      obtain ⟨hasked, -⟩ := hends.of_waiting
      exact Moment.fills_of_tables (by rw [hasked]; rfl) (hs' ▸ hs.tables) _ st
  | opens hdriver =>
      obtain ⟨hasked, -⟩ := hends.of_waiting
      exact Moment.fills_of_tables (by rw [hasked]; rfl) (by rw [hs']) _ st
  | @places _ _ _ _ path record handle _ fd s₁ hjob hknows hs ht hslot =>
      cases hjob.symm.trans hopening
      cases ht.symm.trans hst
      refine ⟨fun fd' hfd => ?_, fun hfull => absurd hslot (hfull fd)⟩
      rw [hends.of_finished.1] at hfd
      obtain rfl := Outcome.fd?_of_ok hfd
      obtain ⟨H, r⟩ := h.before
      have hlt := FdTable.lt_size hslot
      rw [(r.sound.books.regular hst).size] at hlt
      have ht' : s₁.tableState? u = some st := by
        rw [Store.tableState?, hs.tables]
        exact ht
      let d : Descriptor := ⟨now.before.kernel.store.references.next, path, handle, record⟩
      refine ⟨hlt, hslot, ⟨d, flags, mode⟩, fun v i => ?_⟩
      rw [hs', Store.slot?_withSlot ht' hslot (FdTable.installed_slots _ _ _), hs.slot?]
  | _ => cases hopening

/-- **The tables are accounted for** at every moment of every run: whatever drivers call and answer
while they are asked, the free slots of a table are those in its queue, and a file is opened in one
of them or not at all. -/
theorem tables_accounted (word enableMask : Sync.Word) (events : List Event) :
    ∃ moments, (Machine.initial word enableMask).trace [] events = .ok moments ∧
      ∀ past now future, moments = past ++ now :: future → now.AccountsTables := by
  obtain ⟨moments, htrace, hmoments⟩ := (Recalls.initial word enableMask).reached
    (I := fun _ _ _ => True) (fun _ _ => trivial) trivial events
  refine ⟨moments, htrace, fun past now future he => ?_⟩
  obtain ⟨h, -, -⟩ := hmoments past now future he
  obtain ⟨H, r⟩ := h.after
  exact
    { accounted := fun ht => (r.sound.books.regular ht).accounted
      installs := r.sound.installs
      fills := h.fills }

end VirtualFs

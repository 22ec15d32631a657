import VirtualFs.Proofs.Kernel.Copying
import VirtualFs.Proofs.Kernel.Destruction
import VirtualFs.Proofs.Kernel.TableRuns
import VirtualFs.Proofs.Kernel.Undisturbed

/-!
# While a file is being closed

The driver of a file that no other slot holds is asked to close it, and until it has answered the
slot is neither free nor open.  Whatever is called meanwhile, nobody gets at the file, nobody is
given the number of the slot, and nobody puts another file into it.  So a driver that refuses finds
the slot as it was, and one that closes the file gives it up.

* `Happens.seizes`: how closing the last slot of a file begins.
* `Happens.bars`: what comes of any step while the driver is being asked.
* `Happens.vacates_slot`, `Happens.restores_slot`: the answer.
* `closings_end_as_answered`: every moment of every run.
-/

namespace VirtualFs

namespace Moment

variable (n : Moment) (t : TableId) (fd : Nat) (entry : FdEntry) (origin : Origin)

/-- The step closes an open slot, and no other slot holds its file. -/
structure ClosesLast : Prop where
  job : n.before.job? n.event = some (.begin (.close t fd), origin)
  slot : n.before.kernel.store.slot? t fd = some (.opened entry)
  last : n.before.kernel.store.references.count entry.descriptor.id = 1

/-- **The file is taken out of its slot**, which is neither free nor open then, and the driver is
asked to close it.  No other slot changes, and no queue. -/
structure Seizes (driver : External) : Prop where
  asked : n.outcome = .asked (.close driver entry.descriptor.handle)
  stack : n.after.stack = ⟨.closing t fd entry, origin⟩ :: n.before.stack
  store : ∃ st, n.before.kernel.store.tableState? t = some st ∧ n.after.kernel.store =
    (n.before.kernel.store.withTable t st (st.table.withSlot fd .closing)).withReferences
      (n.before.kernel.store.references.less entry.descriptor)

/-- **The slot is given up**: it is free, its number comes last in the queue, and nothing refers to
the file any more.  No other slot changes. -/
structure Vacates : Prop where
  returned : n.outcome = .returned (origin.receives (.ok .done))
  store : ∃ st, n.before.kernel.store.tableState? t = some st ∧ n.after.kernel.store =
    (n.before.kernel.store.withTable t st (st.table.vacated fd)).withReferences
      n.after.kernel.store.references
  unreferenced : n.after.kernel.store.references.count entry.descriptor.id = 0

/-- **The file is back in its slot**, with the flags and the mode that it had and one reference, and
its driver can be asked again.  No other slot changes, and no queue. -/
structure Restores (driver : External) (e : Error) : Prop where
  returned : n.outcome = .returned (origin.receives (.error e))
  store : ∃ st, n.before.kernel.store.tableState? t = some st ∧ n.after.kernel.store =
    (n.before.kernel.store.withTable t st (st.table.withSlot fd (.opened entry))).withReferences
      (n.before.kernel.store.references.more entry.descriptor)
  slot : n.after.kernel.store.slot? t fd = some (.opened entry)
  last : n.after.kernel.store.references.count entry.descriptor.id = 1
  again : ∃ m, n.after.step (.call (.close t fd)) =
    .ok (.asked (.close driver entry.descriptor.handle), m)

/-- **The slot is barred**, whatever the step is. -/
structure Bars : Prop where
  closing : n.before.kernel.store.slot? t fd = some .closing
  reachable : n.before.kernel.store.isReachable t = true
  /-- Nobody gets its entry, uses its file or closes it. -/
  barred : ∀ {job origin}, n.before.job? n.event = some (job, origin) →
    job.looksAt? = some (t, fd) ∨ job = .begin (.close t fd) →
    n.outcome = .returned (origin.receives (.error .badFileDescriptor)) ∧
      n.after.kernel.store = n.before.kernel.store
  /-- No file is opened under its number. -/
  opens : n.opensIn? = some t → n.outcome.fd? ≠ some fd
  /-- It is counted as taken, like every slot that is not free. -/
  used : n.event = .call (.query (.used t)) → ∃ st,
    n.before.kernel.store.tableState? t = some st ∧ n.outcome = .returned (.ok (.number
      (st.table.slots.toList.countP fun slot => ! decide (slot = .free))))
  /-- In a copy of the table it is free. -/
  copied : ∀ {budget u}, n.event = .call (.copyTable t budget) →
    n.outcome = .returned (.ok (.table u)) → n.after.kernel.store.slot? u fd = some .free

/-- **What becomes of a slot** that `start` closes, in the moments that come later. -/
inductive Closes (start : Moment) (later : List Moment) (t : TableId) (fd : Nat) (entry : FdEntry)
    (origin : Origin) : Prop
  /-- The built-in driver has nothing to close. -/
  | vacates {v : VfsId} (hdriver : entry.descriptor.record.driver = .directory v)
      (hvacates : start.Vacates t fd entry origin)
  /-- A driver from outside is asked. -/
  | asks {driver : External} (hdriver : entry.descriptor.record.driver = .external driver)
      (hseizes : start.Seizes t fd entry origin driver)
      (hbars : ∀ between now future, later = between ++ now :: future → start.Pends between →
        now.Bars t fd)
      (hclosed : ∀ between now future, later = between ++ now :: future →
        start.Answered between now .done → now.Vacates t fd entry origin)
      (hrefused : ∀ between now future e, later = between ++ now :: future →
        start.Answered between now (.failed e) → now.Restores t fd entry origin driver e ∧
          (Quiet between → now.after.kernel.store = start.before.kernel.store))

end Moment

namespace Happens

variable {past : List Moment} {start now : Moment} {t : TableId} {fd : Nat} {entry : FdEntry}
  {origin : Origin}

/-! ### The slot is closed -/

/-- **Closing the last slot of a file** gives it up, or its driver is asked. -/
theorem seizes (h : Happens past now) (k : now.ClosesLast t fd entry origin) :
    (∃ v, entry.descriptor.record.driver = .directory v ∧ now.Vacates t fd entry origin) ∨
      ∃ driver, entry.descriptor.record.driver = .external driver ∧
        now.Seizes t fd entry origin driver := by
  obtain ⟨st, ht, hslot⟩ := Option.bind_eq_some_iff.mp k.slot
  have hpos : 0 < now.before.kernel.store.references.count entry.descriptor.id := by
    rw [k.last]
    exact Nat.one_pos
  have hlast : now.before.kernel.store.references.release entry.descriptor =
      .ok (.last, now.before.kernel.store.references.less entry.descriptor) := by
    rcases References.release_cases hpos with ⟨-, hrelease⟩ | ⟨hmore, -⟩
    · exact hrelease
    · rw [k.last] at hmore
      exact absurd hmore (Nat.lt_irrefl _)
  have hbelow := Machine.below_of_job k.job fun _ _ => Job.noConfusion
  obtain ⟨p, c⟩ := h.carried k.job
  have hshuts := c.ensures (Action.ensures_closing t fd)
  have hends := c.ends
  generalize hs : now.after.kernel.store = s' at hshuts
  cases hshuts with
  | refused ht' hget =>
    cases ht.symm.trans ht'
    cases hget.symm.trans (FdTable.get_eq_ok_iff.mpr hslot)
  | shared ht' hslot' hrelease =>
    cases ht.symm.trans ht'
    cases hslot.symm.trans hslot'
    cases hlast.symm.trans hrelease
  | vacated ht' hslot' hrelease hdriver =>
    cases ht.symm.trans ht'
    cases hslot.symm.trans hslot'
    cases hlast.symm.trans hrelease
    refine .inl ⟨_, hdriver, hends.of_finished.1, ⟨st, ht, hs ▸ rfl⟩, ?_⟩
    rw [hs]
    refine (References.count_less_id (References.lt_next hpos) _).trans ?_
    rw [if_pos rfl, k.last]
  | asks ht' hslot' hrelease hdriver =>
    cases ht.symm.trans ht'
    cases hslot.symm.trans hslot'
    cases hlast.symm.trans hrelease
    exact .inr ⟨_, hdriver, hends.of_waiting.1, hbelow ▸ hends.of_waiting.2, st, ht, hs⟩

/-! ### The driver is being asked -/

/-- What is known of a slot that is being closed. -/
theorem closing_of_mem (h : Happens past now)
    (hmem : ⟨.closing t fd entry, origin⟩ ∈ now.before.stack) :
    now.before.kernel.store.slot? t fd = some .closing ∧
      now.before.kernel.store.isReachable t = true ∧
      now.before.kernel.store.references.count entry.descriptor.id = 0 := by
  obtain ⟨H, r⟩ := h.before
  have b := r.sound.books
  have hclosing : (⟨t, fd, entry⟩ : Closing) ∈ now.before.closings :=
    List.mem_filterMap.mpr ⟨_, hmem, rfl⟩
  obtain ⟨hinstalled, hidle⟩ := b.idle _ hclosing
  exact ⟨(b.closing t fd).mpr ⟨_, hclosing, rfl, rfl⟩, (r.sound.valid _ hmem).1,
    (b.counted hinstalled).trans hidle⟩

/-- A slot that is not open is not closed. -/
theorem close_shut (h : Happens past now) {slot : Slot}
    (hjob : now.before.job? now.event = some (.begin (.close t fd), origin))
    (hslot : now.before.kernel.store.slot? t fd = some slot)
    (hshut : ∀ entry, slot ≠ .opened entry) :
    now.outcome = .returned (origin.receives (.error .badFileDescriptor)) ∧
      now.after.kernel.store = now.before.kernel.store := by
  obtain ⟨st, ht, hst⟩ := Option.bind_eq_some_iff.mp hslot
  obtain ⟨p, c⟩ := h.carried hjob
  have hshuts := c.ensures (Action.ensures_closing t fd)
  have hends := c.ends
  generalize now.after.kernel.store = s' at hshuts
  cases hshuts with
  | refused ht' hget =>
    cases ht.symm.trans ht'
    cases hget.symm.trans (FdTable.get_of_shut hst hshut)
    exact ⟨hends.of_finished.1, rfl⟩
  | shared ht' hopen =>
    cases ht.symm.trans ht'
    exact absurd (Option.some.inj (hst.symm.trans hopen)) (hshut _)
  | vacated ht' hopen =>
    cases ht.symm.trans ht'
    exact absurd (Option.some.inj (hst.symm.trans hopen)) (hshut _)
  | asks ht' hopen =>
    cases ht.symm.trans ht'
    exact absurd (Option.some.inj (hst.symm.trans hopen)) (hshut _)

/-- How full a table is. -/
theorem used (h : Happens past now) {st : TableState} (he : now.event = .call (.query (.used t)))
    (ht : now.before.kernel.store.tableState? t = some st) (hr : st.reachable = true) :
    now.outcome = .returned (.ok (.number
      (st.table.slots.toList.countP fun slot => ! decide (slot = .free)))) ∧
      now.after.kernel.store = now.before.kernel.store := by
  obtain ⟨H, r⟩ := h.before
  have hused := (r.sound.books.regular ht).accounted.used
  have hjob : now.before.job? now.event = some (.begin (.query (.used t)), .direct) := by
    rw [he, Machine.job?]
    exact if_pos (Store.isReachable_iff.mpr ⟨st, ht, hr⟩)
  have hread := Action.yields_onTable (Action.isLocked_of_held r.sound.unlocked (.table t)) ht hused
  have hquery : (Action.query (.used t)).Yields now.before.kernel.cpu now.before.kernel.store
      (.ok (.number (st.table.slots.toList.countP fun slot => ! decide (slot = .free))))
      now.before.kernel.store := hread.bind (Action.yields_pure _)
  have hy : (Job.begin (.query (.used t))).action.Yields now.before.kernel.cpu
      now.before.kernel.store (.finished _) now.before.kernel.store :=
    hquery.bind (Action.yields_pure _)
  obtain ⟨hends, hstore⟩ := h.of_yields hjob hy
  exact ⟨hends.of_finished.1, hstore⟩

/-- **A slot that is being closed is barred.** -/
theorem bars (h : Happens past now) (k : Provenance past now.before)
    (hmem : ⟨.closing t fd entry, origin⟩ ∈ now.before.stack) : now.Bars t fd := by
  obtain ⟨hslot, hreachable, -⟩ := h.closing_of_mem hmem
  obtain ⟨st, ht, hst⟩ := Option.bind_eq_some_iff.mp hslot
  exact
    { closing := hslot
      reachable := hreachable
      barred := by
        rintro job origin hjob (hlooks | rfl)
        · exact h.shut hjob hlooks hslot fun _ => Slot.noConfusion
        · exact h.close_shut hjob hslot fun _ => Slot.noConfusion
      opens := by
        intro hopens hfd
        obtain ⟨st', ht', hfills⟩ := h.fills hopens
        cases ht.symm.trans ht'
        obtain ⟨-, hfree, -⟩ := hfills.filled fd hfd
        cases hst.symm.trans hfree
      used := by
        intro he
        obtain ⟨st', ht', hr⟩ := Store.isReachable_iff.mp hreachable
        exact ⟨st', ht', (h.used he ht' hr).1⟩
      copied := by
        intro budget u he hreturned
        obtain ⟨st', ht', hduplicates⟩ := h.duplicates k he hreachable
        cases ht.symm.trans ht'
        cases hduplicates with
        | fails _ hfailed => cases hreturned.symm.trans hfailed
        | @copies copy _ hcopied hcopies =>
          cases hreturned.symm.trans hcopied
          rw [hcopies.slot?, hcopies.slots, hst]
          rfl }

/-! ### The driver answers -/

section

variable {a between : List Moment} {rest : List Pending}

/-- **The driver has closed the file.** -/
theorem vacates_slot (h : Happens past now) (k : Suspended past now.before)
    (hpast : past = a ++ start :: between)
    (hstack : start.after.stack = ⟨.closing t fd entry, origin⟩ :: rest)
    (ha : start.Answered between now .done) : now.Vacates t fd entry origin := by
  obtain ⟨p, c, -⟩ := k.resumes h hpast hstack ha rfl
  have hmem : ⟨.closing t fd entry, origin⟩ ∈ now.before.stack :=
    k.stack_eq hpast hstack ha ▸ List.mem_cons_self
  obtain ⟨-, -, hzero⟩ := h.closing_of_mem hmem
  have hclosed := c.ensures (Action.ensures_closed t fd entry none)
  have hends := c.ends
  generalize hs : now.after.kernel.store = s' at hclosed
  cases hclosed with
  | vacated ht hslot => exact ⟨hends.of_finished.1, ⟨_, ht, hs ▸ rfl⟩, hs ▸ hzero⟩

/-- **The driver has refused to close the file.** -/
theorem restores_slot (h : Happens past now) (k : Suspended past now.before)
    (hpast : past = a ++ start :: between)
    (hstack : start.after.stack = ⟨.closing t fd entry, origin⟩ :: rest) {driver : External}
    (hdriver : entry.descriptor.record.driver = .external driver) {e : Error}
    (ha : start.Answered between now (.failed e)) : now.Restores t fd entry origin driver e := by
  obtain ⟨p, c, -⟩ := k.resumes h hpast hstack ha rfl
  have hmem : ⟨.closing t fd entry, origin⟩ ∈ now.before.stack :=
    k.stack_eq hpast hstack ha ▸ List.mem_cons_self
  obtain ⟨-, hreachable, hzero⟩ := h.closing_of_mem hmem
  have hclosed := c.ensures (Action.ensures_closed t fd entry (some e))
  have hends := c.ends
  generalize hs : now.after.kernel.store = s' at hclosed
  cases hclosed with
  | @restored st old r _ ht hslot hrestore =>
    cases (References.restore_eq hzero).symm.trans hrestore
    obtain ⟨st', ht', hr⟩ := Store.isReachable_iff.mp hreachable
    cases ht.symm.trans ht'
    have hstate : now.after.kernel.store.tableState? t =
        some { st with table := st.table.withSlot fd (.opened entry) } :=
      hs ▸ Store.tableState?_withState_self ht _
    have hopened : now.after.kernel.store.slot? t fd = some (.opened entry) := by
      rw [Store.slot?, hstate, Option.bind_some, FdTable.slots_withSlot hslot, if_pos rfl]
    have hlast : now.after.kernel.store.references.count entry.descriptor.id = 1 := by
      obtain ⟨H, r⟩ := h.before
      have hclosing : (⟨t, fd, entry⟩ : Closing) ∈ now.before.closings :=
        List.mem_filterMap.mpr ⟨_, hmem, rfl⟩
      rw [hs]
      refine (References.count_more_id (r.sound.books.numbered
        (r.sound.books.idle _ hclosing).1) _).trans ?_
      rw [if_pos rfl, hzero]
    refine ⟨hends.of_finished.1, ⟨st, ht, hs⟩, hopened, hlast, ?_⟩
    -- what is so of the slot now is all that closing it needs
    obtain ⟨outcome, m, hnext⟩ := h.next (.call (.close t fd))
    have hjob : now.after.job? (.call (.close t fd)) = some (.begin (.close t fd), .direct) :=
      if_pos (Store.isReachable_iff.mpr ⟨_, hstate, hr⟩)
    rcases hnext.seizes ⟨hjob, hopened, hlast⟩ with
      ⟨v, hdirectory, -⟩ | ⟨driver', hdriver', hseizes⟩
    · cases hdriver.symm.trans hdirectory
    · cases hdriver.symm.trans hdriver'
      refine ⟨m, hnext.step.trans ?_⟩
      rw [hseizes.asked]

end

end Happens

namespace Moment

variable {start now : Moment} {t : TableId} {fd : Nat} {entry : FdEntry} {origin : Origin}
  {driver : External} {e : Error}

/-- **A refusal undoes what has been done**, if nothing else has been done since. -/
theorem Restores.undoes (h : now.Restores t fd entry origin driver e)
    (hseizes : start.Seizes t fd entry origin driver) (k : start.ClosesLast t fd entry origin)
    (hsame : now.before = start.after) :
    now.after.kernel.store = start.before.kernel.store := by
  obtain ⟨st, ht, hseized⟩ := hseizes.store
  obtain ⟨st', ht', hrestored⟩ := h.store
  have hslot := k.slot
  rw [Store.slot?, ht, Option.bind_some] at hslot
  have hpos : 0 < start.before.kernel.store.references.count entry.descriptor.id := by
    rw [k.last]
    exact Nat.one_pos
  rw [hsame, hseized] at ht' hrestored
  cases ht'.symm.trans (Store.tableState?_withState_self ht _)
  rw [hrestored, Store.withTable_withTable, FdTable.withSlot_withSlot,
    FdTable.withSlot_self hslot, Store.withTable_self ht]
  exact congrArg start.before.kernel.store.withReferences (References.more_less hpos)

end Moment

/-- **Every closing of the last slot of a file** ends as its driver answers.  While the driver is
being asked, whatever is called, nobody gets at the slot, takes its number or puts anything into it.
If the driver refuses, the file is back in its slot and can be closed again, and where nobody has
called everything is as it was; if not, the slot is the last in the queue of free ones. -/
theorem closings_end_as_answered (word enableMask : Sync.Word) (events : List Event) :
    ∃ moments, (Machine.initial word enableMask).trace [] events = .ok moments ∧
      ∀ past start later t fd entry origin, moments = past ++ start :: later →
        start.ClosesLast t fd entry origin → start.Closes later t fd entry origin := by
  obtain ⟨moments, htrace, hmoments⟩ := Recalls.reached_undisturbed Provenance.step word enableMask
    (.initial word enableMask) events
  refine ⟨moments, htrace, fun past start later t fd entry origin he k => ?_⟩
  obtain ⟨⟨h, -, -⟩, -⟩ := hmoments past start later he
  rcases h.seizes k with ⟨v, hdriver, hvacates⟩ | ⟨driver, hdriver, hseizes⟩
  · exact .vacates hdriver hvacates
  have hlater : ∀ between now future, later = between ++ now :: future →
      Attested (past ++ start :: between) now ∧
        Provenance (past ++ start :: between) now.before := by
    rintro between now future rfl
    exact hmoments _ now future (by simpa using he)
  refine .asks hdriver hseizes (fun between now future hsplit hpends => ?_)
    (fun between now future hsplit ha => ?_) fun between now future e hsplit ha => ?_
  · obtain ⟨⟨h, hsuspended, -⟩, k⟩ := hlater between now future hsplit
    have hstack := hsuspended _ _ _ rfl hpends
    rw [hseizes.stack] at hstack
    exact h.bars k (hstack.subset List.mem_cons_self)
  · obtain ⟨⟨h, hsuspended, -⟩, -⟩ := hlater between now future hsplit
    exact h.vacates_slot hsuspended rfl hseizes.stack ha
  · obtain ⟨⟨h, hsuspended, hundisturbed⟩, -⟩ := hlater between now future hsplit
    have hrestores := h.restores_slot hsuspended rfl hseizes.stack hdriver ha
    exact ⟨hrestores, fun hquiet =>
      hrestores.undoes hseizes k (hundisturbed _ _ _ rfl ha.pends hquiet)⟩

/-- A driver that reads from the file while it is asked to close it, and then refuses. -/
example : (do
    let ram : External := ⟨0, "ram"⟩
    let moments ← (Machine.initial 0 0).trace [] [.call (.createVfs 4),
      .call (.register 0 "/m".toList (.external ram) none), .call (.createTable 1),
      .call (.open 0 1 "/m/f".toList .readOnly 0), .reply .opened, .call (.close 1 0),
      .call (.transfer 1 0 (.read 8)), .call (.query (.used 1)), .reply (.failed .ioError)]
    return (moments.drop 5).map fun n : Moment => n.outcome) =
    .ok [.asked (.close ⟨0, "ram"⟩ (.external 0)), .returned (.error .badFileDescriptor),
      .returned (.ok (.number 1)), .returned (.error .ioError)] := by
  cbv

end VirtualFs

import Mathlib.Data.List.Sort
import VirtualFs.Proofs.Kernel.Destruction
import VirtualFs.Proofs.Kernel.Operations
import VirtualFs.Proofs.Kernel.Queues
import VirtualFs.Proofs.Kernel.TableRuns

/-!
# Descriptor numbers in turn

Descriptor numbers are handed out in the order in which they became free, whatever is opened,
closed, emptied and copied in between: also where a closing ends late because a driver has to be
asked, and where calls fail.  Of numbers that become free in the same step the smaller ones come
first, and so they do in a new table, where all are free.

* `Happens.enqueues`, `Happens.serves`: what a step that opens no file does to the queues, and what
  one does that opens a file.
* `Happens.queue_cases`: one step of one table.
* `Ledger.step`: what has been handed out, and behind it the queue, is what has become free.
* `numbers_given_in_turn`: every run.
-/

namespace VirtualFs

/-! ### Steps -/

namespace Moment

/-- The number that the step gives out for a file that it opens in table `t`. -/
def given? (n : Moment) (t : TableId) : Option Nat :=
  if n.opensIn? = some t then n.outcome.fd? else none

/-- The numbers of the slots of table `t` that become free in the step, in ascending order; of a
table that is made in the step, these are all its free slots. -/
def freed (n : Moment) (t : TableId) : List Nat :=
  (((n.after.kernel.store.table? t).map FdTable.freeSlots).getD []).filter fun fd =>
    decide (n.before.kernel.store.slot? t fd ≠ some .free)

variable {n : Moment} {t : TableId} {fd : Nat}

theorem mem_freed : fd ∈ n.freed t ↔ n.before.kernel.store.slot? t fd ≠ some .free ∧
    n.after.kernel.store.slot? t fd = some .free := by
  rw [freed, List.mem_filter, decide_eq_true_eq, and_comm]
  refine and_congr_right fun _ => ?_
  rw [Store.table?, Store.slot?]
  cases n.after.kernel.store.tableState? t with
  | none => simp
  | some st => exact FdTable.mem_freeSlots

theorem pairwise_freed (n : Moment) (t : TableId) : (n.freed t).Pairwise (· < ·) := by
  refine List.Pairwise.filter _ ?_
  cases n.after.kernel.store.table? t with
  | none => exact .nil
  | some table => exact List.pairwise_lt_range.filter _

end Moment

/-- A number that a signed word can say is given out as it is. -/
theorem Outcome.fd?_of_le (origin : Origin) {fd : Nat} (h : fd ≤ Limits.maxCapacity) :
    (Outcome.returned (origin.receives (.ok (.fd fd)))).fd? = some fd := by
  cases origin with
  | direct => rfl
  | process op =>
      have hreturned : (Except.ok (Answer.fd fd)).bind Process.returned =
          .ok (.returned fd [] none) := if_pos h
      rw [Origin.receives, hreturned]
      rfl

namespace Happens

variable {past : List Moment} {now : Moment} {t : TableId}

/-- The tables are regular before and after the step. -/
theorem regular (h : Happens past now) :
    (∀ {t st}, now.before.kernel.store.tableState? t = some st → st.table.Regular) ∧
      ∀ {t st}, now.after.kernel.store.tableState? t = some st → st.table.Regular := by
  obtain ⟨H, r⟩ := h.before
  obtain ⟨H', r'⟩ := h.after
  exact ⟨r.sound.books.regular, r'.sound.books.regular⟩

/-- **A step that opens no file** queues numbers at the back. -/
theorem enqueues (h : Happens past now) (hopens : now.opensIn? = none) :
    now.before.kernel.store.Enqueues (fun _ => True) now.after.kernel.store := by
  rcases Machine.step_cases h.step with ⟨-, -, hafter⟩ | ⟨job, origin, p, c⟩
  · exact Store.enqueues_of_tables (by rw [hafter])
  have hopening : job.opening? = none := by
    rw [Moment.opensIn?, c.sets] at hopens
    exact Option.map_eq_none_iff.mp hopens
  cases hmounts : job.mounts with
  | true => exact Store.enqueues_of_tables (h.mountEffect c hmounts).keepsFiles.tables
  | false =>
      cases job with
      | reject e =>
          exact c.ensures (Q := fun _ s' => now.before.kernel.store.Enqueues (fun _ => True) s')
            (Action.ensures_pure (Store.enqueues_of_tables rfl))
      | resume frame reply =>
          exact c.ensures (Action.enqueues_resume (h.resumes c.sets).1 hmounts hopening)
      | begin call =>
          -- what copying comes to is known from the books, not from the store alone
          by_cases hcopy : ∃ t budget, call = .copyTable t budget
          · obtain ⟨u, budget, rfl⟩ := hcopy
            obtain ⟨st, hst, -⟩ := Store.isReachable_iff.mp (Machine.admits_of_job c.sets)
            obtain ⟨H, r⟩ := h.before
            rcases Action.yields_copyTable r.sound.books r.sound.unlocked hst budget with
              ⟨-, hy⟩ | ⟨copied, references, -, -, m, -, -, hy⟩
            · exact Store.enqueues_of_tables (by rw [(h.of_yields c.sets hy).2])
            · rw [(h.of_yields c.sets hy).2]
              exact (Store.enqueues_withNewTable _ m.ascending).congr rfl
          · refine c.ensures (Action.enqueues_perform hmounts hopening fun u budget he => ?_)
            exact hcopy ⟨u, budget, he⟩

/-- **A step that opens a file** gives the first number of the queue out, or none. -/
theorem serves (h : Happens past now) (hb : now.before.kernel.store.Bounded)
    (hopens : now.opensIn? = some t) :
    (now.outcome.fd? = none ∧
      now.after.kernel.store.tables = now.before.kernel.store.tables) ∨
    ∃ fd st table, now.outcome.fd? = some fd ∧ now.before.kernel.store.tableState? t = some st ∧
      st.table.free = fd :: table.free ∧ now.after.kernel.store.tables =
        (now.before.kernel.store.withTable t st table).tables := by
  rcases Machine.step_cases h.step with ⟨hjob, -, -⟩ | ⟨job, origin, p, c⟩
  · rw [Moment.opensIn?, hjob] at hopens
    cases hopens
  rw [Moment.opensIn?, c.sets] at hopens
  obtain ⟨⟨u, flags, mode⟩, hopening, rfl⟩ := Option.map_eq_some_iff.mp hopens
  have heffect := h.fileEffect c (Job.mounts_of_opening hopening)
  have hfits := heffect.fits_open hopening hb fun _ _ => h.regular.1
  have hends := c.ends
  have hregular : ∀ {st}, now.after.kernel.store.tableState? u = some st → st.table.Regular :=
    h.regular.2
  generalize hs' : now.after.kernel.store = s' at heffect hregular ⊢
  cases heffect with
  | settles result hjob => cases hjob.symm.trans hopening
  | empties hjob => cases hjob.symm.trans hopening
  | misses e hjob hs =>
      refine .inl ⟨?_, hs.tables⟩
      rw [hends.of_finished.1]
      exact Outcome.fd?_of_error origin e
  | abandons hdriver hs => exact .inl ⟨by rw [hends.of_waiting.1]; rfl, hs.tables⟩
  | opens hdriver => exact .inl ⟨by rw [hends.of_waiting.1]; rfl, rfl⟩
  | @places _ _ _ _ path record handle st fd s₁ hjob hknows hs ht hslot =>
      cases hjob.symm.trans hopening
      have htables : ∀ table, (s₁.withTable u st table).tables =
          (now.before.kernel.store.withTable u st table).tables := fun table => by
        rw [Store.withTable, Store.withTable, Store.withState, Store.withState, hs.tables]
      have hafter : ∀ table, (s₁.withTable u st table).tableState? u =
          some { st with table := table } := fun table => by
        rw [Store.tableState?, htables, ← Store.tableState?]
        exact Store.tableState?_withState_self ht _
      refine .inr ⟨fd, st, _, ?_, ht,
        (h.regular.1 ht).free_of_installed hslot (hregular (hafter _)), htables _⟩
      rw [hends.of_finished.1]
      exact Outcome.fd?_of_le origin hfits
  | _ => cases hopening

/-- Numbers that come behind the queue in ascending order are those that become free. -/
theorem freed_of_queue (h : Happens past now) {l : List Nat} (hl : l.Pairwise (· < ·))
    (hqueue : now.after.kernel.store.queue t = now.before.kernel.store.queue t ++ l) :
    now.freed t = l := by
  refine (now.pairwise_freed t).eq_of_mem_iff hl fun fd => ?_
  have hnodup := Store.nodup_queue h.regular.2 t
  rw [hqueue, List.nodup_append] at hnodup
  rw [Moment.mem_freed, ← Store.mem_queue h.regular.2, hqueue, Ne,
    ← Store.mem_queue h.regular.1, List.mem_append]
  exact ⟨fun hfd => hfd.2.resolve_left hfd.1,
    fun hfd => ⟨fun hbefore => hnodup.2.2 fd hbefore fd hfd rfl, .inr hfd⟩⟩

/-- **One step of one table**: a number is taken from the front of the queue, or those that become
free come to its back. -/
theorem queue_cases (h : Happens past now) (hb : now.before.kernel.store.Bounded)
    (ht : now.after.kernel.store.tableState? t ≠ none) :
    (now.given? t = none ∧
      now.after.kernel.store.queue t = now.before.kernel.store.queue t ++ now.freed t) ∨
    ∃ fd, now.given? t = some fd ∧ now.freed t = [] ∧
      now.before.kernel.store.queue t = fd :: now.after.kernel.store.queue t := by
  have hsame : now.after.kernel.store.queue t = now.before.kernel.store.queue t →
      now.after.kernel.store.queue t = now.before.kernel.store.queue t ++ now.freed t := by
    intro hqueue
    have hfreed : now.freed t = [] := h.freed_of_queue .nil (by rw [hqueue, List.append_nil])
    rw [hqueue, hfreed, List.append_nil]
  cases hopens : now.opensIn? with
  | none =>
      obtain ⟨l, hl, -, hqueue⟩ := (h.enqueues hopens).back ht
      refine .inl ⟨if_neg (by rw [hopens]; exact (Option.some_ne_none t).symm), ?_⟩
      rw [hqueue, h.freed_of_queue hl hqueue]
  | some u =>
      rcases h.serves hb hopens with ⟨hnone, htables⟩ | ⟨fd, st, table, hfd, hst, hfree, htables⟩
      · refine .inl ⟨?_, hsame (Store.queue_congr htables t)⟩
        rw [Moment.given?, hnone, ite_self]
      have hqueue : now.after.kernel.store.queue t =
          if t = u then table.free else now.before.kernel.store.queue t := by
        rw [Store.queue_congr htables, Store.queue_withTable hst]
      -- a file that is opened in one table leaves the queues of the others
      by_cases htu : t = u
      · subst htu
        rw [if_pos rfl] at hqueue
        have hbefore : now.before.kernel.store.queue t =
            fd :: now.after.kernel.store.queue t := by
          rw [hqueue, Store.queue_eq hst, hfree]
        refine .inr ⟨fd, by rw [Moment.given?, if_pos hopens, hfd], ?_, hbefore⟩
        refine List.eq_nil_iff_forall_not_mem.mpr fun i hi => ?_
        rw [Moment.mem_freed, ← Store.mem_queue h.regular.2, Ne, ← Store.mem_queue h.regular.1,
          hbefore] at hi
        exact hi.1 (List.mem_cons_of_mem fd hi.2)
      · rw [if_neg htu] at hqueue
        refine .inl ⟨?_, hsame hqueue⟩
        rw [Moment.given?, hopens, if_neg fun he => htu (Option.some.inj he).symm]

/-- **Who stands ahead** of a number that becomes free: those that are free, and those that become
free with it and are smaller. -/
theorem ahead (h : Happens past now) (hb : now.before.kernel.store.Bounded) {fd fd' : Nat}
    (hfd : fd ∈ now.freed t) (hfree : now.before.kernel.store.slot? t fd' = some .free ∨
      fd' ∈ now.freed t ∧ fd' < fd) : ∃ front rest,
      now.after.kernel.store.queue t = front ++ fd' :: rest ∧ fd ∉ front ∧ fd' ≠ fd := by
  obtain ⟨hnot, hslot⟩ := Moment.mem_freed.mp hfd
  rw [Ne, ← Store.mem_queue h.regular.1] at hnot
  have ht : now.after.kernel.store.tableState? t ≠ none :=
    Store.exists_of_queued ((Store.mem_queue h.regular.2).mpr hslot)
  have hqueue : now.after.kernel.store.queue t =
      now.before.kernel.store.queue t ++ now.freed t := by
    rcases h.queue_cases hb ht with ⟨-, hqueue⟩ | ⟨-, -, hnone, -⟩
    · exact hqueue
    · rw [hnone] at hfd
      cases hfd
  rw [hqueue]
  rcases hfree with hfree | ⟨hfreed, hlt⟩
  · rw [← Store.mem_queue h.regular.1] at hfree
    obtain ⟨front, rest, hsplit⟩ := List.append_of_mem hfree
    refine ⟨front, rest ++ now.freed t, by rw [hsplit, List.append_assoc, List.cons_append],
      fun hfront => hnot ?_, ne_of_mem_of_not_mem hfree hnot⟩
    exact hsplit ▸ List.mem_append_left _ hfront
  · obtain ⟨front, rest, hsplit⟩ := List.append_of_mem hfreed
    have hsorted := now.pairwise_freed t
    rw [hsplit, List.pairwise_append] at hsorted
    refine ⟨now.before.kernel.store.queue t ++ front, rest,
      by rw [hsplit, List.append_assoc], fun hmem => ?_, Nat.ne_of_lt hlt⟩
    rcases List.mem_append.mp hmem with hbefore | hfront
    · exact hnot hbefore
    · exact absurd (hsorted.2.2 fd hfront fd' List.mem_cons_self) (Nat.lt_asymm hlt)

/-- A table that numbers are given out of is there, before and after. -/
theorem table_of_given (h : Happens past now) (hb : now.before.kernel.store.Bounded) {fd : Nat}
    (hgiven : now.given? t = some fd) : now.before.kernel.store.tableState? t ≠ none ∧
      now.after.kernel.store.tableState? t ≠ none := by
  rw [Moment.given?] at hgiven
  split at hgiven
  · rename_i hopens
    rcases h.serves hb hopens with ⟨hnone, -⟩ | ⟨fd, st, table, -, hst, -, htables⟩
    · rw [hnone] at hgiven
      cases hgiven
    · have hafter := Store.tableState?_withState_self hst (some { st with table := table })
      rw [Store.withTable] at htables
      rw [Store.tableState?, ← htables, ← Store.tableState?] at hafter
      rw [hst, hafter]
      exact ⟨Option.some_ne_none _, Option.some_ne_none _⟩
  · cases hgiven

/-- A table that was not there before is a new one. -/
theorem le_of_new (h : Happens past now) (hb : now.before.kernel.store.Bounded)
    (hnone : now.before.kernel.store.tableState? t = none)
    (ht : now.after.kernel.store.tableState? t ≠ none) :
    now.before.kernel.store.tables.size ≤ t := by
  refine Nat.le_of_not_lt fun hlt => ?_
  cases hopens : now.opensIn? with
  | none => exact ht ((h.enqueues hopens).gone hlt hnone)
  | some u =>
      rcases h.serves hb hopens with ⟨-, htables⟩ | ⟨fd, st, table, -, hst, -, htables⟩
      · rw [Store.tableState?, htables] at ht
        exact ht hnone
      · rw [Store.tableState?, htables, ← Store.tableState?, Store.withTable,
          Store.tableState?_withState hst] at ht
        split at ht
        · rename_i htu
          cases (htu ▸ hst).symm.trans hnone
        · exact ht hnone

/-- Descriptor numbers stay small. -/
theorem bounded (h : Happens past now) (hb : now.before.kernel.store.Bounded) :
    now.after.kernel.store.Bounded := by
  rcases Machine.step_cases h.step with ⟨-, -, hafter⟩ | ⟨job, origin, p, c⟩
  · rw [hafter]
    exact hb
  · obtain ⟨H, r⟩ := h.before
    exact (c.ensures (r.sound.ensures_bounded hb c.sets)).1

/-- **Opening that gives no number out** leaves the queues. -/
theorem queue_of_missed (h : Happens past now) (hb : now.before.kernel.store.Bounded) {job : Job}
    {origin : Origin} (hjob : now.before.job? now.event = some (job, origin))
    (hop : job.op? = some .open) (hnone : now.outcome.fd? = none) (t : TableId) :
    now.after.kernel.store.queue t = now.before.kernel.store.queue t := by
  have hopening : ∀ {opening}, job.opening? = some opening →
      now.after.kernel.store.queue t = now.before.kernel.store.queue t := by
    intro opening hopening
    have hopens : now.opensIn? = some opening.1 := by
      rw [Moment.opensIn?, hjob, Option.bind_some, hopening, Option.map_some]
    rcases h.serves hb hopens with ⟨-, htables⟩ | ⟨fd, -, -, hsome, -⟩
    · exact Store.queue_congr htables t
    · cases hnone.symm.trans hsome
  cases job with
  | begin call =>
      cases call with
      | «open» v u path flags mode => exact hopening rfl
      | transfer u fd op => cases op <;> cases hop
      | _ => cases hop
  | reject e => cases hop
  | resume frame reply =>
      cases frame with
      | opening u path record flags mode => exact hopening rfl
      | abandoning u path =>
          obtain ⟨p, c⟩ := h.carried hjob
          obtain ⟨-, hstore⟩ := c.ensures (Action.ensures_abandoning u path reply)
          rw [hstore]
      | transferring u op => cases op <;> cases hop
      | _ => cases hop

/-- **Closing that does not succeed** leaves the queues. -/
theorem queue_of_unclosed (h : Happens past now) {job : Job} {origin : Origin}
    (hjob : now.before.job? now.event = some (job, origin)) (hop : job.op? = some .close)
    (hfails : now.outcome ≠ .returned (origin.receives (.ok .done))) (t : TableId) :
    now.after.kernel.store.queue t = now.before.kernel.store.queue t := by
  obtain ⟨p, c⟩ := h.carried hjob
  have hends := c.ends
  cases job with
  | begin call =>
      cases call with
      | close u fd =>
          have hshuts := c.ensures (Action.ensures_closing u fd)
          generalize now.after.kernel.store = s' at hshuts
          cases hshuts with
          | refused => rfl
          | shared | vacated => exact absurd hends.of_finished.1 hfails
          | asks ht => exact Store.queue_withSlot ht fd .closing t
      | transfer u fd op => cases op <;> cases hop
      | _ => cases hop
  | reject e => cases hop
  | resume frame reply =>
      cases frame with
      | closing u fd entry =>
          have hclosed : ∀ failure, (Action.resume (.closing u fd entry) reply =
              Action.closed u fd entry failure) →
              now.after.kernel.store.queue t = now.before.kernel.store.queue t := by
            intro failure he
            have hclosed := c.ensures (he ▸ Action.ensures_closed u fd entry failure)
            generalize now.after.kernel.store = s' at hclosed
            cases hclosed with
            | vacated => exact absurd hends.of_finished.1 hfails
            | restored ht => exact Store.queue_withSlot ht fd (.opened entry) t
          cases reply with
          | failed e => exact hclosed (some e) rfl
          | _ => exact hclosed none rfl
      | transferring u op => cases op <;> cases hop
      | _ => cases hop

end Happens

/-! ### Runs -/

/-- What stands ahead of an element is left of it. -/
theorem mem_of_ahead {front rest before behind : List Nat} {x y : Nat}
    (h : front ++ x :: rest = before ++ y :: behind) (hfront : y ∉ front) (hne : x ≠ y) :
    x ∈ before := by
  rcases List.append_eq_append_iff.mp h with ⟨l, rfl, hl⟩ | ⟨l, rfl, hl⟩
  · cases l with
    | nil => exact absurd (List.cons.inj hl).1 hne
    | cons z l =>
        rw [(List.cons.inj hl).1]
        exact List.mem_append_right _ List.mem_cons_self
  · cases l with
    | nil => exact absurd (List.cons.inj hl).1.symm hne
    | cons z l =>
        rw [(List.cons.inj hl).1] at hfront
        exact absurd (List.mem_append_right _ List.mem_cons_self) hfront

/-- **The ledger of a table**: what has been given out, and behind it the queue, is what was queued
at first, and behind it all that has become free. -/
structure Ledger (past : List Moment) (m : Machine) : Prop where
  bounded : m.kernel.store.Bounded
  /-- Of a table that is gone only its queue is unknown. -/
  balanced : ∀ t, ∃ queue, Store.initial.queue t ++ past.flatMap (·.freed t) =
      past.filterMap (·.given? t) ++ queue ∧
    (m.kernel.store.tableState? t ≠ none → queue = m.kernel.store.queue t) ∧
    (m.kernel.store.tables.size ≤ t → queue = [])

namespace Ledger

variable {past stretch : List Moment} {now : Moment} {m m' : Machine} {t : TableId}

theorem initial (word enableMask : Sync.Word) : Ledger [] (.initial word enableMask) where
  bounded t st ht := by
    rw [Machine.tableState?_initial ht]
    decide
  balanced t := by
    refine ⟨Store.initial.queue t, List.append_nil _, fun _ => rfl, fun hsize => ?_⟩
    refine Store.queue_of_none (Option.eq_none_iff_forall_ne_some.mpr fun st ht => ?_)
    exact absurd (Store.lt_size_of_tableState? ht) (Nat.not_lt.mpr hsize)

/-- **Every step** keeps the ledger. -/
theorem step (h : Happens past now) (k : Ledger past now.before) :
    Ledger (past ++ [now]) now.after where
  bounded := h.bounded k.bounded
  balanced t := by
    obtain ⟨queue, hqueue, hexists, hnew⟩ := k.balanced t
    rw [List.flatMap_append, List.filterMap_append, ← List.append_assoc, hqueue,
      List.flatMap_singleton]
    by_cases ht : now.after.kernel.store.tableState? t = none
    -- a table that is gone takes no part in the step
    · have hfreed : now.freed t = [] := List.eq_nil_iff_forall_not_mem.mpr fun fd hfd => by
        have hslot := (Moment.mem_freed.mp hfd).2
        rw [Store.slot?, ht] at hslot
        cases hslot
      have hgiven : now.given? t = none := Option.eq_none_iff_forall_ne_some.mpr fun fd hfd =>
        (h.table_of_given k.bounded hfd).2 ht
      refine ⟨queue, by simp [hfreed, hgiven], fun hne => absurd ht hne, fun hsize => ?_⟩
      exact hnew (Nat.le_trans h.tables_le hsize)
    · have hbefore : queue = now.before.kernel.store.queue t := by
        by_cases hnone : now.before.kernel.store.tableState? t = none
        · rw [Store.queue_of_none hnone]
          exact hnew (h.le_of_new k.bounded hnone ht)
        · exact hexists hnone
      refine ⟨now.after.kernel.store.queue t, ?_, fun _ => rfl, fun hsize => ?_⟩
      · rw [hbefore]
        rcases h.queue_cases k.bounded ht with ⟨hgiven, hafter⟩ | ⟨fd, hgiven, hfreed, hafter⟩
        · simp [hgiven, hafter]
        · simp [hgiven, hfreed, hafter]
      · obtain ⟨st, hst⟩ := Option.ne_none_iff_exists'.mp ht
        exact absurd (Store.lt_size_of_tableState? hst) (Nat.not_lt.mpr hsize)

/-- **From one moment of a table to a later one.** -/
theorem between (k : Ledger past m) (k' : Ledger (past ++ stretch) m')
    (ht : m.kernel.store.tableState? t ≠ none) : ∃ queue,
      m.kernel.store.queue t ++ stretch.flatMap (·.freed t) =
        stretch.filterMap (·.given? t) ++ queue ∧
      (m'.kernel.store.tableState? t ≠ none → queue = m'.kernel.store.queue t) ∧
      (m'.kernel.store.tables.size ≤ t → queue = []) := by
  obtain ⟨queue, hqueue, hsame, -⟩ := k.balanced t
  obtain ⟨queue', hqueue', hlater⟩ := k'.balanced t
  rw [hsame ht] at hqueue
  rw [List.flatMap_append, List.filterMap_append, ← List.append_assoc, hqueue,
    List.append_assoc, List.append_assoc] at hqueue'
  exact ⟨queue', List.append_cancel_left hqueue', hlater⟩

/-- A number that is queued is given out, or waits still. -/
theorem given_or_queued (k : Ledger past m) (k' : Ledger (past ++ stretch) now.before)
    (h : Happens (past ++ stretch) now) (ht : now.after.kernel.store.tableState? t ≠ none)
    {fd : Nat} (hfd : fd ∈ m.kernel.store.queue t) :
    fd ∈ stretch.filterMap (·.given? t) ∨ fd ∈ now.before.kernel.store.queue t := by
  obtain ⟨queue, hqueue, hsame, hnew⟩ := k.between k' (Store.exists_of_queued hfd)
  have hmem : fd ∈ stretch.filterMap (·.given? t) ++ queue :=
    hqueue ▸ List.mem_append_left _ hfd
  refine (List.mem_append.mp hmem).imp_right fun hwaits => ?_
  by_cases hnone : now.before.kernel.store.tableState? t = none
  · rw [hnew (h.le_of_new k'.bounded hnone ht)] at hwaits
    cases hwaits
  · exact hsame hnone ▸ hwaits

/-- **A number is not given out before those that are ahead of it.** -/
theorem given_ahead (k : Ledger past m) (k' : Ledger (past ++ stretch) now.before)
    (h : Happens (past ++ stretch) now) {front rest : List Nat} {x y : Nat}
    (hqueue : m.kernel.store.queue t = front ++ x :: rest) (hfront : y ∉ front) (hne : x ≠ y)
    (hgiven : now.given? t = some y) : ∃ n ∈ stretch, n.given? t = some x := by
  have hx : x ∈ m.kernel.store.queue t := hqueue ▸ List.mem_append_right _ List.mem_cons_self
  obtain ⟨hbefore, hafter⟩ := h.table_of_given k'.bounded hgiven
  obtain ⟨queue, hbalance, hsame, -⟩ := k.between k' (Store.exists_of_queued hx)
  rcases h.queue_cases k'.bounded hafter with ⟨hnone, -⟩ | ⟨fd, hfd, -, hy⟩
  · cases hnone.symm.trans hgiven
  cases hfd.symm.trans hgiven
  rw [hsame hbefore, hy, hqueue, List.append_assoc, List.cons_append] at hbalance
  exact List.mem_filterMap.mp (mem_of_ahead hbalance hfront hne)

/-- **A number that becomes free waits** for those that are free, and for those that become free
with it and are smaller. -/
theorem waits {start : Moment} (k : Ledger past start.before) (h : Happens past start)
    (k' : Ledger (past ++ [start] ++ stretch) now.before)
    (h' : Happens (past ++ [start] ++ stretch) now) {fd fd' : Nat} (hfd : fd ∈ start.freed t)
    (hgiven : now.given? t = some fd)
    (hfree : start.before.kernel.store.slot? t fd' = some .free ∨
      fd' ∈ start.freed t ∧ fd' < fd) : ∃ n ∈ stretch, n.given? t = some fd' := by
  obtain ⟨front, rest, hqueue, hfront, hne⟩ := h.ahead k.bounded hfd hfree
  exact (k.step h).given_ahead k' h' hqueue hfront hne hgiven

/-- **A number that becomes free comes before** those that become free later. -/
theorem precedes {start later : Moment} {between more : List Moment}
    (k : Ledger past start.before) (h : Happens past start)
    (k' : Ledger (past ++ [start] ++ between) later.before)
    (h' : Happens (past ++ [start] ++ between) later)
    (k'' : Ledger (past ++ [start] ++ between ++ [later] ++ more) now.before)
    (h'' : Happens (past ++ [start] ++ between ++ [later] ++ more) now) {fd fd' : Nat}
    (hfd : fd ∈ start.freed t) (hfd' : fd' ∈ later.freed t) (hgiven : now.given? t = some fd') :
    ∃ n ∈ between ++ later :: more, n.given? t = some fd := by
  have hqueued : fd ∈ start.after.kernel.store.queue t :=
    (Store.mem_queue h.regular.2).mpr (Moment.mem_freed.mp hfd).2
  have ht : later.after.kernel.store.tableState? t ≠ none :=
    Store.exists_of_queued ((Store.mem_queue h'.regular.2).mpr (Moment.mem_freed.mp hfd').2)
  rcases (k.step h).given_or_queued k' h' ht hqueued with hgone | hwaits
  · obtain ⟨n, hn, hfd⟩ := List.mem_filterMap.mp hgone
    exact ⟨n, List.mem_append_left _ hn, hfd⟩
  · obtain ⟨n, hn, hfd⟩ := k'.waits h' k'' h'' hfd' hgiven
      (.inl ((Store.mem_queue h'.regular.1).mp hwaits))
    exact ⟨n, List.mem_append_right _ (List.mem_cons_of_mem _ hn), hfd⟩

end Ledger

/-- **Descriptor numbers of table `t` are handed out in turn** at the moments of a run. -/
structure InTurn (moments : List Moment) (t : TableId) : Prop where
  /-- At first, and in a table that is made, the numbers are queued in ascending order. -/
  initial : (Store.initial.queue t).Pairwise (· < ·)
  made : ∀ {now : Moment}, now ∈ moments → now.before.kernel.store.tableState? t = none →
    (now.after.kernel.store.queue t).Pairwise (· < ·)
  /-- What has been handed out so far, and behind it the queue, is what was queued at first, and
  behind it what has become free so far. -/
  balanced : ∀ {past future : List Moment} {now : Moment}, moments = past ++ now :: future →
    now.after.kernel.store.tableState? t ≠ none →
    Store.initial.queue t ++ (past ++ [now]).flatMap (·.freed t) =
      (past ++ [now]).filterMap (·.given? t) ++ now.after.kernel.store.queue t
  /-- A number that becomes free is not handed out again before every number that was free then, or
  became free with it and is smaller, -/
  waits : ∀ {past between future : List Moment} {start now : Moment} {fd fd' : Nat},
    moments = past ++ start :: (between ++ now :: future) → fd ∈ start.freed t →
    now.given? t = some fd →
    (start.before.kernel.store.slot? t fd' = some .free ∨ fd' ∈ start.freed t ∧ fd' < fd) →
    ∃ n ∈ between, n.given? t = some fd'
  /-- and it is handed out before every number that becomes free later. -/
  precedes : ∀ {past between more future : List Moment} {start later now : Moment} {fd fd' : Nat},
    moments = past ++ start :: (between ++ later :: (more ++ now :: future)) →
    fd ∈ start.freed t → fd' ∈ later.freed t → now.given? t = some fd' →
    ∃ n ∈ between ++ later :: more, n.given? t = some fd
  /-- Where an opening gives no number out, the queue stays as it is, -/
  missed : ∀ {now : Moment} {job : Job} {origin : Origin}, now ∈ moments →
    now.before.job? now.event = some (job, origin) → job.op? = some .open →
    now.outcome.fd? = none → now.after.kernel.store.queue t = now.before.kernel.store.queue t
  /-- and so it does where a closing does not succeed. -/
  unclosed : ∀ {now : Moment} {job : Job} {origin : Origin}, now ∈ moments →
    now.before.job? now.event = some (job, origin) → job.op? = some .close →
    now.outcome ≠ .returned (origin.receives (.ok .done)) →
    now.after.kernel.store.queue t = now.before.kernel.store.queue t

/-- At first the numbers of the kernel's own table are queued in ascending order. -/
theorem Store.pairwise_queue_initial (t : TableId) : (Store.initial.queue t).Pairwise (· < ·) := by
  rw [queue]
  cases ht : Store.initial.tableState? t with
  | none => exact .nil
  | some st =>
      rw [Machine.tableState?_initial ht]
      exact List.pairwise_lt_range

/-- The numbers of a table that is made are queued in ascending order. -/
theorem Happens.pairwise_made {past : List Moment} {now : Moment} (h : Happens past now)
    (hb : now.before.kernel.store.Bounded) {t : TableId}
    (hnone : now.before.kernel.store.tableState? t = none) :
    (now.after.kernel.store.queue t).Pairwise (· < ·) := by
  by_cases ht : now.after.kernel.store.tableState? t = none
  · rw [Store.queue_of_none ht]
    exact .nil
  have hbefore := Store.queue_of_none hnone
  rcases h.queue_cases hb ht with ⟨-, hqueue⟩ | ⟨fd, -, -, hqueue⟩
  · rw [hqueue, hbefore]
    exact now.pairwise_freed t
  · cases hbefore.symm.trans hqueue

/-- **Descriptor numbers are handed out in the order in which they became free**, by every table in
every run, whatever is opened, closed, emptied and copied in between and whatever drivers call and
answer while they are asked. -/
theorem numbers_given_in_turn (word enableMask : Sync.Word) (events : List Event) :
    ∃ moments, (Machine.initial word enableMask).trace [] events = .ok moments ∧
      ∀ t, InTurn moments t := by
  obtain ⟨moments, htrace, hmoments⟩ := (Recalls.initial word enableMask).reached
    (I := fun past m _ => Ledger past m) (fun h k => k.step h) (.initial word enableMask) events
  have hat : ∀ {past future : List Moment} {now : Moment}, moments = past ++ now :: future →
      Happens past now ∧ Ledger past now.before := fun {past future now} he =>
    ⟨(hmoments past now future he).1, (hmoments past now future he).2.1⟩
  have hmem : ∀ {now}, now ∈ moments → ∃ past, Happens past now ∧ Ledger past now.before :=
    fun hnow => by
      obtain ⟨past, future, he⟩ := List.append_of_mem hnow
      exact ⟨past, hat he⟩
  refine ⟨moments, htrace, fun t => ?_⟩
  exact
    { initial := Store.pairwise_queue_initial t
      made := fun hnow hnone => by
        obtain ⟨past, h, k⟩ := hmem hnow
        exact h.pairwise_made k.bounded hnone
      balanced := fun he ht => by
        obtain ⟨-, -, k⟩ := hmoments _ _ _ he
        obtain ⟨queue, hqueue, hsame, -⟩ := k.balanced t
        exact hsame ht ▸ hqueue
      waits := fun {past between future start now fd fd'} he => by
        obtain ⟨h, k⟩ := hat he
        obtain ⟨h', k'⟩ := hat (show moments = (past ++ [start] ++ between) ++ now :: future by
          simp [he])
        exact k.waits h k' h'
      precedes := fun {past between more future start later now fd fd'} he => by
        obtain ⟨h, k⟩ := hat he
        obtain ⟨h', k'⟩ := hat (show moments =
          (past ++ [start] ++ between) ++ later :: (more ++ now :: future) by simp [he])
        obtain ⟨h'', k''⟩ := hat (show moments =
          (past ++ [start] ++ between ++ [later] ++ more) ++ now :: future by simp [he])
        exact k.precedes h k' h' k'' h''
      missed := fun hnow hjob hop hnone => by
        obtain ⟨past, h, k⟩ := hmem hnow
        exact h.queue_of_missed k.bounded hjob hop hnone t
      unclosed := fun hnow hjob hop hfails => by
        obtain ⟨past, h, -⟩ := hmem hnow
        exact h.queue_of_unclosed hjob hop hfails t }

/-- Number 2 was free when 1 and then 0 became free, and so it is handed out before them. -/
example : (do
    let moments ← (Machine.initial 0 0).trace [] [.call (.createVfs 4), .call (.createTable 3),
      .call (.open 0 1 "/".toList .readOnly 0), .call (.open 0 1 "/".toList .readOnly 0),
      .call (.close 1 1), .call (.close 1 0), .call (.open 0 1 "/".toList .readOnly 0),
      .call (.open 0 1 "/".toList .readOnly 0), .call (.open 0 1 "/".toList .readOnly 0)]
    return moments.map fun n : Moment => (n.given? 1, n.freed 1)) =
    .ok [(none, []), (none, [0, 1, 2]), (some 0, []), (some 1, []), (none, [1]), (none, [0]),
      (some 2, []), (some 1, []), (some 0, [])] := by
  cbv

end VirtualFs

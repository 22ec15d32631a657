import VirtualFs.Proofs.Kernel.Provenance
import VirtualFs.Proofs.Since

/-!
# What is left of a destroyed table

Destroying a table closes its open files, slot after slot.  A descriptor that has left a slot comes
back in one way only: its driver refuses to close it.  So what the table held is gone once the call
has returned.

The call passes over a slot whose driver is being asked already, and does not wait for the answer.
If that driver refuses later, its file is open in the destroyed table again.

* `FileEffect.slot_cases`, `Happens.slot_of_seen`: what comes into a slot.
* `Action.sweeps_sweep`: how far a table is emptied, by induction on the slots that are left.
* `Moment.Fate`, `Emptied.step`: what becomes of a descriptor of a destroyed table.
* `destroyed_tables_stay_empty`: every moment of every run.
-/

namespace VirtualFs

/-! ### Slots of one table -/

/-- **What is open in a slot after a job** was open in it, or was to be closed there, or has a new
descriptor. -/
theorem FileEffect.slot_cases {s s' : Store} {job : Job} {p : Progress} {t : TableId} {fd : Nat}
    {entry : FdEntry} (h : FileEffect s job p s') (ht : t < s.tables.size)
    (hslot : s'.slot? t fd = some (.opened entry)) : s.slot? t fd = some (.opened entry) ∨
      (∃ e, job = .resume (.closing t fd entry) (.failed e)) ∨
      entry.descriptor.id = s.references.next := by
  cases h with
  | settles result hjob h => exact .inl (h.slots ht hslot)
  | closes hslot' hquestion h => exact .inl (h.slots ht hslot)
  | empties hjob hslot' hopen hquestion hframe h => exact .inl (h.slots ht hslot)
  | @restores u i entry' st old e r hu hold =>
    rw [Store.slot?_withSlot (s := s.withReferences r) hu hold rfl] at hslot
    split at hslot
    · rename_i hui
      obtain ⟨rfl, rfl⟩ := hui
      cases hslot
      exact .inr (.inl ⟨e, rfl⟩)
    · exact .inl hslot
  | misses e hjob h => exact .inl ((Store.slot?_congr h.tables t fd).symm.trans hslot)
  | abandons hdriver h => exact .inl ((Store.slot?_congr h.tables t fd).symm.trans hslot)
  | @places _ u flags mode path record handle st i s₁ hjob hknows h hu hfree =>
    have hu' : s₁.tableState? u = some st := by
      rw [Store.tableState?, h.tables]
      exact hu
    rw [Store.slot?_withSlot hu' hfree (FdTable.installed_slots _ _ _)] at hslot
    split at hslot
    · rename_i hui
      obtain ⟨rfl, rfl⟩ := hui
      cases hslot
      exact .inr (.inr rfl)
    · exact .inl ((Store.slot?_congr h.tables t fd).symm.trans hslot)
  | _ => exact .inl hslot

theorem FileEffect.tables_le {s s' : Store} {job : Job} {p : Progress} (h : FileEffect s job p s') :
    s.tables.size ≤ s'.tables.size := by
  cases h with
  | settles result hjob h => exact h.size
  | closes hslot' hquestion h => exact h.size
  | empties hjob hslot' hopen hquestion hframe h => exact h.size
  | restores => exact Nat.le_of_eq Array.size_setIfInBounds.symm
  | misses e hjob h => rw [h.tables]
  | abandons hdriver h => rw [h.tables]
  | places hjob hknows h =>
    rw [← h.tables]
    exact Nat.le_of_eq Array.size_setIfInBounds.symm
  | _ => exact Nat.le_refl _

namespace Happens

variable {past : List Moment} {now : Moment} {t : TableId} {fd : Nat} {entry : FdEntry}

theorem tables_le (h : Happens past now) :
    now.before.kernel.store.tables.size ≤ now.after.kernel.store.tables.size := by
  rcases Machine.step_cases h.step with ⟨-, -, hafter⟩ | ⟨job, origin, p, c⟩
  · rw [hafter]
  rcases h.effect c with hfile | hmount
  · exact hfile.tables_le
  · rw [hmount.keepsFiles.tables]

/-- A descriptor that has been in a slot before comes into one only where a driver refuses to close
it. -/
theorem slot_of_seen (h : Happens past now) (ht : t < now.before.kernel.store.tables.size)
    (hseen : Seen past entry.descriptor)
    (hslot : now.after.kernel.store.slot? t fd = some (.opened entry)) :
    now.before.kernel.store.slot? t fd = some (.opened entry) ∨
      ∃ e origin, now.before.job? now.event =
        some (.resume (.closing t fd entry) (.failed e), origin) := by
  rcases Machine.step_cases h.step with ⟨-, -, hafter⟩ | ⟨job, origin, p, c⟩
  · exact .inl (hafter ▸ hslot)
  rcases h.effect c with hfile | hmount
  · rcases hfile.slot_cases ht hslot with hbefore | ⟨e, rfl⟩ | hnew
    · exact .inl hbefore
    · exact .inr ⟨e, origin, c.sets⟩
    -- a new descriptor has a number above all others
    · obtain ⟨H, r⟩ := h.before
      obtain ⟨n, hn, hpos⟩ := hseen
      exact absurd hnew (Nat.ne_of_lt (r.sound.books.numbered (r.installed n hn _ hpos)))
  · exact .inl ((Store.slot?_congr hmount.keepsFiles.tables t fd).symm.trans hslot)

end Happens

/-! ### Emptying a table -/

namespace Action

variable {s : Store}

/-- **How far a table is emptied** from slot `next` on, with so many slots left. -/
inductive Sweeps (s : Store) (t : TableId) (purpose : SweepPurpose) (next remaining : Nat) :
    Progress → Store → Prop
  /-- None of the slots is open. -/
  | finished {result : Except Error Answer} {s' : Store} (h : s.Keeps s')
      (hempty : ∀ fd, next ≤ fd → fd < next + remaining → ∀ entry,
        s'.slot? t fd ≠ some (.opened entry)) :
      Sweeps s t purpose next remaining (.finished result) s'
  /-- A driver is asked, and none of the slots up to its own is open. -/
  | waiting {question : HookCall} {entry : FdEntry} {remaining' next' : Nat}
      {cpu : Sync.Cpu LockId} {s' : Store}
      (h : s.Keeps s') (hleft : next' + remaining' = next + remaining)
      (hempty : ∀ fd, next ≤ fd → fd < next' → ∀ entry, s'.slot? t fd ≠ some (.opened entry)) :
      Sweeps s t purpose next remaining
        (.waiting question (.sweeping t purpose entry remaining' next') cpu) s'

variable {s₁ s' : Store} {t : TableId} {purpose : SweepPurpose} {next remaining : Nat}
  {p : Progress}

/-- One slot more, which is not open. -/
theorem Sweeps.cons (r : Sweeps s₁ t purpose (next + 1) remaining p s') (ht : t < s₁.tables.size)
    (hkeeps : s.Keeps s₁) (hnext : ∀ entry, s₁.slot? t next ≠ some (.opened entry)) :
    Sweeps s t purpose next (remaining + 1) p s' := by
  have hcons : ∀ {s'}, s₁.Keeps s' → ∀ {bound}, (∀ fd, next + 1 ≤ fd → fd < bound → ∀ entry,
      s'.slot? t fd ≠ some (.opened entry)) → ∀ fd, next ≤ fd → fd < bound → ∀ entry,
        s'.slot? t fd ≠ some (.opened entry) := by
    intro s' h bound hempty fd hle hlt entry hslot
    rcases Nat.eq_or_lt_of_le hle with rfl | hlt'
    · exact hnext entry (h.slots ht hslot)
    · exact hempty fd hlt' hlt entry hslot
  cases r with
  | finished h hempty =>
    exact .finished (hkeeps.trans h) fun fd hle hlt =>
      hcons h hempty fd hle (by omega)
  | waiting h hleft hempty => exact .waiting (hkeeps.trans h) (by omega) (hcons h hempty)

theorem sweeps_swept (t : TableId) (purpose : SweepPurpose) (next : Nat) :
    (swept t purpose).Ensures s (Sweeps s t purpose next 0) := by
  have hempty : ∀ {s' : Store} fd, next ≤ fd → fd < next + 0 → ∀ entry,
      s'.slot? t fd ≠ some (.opened entry) := fun fd hle hlt => absurd hlt (Nat.not_lt.mpr hle)
  cases purpose with
  | destroy => exact ensures_pure (.finished (.refl s) hempty)
  | drop =>
    intro k p k' hk h
    cases h
    rw [← hk]
    exact .finished (k.store.keeps_forget t) hempty

/-- **Emptying a table**, by induction on the slots that are left. -/
theorem sweeps_sweep (t : TableId) (purpose : SweepPurpose) (remaining next : Nat) :
    (sweep t purpose remaining next).Ensures s (Sweeps s t purpose next remaining) := by
  induction remaining generalizing s next with
  | zero => exact sweeps_swept t purpose next
  | succ remaining ih =>
    refine (ensures_take t next).bind ?_
    rintro (_ | entry) s₁ ⟨hkeeps, -, ht, hnext⟩
    · exact (ih (next + 1)).mono fun _ _ r =>
        r.cons (Nat.lt_of_lt_of_le ht hkeeps.size) hkeeps hnext
    · refine (ensures_releaseReference entry).bind ?_
      rintro (_ | question) s₂ ⟨hkeeps', -⟩
      · have ht' := Nat.lt_of_lt_of_le ht (hkeeps.trans hkeeps').size
        refine (ih (next + 1)).mono fun _ _ r => r.cons ht' (hkeeps.trans hkeeps') fun e he => ?_
        exact hnext e (hkeeps'.slots (Nat.lt_of_lt_of_le ht hkeeps.size) he)
      · refine ensures_ask fun cpu => .waiting (hkeeps.trans hkeeps') (by omega) ?_
        intro fd hle hlt e he
        obtain rfl : fd = next := Nat.le_antisymm (Nat.le_of_lt_succ hlt) hle
        exact hnext e (hkeeps'.slots (Nat.lt_of_lt_of_le ht hkeeps.size) he)

theorem sweeps_sweepOn (t : TableId) (purpose : SweepPurpose) (entry : FdEntry)
    (remaining next : Nat) (failure : Option Error) :
    (sweepOn t purpose entry remaining next failure).Ensures s
      (Sweeps s t purpose next remaining) := by
  cases failure with
  | none => exact sweeps_sweep t purpose remaining next
  | some e => exact (ensures_note _).bind_same fun _ => sweeps_sweep t purpose remaining next

/-- **A suspended emptying goes on** where it was, whatever the driver has answered. -/
theorem sweeps_resume (t : TableId) (purpose : SweepPurpose) (entry : FdEntry)
    (remaining next : Nat) (reply : Reply) :
    (resume (.sweeping t purpose entry remaining next) reply).Ensures s
      (Sweeps s t purpose next remaining) := by
  cases reply with
  | failed e => exact sweeps_sweepOn t purpose entry remaining next (some e)
  | _ => exact sweeps_sweepOn t purpose entry remaining next none

/-- **Destroying a table** empties all its slots. -/
theorem sweeps_destroyTable (t : TableId) :
    (destroyTable t).Ensures s fun p s' => ∃ st, s.tableState? t = some st ∧
      Sweeps s t .destroy 0 st.table.capacity p s' := by
  refine (ensures_unlocked (Section.ensures_getTable t)).bind ?_
  rintro _ s₁ ⟨⟨st, ht, rfl⟩, rfl⟩
  exact (sweeps_sweep t .destroy _ 0).mono fun _ _ r => ⟨st, ht, r⟩

end Action

/-! ### What occupies a table -/

/-- Some slot of the table holds the descriptor. -/
def Store.Has (s : Store) (t : TableId) (d : Descriptor) : Prop :=
  ∃ fd entry, s.slot? t fd = some (.opened entry) ∧ entry.descriptor = d

/-- The suspended call closes the file of slot `fd`, which held the descriptor. -/
def Pending.Closes (pending : Pending) (t : TableId) (fd : Nat) (d : Descriptor) : Prop :=
  ∃ entry, pending.frame = .closing t fd entry ∧ entry.descriptor = d

/-- The descriptor is in a slot of the table, or its driver is being asked to close it there. -/
def Machine.Occupies (m : Machine) (t : TableId) (d : Descriptor) : Prop :=
  m.kernel.store.Has t d ∨ ∃ pending ∈ m.stack, ∃ fd, pending.Closes t fd d

namespace Moment

/-- The step begins to destroy the table. -/
def Destroys (n : Moment) (t : TableId) : Prop :=
  ∃ origin, n.before.job? n.event = some (.begin (.destroyTable t), origin)

/-- The call that began at `start` has returned: only those that were suspended before it are
left. -/
def Returned (start : Moment) (later : List Moment) : Prop :=
  ∃ n ∈ start :: later, n.after.stack.length ≤ start.before.stack.length

/-- A driver refuses to close a file, and the descriptor is back in its slot; it was being closed
when `start` came. -/
def Reopens (n start : Moment) (t : TableId) (d : Descriptor) : Prop :=
  ∃ fd entry e origin, entry.descriptor = d ∧ ⟨.closing t fd entry, origin⟩ ∈ start.before.stack ∧
    n.before.job? n.event = some (.resume (.closing t fd entry) (.failed e), origin)

/-- **What becomes of a descriptor** of the table that `start` begins to destroy. -/
inductive Fate (start : Moment) (later : List Moment) (t : TableId) (d : Descriptor)
    (m : Machine) : Prop
  /-- A driver has refused a closing that had begun before. -/
  | reopened (h : ∃ n ∈ later, n.Reopens start t d)
  /-- The table is being emptied, and the slots up to `next` are done with. -/
  | running {above : List Pending} {entry : FdEntry} {remaining next : Nat} {origin : Origin}
      (hstack : m.stack =
        above ++ ⟨.sweeping t .destroy entry remaining next, origin⟩ :: start.before.stack)
      (hout : ¬ start.Returned later)
      (hslots : ∀ fd entry, m.kernel.store.slot? t fd = some (.opened entry) →
        entry.descriptor = d → next ≤ fd)
      (hclosing : ∀ pending ∈ above, ∀ fd, pending.Closes t fd d → next ≤ fd)
  /-- The descriptor is gone, unless it comes back from a closing that had begun before. -/
  | gone (hslots : ¬ m.kernel.store.Has t d)
      (hclosing : ∀ pending ∈ m.stack, ∀ fd, pending.Closes t fd d →
        pending ∈ start.before.stack)

end Moment

/-! ### Runs -/

/-- **What is known of destroyed tables** after the moments of the past. -/
structure Emptied (past : List Moment) (m : Machine) : Prop extends Witnessed past m where
  known : ∀ {a start b t d}, past = a ++ start :: b → start.Destroys t →
    start.before.Occupies t d → t < m.kernel.store.tables.size ∧ Seen past d
  fate : ∀ {a start b t d}, past = a ++ start :: b → start.Destroys t →
    start.before.Occupies t d → start.Fate b t d m
  /-- What was in a slot was not being closed. -/
  apart : ∀ n ∈ past, ∀ {t d}, n.before.kernel.store.Has t d → ∀ pending ∈ n.before.stack,
    ∀ {u fd}, ¬ pending.Closes u fd d

namespace Happens

variable {past : List Moment} {now : Moment} {t : TableId} {d : Descriptor} {fd : Nat}
  {entry : FdEntry} {start : Moment} {later : List Moment}

/-- A descriptor in a slot is not being closed. -/
theorem not_closes_of_has (h : Happens past now) (hhas : now.before.kernel.store.Has t d)
    {pending : Pending} (hmem : pending ∈ now.before.stack) {u : TableId} {fd : Nat} :
    ¬ pending.Closes u fd d := by
  rintro ⟨entry, hframe, rfl⟩
  obtain ⟨H, r⟩ := h.before
  have hclosing : (⟨u, fd, entry⟩ : Closing) ∈ now.before.closings :=
    List.mem_filterMap.mpr ⟨pending, hmem, by rw [hframe]; rfl⟩
  obtain ⟨i, e, hslot, hd⟩ := hhas
  exact Nat.lt_irrefl _ (Nat.lt_of_lt_of_eq (Store.opens_pos_iff.mpr ⟨t, i, e, hslot, hd⟩)
    (r.sound.books.idle _ hclosing).2)

/-- A descriptor that is gone stays so, or comes back from a closing that had begun before. -/
theorem fate_of_gone (h : Happens past now) (ht : t < now.before.kernel.store.tables.size)
    (hseen : Seen past d)
    (hslots : ¬ now.before.kernel.store.Has t d)
    (hclosing : ∀ pending ∈ now.before.stack, ∀ fd, pending.Closes t fd d →
      pending ∈ start.before.stack) : start.Fate (later ++ [now]) t d now.after := by
  by_cases hback : now.after.kernel.store.Has t d
  · obtain ⟨fd, entry, hslot, hd⟩ := hback
    rcases h.slot_of_seen ht (hd ▸ hseen) hslot with hbefore | ⟨e, origin, hjob⟩
    · exact absurd ⟨fd, entry, hbefore, hd⟩ hslots
    · obtain ⟨-, hstack, -⟩ := Machine.stack_of_job hjob
      refine .reopened ⟨now, List.mem_append_right _ List.mem_cons_self, fd, entry, e, origin, hd,
        ?_, hjob⟩
      exact hclosing _ (hstack ▸ List.mem_cons_self) fd ⟨entry, rfl, hd⟩
  · refine .gone hback fun ⟨frame, origin⟩ hmem fd hcloses => ?_
    obtain ⟨entry, hframe, hd⟩ := hcloses
    dsimp only at hframe
    subst hframe
    rcases h.closing hmem with hmem | hslot
    · exact hclosing _ hmem fd ⟨entry, rfl, hd⟩
    · exact absurd ⟨fd, entry, hslot, hd⟩ hslots

/-- The call has not returned as long as more calls are suspended than before it. -/
theorem not_returned_append (hout : ¬ start.Returned later) {above : List Pending}
    {pending : Pending} (hstack : now.after.stack = above ++ pending :: start.before.stack) :
    ¬ start.Returned (later ++ [now]) := by
  rintro ⟨n, hn, hle⟩
  rcases List.mem_append.mp (List.cons_append ▸ hn : n ∈ (start :: later) ++ [now]) with hn | hn
  · exact hout ⟨n, hn, hle⟩
  · cases List.mem_singleton.mp hn
    rw [hstack, List.length_append, List.length_cons] at hle
    omega

/-- **What the emptying itself comes to**: the table does not hold what it held, or as far as the
slots have been passed. -/
theorem fate_of_sweeps (h : Happens past now) {job : Job} {origin : Origin} {p : Progress}
    (c : Machine.Carried now.before now.event now.outcome now.after job origin p)
    {next remaining : Nat} (hsweeps : Action.Sweeps now.before.kernel.store t .destroy next
      remaining p now.after.kernel.store)
    {st : TableState} (ht : now.before.kernel.store.tableState? t = some st)
    (hleft : next + remaining = st.table.capacity)
    (hslots : ∀ fd entry, now.before.kernel.store.slot? t fd = some (.opened entry) →
      entry.descriptor = d → next ≤ fd)
    (hbelow : now.before.below now.event = start.before.stack)
    (hout : ∀ pending, now.after.stack = [] ++ pending :: start.before.stack →
      ¬ start.Returned later) : start.Fate later t d now.after := by
  have hlt := Store.lt_size_of_tableState? ht
  generalize hs' : now.after.kernel.store = s' at hsweeps
  cases hsweeps with
  | finished hkeeps hempty =>
    have hstack := c.ends.of_finished.2.trans hbelow
    refine .gone ?_ fun pending hmem fd _ => by rwa [hstack] at hmem
    rintro ⟨fd, entry, hslot, hd⟩
    rw [hs'] at hslot
    have hbefore := hkeeps.slots hlt hslot
    -- a table has no slots beyond its capacity
    obtain ⟨H, r⟩ := h.before
    have hfd : fd < next + remaining := by
      rw [hleft, ← (r.sound.books.regular ht).size]
      rw [Store.slot?, ht, Option.bind_some] at hbefore
      exact (Array.getElem?_eq_some_iff.mp hbefore).1
    exact hempty fd (hslots fd entry hbefore hd) hfd entry hslot
  | @waiting question entry remaining' next' _ _ hkeeps hleft' hempty =>
    have hstack : now.after.stack =
        [] ++ ⟨.sweeping t .destroy entry remaining' next', origin⟩ :: start.before.stack :=
      c.ends.of_waiting.2.trans (congrArg _ hbelow)
    refine .running hstack (hout _ hstack) (fun fd entry' hslot hd => ?_)
      fun pending hmem => by cases hmem
    rw [hs'] at hslot
    have hle := hslots fd entry' (hkeeps.slots hlt hslot) hd
    exact Nat.le_of_not_lt fun hlt => hempty fd hle hlt entry' hslot

/-- While a call above the emptying goes on, the slots that are done with stay so. -/
theorem fate_of_above (h : Happens past now) (ht : t < now.before.kernel.store.tables.size)
    (hseen : Seen past d)
    {above above' : List Pending} {entry : FdEntry} {remaining next : Nat} {origin origin' : Origin}
    {job : Job} {p : Progress}
    (c : Machine.Carried now.before now.event now.outcome now.after job origin' p)
    (hbelow : now.before.below now.event =
      above' ++ ⟨.sweeping t .destroy entry remaining next, origin⟩ :: start.before.stack)
    (hsub : ∀ pending ∈ above', pending ∈ above)
    (hjob : ∀ frame reply, job = .resume frame reply → ⟨frame, origin'⟩ ∈ above)
    (hout : ¬ start.Returned later)
    (hslots : ∀ fd entry, now.before.kernel.store.slot? t fd = some (.opened entry) →
      entry.descriptor = d → next ≤ fd)
    (hclosing : ∀ pending ∈ above, ∀ fd, pending.Closes t fd d → next ≤ fd) :
    start.Fate (later ++ [now]) t d now.after := by
  have hslots' : ∀ fd entry, now.after.kernel.store.slot? t fd = some (.opened entry) →
      entry.descriptor = d → next ≤ fd := by
    intro fd entry hslot hd
    rcases h.slot_of_seen ht (hd ▸ hseen) hslot with hbefore | ⟨e, origin, hresume⟩
    · exact hslots fd entry hbefore hd
    · cases c.sets.symm.trans hresume
      exact hclosing _ (hjob _ _ rfl) fd ⟨entry, rfl, hd⟩
  cases p with
  | finished result =>
    have hstack := c.ends.of_finished.2.trans hbelow
    exact .running hstack (not_returned_append hout hstack) hslots' fun pending hmem =>
      hclosing pending (hsub pending hmem)
  | waiting question frame cpu =>
    have hstack : now.after.stack = (⟨frame, origin'⟩ :: above') ++
        ⟨.sweeping t .destroy entry remaining next, origin⟩ :: start.before.stack :=
      c.ends.of_waiting.2.trans (congrArg _ hbelow)
    refine .running hstack (not_returned_append hout hstack) hslots'
      fun pending hmem fd hcloses => ?_
    rcases List.mem_cons.mp hmem with rfl | hmem
    · obtain ⟨entry, hframe, hd⟩ := hcloses
      dsimp only at hframe
      subst hframe
      rcases h.effect c with hfile | hmount
      · exact hslots fd entry hfile.slot_of_closing hd
      · cases hmount.table?_eq_none
    · exact hclosing pending (hsub pending hmem) fd hcloses

/-- **A descriptor of a table that is being emptied**, one step on. -/
theorem fate_of_running (h : Happens past now) (ht : t < now.before.kernel.store.tables.size)
    (hseen : Seen past d) {above : List Pending}
    {entry : FdEntry} {remaining next : Nat} {origin : Origin}
    (hstack : now.before.stack =
      above ++ ⟨.sweeping t .destroy entry remaining next, origin⟩ :: start.before.stack)
    (hout : ¬ start.Returned later)
    (hslots : ∀ fd entry, now.before.kernel.store.slot? t fd = some (.opened entry) →
      entry.descriptor = d → next ≤ fd)
    (hclosing : ∀ pending ∈ above, ∀ fd, pending.Closes t fd d → next ≤ fd) :
    start.Fate (later ++ [now]) t d now.after := by
  rcases Machine.step_cases h.step with ⟨-, -, hafter⟩ | ⟨job, origin', p, c⟩
  · have hstack := (congrArg Machine.stack hafter).trans hstack
    exact .running hstack (not_returned_append hout hstack) (hafter ▸ hslots) hclosing
  cases job with
  | resume frame reply =>
    obtain ⟨-, htop, -⟩ := Machine.stack_of_job c.sets
    rw [hstack] at htop
    cases above with
    | nil =>
      obtain ⟨he, hbelow⟩ := List.cons.inj htop
      cases he
      obtain ⟨⟨st, ht, hleft, -⟩, -⟩ := h.resumes c.sets
      exact h.fate_of_sweeps c (c.ensures (Action.sweeps_resume t .destroy entry remaining next
        reply)) ht hleft hslots hbelow.symm fun _ => not_returned_append hout
    | cons top above =>
      obtain ⟨rfl, hbelow⟩ := List.cons.inj htop
      refine h.fate_of_above ht hseen c hbelow.symm
        (fun pending => List.mem_cons_of_mem _) ?_ hout hslots hclosing
      rintro _ _ he
      cases he
      exact List.mem_cons_self
  | _ =>
    exact h.fate_of_above ht hseen c
      ((Machine.below_of_job c.sets fun _ _ => Job.noConfusion).trans hstack)
      (fun pending hmem => hmem) (fun _ _ he => by cases he) hout hslots hclosing

/-- **The step that begins to destroy a table** empties it as far as no driver is asked. -/
theorem destroys (h : Happens past now) (hdestroys : now.Destroys t) : ∃ origin p st,
    Machine.Carried now.before now.event now.outcome now.after (.begin (.destroyTable t)) origin p ∧
      now.before.kernel.store.tableState? t = some st ∧
      Action.Sweeps now.before.kernel.store t .destroy 0 st.table.capacity p
        now.after.kernel.store := by
  obtain ⟨origin, hjob⟩ := hdestroys
  obtain ⟨p, c⟩ := h.carried hjob
  obtain ⟨st, ht, hsweeps⟩ := c.ensures (Action.sweeps_destroyTable t)
  exact ⟨origin, p, st, c, ht, hsweeps⟩

/-- What becomes of a descriptor in the step that begins to destroy its table. -/
theorem fate_of_destroys (h : Happens past now) (hdestroys : now.Destroys t) :
    now.Fate [] t d now.after := by
  obtain ⟨origin, p, st, c, ht, hsweeps⟩ := h.destroys hdestroys
  refine h.fate_of_sweeps c hsweeps ht (Nat.zero_add _) (fun _ _ _ _ => Nat.zero_le _)
    (Machine.below_of_job c.sets fun _ _ => Job.noConfusion) ?_
  rintro pending hstack ⟨n, hn, hle⟩
  cases List.mem_singleton.mp hn
  rw [hstack] at hle
  exact Nat.not_succ_le_self _ hle

end Happens

namespace Emptied

variable {past : List Moment} {now : Moment} {m : Machine} {t : TableId} {d : Descriptor}

theorem initial (word enableMask : Sync.Word) : Emptied [] (.initial word enableMask) where
  toWitnessed := .initial word enableMask
  known he := by simp at he
  fate he := by simp at he
  apart n hn := by cases hn

/-- What occupies a table has been in a slot. -/
theorem seen_of_occupies (k : Emptied past m) (h : m.Occupies t d) :
    Seen past d := by
  rcases h with ⟨fd, entry, hslot, hd⟩ | ⟨⟨frame, origin⟩, hmem, fd, entry, hframe, hd⟩
  · exact k.opened (Store.opens_pos_iff.mpr ⟨t, fd, entry, hslot, hd⟩)
  · dsimp only at hframe
    subst hframe
    exact hd ▸ k.closing hmem

/-- **Every step** keeps what is known of destroyed tables. -/
theorem step (h : Happens past now) (k : Emptied past now.before) :
    Emptied (past ++ [now]) now.after where
  toWitnessed := k.toWitnessed.step h
  known {a start b t d} he hdestroys hoccupies := by
    rcases concat_eq_append_cons he with ⟨rfl, rfl, rfl⟩ | ⟨b, hpast, rfl⟩
    · obtain ⟨-, -, st, -, ht, -⟩ := h.destroys hdestroys
      exact ⟨Nat.lt_of_lt_of_le (Store.lt_size_of_tableState? ht) h.tables_le,
        (k.seen_of_occupies hoccupies).append _⟩
    · obtain ⟨ht, hseen⟩ := k.known hpast hdestroys hoccupies
      exact ⟨Nat.lt_of_lt_of_le ht h.tables_le, hseen.append now⟩
  fate {a start b t d} he hdestroys hoccupies := by
    rcases concat_eq_append_cons he with ⟨rfl, rfl, rfl⟩ | ⟨b, hpast, rfl⟩
    · exact h.fate_of_destroys hdestroys
    obtain ⟨ht, hseen⟩ := k.known hpast hdestroys hoccupies
    cases k.fate hpast hdestroys hoccupies with
    | reopened hreopened =>
      obtain ⟨n, hn, hreopens⟩ := hreopened
      exact .reopened ⟨n, List.mem_append_left _ hn, hreopens⟩
    | running hstack hout hslots hclosing =>
      exact h.fate_of_running ht hseen hstack hout hslots hclosing
    | gone hslots hclosing => exact h.fate_of_gone ht hseen hslots hclosing
  apart n hn t d hhas pending hmem := by
    rcases List.mem_append.mp hn with hn | hn
    · exact k.apart n hn hhas pending hmem
    · cases List.mem_singleton.mp hn
      exact h.not_closes_of_has hhas hmem

/-- What is in a destroyed table again was being closed there, and its driver has refused. -/
theorem reopened (k : Emptied past m) {a b : List Moment} {start : Moment}
    (hpast : past = a ++ start :: b) (hdestroys : start.Destroys t)
    (hoccupies : start.before.Occupies t d) (hreturned : start.Returned b)
    (hhas : m.kernel.store.Has t d) :
    ¬ start.before.kernel.store.Has t d ∧ ∃ n ∈ b, n.Reopens start t d := by
  cases k.fate hpast hdestroys hoccupies with
  | reopened hreopened =>
    refine ⟨fun hopened => ?_, hreopened⟩
    obtain ⟨n, -, fd, entry, e, origin, hd, hmem, -⟩ := hreopened
    exact k.apart start (by rw [hpast]; simp) hopened _ hmem ⟨entry, rfl, hd⟩
  | running hstack hout => exact absurd hreturned hout
  | gone hslots => exact absurd hhas hslots

end Emptied

/-! ### Getting at what a table holds -/

/-- The slot that the job looks at, to get its entry or to use its file. -/
def Job.looksAt? : Job → Option (TableId × Nat)
  | .begin (.query (.entry t fd)) | .begin (.transfer t fd _) => some (t, fd)
  | _ => none

/-- **The step gets at the descriptor through the table.** -/
inductive Moment.Obtains (n : Moment) (t : TableId) (d : Descriptor) : Prop
  /-- The entry of a slot is given out. -/
  | got {fd : Nat} {entry : FdEntry} {references : Nat}
      (hcall : n.event = .call (.query (.entry t fd)))
      (hgot : n.outcome = .returned (.ok (.entry entry references)))
      (hd : entry.descriptor = d)
  /-- The driver is asked to read, to write, to list or to control its file. -/
  | asked {fd : Nat} {op : Transfer} {origin : Origin} {driver : External}
      (hjob : n.before.job? n.event = some (.begin (.transfer t fd op), origin))
      (hasked : n.outcome = .asked (op.question driver d.handle))
  /-- Its directory is read on. -/
  | listed {fd : Nat} {origin : Origin} {serial : Nat}
      (hjob : n.before.job? n.event = some (.begin (.transfer t fd .readdir), origin))
      (hhandle : d.handle = .directory serial)
      (hmoved : n.after.kernel.store.openDirectories[serial]? ≠
        n.before.kernel.store.openDirectories[serial]?)
  /-- A copy of the table holds it. -/
  | copied {fd : Nat} {budget : Option Nat} {origin : Origin} {entry : FdEntry}
      (hjob : n.before.job? n.event = some (.begin (.copyTable t budget), origin))
      (hslot : n.after.kernel.store.slot? n.before.kernel.store.tables.size fd =
        some (.opened entry)) (hd : entry.descriptor = d)

/-- Nothing is got out of a slot that is not open. -/
theorem FdTable.get_of_shut {table : FdTable} {fd : Nat} {slot : Slot}
    (hslot : table.slots[fd]? = some slot) (hshut : ∀ entry, slot ≠ .opened entry) :
    table.get fd = .error .badFileDescriptor := by
  rw [FdTable.get, hslot]
  cases slot with
  | opened entry => exact absurd rfl (hshut entry)
  | free | closing => rfl

namespace Action

variable {s : Store}

variable {t : TableId} {fd : Nat} {slot : Slot}

/-- Whoever wants the entry of a slot that is not open fails. -/
theorem ensures_get_shut {α : Type} (hslot : s.slot? t fd = some slot)
    (hshut : ∀ entry, slot ≠ .opened entry) {f : Except Error FdEntry → Action (Except Error α)}
    (hf : f (.error .badFileDescriptor) = pure (.error .badFileDescriptor)) :
    (onTable t (fun table => pure (table.get fd)) >>= f).Ensures s fun result s' =>
      result = .error .badFileDescriptor ∧ s' = s := by
  obtain ⟨st, ht, hst⟩ := Option.bind_eq_some_iff.mp hslot
  refine (ensures_onTable t _).bind ?_
  rintro found s' ⟨⟨st', ht', hfound⟩, rfl⟩
  cases ht.symm.trans ht'
  cases hfound
  rw [FdTable.get_of_shut hst hshut, hf]
  exact ensures_pure ⟨rfl, rfl⟩

theorem ensures_entry_shut (hslot : s.slot? t fd = some slot)
    (hshut : ∀ entry, slot ≠ .opened entry) : (entry t fd).Ensures s fun result s' =>
      result = .error .badFileDescriptor ∧ s' = s :=
  ensures_get_shut hslot hshut rfl

theorem ensures_permitted_shut (hslot : s.slot? t fd = some slot)
    (hshut : ∀ entry, slot ≠ .opened entry) (permission : OpenFlags) :
    (permitted t fd permission).Ensures s fun result s' =>
      result = .error .badFileDescriptor ∧ s' = s :=
  ensures_get_shut hslot hshut rfl

/-- **Nothing is done with a slot that is not open.** -/
theorem ensures_shut {job : Job} (hlooks : job.looksAt? = some (t, fd))
    (hslot : s.slot? t fd = some slot) (hshut : ∀ entry, slot ≠ .opened entry) :
    job.action.Ensures s fun p s' => p = .failed .badFileDescriptor ∧ s' = s := by
  cases job with
  | begin call =>
    cases call with
    | query q =>
      cases q with
      | entry t fd =>
        cases hlooks
        refine (ensures_entry_shut hslot hshut).bind ?_
        rintro _ _ ⟨rfl, rfl⟩
        exact ensures_pure ⟨rfl, rfl⟩
      | _ => cases hlooks
    | transfer t fd op =>
      cases hlooks
      refine (ensures_permitted_shut hslot hshut op.permission).bind ?_
      rintro _ _ ⟨rfl, rfl⟩
      exact ensures_pure ⟨rfl, rfl⟩
    | _ => cases hlooks
  | _ => cases hlooks

/-- The entry of an open slot is given out as it is. -/
theorem ensures_entry (t : TableId) (fd : Nat) :
    (perform (.query (.entry t fd))).Ensures s fun p _ => ∀ entry references,
      p = .succeeded (.entry entry references) → s.slot? t fd = some (.opened entry) := by
  refine Ensures.bind (P := fun result _ => ∀ entry references,
    result = .ok (.entry entry references) → s.slot? t fd = some (.opened entry)) ?_ ?_
  · refine (ensures_onTable t _).bind ?_
    rintro (e | entry) s' ⟨⟨st, ht, hget⟩, rfl⟩
    · exact ensures_pure nofun
    · have hslot : s'.slot? t fd = some (.opened entry) := Option.bind_eq_some_iff.mpr
        ⟨st, ht, FdTable.get_eq_ok_iff.mp (Except.ok.inj hget)⟩
      intro kernel result kernel' hkernel h
      obtain ⟨⟨references, k⟩, -, hresult⟩ := Checked.exists_of_bind h
      cases hresult
      intro entry' references' he
      cases he
      exact hslot
  · exact fun result s' h => ensures_pure fun entry references he =>
      h entry references (Progress.finished.inj he)

/-- Undoing a copy leaves the tables. -/
theorem tables_unwind (t : TableId) (slots : List Slot) :
    (unwind t slots).Ensures s fun _ s' => s'.tables = s.tables := by
  induction slots generalizing s with
  | nil => exact ensures_pure rfl
  | cons slot rest ih =>
    cases slot with
    | opened entry =>
      have hrelease : (releaseReference entry).Ensures s fun _ s' => s'.tables = s.tables := by
        refine (ensures_release entry).mono ?_
        rintro _ _ ⟨-, -, rfl⟩
        rfl
      refine hrelease.bind ?_
      rintro (_ | question) s₁ h
      · exact ih.mono fun _ _ h' => h'.trans h
      · exact ensures_ask fun _ => h
    | free | closing => exact ih

/-- **A new copy** holds in its slots what the same slots of the table hold. -/
theorem ensures_copied (t : TableId) (budget : Option Nat) :
    (copyTable t budget).Ensures s fun _ s' => ∀ {fd entry},
      s'.slot? s.tables.size fd = some (.opened entry) → s.slot? t fd = some (.opened entry) := by
  refine (ensures_holding _ (ensures_copySlots t budget)).bind ?_
  rintro ⟨capacity, copied⟩ _ ⟨⟨r, rfl⟩, -, hcopies⟩
  dsimp only at hcopies ⊢
  split
  · intro k p k' hk hend fd entry hslot
    cases hend
    have hsize : s.tables.size = (s.withReferences r).tables.size := rfl
    rw [hk, ← Store.withNewTable, Store.slot?, Store.tableState?_withNewTable, if_pos hsize,
      Option.bind_some, List.getElem?_toArray] at hslot
    exact hcopies hslot
  · refine (tables_unwind t copied.slots).mono fun _ s' htables fd entry hslot => ?_
    rw [Store.slot?_congr htables] at hslot
    obtain ⟨st, ht, -⟩ := Option.bind_eq_some_iff.mp hslot
    exact absurd (Store.lt_size_of_tableState? ht) (Nat.lt_irrefl _)

end Action

namespace Happens

variable {past : List Moment} {now : Moment} {t : TableId} {d : Descriptor}

/-- What is got at through a table is in a slot of it. -/
theorem has_of_obtains (h : Happens past now) (hseen : Seen past d) (hobtains : now.Obtains t d) :
    now.before.kernel.store.Has t d := by
  obtain ⟨H, r⟩ := h.before
  have b := r.sound.books
  obtain ⟨n, hn, hpos⟩ := hseen
  have hinstalled := r.installed n hn d hpos
  -- a handle tells which descriptor it is
  have hsame : ∀ {u fd entry}, now.before.kernel.store.slot? u fd = some (.opened entry) →
      entry.descriptor.handle = d.handle → entry.descriptor = d := fun hslot =>
    b.handles (b.opened (Store.opens_pos_iff.mpr ⟨_, _, _, hslot, rfl⟩)) hinstalled
  cases hobtains with
  | @got fd entry references hcall hgot hd =>
    obtain ⟨p, c⟩ := h.carries hcall (h.admits hcall hgot)
    have hslot := c.ensures (Action.ensures_entry t fd)
    cases p with
    | waiting question frame cpu => cases hgot.symm.trans c.ends.of_waiting.1
    | finished result =>
      cases hgot.symm.trans c.ends.of_finished.1
      exact ⟨fd, entry, hslot entry references rfl, hd⟩
  | @asked fd op origin driver hjob hasked =>
    obtain ⟨entry, driver', hslot, -, hquestion⟩ := h.transfers hjob hasked
    refine ⟨fd, entry, hslot, hsame hslot ?_⟩
    have hfile := (op.question_file? driver d.handle).1
    rw [hquestion, (op.question_file? driver' _).1] at hfile
    exact (Prod.mk.inj (Option.some.inj hfile)).2
  | @listed fd origin serial hjob hhandle hmoved =>
    have hserves := b.serves hinstalled
    rw [hhandle] at hserves
    have hget := Array.getElem?_eq_getElem hserves.lt_openDirectories
    rcases h.reads hget with hkept | ⟨t', fd', origin', entry, v, hjob', hslot, -, -, hserial⟩
    · exact absurd (hkept.trans hget.symm) hmoved
    · cases hjob.symm.trans hjob'
      exact ⟨fd, entry, hslot, hsame hslot (hserial.trans hhandle.symm)⟩
  | @copied fd budget origin entry hjob hslot hd =>
    obtain ⟨p, c⟩ := h.carried hjob
    exact ⟨fd, entry, c.ensures (Action.ensures_copied t budget) hslot, hd⟩

/-- Nothing is done with a slot that is not open. -/
theorem shut (h : Happens past now) {job : Job} {origin : Origin} {fd : Nat} {slot : Slot}
    (hjob : now.before.job? now.event = some (job, origin)) (hlooks : job.looksAt? = some (t, fd))
    (hslot : now.before.kernel.store.slot? t fd = some slot)
    (hshut : ∀ entry, slot ≠ .opened entry) :
    now.outcome = .returned (origin.receives (.error .badFileDescriptor)) ∧
      now.after.kernel.store = now.before.kernel.store := by
  obtain ⟨p, c⟩ := h.carried hjob
  obtain ⟨rfl, hstore⟩ := c.ensures (Action.ensures_shut hlooks hslot hshut)
  exact ⟨c.ends.of_finished.1, hstore⟩

end Happens

/-! ### Destroyed tables in a run -/

/-- **What was in a destroyed table is gone** now, after the moments of the past, unless a driver
has refused to close it; that driver was being asked already when the table was destroyed. -/
structure Moment.KeepsDestroyed (past : List Moment) (now : Moment) : Prop where
  /-- Of what was in the table when it was destroyed, or was being closed there, nothing is in it
  once the call has returned, but a file whose closing had begun before and has failed since. -/
  gone : ∀ {a start b t d}, past ++ [now] = a ++ start :: b → start.Destroys t →
    start.before.Occupies t d → start.Returned b → now.after.kernel.store.Has t d →
    ¬ start.before.kernel.store.Has t d ∧ ∃ n ∈ b, n.Reopens start t d
  /-- Nor is it got at through the table. -/
  obtained : ∀ {a start b t d}, past = a ++ start :: b → start.Destroys t →
    start.before.Occupies t d → start.Returned b → now.Obtains t d →
    ¬ start.before.kernel.store.Has t d ∧ ∃ n ∈ b, n.Reopens start t d
  /-- A slot that is not open is that of no file. -/
  shut : ∀ {t fd job origin slot}, now.before.job? now.event = some (job, origin) →
    job.looksAt? = some (t, fd) → now.before.kernel.store.slot? t fd = some slot →
    (∀ entry, slot ≠ .opened entry) →
    now.outcome = .returned (origin.receives (.error .badFileDescriptor)) ∧
      now.after.kernel.store = now.before.kernel.store

/-- **What was in a destroyed table is gone** at every moment of every run after the call has
returned, whatever drivers call and answer while they are asked: it is not in the table, and none
who still use the table get at it, but what a driver refuses to close that was being asked before
the table was destroyed. -/
theorem destroyed_tables_stay_empty (word enableMask : Sync.Word) (events : List Event) :
    ∃ moments, (Machine.initial word enableMask).trace [] events = .ok moments ∧
      ∀ past now future, moments = past ++ now :: future → now.KeepsDestroyed past := by
  obtain ⟨moments, htrace, hmoments⟩ := (Recalls.initial word enableMask).reached
    (I := fun past m _ => Emptied past m) (fun h k => k.step h) (.initial word enableMask) events
  refine ⟨moments, htrace, fun past now future he => ?_⟩
  obtain ⟨h, k, k'⟩ := hmoments past now future he
  exact
    { gone := k'.reopened
      obtained := fun hpast hdestroys hoccupies hreturned hobtains =>
        k.reopened hpast hdestroys hoccupies hreturned
          (h.has_of_obtains (k.known hpast hdestroys hoccupies).2 hobtains)
      shut := h.shut }

/-- **A file can come back into a destroyed table**: while its driver is asked to close it, the
table is destroyed, which passes over the slot; then the driver refuses, and the slot is open
again. -/
theorem exists_reopened_descriptor : ∃ events moments past start between now t d,
    (Machine.initial 0 0).trace [] events = .ok moments ∧
      moments = past ++ start :: between ++ [now] ∧ start.Destroys t ∧
      start.before.Occupies t d ∧ start.Returned between ∧ now.Obtains t d := by
  let ram : External := ⟨0, "ram"⟩
  let entry : FdEntry := ⟨⟨0, "/m/f".toList, .external 0, ⟨1, .external ram, none⟩⟩, .readOnly, 0⟩
  let closing : Pending := ⟨.closing 1 0 entry, .direct⟩
  let events : List Event := [.call (.createVfs 4),
    .call (.register 0 "/m".toList (.external ram) none), .call (.createTable 2),
    .call (.open 0 1 "/m/f".toList .readOnly 0), .reply .opened, .call (.close 1 0),
    .call (.destroyTable 1), .reply (.failed .ioError), .call (.query (.entry 1 0))]
  have hends : (do
      let moments ← (Machine.initial 0 0).trace [] events
      return (moments.drop 6).map fun n : Moment => (n.event, n.outcome)) =
      .ok [(.call (.destroyTable 1), .returned (.ok .done)),
        (.reply (.failed .ioError), .returned (.error .ioError)),
        (.call (.query (.entry 1 0)), .returned (.ok (.entry entry 1)))] := by
    decide +kernel
  have hstacks : (do
      let moments ← (Machine.initial 0 0).trace [] events
      return (moments.drop 6).map fun n : Moment =>
        (n.before.job? n.event, n.before.stack, n.after.stack)) =
      .ok [(some (.begin (.destroyTable 1), .direct), [closing], [closing]),
        (some (.resume closing.frame (.failed .ioError), .direct), [closing], []),
        (some (.begin (.query (.entry 1 0)), .direct), [], [])] := by
    decide +kernel
  obtain ⟨moments, htrace, hends⟩ := Checked.exists_of_bind hends
  rw [htrace] at hstacks
  obtain ⟨start, rest, hdrop, -, hrest⟩ := List.map_eq_cons_iff.mp (Except.ok.inj hends)
  obtain ⟨between, last, rfl, -, hlast⟩ := List.map_eq_cons_iff.mp hrest
  obtain ⟨now, none, rfl, hnow, hnone⟩ := List.map_eq_cons_iff.mp hlast
  obtain rfl := List.map_eq_nil_iff.mp hnone
  obtain ⟨hcall, hgot⟩ := Prod.mk.inj hnow
  have hstart := (List.cons.inj (hdrop ▸ Except.ok.inj hstacks)).1
  simp only [Prod.mk.injEq] at hstart
  obtain ⟨hjob, hbefore, hafter⟩ := hstart
  refine ⟨events, moments, moments.take 6, start, [between], now, 1, entry.descriptor, htrace, ?_,
    ⟨_, hjob⟩, .inr ⟨closing, ?_, 0, entry, rfl, rfl⟩, ⟨start, List.mem_cons_self, ?_⟩,
    .got hcall hgot rfl⟩
  · rw [List.append_assoc, List.cons_append, List.singleton_append, ← hdrop,
      List.take_append_drop]
  · rw [hbefore]
    exact List.mem_cons_self
  · rw [hbefore, hafter]

end VirtualFs

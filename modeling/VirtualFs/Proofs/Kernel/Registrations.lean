import VirtualFs.Proofs.Kernel.Custody

/-!
# What a registration can take back

Registering a driver returns a registration: the node that was given the record, and the record.
Taking it back looks at that node alone.  A node number is used again for other drivers, but the
record is not, so a stale registration takes nothing away from another driver.

A record that has never left its node is found there.  One that has been unmounted, and that its
filesystem has then refused to give up, is attached at the old path under whatever node number is
free; the registration does not follow it.

* `Action.ensures_takeBack`: taking a registration back, exactly.
* `Registry.step`: where a registered record can be after a step.
* `registrations_taken_back`: every attempt to take a registration back, in every run.
-/

namespace VirtualFs

namespace Action

variable {s : Store} {v : VfsId}

/-- What comes of taking a registration back. -/
inductive Unregisters (s : Store) (v : VfsId) (registration : Registration) :
    Except Error Unit → Store → Prop
  /-- The node owned the record. -/
  | taken {s' : Store} (h : s.Takes v registration.node registration.record s') :
      Unregisters s v registration (.ok ()) s'
  | notFound (h : s.record? v registration.node ≠ some registration.record) :
      Unregisters s v registration (.error .notFound) s

/-- **Taking a registration back** takes the record from its node, if the node owns it, and changes
nothing if not. -/
theorem ensures_takeBack (k : s.Served) (v : VfsId) (registration : Registration) :
    (unregister v registration).Ensures s (Unregisters s v registration) := by
  refine (ensures_editGraph v _).bind ?_
  rintro result _ ⟨i, g, changes, hi, hdetach, rfl⟩
  rcases (k.graphs hi).regular.detach_cases hdetach with ⟨rfl, htakes⟩ | ⟨hnot, rfl, rfl⟩
  · exact (ensures_note _).bind_same fun _ =>
      ensures_pure (.taken (Store.takes_withGraph hi htakes))
  · rw [Store.withGraph_self hi]
    rw [← Store.record?_of_instance hi] at hnot
    exact ensures_pure (.notFound hnot)

end Action

/-! ### Registrations in a run -/

namespace Moment

/-- The registration that the step has returned, with its file system. -/
def registers? (n : Moment) : Option (VfsId × Registration) :=
  match n.event, n.outcome with
  | .call (.register v _ _ _), .returned (.ok (.registered registration)) =>
      some (v, registration)
  | _, _ => none

/-- The record that the step was to attach again, since its filesystem has refused to give the
driver up. -/
def restores? (n : Moment) : Option Record :=
  match n.before.job? n.event with
  | some (.resume (.unmounting _ _ record) (.failed _), _) => some record
  | _ => none

/-- **What comes of taking a registration back** after the moments of the past. -/
structure TakesBack (past : List Moment) (now : Moment) (v : VfsId) (registration : Registration) :
    Prop where
  /-- It succeeds exactly if the node that was given the record owns it. -/
  succeeds : now.outcome = .returned (.ok .done) ↔
    now.before.kernel.store.record? v registration.node = some registration.record
  /-- Then no node owns the record any more, and all other nodes own what they did. -/
  takes : now.outcome = .returned (.ok .done) → ¬ now.after.kernel.store.Owns registration.record ∧
    ∀ w n, (w, n) ≠ (v, registration.node) →
      now.after.kernel.store.record? w n = now.before.kernel.store.record? w n
  /-- Otherwise nothing is found, and nothing changes. -/
  fails : now.outcome ≠ .returned (.ok .done) →
    now.outcome = .returned (.error .notFound) ∧ now.after.kernel.store = now.before.kernel.store
  /-- A record that is attached to another node was to be unmounted, which its filesystem has
  refused. -/
  displaced : now.before.kernel.store.Owns registration.record →
    now.outcome = .returned (.ok .done) ∨ ∃ n ∈ past, n.restores? = some registration.record
  /-- The driver of no filesystem can be taken back exactly while it is attached. -/
  plain : registration.record.fs = none →
    (now.outcome = .returned (.ok .done) ↔ now.before.kernel.store.Owns registration.record)

end Moment

namespace Happens

variable {past : List Moment} {now : Moment}

/-- No file system goes. -/
theorem instances_le (h : Happens past now) :
    now.before.kernel.store.instances.size ≤ now.after.kernel.store.instances.size := by
  rcases Machine.step_cases h.step with ⟨-, -, hafter⟩ | ⟨job, origin, p, c⟩
  · rw [hafter]
  rcases h.effect c with hfile | hmount
  · rw [hfile.instances_eq.1]
  · exact hmount.keepsFiles.instances

/-- **A step that returns a registration** has given a new record to its node. -/
theorem registers (h : Happens past now) {v : VfsId} {registration : Registration}
    (hr : now.registers? = some (v, registration)) :
    now.before.kernel.store.hasVfs v = true ∧ now.made? = some registration.record ∧
      now.before.kernel.store.Gives v registration.node registration.record
        now.after.kernel.store := by
  obtain ⟨path, driver, fs, he, ho⟩ : ∃ path driver fs,
      now.event = .call (.register v path driver fs) ∧
      now.outcome = .returned (.ok (.registered registration)) := by
    unfold Moment.registers? at hr
    split at hr <;> cases hr
    exact ⟨_, _, _, ‹_›, ‹_›⟩
  have hadmits := h.admits he ho
  obtain ⟨p, c⟩ := h.carries he hadmits
  obtain ⟨H, r⟩ := h.before
  obtain ⟨result, rfl, hs⟩ := c.ensures (Q := fun p s' => ∃ result,
      p = .finished (result.map .registered) ∧ Action.Registers now.before.kernel.store v
        ⟨now.before.kernel.store.nextRecord, driver, fs⟩ result s')
    ((Action.ensures_register r.sound.served v path driver fs).bind
      fun result s' hs => Action.ensures_pure ⟨result, rfl, hs⟩)
  have hreturned := ho.symm.trans c.ends.of_finished.1
  cases hs with
  | refused e => cases hreturned
  | registered hkeeps hnext hgives =>
    cases hreturned
    refine ⟨(Bool.and_eq_true_iff.mp hadmits).1, ?_, hgives⟩
    rw [Moment.made?, c.sets]
    rfl

/-- **A step that takes a registration back** takes the record from its node, or finds nothing. -/
theorem unregisters (h : Happens past now) {v : VfsId} {registration : Registration}
    (he : now.event = .call (.unregister v registration))
    (hv : now.before.kernel.store.hasVfs v = true) :
    (now.outcome = .returned (.ok .done) ∧
      now.before.kernel.store.Takes v registration.node registration.record
        now.after.kernel.store) ∨
    (now.before.kernel.store.record? v registration.node ≠ some registration.record ∧
      now.outcome = .returned (.error .notFound) ∧
      now.after.kernel.store = now.before.kernel.store) := by
  obtain ⟨p, c⟩ := h.carries he hv
  obtain ⟨H, r⟩ := h.before
  obtain ⟨result, rfl, hs⟩ := c.ensures (Q := fun p s' => ∃ result,
      p = .finished (result.map fun _ => .done) ∧
        Action.Unregisters now.before.kernel.store v registration result s')
    ((Action.ensures_takeBack r.sound.served v registration).bind
      fun result s' hs => Action.ensures_pure ⟨result, rfl, hs⟩)
  have hreturned := c.ends.of_finished.1
  generalize now.after.kernel.store = s' at hs ⊢
  cases hs with
  | taken htakes => exact .inl ⟨hreturned, htakes⟩
  | notFound hnot => exact .inr ⟨hnot, hreturned, rfl⟩

/-- What is to be attached again has a filesystem. -/
theorem restores (k : Asking now.questions now.before.stack) {r : Record}
    (hr : now.restores? = some r) : r.fs ≠ none := by
  unfold Moment.restores? at hr
  split at hr <;> cases hr
  rename_i v path e origin hjob
  obtain ⟨-, hstack, -⟩ := Machine.stack_of_job hjob
  rw [hstack] at k
  obtain ⟨_, _, ⟨fs, hfs, -⟩, -⟩ := List.forall₂_cons_right_iff.mp k
  rw [hfs]
  exact Option.some_ne_none fs

end Happens

/-- What a node owns after a step it owned before, or the record has been made just now, or it was
leaving and has not been given up. -/
theorem RecordEffect.record?_cases {s s' : Store} {job : Job} {p : Progress} {w : VfsId}
    {id : Mount.NodeId} {r : Record} (h : RecordEffect s job p s')
    (hr : s'.record? w id = some r) : s.record? w id = some r ∨ job.made? s = some r ∨
      job.leaving? = some r ∧ job.gaveUp? = none := by
  cases h with
  | keeps hnext hkeeps => exact .inl ((hkeeps w id).symm.trans hr)
  | attaches hmade hnext hgives =>
    rw [hgives.records] at hr
    split at hr
    · exact .inr (.inl (hmade.trans hr))
    · exact .inl hr
  | detaches hleaving hnext htakes =>
    rw [htakes.records] at hr
    split at hr
    · cases hr
    · exact .inl hr
  | returns hleaving hgave hnext hgives =>
    rw [hgives.records] at hr
    split at hr
    · exact .inr (.inr ⟨hleaving.trans hr, hgave⟩)
    · exact .inl hr

/-- **Where a node gets a record from**: it owned it before, or the step has made the record, or it
was to be attached again. -/
theorem Happens.record?_cases {past : List Moment} {now : Moment} (h : Happens past now)
    {w : VfsId} {id : Mount.NodeId} {r : Record}
    (hr : now.after.kernel.store.record? w id = some r) :
    now.before.kernel.store.record? w id = some r ∨ now.made? = some r ∨
      now.restores? = some r := by
  rcases Machine.step_cases h.step with ⟨-, -, hafter⟩ | ⟨job, origin, p, c⟩
  · exact .inl (hafter ▸ hr)
  rcases (h.recordEffect c).record?_cases hr with hbefore | hmade | ⟨hleaving, hgave⟩
  · exact .inl hbefore
  · exact .inr (.inl (by rw [Moment.made?, c.sets, Option.bind_some, hmade]))
  · refine .inr (.inr ?_)
    -- the filesystem was to give the driver up, and it can only have refused
    cases job with
    | resume frame reply =>
      obtain ⟨-, -, haccepts⟩ := Machine.stack_of_job c.sets
      cases frame with
      | unmounting v path record =>
        cases hleaving
        cases reply with
        | failed e => rw [Moment.restores?, c.sets]
        | done => cases hgave
        | _ => cases haccepts
      | _ => cases hleaving
    | _ => cases hleaving

/-- **What is known of registrations** after the moments of the past: a registered record is at the
node that was given it, or at none, unless it was to be unmounted and has been restored. -/
structure Registry (past : List Moment) (m : Machine) : Prop extends Custody past m where
  exist : ∀ n ∈ past, ∀ v registration, n.registers? = some (v, registration) →
    m.kernel.store.hasVfs v = true ∧ Known past registration.record
  placed : ∀ n ∈ past, ∀ v registration, n.registers? = some (v, registration) →
    ∀ w id, m.kernel.store.record? w id = some registration.record →
      (w = v ∧ id = registration.node) ∨ ∃ n' ∈ past, n'.restores? = some registration.record
  backed : ∀ n ∈ past, ∀ r, n.restores? = some r → r.fs ≠ none

namespace Registry

variable {past : List Moment} {now : Moment}

theorem initial (word enableMask : Sync.Word) : Registry [] (.initial word enableMask) where
  toCustody := .initial word enableMask
  exist n hn := by cases hn
  placed n hn := by cases hn
  backed n hn := by cases hn

/-- **Every step** keeps what is known of registrations. -/
theorem step (h : Happens past now) (ha : Asking now.questions now.before.stack)
    (k : Registry past now.before) : Registry (past ++ [now]) now.after where
  toCustody := k.toCustody.step h
  exist n hn v registration hr := by
    rcases List.mem_append.mp hn with hn | hn
    · obtain ⟨hv, hknown⟩ := k.exist n hn v registration hr
      exact ⟨decide_eq_true (Nat.lt_of_lt_of_le (of_decide_eq_true hv) h.instances_le),
        hknown.append now⟩
    · cases List.mem_singleton.mp hn
      obtain ⟨hv, hmade, hgives⟩ := h.registers hr
      exact ⟨decide_eq_true (Nat.lt_of_lt_of_le (of_decide_eq_true hv) h.instances_le),
        now, List.mem_append_right _ hn, hmade, hgives.owns_iff.mpr (.inl rfl)⟩
  placed n hn v registration hr w id hid := by
    have hnow : now ∈ past ++ [now] := List.mem_append_right _ List.mem_cons_self
    rcases List.mem_append.mp hn with hn | hn
    · rcases h.record?_cases hid with hid | hmade | hrestores
      · exact (k.placed n hn v registration hr w id hid).imp_right
          fun ⟨n', hn', hr'⟩ => ⟨n', List.mem_append_left _ hn', hr'⟩
      · exact absurd (k.exist n hn v registration hr).2 (k.fresh hmade)
      · exact .inr ⟨now, hnow, hrestores⟩
    · cases List.mem_singleton.mp hn
      obtain ⟨-, hmade, hgives⟩ := h.registers hr
      rw [hgives.records] at hid
      split at hid
      · exact .inl ‹_›
      · exact absurd (k.known (.inl ⟨w, id, hid⟩)) (k.fresh hmade)
  backed n hn r hr := by
    rcases List.mem_append.mp hn with hn | hn
    · exact k.backed n hn r hr
    · cases List.mem_singleton.mp hn
      exact Happens.restores ha hr

end Registry

/-- **Taking a registration back**, at any moment of a run. -/
theorem Happens.takesBack {past : List Moment} {now : Moment} (h : Happens past now)
    (k : Registry past now.before) {v : VfsId} {registration : Registration}
    (he : now.event = .call (.unregister v registration))
    (hr : ∃ n ∈ past, n.registers? = some (v, registration)) :
    now.TakesBack past v registration := by
  obtain ⟨n, hn, hregisters⟩ := hr
  obtain ⟨hv, -⟩ := k.exist n hn v registration hregisters
  have hcases := h.unregisters he hv
  have hiff : now.outcome = .returned (.ok .done) ↔
      now.before.kernel.store.record? v registration.node = some registration.record := by
    rcases hcases with ⟨hok, htakes⟩ | ⟨hnot, herror, -⟩
    · exact ⟨fun _ => htakes.owned, fun _ => hok⟩
    · exact ⟨fun hok => (by cases herror.symm.trans hok), fun howned => absurd howned hnot⟩
  -- a record that is attached is at its node, or has been restored
  have hplace : now.before.kernel.store.Owns registration.record →
      now.outcome = .returned (.ok .done) ∨ ∃ n ∈ past, n.restores? = some registration.record := by
    rintro ⟨w, id, hid⟩
    refine (k.placed n hn v registration hregisters w id hid).imp_left ?_
    rintro ⟨rfl, rfl⟩
    exact hiff.mpr hid
  exact
    { succeeds := hiff
      takes := fun hok => by
        rcases hcases with ⟨-, htakes⟩ | ⟨-, herror, -⟩
        · refine ⟨htakes.not_owns k.singles.once, fun w m hne => ?_⟩
          rw [htakes.records, if_neg fun e => hne (Prod.ext e.1 e.2)]
        · cases herror.symm.trans hok
      fails := fun hne => by
        rcases hcases with ⟨hok, -⟩ | ⟨-, hfailed⟩
        · exact absurd hok hne
        · exact hfailed
      displaced := hplace
      plain := fun hfs => by
        refine ⟨fun hok => ⟨v, registration.node, hiff.mp hok⟩, fun howns => ?_⟩
        refine (hplace howns).resolve_right ?_
        rintro ⟨n', hn', hrestores⟩
        exact k.backed n' hn' _ hrestores hfs }

/-- **Registrations are taken back** at their own node and nowhere else, in every run, whatever
filesystems call while they are asked. -/
theorem registrations_taken_back (word enableMask : Sync.Word) (events : List Event) :
    ∃ moments, (Machine.initial word enableMask).trace [] events = .ok moments ∧
      ∀ past now future, moments = past ++ now :: future → ∀ v registration,
        now.event = .call (.unregister v registration) →
        (∃ n ∈ past, n.registers? = some (v, registration)) →
        now.TakesBack past v registration := by
  obtain ⟨moments, htrace, hmoments⟩ := Recalls.reached_asking (I := Registry)
    (fun h ha k => k.step h ha) word enableMask (.initial word enableMask) events
  refine ⟨moments, htrace, fun past now future he v registration hevent hr => ?_⟩
  obtain ⟨h, -, k, -⟩ := hmoments past now future he
  exact h.takesBack k hevent hr

/-- **A registration can lose its record**: while a filesystem is asked to give a driver up, another
driver is registered and gets the node number that has become free; the filesystem refuses, and the
record comes back under another number, where its registration does not find it. -/
theorem exists_lost_registration : ∃ events moments past now registration,
    (Machine.initial 0 0).trace [] events = .ok moments ∧ moments = past ++ [now] ∧
      now.event = .call (.unregister 0 registration) ∧
      (∃ n ∈ past, n.registers? = some (0, registration)) ∧
      now.outcome = .returned (.error .notFound) ∧
      now.before.kernel.store.Owns registration.record := by
  let disk : Driver := .external ⟨0, "disk"⟩
  let ram : FileSystem := ⟨0, "ram"⟩
  let registration : Registration := ⟨1, ⟨1, disk, some ram⟩⟩
  let events : List Event := [.call (.createVfs 8),
    .call (.register 0 "/a".toList disk (some ram)), .call (.unmount 0 "/a".toList),
    .call (.register 0 "/b".toList (.external ⟨1, "uart"⟩) none), .reply (.failed .ioError),
    .call (.unregister 0 registration)]
  have hregisters : (do
      let moments ← (Machine.initial 0 0).trace [] events
      return moments.map Moment.registers?) =
      .ok [none, some (0, registration), none, some (0, ⟨1, ⟨2, .external ⟨1, "uart"⟩, none⟩⟩),
        none, none] := by
    decide +kernel
  have hlast : (do
      let moments ← (Machine.initial 0 0).trace [] events
      return moments.getLast?.map fun now : Moment =>
        (now.event, now.outcome, now.before.kernel.store.record? 0 2)) =
      .ok (some (.call (.unregister 0 registration), .returned (.error .notFound),
        some registration.record)) := by
    decide +kernel
  obtain ⟨moments, htrace, hregisters⟩ := Checked.exists_of_bind hregisters
  rw [htrace] at hlast
  obtain ⟨now, hnow, hfacts⟩ := Option.map_eq_some_iff.mp (Except.ok.inj hlast)
  simp only [Prod.mk.injEq] at hfacts
  obtain ⟨hevent, houtcome, howned⟩ := hfacts
  obtain ⟨past, rfl⟩ := List.getLast?_eq_some_iff.mp hnow
  refine ⟨events, past ++ [now], past, now, registration, htrace, rfl, hevent, ?_, houtcome,
    0, 2, howned⟩
  have hmem : some (0, registration) ∈ (past ++ [now]).map Moment.registers? := by
    rw [Except.ok.inj hregisters]
    exact List.mem_cons_of_mem _ List.mem_cons_self
  obtain ⟨n, hn, hr⟩ := List.mem_map.mp hmem
  rcases List.mem_append.mp hn with hn | hn
  · exact ⟨n, hn, hr⟩
  · cases List.mem_singleton.mp hn
    rw [Moment.registers?, hevent] at hr
    cases hr

end VirtualFs

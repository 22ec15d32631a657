import VirtualFs.Proofs.Kernel.Questions

/-!
# Who holds a mounted driver

A record is held by the node that owns it, or, when it has been taken from its node, by the call
that asks its filesystem to give the driver up (`Machine.Holds`).  A step attaches a record that it
makes, takes one from its node, gives one back that a filesystem has refused to give up, or leaves
all of them where they are (`RecordEffect`).  So a record is never in two places, and one that is
given up is nowhere for good.  The number of a record is used up where it is made, also if it cannot
be attached, so no record is made twice, and one that could not be attached is never held.

* `RecordEffect.singles`, `RecordEffect.holds`, `RecordEffect.gaveUp`: what a step does to records.
* `Custody.step`: what is known of records after a step.
* `Custody.not_holds`: what could not be attached is not held.
* `records_in_custody`: every moment of every run.
-/

namespace VirtualFs

/-! ### Owners -/

namespace Store

variable {s s' : Store} {v : VfsId} {n : Mount.NodeId} {r r' : Record}

/-- Some node owns the record. -/
def Owns (s : Store) (r : Record) : Prop := ∃ v n, s.record? v n = some r

/-- No record is owned by two nodes. -/
def OwnsOnce (s : Store) : Prop :=
  ∀ r v n w m, s.record? v n = some r → s.record? w m = some r → v = w ∧ n = m

theorem KeepsRecords.owns_iff (h : s.KeepsRecords s') : s'.Owns r ↔ s.Owns r :=
  exists₂_congr fun v n => by rw [h v n]

theorem KeepsRecords.ownsOnce (h : s.KeepsRecords s') (k : s.OwnsOnce) : s'.OwnsOnce := by
  intro r v n w m hv hw
  rw [h] at hv hw
  exact k r v n w m hv hw

theorem Gives.owns_iff (h : s.Gives v n r s') : s'.Owns r' ↔ r' = r ∨ s.Owns r' := by
  constructor
  · rintro ⟨w, m, hw⟩
    rw [h.records] at hw
    split at hw
    · exact .inl (Option.some.inj hw).symm
    · exact .inr ⟨w, m, hw⟩
  · rintro (rfl | ⟨w, m, hw⟩)
    · exact ⟨v, n, by rw [h.records, if_pos ⟨rfl, rfl⟩]⟩
    · refine ⟨w, m, ?_⟩
      rw [h.records, if_neg, hw]
      rintro ⟨rfl, rfl⟩
      rw [h.vacant] at hw
      cases hw

/-- A record that no node owned is owned by one node. -/
theorem Gives.ownsOnce (h : s.Gives v n r s') (k : s.OwnsOnce) (hr : ¬ s.Owns r) :
    s'.OwnsOnce := by
  intro r' w m w' m' hw hw'
  rw [h.records] at hw hw'
  split at hw <;> split at hw'
  · rename_i hm hm'
    exact ⟨hm.1.trans hm'.1.symm, hm.2.trans hm'.2.symm⟩
  · cases hw
    exact absurd ⟨w', m', hw'⟩ hr
  · cases hw'
    exact absurd ⟨w, m, hw⟩ hr
  · exact k r' w m w' m' hw hw'

theorem Takes.owns (h : s.Takes v n r s') (ho : s'.Owns r') : s.Owns r' := by
  obtain ⟨w, m, hw⟩ := ho
  rw [h.records] at hw
  split at hw
  · cases hw
  · exact ⟨w, m, hw⟩

theorem Takes.ownsOnce (h : s.Takes v n r s') (k : s.OwnsOnce) : s'.OwnsOnce := by
  intro r' w m w' m' hw hw'
  rw [h.records] at hw hw'
  split at hw
  · cases hw
  · split at hw'
    · cases hw'
    · exact k r' w m w' m' hw hw'

/-- What has been taken from its only owner has none. -/
theorem Takes.not_owns (h : s.Takes v n r s') (k : s.OwnsOnce) : ¬ s'.Owns r := by
  rintro ⟨w, m, hw⟩
  rw [h.records] at hw
  split at hw
  · cases hw
  · rename_i hne
    exact hne (k r w m v n hw h.owned)

/-- **A record is in one place**: at one node, or once among those that are leaving. -/
structure Singles (s : Store) (leaving : List Record) : Prop where
  once : s.OwnsOnce
  nodup : leaving.Nodup
  apart : ∀ r ∈ leaving, ¬ s.Owns r

variable {leaving : List Record}

theorem Singles.of_cons (k : s.Singles (r :: leaving)) : s.Singles leaving :=
  ⟨k.once, (List.nodup_cons.mp k.nodup).2, fun r' hr => k.apart r' (List.mem_cons_of_mem _ hr)⟩

theorem Singles.of_append {first : Option Record} (k : s.Singles (first.toList ++ leaving)) :
    s.Singles leaving := by
  cases first with
  | none => exact k
  | some r => exact k.of_cons

theorem KeepsRecords.singles (h : s.KeepsRecords s') (k : s.Singles leaving) :
    s'.Singles leaving :=
  ⟨h.ownsOnce k.once, k.nodup, fun r hr ho => k.apart r hr (h.owns_iff.mp ho)⟩

/-- A record comes to a node from nowhere. -/
theorem Gives.singles (h : s.Gives v n r s') (k : s.Singles leaving) (ho : ¬ s.Owns r)
    (hr : r ∉ leaving) : s'.Singles leaving := by
  refine ⟨h.ownsOnce k.once ho, k.nodup, fun r' hmem ho' => ?_⟩
  rcases h.owns_iff.mp ho' with rfl | ho'
  · exact hr hmem
  · exact k.apart r' hmem ho'

/-- A record leaves its node. -/
theorem Takes.singles (h : s.Takes v n r s') (k : s.Singles leaving) :
    s'.Singles (r :: leaving) := by
  refine ⟨h.ownsOnce k.once, List.nodup_cons.mpr ⟨?_, k.nodup⟩, fun r' hmem ho => ?_⟩
  · exact fun hmem => k.apart r hmem ⟨v, n, h.owned⟩
  · rcases List.mem_cons.mp hmem with rfl | hmem
    · exact h.not_owns k.once ho
    · exact k.apart r' hmem (h.owns ho)

/-- What no node owns serves no path. -/
theorem resolve_ne_of_not_owns (h : ¬ s.Owns r) {i : Instance} (hi : s.instances[v]? = some i)
    (path : Path) (offset : Nat) : i.graph.resolve path ≠ .ok (.driver r offset) := by
  intro hresolve
  obtain ⟨id, hid⟩ := Mount.Graph.exists_record?_of_resolve hresolve
  exact h ⟨v, id, (record?_of_instance hi id).trans hid⟩

end Store

/-! ### Records on their way -/

/-- The record of which a filesystem is to give the driver up. -/
def Frame.leaving? : Frame → Option Record
  | .unmounting _ _ record => some record
  | _ => none

namespace Job

/-- The record that the job has been waiting to see given up. -/
def leaving? : Job → Option Record
  | .resume frame _ => frame.leaving?
  | _ => none

/-- The record that a filesystem has given up. -/
def gaveUp? : Job → Option Record
  | .resume frame .done => frame.leaving?
  | _ => none

variable {s : Store} {job : Job} {r : Record}

theorem leaving?_of_gaveUp? (h : job.gaveUp? = some r) : job.leaving? = some r := by
  cases job with
  | resume frame reply =>
      cases reply with
      | done => exact h
      | _ => cases h
  | _ => cases h

theorem made?_of_built? (h : job.built? s = some r) : job.made? s = some r := by
  cases job with
  | resume frame reply => exact h
  | _ => cases h

/-- Records are made by jobs on mount tables. -/
theorem mounts_of_made? (h : job.made? s = some r) : job.mounts = true := by
  cases job with
  | begin call =>
      cases call with
      | register => rfl
      | _ => cases h
  | reject e => cases h
  | resume frame reply =>
      cases reply with
      | mounted driver =>
          obtain ⟨fs, hfs, -⟩ := Option.map_eq_some_iff.mp h
          cases frame <;> first | rfl | cases hfs
      | _ => cases h

/-- What is made has a number of its own, and is not on its way. -/
theorem id_of_made? (h : job.made? s = some r) :
    r.id = s.nextRecord ∧ job.leaving? = none := by
  cases job with
  | begin call =>
      cases call with
      | register =>
          cases h
          exact ⟨rfl, rfl⟩
      | _ => cases h
  | reject e => cases h
  | resume frame reply =>
      cases reply with
      | mounted driver =>
          obtain ⟨fs, hfs, rfl⟩ := Option.map_eq_some_iff.mp h
          refine ⟨rfl, ?_⟩
          cases frame <;> first | rfl | cases hfs
      | _ => cases h

end Job

/-- The record of which a filesystem is asked to give the driver up. -/
def Progress.leaving? : Progress → Option Record
  | .waiting _ frame _ => frame.leaving?
  | .finished _ => none

namespace Machine

variable {m m' : Machine} {e : Event} {outcome : Outcome} {job : Job} {origin : Origin}
  {p : Progress}

/-- The records of which filesystems are being asked to give the drivers up. -/
def leaving (m : Machine) : List Record := m.stack.filterMap (·.frame.leaving?)

/-- Some node owns the record, or its filesystem is being asked to give the driver up. -/
def Holds (m : Machine) (r : Record) : Prop := m.kernel.store.Owns r ∨ r ∈ m.leaving

theorem filterMap_leaving (pending : Pending) (rest : List Pending) :
    (pending :: rest).filterMap (·.frame.leaving?) =
      pending.frame.leaving?.toList ++ rest.filterMap (·.frame.leaving?) := by
  rw [List.filterMap_cons]
  cases pending.frame.leaving? <;> rfl

theorem Carried.leaving_before (c : Carried m e outcome m' job origin p) :
    m.leaving = job.leaving?.toList ++ (m.below e).filterMap (·.frame.leaving?) := by
  cases job with
  | resume frame reply =>
      obtain ⟨-, hstack, -⟩ := stack_of_job c.sets
      rw [leaving, hstack, filterMap_leaving]
      rfl
  | begin call =>
      rw [below_of_job c.sets fun _ _ => Job.noConfusion]
      rfl
  | reject error =>
      rw [below_of_job c.sets fun _ _ => Job.noConfusion]
      rfl

theorem Carried.leaving_after (c : Carried m e outcome m' job origin p) :
    m'.leaving = p.leaving?.toList ++ (m.below e).filterMap (·.frame.leaving?) := by
  have hends := c.ends
  cases p with
  | finished result =>
      rw [leaving, hends.of_finished.2]
      rfl
  | waiting question frame cpu =>
      rw [leaving, hends.of_waiting.2, filterMap_leaving]
      rfl

end Machine

/-! ### What a step does -/

/-- **What comes of a job for records.** -/
inductive RecordEffect (s : Store) (job : Job) (p : Progress) (s' : Store) : Prop
  | keeps (hnext : s.nextRecord ≤ s'.nextRecord) (hr : s.KeepsRecords s') (hp : p.leaving? = none)
  | attaches {v : VfsId} {n : Mount.NodeId} {r : Record} (hmade : job.made? s = some r)
      (hnext : s.nextRecord ≤ s'.nextRecord) (hr : s.Gives v n r s') (hp : p.leaving? = none)
  | detaches {v : VfsId} {n : Mount.NodeId} {r : Record} (hleaving : job.leaving? = none)
      (hnext : s.nextRecord ≤ s'.nextRecord) (hr : s.Takes v n r s')
      (hp : p.leaving? = none ∨ p.leaving? = some r)
  | returns {v : VfsId} {n : Mount.NodeId} {r : Record} (hleaving : job.leaving? = some r)
      (hgave : job.gaveUp? = none) (hnext : s.nextRecord ≤ s'.nextRecord) (hr : s.Gives v n r s')
      (hp : p.leaving? = none)

theorem FileEffect.recordEffect {s s' : Store} {job : Job} {p : Progress}
    (h : FileEffect s job p s') : RecordEffect s job p s' := by
  obtain ⟨hinstances, hnext⟩ := h.instances_eq
  refine .keeps (Nat.le_of_eq hnext.symm) (Store.record?_congr hinstances) ?_
  cases p with
  | finished result => rfl
  | waiting question frame cpu =>
      have htable := h.table?_ne_none
      cases frame <;> first | rfl | exact absurd rfl htable

theorem MountEffect.recordEffect {s s' : Store} {job : Job} {p : Progress}
    (h : MountEffect s job p s') : RecordEffect s job p s' := by
  cases h with
  | settles result hjob h hr => exact .keeps h.nextRecord hr rfl
  | refuses e hjob h hnext hr => exact .keeps h.nextRecord hr rfl
  | registers result hjob h hnext hr => exact .attaches hjob h.nextRecord hr rfl
  | removes result hjob h hr => exact .detaches rfl h.nextRecord hr (.inl rfl)
  | @asks _ _ _ _ frame _ hjob hframe =>
      refine .keeps (Nat.le_refl _) (fun _ _ => rfl) ?_
      cases frame <;> first | rfl | cases hframe
  | undoes device e hjob hfs h hnext hr => exact .keeps h.nextRecord hr rfl
  | unmounts hfs h hr => exact .detaches rfl h.nextRecord hr (.inr rfl)
  | restores e h hr => exact .returns rfl rfl h.nextRecord hr rfl

theorem Happens.recordEffect {past : List Moment} {now : Moment} (h : Happens past now) {job : Job}
    {origin : Origin} {p : Progress}
    (c : Machine.Carried now.before now.event now.outcome now.after job origin p) :
    RecordEffect now.before.kernel.store job p now.after.kernel.store := by
  rcases h.effect c with hfile | hmount
  · exact hfile.recordEffect
  · exact hmount.recordEffect

namespace RecordEffect

variable {s s' : Store} {job : Job} {p : Progress} {rest : List Record} {r : Record}

theorem nextRecord_le (h : RecordEffect s job p s') : s.nextRecord ≤ s'.nextRecord := by
  cases h with
  | keeps hnext => exact hnext
  | attaches hmade hnext => exact hnext
  | detaches hleaving hnext => exact hnext
  | returns hleaving hgave hnext => exact hnext

/-- **Records stay in one place**, if what is made is nowhere yet. -/
theorem singles (h : RecordEffect s job p s') (k : s.Singles (job.leaving?.toList ++ rest))
    (hfresh : ∀ r, job.made? s = some r → ¬ s.Owns r ∧ r ∉ rest) :
    s'.Singles (p.leaving?.toList ++ rest) := by
  cases h with
  | keeps hnext hr hp =>
      rw [hp]
      exact hr.singles k.of_append
  | attaches hmade hnext hr hp =>
      obtain ⟨ho, hmem⟩ := hfresh _ hmade
      rw [hp]
      exact hr.singles k.of_append ho hmem
  | @detaches v n r₀ hleaving hnext hr hp =>
      have htaken := hr.singles k.of_append
      rcases hp with hp | hp
      · rw [hp]
        exact htaken.of_cons
      · rw [hp]
        exact htaken
  | @returns v n r₀ hleaving hgave hnext hr hp =>
      rw [hleaving] at k
      rw [hp]
      exact hr.singles (Store.Singles.of_cons k) (k.apart r₀ List.mem_cons_self)
        (List.nodup_cons.mp k.nodup).1

/-- **What is held** was held before, or has been attached just now. -/
theorem holds (h : RecordEffect s job p s') (hr : s'.Owns r ∨ r ∈ p.leaving?.toList ++ rest) :
    (s.Owns r ∨ r ∈ job.leaving?.toList ++ rest) ∨ job.made? s = some r ∧ s'.Owns r := by
  have hrest : r ∈ rest → r ∈ job.leaving?.toList ++ rest := List.mem_append_right _
  cases h with
  | keeps hnext hkeeps hp =>
      rw [hp, Option.toList_none, List.nil_append, hkeeps.owns_iff] at hr
      exact .inl (hr.imp_right hrest)
  | attaches hmade hnext hgives hp =>
      rw [hp, Option.toList_none, List.nil_append] at hr
      rcases hr with ho | hmem
      · rcases hgives.owns_iff.mp ho with rfl | ho'
        · exact .inr ⟨hmade, ho⟩
        · exact .inl (.inl ho')
      · exact .inl (.inr (hrest hmem))
  | @detaches v n r₀ hleaving hnext htakes hp =>
      refine .inl ?_
      rcases hr with ho | hmem
      · exact .inl (htakes.owns ho)
      -- what is leaving now has been taken from its node just now, or was leaving before
      · rcases List.mem_append.mp hmem with hmem | hmem
        · rcases hp with hp | hp <;> rw [hp] at hmem
          · cases hmem
          · cases List.mem_singleton.mp hmem
            exact .inl ⟨v, n, htakes.owned⟩
        · exact .inr (hrest hmem)
  | returns hleaving hgave hnext hgives hp =>
      rw [hp, Option.toList_none, List.nil_append] at hr
      refine .inl ?_
      rcases hr with ho | hmem
      · rcases hgives.owns_iff.mp ho with rfl | ho
        · rw [hleaving]
          exact .inr List.mem_cons_self
        · exact .inl ho
      · exact .inr (hrest hmem)

/-- **What has been given up** is nowhere any more. -/
theorem gaveUp (h : RecordEffect s job p s') (k : s.Singles (job.leaving?.toList ++ rest))
    (hg : job.gaveUp? = some r) : ¬ (s'.Owns r ∨ r ∈ p.leaving?.toList ++ rest) := by
  have hleaving := Job.leaving?_of_gaveUp? hg
  obtain ⟨-, nodup, apart⟩ := k
  rw [hleaving] at nodup apart
  cases h with
  | keeps hnext hr hp =>
      rw [hp, hr.owns_iff]
      rintro (ho | hmem)
      · exact apart r List.mem_cons_self ho
      · exact (List.nodup_cons.mp nodup).1 hmem
  | attaches hmade =>
      rw [(Job.id_of_made? hmade).2] at hleaving
      cases hleaving
  | detaches hnone =>
      rw [hnone] at hleaving
      cases hleaving
  | returns hsome hgave =>
      rw [hgave] at hg
      cases hg

end RecordEffect

/-! ### Runs -/

namespace Moment

/-- The record of a driver that a filesystem has made in the step. -/
def built? (n : Moment) : Option Record :=
  (n.before.job? n.event).bind (·.1.built? n.before.kernel.store)

/-- The record that the step has made, of a driver that is mounted or registered. -/
def made? (n : Moment) : Option Record :=
  (n.before.job? n.event).bind (·.1.made? n.before.kernel.store)

/-- The record of a driver that a filesystem has given up in the step. -/
def gaveUp? (n : Moment) : Option Record :=
  (n.before.job? n.event).bind (·.1.gaveUp?)

theorem made?_of_built? {n : Moment} {r : Record} (h : n.built? = some r) : n.made? = some r := by
  obtain ⟨found, hjob, hb⟩ := Option.bind_eq_some_iff.mp h
  rw [made?, hjob, Option.bind_some, Job.made?_of_built? hb]

/-- A driver could not be attached, and its filesystem is asked to give it up. -/
def RollsBack (n : Moment) (r : Record) (fs : FileSystem) : Prop :=
  n.outcome = .asked (.unmount fs r.driver) ∧
    ∃ device e origin, n.after.stack = ⟨.undoing device e, origin⟩ :: n.before.below n.event

/-- The step has made the record and attached it to a node. -/
def Attaches (n : Moment) (r : Record) : Prop :=
  n.made? = some r ∧ n.after.kernel.store.Owns r

end Moment

/-- Some moment of the past has attached the record. -/
def Known (past : List Moment) (r : Record) : Prop := ∃ n ∈ past, n.Attaches r

theorem Known.append {past : List Moment} {r : Record} (h : Known past r) (now : Moment) :
    Known (past ++ [now]) r := by
  obtain ⟨n, hn, ha⟩ := h
  exact ⟨n, List.mem_append_left _ hn, ha⟩

/-- The number of a record that is made is used up. -/
theorem Happens.id_lt_of_made {past : List Moment} {now : Moment} {r : Record}
    (h : Happens past now) (hmade : now.made? = some r) :
    r.id < now.after.kernel.store.nextRecord := by
  rcases Machine.step_cases h.step with ⟨hjob, -, -⟩ | ⟨job, origin, p, c⟩
  · rw [Moment.made?, hjob] at hmade
    cases hmade
  rw [Moment.made?, c.sets, Option.bind_some] at hmade
  rw [(Job.id_of_made? hmade).1]
  exact (h.mountEffect c (Job.mounts_of_made? hmade)).nextRecord_lt hmade

/-- What is given up is held until then. -/
theorem Happens.holds_of_gaveUp {past : List Moment} {now : Moment} {r : Record}
    (h : Happens past now) (hg : now.gaveUp? = some r) : now.before.Holds r := by
  rcases Machine.step_cases h.step with ⟨hjob, -, -⟩ | ⟨job, origin, p, c⟩
  · rw [Moment.gaveUp?, hjob] at hg
    cases hg
  rw [Moment.gaveUp?, c.sets, Option.bind_some] at hg
  refine .inr ?_
  rw [c.leaving_before, Job.leaving?_of_gaveUp? hg]
  exact List.mem_cons_self

/-- **What is known of records** after the moments of the past: they are in one place each, whatever
is held was attached once, what has been given up is not held, and none was made twice. -/
structure Custody (past : List Moment) (m : Machine) : Prop where
  singles : m.kernel.store.Singles m.leaving
  known : ∀ {r}, m.Holds r → Known past r
  owned : ∀ n ∈ past, ∀ r, n.after.kernel.store.Owns r → Known past r
  gone : ∀ n ∈ past, ∀ r, n.gaveUp? = some r → Known past r ∧ ¬ m.Holds r
  numbered : ∀ n ∈ past, ∀ r, n.made? = some r → r.id < m.kernel.store.nextRecord
  apart : past.Pairwise fun n n' => ∀ r, n.made? = some r → n'.made? ≠ some r

namespace Custody

variable {past : List Moment} {now : Moment}

theorem initial (word enableMask : Sync.Word) : Custody [] (.initial word enableMask) where
  singles := ⟨fun r v n w m h => (by cases h), .nil, fun r hr => (by cases hr)⟩
  known := by rintro r (⟨v, n, h⟩ | h) <;> cases h
  owned n hn := by cases hn
  gone n hn := by cases hn
  numbered n hn := by cases hn
  apart := .nil

/-- What is made has not been made before. -/
theorem unmade (k : Custody past now.before) {r : Record} (h : now.made? = some r) :
    ∀ n ∈ past, n.made? ≠ some r := by
  intro n hn hmade
  obtain ⟨⟨job, origin⟩, -, hjob⟩ := Option.bind_eq_some_iff.mp h
  exact Nat.lt_irrefl _ ((Job.id_of_made? hjob).1 ▸ k.numbered n hn r hmade)

/-- So it has not been attached before. -/
theorem fresh (k : Custody past now.before) {r : Record} (h : now.made? = some r) :
    ¬ Known past r :=
  fun ⟨n, hn, ha⟩ => k.unmade h n hn ha.1

/-- **What could not be attached** is not held. -/
theorem not_holds {m : Machine} (k : Custody past m) {n : Moment} (hn : n ∈ past) {r : Record}
    (hmade : n.made? = some r) (ho : ¬ n.after.kernel.store.Owns r) : ¬ m.Holds r := by
  intro hheld
  obtain ⟨n', hn', ha⟩ := k.known hheld
  have hne : n' ≠ n := by
    rintro rfl
    exact ho ha.2
  have : Std.Symm fun n n' : Moment => ∀ r, n.made? = some r → n'.made? ≠ some r :=
    ⟨fun _ _ h r hr hr' => h r hr' hr⟩
  exact k.apart.forall hn' hn hne r ha.1 hmade

/-- What is held after a step is known then. -/
theorem known_of_holds (k : Custody past now.before)
    (hholds : ∀ r, now.after.Holds r → now.before.Holds r ∨ now.Attaches r) {r : Record}
    (hr : now.after.Holds r) : Known (past ++ [now]) r := by
  rcases hholds r hr with hr | ha
  · exact (k.known hr).append now
  · exact ⟨now, List.mem_append_right _ List.mem_cons_self, ha⟩

/-- **One more moment.** -/
theorem extend (k : Custody past now.before)
    (hnext : now.before.kernel.store.nextRecord ≤ now.after.kernel.store.nextRecord)
    (hnumber : ∀ r, now.made? = some r → r.id < now.after.kernel.store.nextRecord)
    (hsingles : now.after.kernel.store.Singles now.after.leaving)
    (hholds : ∀ r, now.after.Holds r → now.before.Holds r ∨ now.Attaches r)
    (hgave : ∀ r, now.gaveUp? = some r → now.before.Holds r ∧ ¬ now.after.Holds r) :
    Custody (past ++ [now]) now.after where
  singles := hsingles
  known := k.known_of_holds hholds
  owned n hn r ho := by
    rcases List.mem_append.mp hn with hn | hn
    · exact (k.owned n hn r ho).append now
    · cases List.mem_singleton.mp hn
      exact k.known_of_holds hholds (.inl ho)
  gone n hn r hr := by
    rcases List.mem_append.mp hn with hn | hn
    -- what was given up earlier is known, so this step cannot have made and attached it
    · obtain ⟨hknown, hnot⟩ := k.gone n hn r hr
      refine ⟨hknown.append now, fun hheld => ?_⟩
      rcases hholds r hheld with hheld | ha
      · exact hnot hheld
      · exact k.fresh ha.1 hknown
    · cases List.mem_singleton.mp hn
      obtain ⟨hheld, hnot⟩ := hgave r hr
      exact ⟨(k.known hheld).append _, hnot⟩
  numbered n hn r hmade := by
    rcases List.mem_append.mp hn with hn | hn
    · exact Nat.lt_of_lt_of_le (k.numbered n hn r hmade) hnext
    · cases List.mem_singleton.mp hn
      exact hnumber r hmade
  apart := by
    refine List.pairwise_append.mpr ⟨k.apart, List.pairwise_singleton _ _, ?_⟩
    intro n hn n' hn' r hmade hmade'
    cases List.mem_singleton.mp hn'
    exact k.unmade hmade' n hn hmade

/-- **Every step** keeps what is known of records. -/
theorem step (h : Happens past now) (k : Custody past now.before) :
    Custody (past ++ [now]) now.after := by
  rcases Machine.step_cases h.step with ⟨hjob, -, hafter⟩ | ⟨job, origin, p, c⟩
  · have hgave : now.gaveUp? = none := by rw [Moment.gaveUp?, hjob, Option.bind_none]
    refine k.extend (by rw [hafter]) (fun r => h.id_lt_of_made) (hafter ▸ k.singles)
      (fun r hr => .inl (hafter ▸ hr)) fun r hr => ?_
    cases hgave.symm.trans hr
  have heffect := h.recordEffect c
  have hmade : now.made? = job.made? now.before.kernel.store := by
    rw [Moment.made?, c.sets, Option.bind_some]
  have hgave : now.gaveUp? = job.gaveUp? := by
    rw [Moment.gaveUp?, c.sets, Option.bind_some]
  have hsingles := k.singles
  rw [c.leaving_before] at hsingles
  refine k.extend heffect.nextRecord_le (fun r => h.id_lt_of_made) ?_ (fun r hr => ?_)
    fun r hr => ?_
  · rw [c.leaving_after]
    refine heffect.singles hsingles fun r hr => ?_
    have hfresh := k.fresh (hmade.trans hr)
    refine ⟨fun ho => hfresh (k.known (.inl ho)), fun hmem => hfresh (k.known (.inr ?_))⟩
    rw [c.leaving_before]
    exact List.mem_append_right _ hmem
  · rw [Machine.Holds, c.leaving_after] at hr
    rw [Machine.Holds, c.leaving_before, Moment.Attaches, hmade]
    exact heffect.holds hr
  · refine ⟨h.holds_of_gaveUp hr, ?_⟩
    rw [Machine.Holds, c.leaving_after]
    exact heffect.gaveUp hsingles (hgave ▸ hr)

end Custody

/-- **Mounted drivers are in custody** now, after the moments of the past. -/
structure Moment.KeepsCustody (past : List Moment) (now : Moment) : Prop where
  /-- A record is attached to one node at most. -/
  attached : ∀ {r v n w m}, now.after.kernel.store.record? v n = some r →
    now.after.kernel.store.record? w m = some r → v = w ∧ n = m
  /-- A driver that a filesystem has made gets a record of its own. -/
  built : ∀ {fs path device driver},
    now.answered? = some (.mount fs path device, .mounted driver) →
    now.built? = some ⟨now.before.kernel.store.nextRecord, driver, some fs⟩
  /-- That record is new, and it is attached at once, or its filesystem is asked at once to give the
  driver up. -/
  mounted : ∀ {r}, now.built? = some r →
    (∀ n ∈ past, ¬ n.after.kernel.store.Owns r ∧ n.gaveUp? ≠ some r) ∧
    (now.after.kernel.store.Owns r ∨ ∃ fs, r.fs = some fs ∧ now.RollsBack r fs)
  /-- A filesystem is asked to give up the driver of a record that has just been taken from its
  node, or of one that has just been made and could not be attached. -/
  asked : ∀ {fs driver}, now.outcome = .asked (.unmount fs driver) →
    ∃ r, r.fs = some fs ∧ r.driver = driver ∧ ¬ now.after.kernel.store.Owns r ∧
      (now.before.kernel.store.Owns r ∧ now.after.leaving.head? = some r ∨
        now.built? = some r ∧ now.RollsBack r fs)
  /-- As long as it is being asked, the record is attached to no node and serves no path. -/
  leaving : ∀ r ∈ now.after.leaving, ¬ now.after.kernel.store.Owns r ∧
    ∀ {v : VfsId} {i : Instance}, now.after.kernel.store.instances[v]? = some i →
      ∀ path offset, i.graph.resolve path ≠ .ok (.driver r offset)
  /-- A filesystem that succeeds has given up a record, or has undone what could not be mounted. -/
  succeeds : ∀ {fs driver}, now.answered? = some (.unmount fs driver, .done) →
    (∃ r, r.fs = some fs ∧ r.driver = driver ∧ now.gaveUp? = some r) ∨
    ∃ device e origin, now.before.job? now.event = some (.resume (.undoing device e) .done, origin)
  /-- A record is given up once. -/
  once : ∀ {r}, now.gaveUp? = some r → ∀ n ∈ past, n.gaveUp? ≠ some r
  /-- What has been given up is never attached again, nor is it to be given up again. -/
  gone : ∀ n ∈ past ++ [now], ∀ r, n.gaveUp? = some r → ¬ now.after.Holds r
  /-- No record is made twice. -/
  apart : (past ++ [now]).Pairwise fun n n' => ∀ r, n.made? = some r → n'.made? ≠ some r
  /-- A record that could not be attached is never held: no node ever owns it, and no call ever
  waits for its filesystem to give it up as one that was attached. -/
  rolledBack : ∀ n ∈ past ++ [now], ∀ r, n.made? = some r → ¬ n.after.kernel.store.Owns r →
    ¬ now.after.Holds r

/-! ### What a step asks and what it is told -/

/-- **A driver that a filesystem has made** is attached, or the filesystem is to give it up. -/
theorem MountEffect.of_built {s s' : Store} {job : Job} {p : Progress} {r : Record}
    (h : MountEffect s job p s') (hb : job.built? s = some r) : s'.Owns r ∨
      ∃ fs device e cpu, r.fs = some fs ∧
        p = .waiting (.unmount fs r.driver) (.undoing device e) cpu := by
  have hmade := Job.made?_of_built? hb
  cases h with
  | settles result hjob => cases hjob.symm.trans hmade
  | registers result hjob h hnext hr =>
      cases hjob.symm.trans hmade
      exact .inl (hr.owns_iff.mpr (.inl rfl))
  | asks hjob => cases hjob.symm.trans hmade
  | undoes device e hjob hfs =>
      cases hjob.symm.trans hb
      exact .inr ⟨_, device, e, _, hfs, rfl⟩
  | _ => cases hb

/-- **What a filesystem is asked to give up.** -/
theorem MountEffect.of_unmount {s s' : Store} {job : Job} {fs : FileSystem} {driver : Driver}
    {frame : Frame} {cpu : Sync.Cpu LockId}
    (h : MountEffect s job (.waiting (.unmount fs driver) frame cpu) s') :
    ∃ r, r.fs = some fs ∧ r.driver = driver ∧ (s.Owns r ∧ frame.leaving? = some r ∨
      job.built? s = some r ∧ s.KeepsRecords s' ∧ ∃ device e, frame = .undoing device e) := by
  cases h with
  | @undoes _ r _ _ _ device e hjob hfs h hnext hr =>
      exact ⟨r, hfs, rfl, .inr ⟨hjob, hr, device, e, rfl⟩⟩
  | @unmounts v n path r _ _ _ hfs h hr => exact ⟨r, hfs, rfl, .inl ⟨⟨v, n, hr.owned⟩, rfl⟩⟩

namespace Happens

variable {past : List Moment} {now : Moment} {r : Record}

theorem built (h : Happens past now) (ha : Asking now.questions now.before.stack)
    {fs : FileSystem} {path device : Path} {driver : Driver}
    (hanswered : now.answered? = some (.mount fs path device, .mounted driver)) :
    now.built? = some ⟨now.before.kernel.store.nextRecord, driver, some fs⟩ := by
  obtain ⟨frame, origin, hjob, hasks⟩ := h.answered ha hanswered
  rw [Moment.built?, hjob, Option.bind_some, Job.built?, hasks.of_mount]
  rfl

theorem mounted (h : Happens past now) (hb : now.built? = some r) :
    now.after.kernel.store.Owns r ∨ ∃ fs, r.fs = some fs ∧ now.RollsBack r fs := by
  rcases Machine.step_cases h.step with ⟨hjob, -, -⟩ | ⟨job, origin, p, c⟩
  · rw [Moment.built?, hjob] at hb
    cases hb
  rw [Moment.built?, c.sets, Option.bind_some] at hb
  refine ((h.mountEffect c (Job.mounts_of_made? (Job.made?_of_built? hb))).of_built hb).imp_right ?_
  rintro ⟨fs, device, e, cpu, hfs, rfl⟩
  obtain ⟨hasked, hstack⟩ := c.ends.of_waiting
  exact ⟨fs, hfs, hasked, device, e, origin, hstack⟩

theorem asked (h : Happens past now) (k : Custody past now.before)
    (k' : Custody (past ++ [now]) now.after) {fs : FileSystem} {driver : Driver}
    (hasked : now.outcome = .asked (.unmount fs driver)) :
    ∃ r, r.fs = some fs ∧ r.driver = driver ∧ ¬ now.after.kernel.store.Owns r ∧
      (now.before.kernel.store.Owns r ∧ now.after.leaving.head? = some r ∨
        now.built? = some r ∧ now.RollsBack r fs) := by
  obtain ⟨job, origin, frame, cpu, c⟩ := h.waits hasked
  have hmount : MountEffect now.before.kernel.store job (.waiting (.unmount fs driver) frame cpu)
      now.after.kernel.store := by
    refine (h.effect c).resolve_left fun hfile => hfile.table?_ne_none ?_
    rcases (h.asks c).of_unmount with ⟨_, _, _, rfl, -⟩ | ⟨_, _, rfl⟩ <;> rfl
  obtain ⟨r, hfs, hdriver, hr⟩ := hmount.of_unmount
  refine ⟨r, hfs, hdriver, ?_⟩
  rcases hr with ⟨ho, hleaving⟩ | ⟨hbuilt, hkeeps, device, e, rfl⟩
  -- the record has been taken from its node, or it is new and no node has been given it
  · have hhead : now.after.leaving.head? = some r := by
      rw [c.leaving_after, Progress.leaving?, hleaving]
      rfl
    exact ⟨k'.singles.apart r (List.mem_of_mem_head? hhead), .inl ⟨ho, hhead⟩⟩
  · have hb : now.built? = some r := by rw [Moment.built?, c.sets, Option.bind_some, hbuilt]
    refine ⟨fun ho => ?_, .inr ⟨hb, hdriver ▸ hasked, device, e, origin, c.ends.of_waiting.2⟩⟩
    exact k.fresh (Moment.made?_of_built? hb) (k.known (.inl (hkeeps.owns_iff.mp ho)))

/-- **A filesystem that gives up a driver** does so for a record that has left its node, or undoes
what could not be mounted. -/
theorem succeeds (h : Happens past now) (ha : Asking now.questions now.before.stack)
    {fs : FileSystem} {driver : Driver}
    (hanswered : now.answered? = some (.unmount fs driver, .done)) :
    (∃ r, r.fs = some fs ∧ r.driver = driver ∧ now.gaveUp? = some r) ∨
    ∃ device e origin,
      now.before.job? now.event = some (.resume (.undoing device e) .done, origin) := by
  obtain ⟨frame, origin, hjob, hasks⟩ := h.answered ha hanswered
  rcases hasks.of_unmount with ⟨v, path, r, rfl, hfs, hdriver⟩ | ⟨device, e, rfl⟩
  · refine .inl ⟨r, hfs, hdriver, ?_⟩
    rw [Moment.gaveUp?, hjob]
    rfl
  · exact .inr ⟨device, e, origin, hjob⟩

end Happens

/-- **Mounted drivers are in custody** at every moment of every run: whatever filesystems call while
they are asked, a driver is attached to one node at most and to none while its filesystem is asked
to give it up, which the filesystem does once at most and for good. -/
theorem records_in_custody (word enableMask : Sync.Word) (events : List Event) :
    ∃ moments, (Machine.initial word enableMask).trace [] events = .ok moments ∧
      ∀ past now future, moments = past ++ now :: future → now.KeepsCustody past := by
  obtain ⟨moments, htrace, hmoments⟩ := Recalls.reached_asking (I := Custody)
    (fun h _ k => k.step h) word enableMask (.initial word enableMask) events
  refine ⟨moments, htrace, fun past now future he => ?_⟩
  obtain ⟨h, ha, k, k'⟩ := hmoments past now future he
  exact
    { attached := fun hv hw => k'.singles.once _ _ _ _ _ hv hw
      built := h.built ha
      mounted := fun hb => ⟨fun n hn =>
        ⟨fun ho => k.fresh (Moment.made?_of_built? hb) (k.owned n hn _ ho),
          fun hg => k.fresh (Moment.made?_of_built? hb) (k.gone n hn _ hg).1⟩, h.mounted hb⟩
      asked := h.asked k k'
      leaving := fun r hr => ⟨k'.singles.apart r hr,
        fun hi => Store.resolve_ne_of_not_owns (k'.singles.apart r hr) hi⟩
      succeeds := h.succeeds ha
      once := fun hg n hn hg' => (k.gone n hn _ hg').2 (h.holds_of_gaveUp hg)
      gone := fun n hn r hg => (k'.gone n hn r hg).2
      apart := k'.apart
      rolledBack := fun n hn r => k'.not_holds hn }

/-- A filesystem that refuses to give its driver up, and then does. -/
example : (do
    let ram : FileSystem := ⟨0, "ram"⟩
    let moments ← (Machine.initial 0 0).trace [] [.call (.createVfs 4),
      .call (.registerFilesystem 0 ram), .call (.mount 0 "/m".toList "/disk".toList none),
      .reply (.mounted (.external ⟨0, "ram"⟩)), .call (.unmount 0 "/m".toList),
      .reply (.failed .busy), .call (.unmount 0 "/m".toList), .reply .done]
    return moments.map fun n : Moment => (n.after.leaving.length, n.gaveUp?.isSome)) =
    .ok [(0, false), (0, false), (0, false), (0, false), (1, false), (0, false), (1, false),
      (0, true)] := by
  cbv

end VirtualFs

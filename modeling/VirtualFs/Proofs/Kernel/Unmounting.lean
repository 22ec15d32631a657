import VirtualFs.Proofs.Kernel.Custody
import VirtualFs.Proofs.Kernel.Instances
import VirtualFs.Proofs.Kernel.Replies
import VirtualFs.Proofs.Mount.Mounted

/-!
# Unmounting that fails

A record is detached before its filesystem is asked to give the driver up.  Until it answers,
anything may be mounted and unmounted, at the same path, above it and below it.  If it refuses, the
record is attached again where that is possible, and in any case nothing else changes.

* `Action.ensures_detaching`, `Action.ensures_puttingBack`: the two halves of the call.
* `Happens.unmounts`: the step that asks the filesystem.
* `Parted.putsBack`: the step that gets its refusal.
* `failed_unmounts_put_back`: every unmounting of every run.
-/

namespace VirtualFs

namespace Action

variable {s : Store} {v : VfsId} {path clean : Path} {i : Instance} {r : Record}

/-- **The first half**: the record at the path is detached, and its filesystem is asked. -/
theorem ensures_detaching (k : s.Served) (habs : Path.absolute? path = some clean)
    (hi : s.instances[v]? = some i) {id : Mount.NodeId}
    (hmounted : i.graph.mounted? clean = some (id, r)) {fs : FileSystem} (hfs : r.fs = some fs) :
    (unmount v path).Ensures s fun p s' => ∃ g changes cpu,
      p = .waiting (.unmount fs r.driver) (.unmounting v path r) cpu ∧
      i.graph.detach id r = .ok ⟨g, changes, .ok r⟩ ∧ s' = s.withGraph v i g := by
  have rg := (k.graphs hi).regular
  have howned : i.graph.record? id = some r := by
    rw [Path.absolute?_eq_some habs] at hmounted
    exact ((Mount.Graph.mounted?_eq_some rg.linked fun _ => Path.mem_segments).mp hmounted).2
  have hdetaching : (detach v path).Ensures s fun result s' => ∃ g changes, result = .ok r ∧
      i.graph.detach id r = .ok ⟨g, changes, .ok r⟩ ∧ s' = s.withGraph v i g := by
    rw [detach, habs]
    refine (ensures_editGraph v _).bind ?_
    rintro result _ ⟨j, g, changes, hj, hunmount, rfl⟩
    cases hi.symm.trans hj
    rw [Mount.Graph.unmount, hmounted] at hunmount
    rcases rg.detach_cases hunmount with ⟨rfl, -⟩ | ⟨hnot, -, -⟩
    · exact (ensures_note _).bind_same fun _ => ensures_pure ⟨g, changes, rfl, hunmount, rfl⟩
    · exact absurd howned hnot
  refine hdetaching.bind ?_
  rintro _ s' ⟨g, changes, rfl, hdetach, hs⟩
  dsimp only
  rw [hfs]
  exact ensures_ask fun cpu => ⟨g, changes, cpu, rfl, hdetach, hs⟩

/-- **The second half**, if the filesystem refuses: the record is to be attached again. -/
theorem ensures_puttingBack (habs : Path.absolute? path = some clean) (e : Error) :
    (unmounted v path r (some e)).Ensures s fun p s' => ∃ j g changes answer, p = .failed e ∧
      s.instances[v]? = some j ∧ j.graph.attach clean r = .ok ⟨g, changes, answer⟩ ∧
      s' = s.withGraph v j g := by
  have hreattach : (reattach v path r).Ensures s fun _ s' => ∃ j g changes answer,
      s.instances[v]? = some j ∧ j.graph.attach clean r = .ok ⟨g, changes, answer⟩ ∧
      s' = s.withGraph v j g := by
    rw [reattach, habs]
    refine (ensures_editGraph v _).bind ?_
    rintro answer s' ⟨j, g, changes, hj, hattach, hs⟩
    cases answer <;> exact ensures_pure ⟨j, g, changes, _, hj, hattach, hs⟩
  refine hreattach.bind ?_
  rintro (lost | _) s' ⟨j, g, changes, answer, h⟩
  · exact (ensures_note _).bind_same fun _ => ensures_pure ⟨j, g, changes, answer, rfl, h⟩
  · exact ensures_pure ⟨j, g, changes, answer, rfl, h⟩

end Action

/-! ### The two steps -/

namespace Moment

/-- A call comes in to unmount the record `r`, which is mounted at the path and has a filesystem. -/
structure Unmounts (n : Moment) (v : VfsId) (path : Path) (i : Instance) (id : Mount.NodeId)
    (r : Record) (fs : FileSystem) : Prop where
  event : n.event = .call (.unmount v path)
  found : n.before.kernel.store.instances[v]? = some i
  mounted : (Path.absolute? path).bind i.graph.mounted? = some (id, r)
  fs : r.fs = some fs

/-- **What comes of an unmounting that fails**, now, after the moments of the past. -/
structure PutsBack (past : List Moment) (now : Moment) : Prop where
  /-- The filesystem of the record that is mounted at the path is asked to give its driver up. -/
  asks : ∀ {v path i id r fs}, now.Unmounts v path i id r fs →
    now.outcome = .asked (.unmount fs r.driver)
  /-- If it fails, so does the call, and all that happens is the attempt to put the record back in
  the mount graph as it is now.  Where no step has worked on the graph meanwhile, it is then the one
  of before the call. -/
  fails : ∀ {a start between v path i id r fs e}, past = a ++ start :: between →
    start.Unmounts v path i id r fs → start.Answered between now (.failed e) →
    now.outcome = .returned (.error e) ∧ ∃ j g,
      now.before.kernel.store.instances[v]? = some j ∧
      now.after.kernel.store = now.before.kernel.store.withGraph v j g ∧
      j.graph.PutBack (Path.segments path) r g ∧
      ((∀ n ∈ between, n.mountTable? ≠ some v) → g.Restores i.graph)

end Moment

section

variable {past : List Moment} {now : Moment} {v : VfsId} {path : Path} {i : Instance}
  {id : Mount.NodeId} {r : Record} {fs : FileSystem}

/-- **The step that asks** has detached the record. -/
theorem Happens.unmounts (h : Happens past now) (hu : now.Unmounts v path i id r fs) :
    ∃ g changes cpu, i.graph.detach id r = .ok ⟨g, changes, .ok r⟩ ∧
      now.after.kernel.store = now.before.kernel.store.withGraph v i g ∧
      Machine.Carried now.before now.event now.outcome now.after (.begin (.unmount v path)) .direct
        (.waiting (.unmount fs r.driver) (.unmounting v path r) cpu) := by
  obtain ⟨H, rc⟩ := h.before
  obtain ⟨clean, habs, hmounted⟩ := Option.bind_eq_some_iff.mp hu.mounted
  obtain ⟨hlt, -⟩ := Array.getElem?_eq_some_iff.mp hu.found
  obtain ⟨p, c⟩ := h.carries hu.event (decide_eq_true hlt)
  obtain ⟨g, changes, cpu, rfl, hdetach, hs⟩ :=
    c.ensures (Action.ensures_detaching rc.sound.served habs hu.found hmounted hu.fs)
  exact ⟨g, changes, cpu, hdetach, hs, c⟩

/-- What is known of records that are away, and of the graphs that they have left. -/
structure Parted (past : List Moment) (m : Machine) : Prop extends Custody past m where
  untouched : Untouched past m

namespace Parted

theorem initial (word enableMask : Sync.Word) : Parted [] (.initial word enableMask) :=
  ⟨.initial word enableMask, .initial word enableMask⟩

theorem step (h : Happens past now) (k : Parted past now.before) :
    Parted (past ++ [now]) now.after :=
  ⟨k.toCustody.step h, k.untouched.step h⟩

/-- **The step that gets the refusal** puts the record back, if it can. -/
theorem putsBack (k : Parted past now.before) (hsuspended : Suspended past now.before)
    (h : Happens past now) {a between : List Moment} {start : Moment}
    (hpast : past = a ++ start :: between) (hstart : Happens a start)
    (hu : start.Unmounts v path i id r fs) {e : Error}
    (ha : start.Answered between now (.failed e)) :
    now.outcome = .returned (.error e) ∧ ∃ j g,
      now.before.kernel.store.instances[v]? = some j ∧
      now.after.kernel.store = now.before.kernel.store.withGraph v j g ∧
      j.graph.PutBack (Path.segments path) r g ∧
      ((∀ n ∈ between, n.mountTable? ≠ some v) → g.Restores i.graph) := by
  obtain ⟨H, rc⟩ := h.before
  obtain ⟨Hs, rs⟩ := hstart.before
  obtain ⟨gone, changes, cpu, hdetach, hgone, c⟩ := hstart.unmounts hu
  obtain ⟨clean, habs, hmounted⟩ := Option.bind_eq_some_iff.mp hu.mounted
  have hclean := Path.absolute?_eq_some habs
  subst hclean
  have hs : ∀ s ∈ Path.segments path, s ≠ [] ∧ Path.delimiter ∉ s := fun _ => Path.mem_segments
  have ri := (rs.sound.served.graphs hu.found).regular
  have route := ((Mount.Graph.mounted?_eq_some ri.linked hs).mp hmounted).1
  obtain ⟨p, c', -⟩ := hsuspended.resumes h hpast c.ends.of_waiting.2 ha rfl
  obtain ⟨j, g, changes', answer, rfl, hj, hattach, hstore⟩ :=
    c'.ensures (Action.ensures_puttingBack habs e)
  have rj := (rc.sound.served.graphs hj).regular
  -- the record is the one that is leaving, so no node owns it
  have hfresh : ∀ n, j.graph.record? n ≠ some r := by
    intro n hn
    obtain ⟨-, hstack, -⟩ := Machine.stack_of_job c'.sets
    refine k.singles.apart r ?_ ⟨v, n, (Store.record?_of_instance hj n).trans hn⟩
    rw [Machine.leaving, hstack]
    exact List.mem_cons_self
  refine ⟨c'.ends.of_finished.1, j, g, hj, hstore,
    rj.putBack hs (route.byteLength_le ri.linked) hfresh hattach, fun huntouched => ?_⟩
  -- the graph is the one that the record has left
  obtain ⟨j', hj', hsame⟩ := k.untouched _ _ _ v _ hpast huntouched
    (hgone ▸ Store.instances_withGraph hu.found gone)
  cases hj.symm.trans hj'
  rw [hsame] at hattach
  have hbelow := Path.belowRoot?_ofSegments (Path.segments path)
  obtain ⟨g', changes'', hback, halike, rg⟩ := ri.attach_detached hdetach hbelow
    ((Path.tokens_belowRoot hs).symm ▸ route)
  cases hattach.symm.trans hback
  exact halike.restores rg ri

end Parted

end

/-- **A mount whose filesystem refuses to give it up** stays: the call fails with the error of the
filesystem, and the record is attached at its path again exactly if no driver has been mounted there
meanwhile and the nodes that are missing find room; whatever else has been mounted and unmounted
meanwhile is left as it is. -/
theorem failed_unmounts_put_back (word enableMask : Sync.Word) (events : List Event) :
    ∃ moments, (Machine.initial word enableMask).trace [] events = .ok moments ∧
      ∀ past now future, moments = past ++ now :: future → now.PutsBack past := by
  obtain ⟨moments, htrace, hmoments⟩ := Recalls.reached_suspended (fun h k => Parted.step h k)
    word enableMask (.initial word enableMask) events
  refine ⟨moments, htrace, fun past now future he => ?_⟩
  obtain ⟨h, hsuspended, k⟩ := hmoments past now future he
  refine ⟨fun hu => ?_, fun {a start between _ _ _ _ _ _ _} hpast hu ha => ?_⟩
  · obtain ⟨-, -, _, -, -, c⟩ := h.unmounts hu
    exact c.ends.of_waiting.1
  · obtain ⟨hstart, -⟩ := hmoments a start (between ++ now :: future) (by rw [he, hpast]; simp)
    exact k.putsBack hsuspended h hpast hstart hu ha

end VirtualFs

import VirtualFs.Proofs.Kernel.Yields
import VirtualFs.Proofs.Mount.Restoring

/-!
# Mounting and the ledger

What the actions on a mount table do to the ledger of what is mounted.  `Tracks v s d` says that
the mount table of `v` in the store `s` is as the ledger `d` says; every action leaves a store
that is tracked by a ledger with one entry more, one less, or the same.

* `yields_register`, `yields_unregister`, `yields_detach`: the three that change it.
* `yields_reattach`: a driver that was detached can be put back, and then the ledger is the one
  from before.
-/

namespace VirtualFs

open Mount

/-! ### Mount tables in a store -/

namespace Store

variable {s : Store} {v : VfsId} {i : Instance} {d : Ledger Record}

/-- The store with another mount graph in the file system `i`, which is number `v`. -/
def withGraph (s : Store) (v : VfsId) (i : Instance) (g : Graph Record) : Store :=
  { s with instances := s.instances.setIfInBounds v { i with graph := g } }

theorem instances_withGraph (hi : s.instances[v]? = some i) (g : Graph Record) :
    (s.withGraph v i g).instances[v]? = some { i with graph := g } := by
  obtain ⟨hlt, -⟩ := Array.getElem?_eq_some_iff.mp hi
  rw [withGraph, Array.getElem?_setIfInBounds_self_of_lt hlt]

/-- A file system put in its own place. -/
theorem withGraph_self (hi : s.instances[v]? = some i) : s.withGraph v i i.graph = s := by
  have hsame : s.instances.setIfInBounds v i = s.instances := by
    refine Array.ext_getElem? fun w => ?_
    rw [Array.getElem?_setIfInBounds]
    split
    · rename_i hw
      rw [← hw, hi, if_pos (Array.getElem?_eq_some_iff.mp hi).1]
    · rfl
  rw [withGraph, hsame]

/-- The mount table is as the ledger says. -/
structure Tracks (v : VfsId) (s : Store) (d : Ledger Record) : Prop where
  exists_graph : ∃ i, s.instances[v]? = some i ∧ i.graph.Regular ∧ i.graph.Represents d
  /-- The numbers of the records have been given out. -/
  fresh : ∀ entry ∈ d, entry.2.id < s.nextRecord
  /-- No mount point is listed twice. -/
  keys : (d.map Prod.fst).Nodup
  /-- No record is mounted twice. -/
  once : ∀ a ∈ d, ∀ b ∈ d, a.2 = b.2 → a.1 = b.1

/-- A part of the ledger tracks a store whose graph represents it. -/
theorem Tracks.withGraph (t : Tracks v s d) (hi : s.instances[v]? = some i) {g : Graph Record}
    (r : g.Regular) {d' : Ledger Record} (hg : g.Represents d') (hd : d'.Sublist d) :
    Tracks v (s.withGraph v i g) d' where
  exists_graph := ⟨_, instances_withGraph hi g, r, hg⟩
  fresh entry h := t.fresh entry (hd.subset h)
  keys := t.keys.sublist (hd.map _)
  once a ha b hb := t.once a (hd.subset ha) b (hd.subset hb)

/-- The store after the number of a record has been given out. -/
def withNewRecord (s : Store) : Store := { s with nextRecord := s.nextRecord + 1 }

/-- A number given out for nothing changes nothing. -/
theorem Tracks.withNewRecord (t : Tracks v s d) : Tracks v s.withNewRecord d where
  exists_graph := t.exists_graph
  fresh entry h := Nat.lt_succ_of_lt (t.fresh entry h)
  keys := t.keys
  once := t.once

/-- A new record with the next number. -/
theorem Tracks.withRecord (t : Tracks v s d) (hi : s.instances[v]? = some i) {g : Graph Record}
    (r : g.Regular) {segments : List Segment} {record : Record}
    (hg : g.Represents ((segments, record) :: d)) (hrecord : record.id = s.nextRecord)
    (hfree : ∀ other, (segments, other) ∉ d) :
    Tracks v (s.withNewRecord.withGraph v i g) ((segments, record) :: d) where
  exists_graph := ⟨_, instances_withGraph hi g, r, hg⟩
  fresh entry h := by
    rcases List.mem_cons.mp h with rfl | h
    · exact Nat.lt_succ_of_le (Nat.le_of_eq hrecord)
    · exact Nat.lt_succ_of_lt (t.fresh entry h)
  keys := by
    refine List.nodup_cons.mpr ⟨fun hkey => ?_, t.keys⟩
    obtain ⟨⟨key, other⟩, hmem, rfl⟩ := List.mem_map.mp hkey
    exact hfree other hmem
  once a ha b hb e := by
    have hnew : ∀ entry ∈ d, entry.2 ≠ record := by
      intro entry h e
      have hlt := t.fresh entry h
      rw [e, hrecord] at hlt
      exact Nat.lt_irrefl _ hlt
    rcases List.mem_cons.mp ha with rfl | ha <;> rcases List.mem_cons.mp hb with rfl | hb
    · rfl
    · exact absurd e.symm (hnew b hb)
    · exact absurd e (hnew a ha)
    · exact t.once a ha b hb e

end Store

/-! ### Editing a graph -/

section

variable {α : Type} {s : Store} {v : VfsId} {i : Instance} {cpu : Sync.Cpu LockId}
  {edit : Graph Record → Checked (Edit Record α)} {g : Graph Record} {changes : List Change} {a : α}

theorem Section.editGraph_eq (hi : s.instances[v]? = some i)
    (h : edit i.graph = .ok ⟨g, changes, a⟩) :
    Section.editGraph v edit s = .ok ((changes, a), s.withGraph v i g) :=
  Section.bind_eq (Section.getVfs_eq hi) (Section.bind_eq (Section.lift_eq h s) rfl)

theorem Action.yields_onGraph (hl : cpu.isLocked (.mounts v) = false)
    (hi : s.instances[v]? = some i) {read : Graph Record → Checked α} (h : read i.graph = .ok a) :
    (Action.onGraph v read).Yields cpu s a s :=
  Action.yields_locked hl (Section.bind_eq (Section.getVfs_eq hi) (Section.lift_eq h s))

/-- Asking a graph what it can always answer. -/
theorem Action.yields_askGraph (hl : cpu.isLocked (.mounts v) = false)
    (hi : s.instances[v]? = some i) (ask : Graph Record → α) :
    (Action.onGraph v fun g => pure (ask g)).Yields cpu s (ask i.graph) s :=
  Action.yields_onGraph hl hi rfl

theorem Action.yields_editGraph (hl : cpu.isLocked (.mounts v) = false)
    (hi : s.instances[v]? = some i) (h : edit i.graph = .ok ⟨g, changes, a⟩) :
    (Action.editGraph v edit).Yields cpu s a (s.withGraph v i g) :=
  (Action.yields_locked hl (Section.editGraph_eq hi h)).bind
    ((Action.yields_noteChanges changes).bind (Action.yields_pure a))

theorem Action.yields_newRecord (driver : Driver) (fs : Option FileSystem) :
    (Action.newRecord driver fs).Yields cpu s ⟨s.nextRecord, driver, fs⟩ s.withNewRecord :=
  Action.yields_unlocked rfl

/-- The filesystems can be listed. -/
theorem Action.yields_filesystems (hl : cpu.isLocked (.filesystems v) = false)
    (hi : s.instances[v]? = some i) : (Action.filesystems v).Yields cpu s i.filesystems s :=
  Action.yields_locked hl (Section.bind_eq (Section.getVfs_eq hi) rfl)

/-- The store with one more filesystem in the file system `i`, which is number `v`. -/
def Store.withFilesystem (s : Store) (v : VfsId) (i : Instance) (fs : FileSystem) : Store :=
  { s with instances :=
      s.instances.setIfInBounds v { i with filesystems := i.filesystems ++ [fs] } }

/-- A filesystem is registered, unless the name of its type is taken. -/
theorem Action.yields_registerFilesystem (hl : cpu.isLocked (.filesystems v) = false)
    (hi : s.instances[v]? = some i) (fs : FileSystem) :
    (∃ e, (Action.registerFilesystem v fs).Yields cpu s (.error e) s) ∨
    (Action.registerFilesystem v fs).Yields cpu s (.ok ()) (s.withFilesystem v i fs) := by
  rw [Action.registerFilesystem]
  by_cases htaken : i.filesystems.any (·.fsType = fs.fsType) = true
  · refine .inl ⟨.alreadyExists, ?_⟩
    refine (Action.yields_locked hl (a := false) (Section.bind_eq (Section.getVfs_eq hi) ?_)).bind
      (Action.yields_pure _)
    rw [if_pos htaken]
    rfl
  · refine .inr ?_
    refine (Action.yields_locked hl (a := true) (Section.bind_eq (Section.getVfs_eq hi) ?_)).bind
      ((Action.yields_note _).bind (Action.yields_pure _))
    rw [if_neg htaken]
    rfl

end

namespace Action

variable {s : Store} {v : VfsId} {d : Ledger Record} {cpu : Sync.Cpu LockId}

/-! ### Registering -/

/-- Mounting at a path made of segments. -/
theorem mount_cases {g : Graph Record} (r : g.Regular) (hg : g.Represents d)
    {segments : List Segment} (hs : ∀ s ∈ segments, s ≠ [] ∧ Path.delimiter ∉ s)
    (record : Record) :
    (∃ h changes e, g.mount (Path.ofSegments segments) record = .ok ⟨h, changes, .error e⟩ ∧
      h.Regular ∧ h.Represents d) ∨
    ∃ h changes id, g.mount (Path.ofSegments segments) record = .ok ⟨h, changes, .ok id⟩ ∧
      h.Regular ∧ h.Represents ((segments, record) :: d) ∧ ∀ other, (segments, other) ∉ d := by
  rw [Graph.mount]
  split
  · exact .inl ⟨g, [], .alreadyExists, rfl, r, hg⟩
  · rcases r.attach (Path.ofSegments segments) record with
      ⟨h, changes, e, hattach, k, rh, -⟩ | ⟨rest, h, changes, id, hrest, hattach, rh, ha⟩
    · exact .inl ⟨h, changes, e, hattach, rh, hg.grown k⟩
    · rw [Path.belowRoot?_ofSegments] at hrest
      cases hrest
      rw [Path.tokens_belowRoot hs] at ha
      exact .inr ⟨h, changes, id, hattach, rh, hg.attached ha, fun other hmem =>
        ha.not_held ((hg segments other).mpr hmem)⟩

/-- **Registering** adds an entry with a new record, or fails and changes nothing. -/
theorem yields_register (t : s.Tracks v d) (hl : cpu.isLocked (.mounts v) = false) (path : Path)
    (driver : Driver) (fs : Option FileSystem) :
    (∃ e s', (register v path driver fs).Yields cpu s (.error e) s' ∧ s'.Tracks v d) ∨
    ∃ node s', (register v path driver fs).Yields cpu s
        (.ok ⟨node, ⟨s.nextRecord, driver, fs⟩⟩) s' ∧
      s'.Tracks v ((Path.segments path, ⟨s.nextRecord, driver, fs⟩) :: d) := by
  have hnew : (newRecord driver fs).Yields cpu s _ _ := yields_newRecord driver fs
  rw [register]
  cases habs : Path.absolute? path with
  | none => exact .inl ⟨_, _, hnew.bind (yields_pure _), t.withNewRecord⟩
  | some clean =>
      have hclean := Path.absolute?_eq_some habs
      subst hclean
      obtain ⟨i, hi, r, hg⟩ := t.exists_graph
      have hmounting : ∀ {h changes answer}, i.graph.mount (Path.ofSegments (Path.segments path))
          ⟨s.nextRecord, driver, fs⟩ = .ok ⟨h, changes, answer⟩ →
          (editGraph v fun g => g.mount (Path.ofSegments (Path.segments path))
            ⟨s.nextRecord, driver, fs⟩).Yields cpu s.withNewRecord answer
            (s.withNewRecord.withGraph v i h) := fun h => yields_editGraph hl hi h
      rcases mount_cases r hg (fun _ hs => Path.mem_segments hs) ⟨s.nextRecord, driver, fs⟩ with
        ⟨h, changes, e, hmount, rh, hh⟩ | ⟨h, changes, id, hmount, rh, hh, hfree⟩
      · exact .inl ⟨e, _, hnew.bind ((hmounting hmount).bind (yields_pure _)),
          t.withNewRecord.withGraph hi rh hh (List.Sublist.refl _)⟩
      · exact .inr ⟨id, _, hnew.bind ((hmounting hmount).bind
          ((yields_note _).bind (yields_pure _))), t.withRecord hi rh hh rfl hfree⟩

/-! ### Detaching -/

theorem represents_congr {g : Graph Record} (hg : g.Represents d) {d' : Ledger Record}
    (h : ∀ entry, entry ∈ d ↔ entry ∈ d') : g.Represents d' :=
  fun segments record => (hg segments record).trans (h _)

/-- Where a record is held, its segments and it determine each other. -/
theorem segments_eq_iff (t : s.Tracks v d) {segments : List Segment} {record : Record}
    (hmem : (segments, record) ∈ d) {entry : List Segment × Record} (hentry : entry ∈ d) :
    entry.1 = segments ↔ entry.2 = record := by
  obtain ⟨i, -, r, hg⟩ := t.exists_graph
  refine ⟨fun e => ?_, t.once entry hentry _ hmem⟩
  have hheld := (hg entry.1 entry.2).mpr hentry
  rw [e] at hheld
  exact hheld.unique r.linked ((hg segments record).mpr hmem)

/-- **Taking a registration back** takes the entry with its record out, or fails and changes
nothing. -/
theorem yields_unregister (t : s.Tracks v d) (hl : cpu.isLocked (.mounts v) = false)
    (registration : Registration) :
    (∃ e s', (unregister v registration).Yields cpu s (.error e) s' ∧ s'.Tracks v d) ∨
    ∃ s', (unregister v registration).Yields cpu s (.ok ()) s' ∧
      s'.Tracks v (d.filter fun entry => entry.2 ≠ registration.record) := by
  obtain ⟨i, hi, r, hg⟩ := t.exists_graph
  rw [unregister]
  by_cases howner : ∃ node, i.graph.node? registration.node = some node ∧
      node.driver = some registration.record
  · obtain ⟨node, hn, hdriver⟩ := howner
    obtain ⟨gone, changes, hdetach, hgone, rh, -⟩ := r.detach hn hdriver
    obtain ⟨top, htop, -⟩ := r.linked.root
    obtain ⟨segments, route⟩ := r.linked.exists_route htop (r.linked.below_root hn)
    have hmem := (hg segments registration.record).mp ⟨_, node, route, hn, hdriver⟩
    have hsame : ∀ entry, entry ∈ d.filter (fun entry => entry.1 ≠ segments) ↔
        entry ∈ d.filter fun entry => entry.2 ≠ registration.record := by
      intro entry
      simp only [List.mem_filter, decide_eq_true_eq]
      exact and_congr_right fun hentry => not_congr (segments_eq_iff t hmem hentry)
    refine .inr ⟨s.withGraph v i _, (yields_editGraph hl hi hdetach).bind ?_,
      t.withGraph hi rh (represents_congr (hg.detached r route hn hgone) hsame)
        List.filter_sublist⟩
    exact (yields_note _).bind (yields_pure _)
  · have hdetach := Graph.detach_notFound fun node hn hd => howner ⟨node, hn, hd⟩
    exact .inl ⟨.notFound, _, (yields_editGraph hl hi hdetach).bind (yields_pure _),
      t.withGraph hi r hg (List.Sublist.refl _)⟩

/-- The record that was mounted at a path is missing, and can be put back. -/
structure Missing (v : VfsId) (s : Store) (d : Ledger Record) (path : Path) (record : Record) :
    Prop where
  tracks : s.Tracks v (d.filter fun entry => entry.1 ≠ Path.segments path)
  exists_back : ∃ i h changes id, s.instances[v]? = some i ∧
    Path.absolute? path = some (Path.ofSegments (Path.segments path)) ∧
    i.graph.attach (Path.ofSegments (Path.segments path)) record = .ok ⟨h, changes, .ok id⟩ ∧
    h.Regular ∧ h.Represents d
  fresh : ∀ entry ∈ d, entry.2.id < s.nextRecord
  keys : (d.map Prod.fst).Nodup
  once : ∀ a ∈ d, ∀ b ∈ d, a.2 = b.2 → a.1 = b.1

/-- **Unmounting** in a graph leaves a record missing that can be put back. -/
theorem unmount_cases {g : Graph Record} (r : g.Regular) (hg : g.Represents d)
    {segments : List Segment} (hs : ∀ s ∈ segments, s ≠ [] ∧ Path.delimiter ∉ s) :
    g.unmount (Path.ofSegments segments) = .ok ⟨g, [], .error .notFound⟩ ∨
    ∃ h changes record, g.unmount (Path.ofSegments segments) = .ok ⟨h, changes, .ok record⟩ ∧
      h.Regular ∧ h.Represents (d.filter fun entry => entry.1 ≠ segments) ∧
      ∃ h' changes' id, h.attach (Path.ofSegments segments) record = .ok ⟨h', changes', .ok id⟩ ∧
        h'.Regular ∧ h'.Represents d := by
  rw [Graph.unmount]
  cases hmounted : g.mounted? (Path.ofSegments segments) with
  | none => exact .inl rfl
  | some found =>
      obtain ⟨id, record⟩ := found
      obtain ⟨top, htop, -⟩ := r.linked.root
      obtain ⟨id', hfind, node, hn, record', hd, he⟩ : ∃ id',
          g.find (Path.ofSegments segments) .exact = some id' ∧ ∃ node, g.node? id' = some node ∧
            ∃ record', node.driver = some record' ∧ (id', record') = (id, record) := by
        rw [Graph.mounted?] at hmounted
        simpa [Option.bind_eq_some_iff] using hmounted
      cases he
      rw [Graph.find_of_belowRoot (Path.belowRoot?_ofSegments segments),
        Graph.walk_exact r.linked htop, Path.tokens_belowRoot hs] at hfind
      obtain ⟨gone, changes, hdetach, hgone, rh, -⟩ := r.detach hn hd
      have hh := hg.detached r hfind hn hgone
      obtain ⟨h', changes', id', hattach, rh', ha⟩ := r.reattach hs hfind hn hgone rh record
      refine .inr ⟨_, changes, record, hdetach, rh, hh, h', changes', id', hattach, rh', ?_⟩
      refine represents_congr (hh.attached ha) ?_
      intro entry
      have hmem := (hg segments record).mp ⟨_, node, hfind, hn, hd⟩
      simp only [List.mem_cons, List.mem_filter, decide_eq_true_eq]
      constructor
      · rintro (rfl | ⟨hentry, -⟩)
        · exact hmem
        · exact hentry
      · intro hentry
        by_cases hseg : entry.1 = segments
        · have hheld := (hg entry.1 entry.2).mpr hentry
          rw [hseg] at hheld
          have hrecord := hheld.unique r.linked ((hg segments record).mpr hmem)
          exact .inl (Prod.ext hseg hrecord)
        · exact .inr ⟨hentry, hseg⟩

/-- **Detaching** the driver at a path takes the entry with its segments out, or fails and changes
nothing. -/
theorem yields_detach (t : s.Tracks v d) (hl : cpu.isLocked (.mounts v) = false) (path : Path) :
    (∃ e s', (detach v path).Yields cpu s (.error e) s' ∧ s'.Tracks v d) ∨
    ∃ record s', (detach v path).Yields cpu s (.ok record) s' ∧ Missing v s' d path record := by
  obtain ⟨i, hi, r, hg⟩ := t.exists_graph
  rw [detach]
  cases habs : Path.absolute? path with
  | none => exact .inl ⟨_, s, yields_pure _, t⟩
  | some clean =>
      have hclean := Path.absolute?_eq_some habs
      subst hclean
      rcases unmount_cases r hg (fun _ hs => Path.mem_segments hs) with
        hunmount | ⟨h, changes, record, hunmount, rh, hh, hback⟩
      · exact .inl ⟨.notFound, s.withGraph v i i.graph,
          (yields_editGraph hl hi hunmount).bind (yields_pure _),
          t.withGraph hi r hg (List.Sublist.refl _)⟩
      · obtain ⟨h', changes', id, hattach, rh', hh'⟩ := hback
        refine .inr ⟨record, s.withGraph v i h, (yields_editGraph hl hi hunmount).bind ?_,
          ⟨t.withGraph hi rh hh List.filter_sublist,
            ⟨_, h', changes', id, Store.instances_withGraph hi h, habs, hattach, rh', hh'⟩,
            t.fresh, t.keys, t.once⟩⟩
        exact (yields_note _).bind (yields_pure _)

/-- **Putting a missing record back** gives the ledger from before. -/
theorem yields_reattach {path : Path} {record : Record} (m : Missing v s d path record)
    (hl : cpu.isLocked (.mounts v) = false) :
    ∃ s', (reattach v path record).Yields cpu s (.ok ()) s' ∧ s'.Tracks v d := by
  obtain ⟨i, h, changes, id, hi, habs, hattach, rh, hh⟩ := m.exists_back
  refine ⟨s.withGraph v i h, ?_, ⟨_, Store.instances_withGraph hi h, rh, hh⟩, m.fresh, m.keys,
    m.once⟩
  rw [reattach, habs]
  exact (yields_editGraph hl hi hattach).bind (yields_pure _)

end Action

end VirtualFs

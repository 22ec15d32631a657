import VirtualFs.Mount.Resolution
import VirtualFs.Proofs.Mount.Route

/-!
# The entries of a directory

A node lists its children as entries of a directory: by their names, and each as a directory if it
has children itself.  Reading the directory on behind a name finds the first of them that comes
behind it, by halving.

* `WellLinked.childAfter_cases`: the next child, or none.
* `WellLinked.continues`: the next entry at a path.
-/

namespace VirtualFs.Mount.Graph

variable {ρ : Type} {g : Graph ρ} {id : NodeId} {node : Node ρ}

/-- Halving divides the children into those that are not behind the name and those that are. -/
theorem WellLinked.exists_behind (w : g.WellLinked) (h : g.node? id = some node)
    (after : Option Segment) : ∃ l r, node.children = l ++ r ∧
      g.childAfter id after = r.head?.bind g.node? ∧
      (∀ c ∈ l, ¬ Segment.Behind after (g.segment c)) ∧
      ∀ c ∈ r, Segment.Behind after (g.segment c) := by
  cases after with
  | none =>
    refine ⟨[], node.children, rfl, ?_, nofun, fun c _ => Segment.behind_none _⟩
    rw [childAfter, h, List.head?_eq_getElem?]
    rfl
  | some last =>
    let test : NodeId → Bool := fun c => g.orderTo last c != .gt
    have htest : ∀ c, test c = false ↔ Segment.Behind (some last) (g.segment c) := fun c => by
      rw [Segment.behind_some, Segment.before_iff_gt, bne_eq_false_iff_eq]
      rfl
    have hsorted : node.children.Pairwise fun a b => test b = true → test a = true := by
      refine (w.sorted h).imp fun {a b} hab hb => ?_
      rw [← Bool.not_eq_false, htest] at hb ⊢
      exact fun ha => hb (ha.trans hab)
    obtain ⟨l, r, hchildren, hl, hr⟩ := Search.exists_split hsorted
    refine ⟨l, r, hchildren, ?_, fun c hc => ?_, fun c hc => (htest c).mp (hr c hc)⟩
    · have hpoint : Search.partitionPoint test node.children = l.length := by
        rw [hchildren, Search.partitionPoint_append hl hr]
      rw [childAfter, h]
      dsimp only [bind, Option.bind_some]
      rw [hpoint, hchildren, List.getElem?_append_right (Nat.le_refl _), Nat.sub_self,
        List.head?_eq_getElem?]
    · rw [← htest, hl c hc]
      exact Bool.noConfusion

/-- **The next child**: the first behind the name in the order of siblings, if there is one. -/
theorem WellLinked.childAfter_cases (w : g.WellLinked) (h : g.node? id = some node)
    (after : Option Segment) :
    (∃ child below, g.childAfter id after = some below ∧ g.Links id child ∧
      g.node? child = some below ∧ Segment.Behind after below.segment ∧
      ∀ c, g.Links id c → Segment.Behind after (g.segment c) →
        g.segment c = below.segment ∨ Segment.Before below.segment (g.segment c)) ∨
    (g.childAfter id after = none ∧
      ∀ c, g.Links id c → ¬ Segment.Behind after (g.segment c)) := by
  obtain ⟨l, r, hchildren, hafter, hl, hr⟩ := w.exists_behind h after
  have hmem : ∀ c, g.Links id c → c ∈ l ∨ c ∈ r := by
    rintro c ⟨node', hnode, hc⟩
    cases h.symm.trans hnode
    exact List.mem_append.mp (hchildren ▸ hc)
  cases r with
  | nil =>
    refine .inr ⟨hafter, fun c hc => ?_⟩
    exact (hmem c hc).elim (hl c) nofun
  | cons child r =>
    have hlinks : g.Links id child := ⟨node, h, hchildren ▸ List.mem_append_right _ (by simp)⟩
    obtain ⟨below, hbelow⟩ := w.isTree.exists_of_links hlinks
    have hsegment := segment_of_node? hbelow
    have hsorted := w.sorted h
    rw [hchildren] at hsorted
    have hfirst := (List.pairwise_cons.mp (List.pairwise_append.mp hsorted).2.1).1
    refine .inl ⟨child, below, hafter.trans hbelow, hlinks, hbelow,
      hsegment ▸ hr child List.mem_cons_self, fun c hc hbehind => ?_⟩
    rw [← hsegment]
    rcases hmem c hc with hc | hc
    · exact absurd hbehind (hl c hc)
    rcases List.mem_cons.mp hc with rfl | hc
    · exact .inl rfl
    · exact .inr (hfirst c hc)

/-! ### Entries at a path -/

/-- The node at the path has a child with the name, which is called a directory exactly if it has
children. -/
def Lists (g : Graph ρ) (dir : Path) (entry : DirEntry) : Prop :=
  ∃ id child node, g.find dir .exact = some id ∧ g.Links id child ∧ g.node? child = some node ∧
    node.segment = entry.name ∧ (entry.kind = .directory ↔ node.children ≠ [])

/-- What there is to read of a directory behind a name. -/
inductive Continues (g : Graph ρ) (dir : Path) (after : Option Segment) :
    Except Error (Option DirEntry) → Prop
  /-- There is no node at the path. -/
  | missing (hnode : g.contains dir = false) : Continues g dir after (.error .notFound)
  /-- The first entry behind the name. -/
  | next {entry : DirEntry} (hnode : g.contains dir = true) (hlists : g.Lists dir entry)
      (hbehind : Segment.Behind after entry.name)
      (hleast : ∀ other, g.Lists dir other → Segment.Behind after other.name →
        other.name = entry.name ∨ Segment.Before entry.name other.name) :
      Continues g dir after (.ok (some entry))
  /-- No entry is behind the name. -/
  | ended (hnode : g.contains dir = true)
      (hnone : ∀ entry, g.Lists dir entry → ¬ Segment.Behind after entry.name) :
      Continues g dir after (.ok none)

theorem WellLinked.exists_node_of_find (w : g.WellLinked) {dir : Path}
    (h : g.find dir .exact = some id) : ∃ node, g.node? id = some node := by
  rw [find] at h
  split at h
  · cases h
  · obtain ⟨top, htop, -⟩ := w.root
    exact ((walk_exact w htop).mp h).exists_end

/-- **Reading a directory on** finds the first entry behind the name. -/
theorem WellLinked.continues (w : g.WellLinked) (dir : Path) (after : Option Segment) :
    g.Continues dir after (g.entryAfter dir after) := by
  rw [entryAfter]
  cases hfind : g.find dir .exact with
  | none => exact .missing (by rw [contains, hfind]; rfl)
  | some id =>
    have hnode : g.contains dir = true := by rw [contains, hfind]; rfl
    obtain ⟨node, hid⟩ := w.exists_node_of_find hfind
    -- a name that is listed is that of a child
    have hchild : ∀ {entry : DirEntry}, g.Lists dir entry →
        ∃ c, g.Links id c ∧ g.segment c = entry.name := by
      rintro entry ⟨id', c, below, hfind', hlinks, hc, hname, -⟩
      cases hfind.symm.trans hfind'
      exact ⟨c, hlinks, (segment_of_node? hc).trans hname⟩
    dsimp only
    rcases w.childAfter_cases hid after with
      ⟨child, below, hafter, hlinks, hbelow, hbehind, hleast⟩ | ⟨hafter, hnone⟩
    · rw [hafter]
      refine .next hnode ⟨id, child, below, hfind, hlinks, hbelow, rfl, ?_⟩ hbehind ?_
      · cases hchildren : below.children <;> simp [hchildren]
      · intro other hother hlast
        obtain ⟨c, hc, hname⟩ := hchild hother
        rw [← hname] at hlast ⊢
        exact hleast c hc hlast
    · rw [hafter]
      refine .ended hnode fun entry hentry hlast => ?_
      obtain ⟨c, hc, hname⟩ := hchild hentry
      exact hnone c hc (hname ▸ hlast)

end VirtualFs.Mount.Graph

import VirtualFs.Mount.Listing
import VirtualFs.Proofs.Mount.Restoring

/-!
# What is listed

In a well-linked graph the two walks that list it come to their ends within their bounds: the one
down the tree meets every node once, each before those below it, and the one up from a node goes
back along its route.

* `preorder_eq`: the numbers of the tree at the root, in their order.
* `pathOf_eq`: a delimiter before each segment of the route.
* `exists_mountPaths`: so the mounts can always be listed.
-/

namespace VirtualFs.Mount.Graph

variable {ρ : Type} {g : Graph ρ}

/-! ### Downwards -/

/-- With enough fuel, a stack of trees is listed tree by tree. -/
theorem preorderFrom_eq {fuel : Nat} {stack : List Tree} (hs : ∀ t ∈ stack, g.Spans t)
    (hfuel : (stack.flatMap Tree.ids).length ≤ fuel) :
    g.preorderFrom fuel (stack.map Tree.id) = .ok (stack.flatMap Tree.ids) := by
  induction fuel generalizing stack with
  | zero =>
      cases stack with
      | nil => rfl
      | cons t stack =>
          cases t
          simp [Tree.ids] at hfuel
  | succ fuel ih =>
      cases stack with
      | nil => rfl
      | cons t stack =>
          cases hs t List.mem_cons_self with
          | node hn hc hb =>
              rename_i id below node
              -- the children come before what else is on the stack
              have hrest : ∀ t ∈ below ++ stack, g.Spans t := by
                intro t ht
                rcases List.mem_append.mp ht with ht | ht
                · exact hb t ht
                · exact hs t (List.mem_cons_of_mem _ ht)
              have hlength : ((below ++ stack).flatMap Tree.ids).length ≤ fuel := by
                rw [List.flatMap_cons, Tree.ids, List.cons_append, List.length_cons] at hfuel
                rw [List.flatMap_append]
                exact Nat.le_of_succ_le_succ hfuel
              have hrec := ih hrest hlength
              rw [List.map_append, ← hc] at hrec
              rw [List.map_cons, Tree.id, preorderFrom, hn]
              dsimp only
              rw [hrec, List.flatMap_cons, Tree.ids, List.flatMap_append]
              rfl

/-- The nodes are listed as they are in a tree at the root. -/
theorem preorder_of_spans (w : g.WellLinked) {t : Tree} (h : g.Spans t) (ht : t.id = root) :
    g.preorder = .ok t.ids := by
  have hlist : g.preorderFrom (g.nodes.size + 1) ([t].map Tree.id) =
      .ok ([t].flatMap Tree.ids) := by
    refine preorderFrom_eq (by simpa using h) ?_
    rw [List.flatMap_cons, List.flatMap_nil, List.append_nil]
    exact Nat.le_succ_of_le (h.length_le w.isTree)
  rw [List.map_cons, List.map_nil, ht, List.flatMap_cons, List.flatMap_nil, List.append_nil]
    at hlist
  exact hlist

/-- **All nodes are listed**, as they are in the tree at the root. -/
theorem preorder_eq (w : g.WellLinked) :
    ∃ t : Tree, t.id = root ∧ g.Spans t ∧ g.preorder = .ok t.ids := by
  obtain ⟨top, htop, -⟩ := w.root
  obtain ⟨t, ht, hspans⟩ := w.isTree.exists_spans htop
  exact ⟨t, ht, hspans, preorder_of_spans w hspans ht⟩

/-! ### Upwards -/

/-- A route has no more segments than the arena has slots. -/
theorem Route.length_le (w : g.WellLinked) {id j : NodeId} {segments : List Segment}
    (r : g.Route id segments j) : segments.length ≤ g.nodes.size := by
  obtain ⟨nodes, hlength, hnodup, hbelow⟩ := r.exists_nodes w
  rw [← hlength]
  refine length_le_size hnodup ?_
  intro n hn
  obtain ⟨child, hl, -, hb⟩ := hbelow n hn
  obtain ⟨node, hnode⟩ := w.isTree.exists_of_links hl
  obtain ⟨below, hlive, -⟩ := w.offset_le_of_below hb hnode
  exact lt_size_of_node? hlive

/-- With enough fuel, the way up meets the segments of the route backwards. -/
theorem ascend_eq (w : g.WellLinked) {fuel : Nat} {id : NodeId} {segments : List Segment}
    (r : g.Route root segments id) (hfuel : segments.length < fuel) :
    g.ascend fuel (some id) = .ok segments.reverse := by
  obtain ⟨fuel, rfl⟩ := Nat.exists_eq_succ_of_ne_zero (Nat.ne_zero_of_lt hfuel)
  induction segments using List.reverseRecOn generalizing fuel id with
  | nil =>
      cases r with
      | here _ =>
          obtain ⟨top, htop, -, -, hparent⟩ := w.root
          rw [ascend, htop]
          dsimp only
          rw [hparent]
          cases fuel <;> rfl
  | append_singleton front segment ih =>
      obtain ⟨above, r, last⟩ := r.exists_between
      cases last with
      | down hl hs last =>
          cases last with
          | here hn =>
              rename_i node
              have hroot : id ≠ root := fun e => w.isTree.root_not_child (e ▸ hl)
              obtain ⟨parent, hp, hc⟩ := hl
              obtain ⟨node', hn', hup⟩ := w.down hp hc
              rw [hn] at hn'
              cases hn'
              rw [segment_of_node? hn] at hs
              have hlength : front.length < fuel := by simpa using hfuel
              obtain ⟨fuel, rfl⟩ := Nat.exists_eq_succ_of_ne_zero (Nat.ne_zero_of_lt hlength)
              rw [ascend, hn]
              dsimp only
              rw [hup, ih r fuel hlength]
              simp [bind, Except.bind, pure, Except.pure, hroot, hs]

/-- **The path of a node** is made of the segments of its route. -/
theorem pathOf_eq (w : g.WellLinked) {id : NodeId} {segments : List Segment}
    (r : g.Route root segments id) : g.pathOf id =
      .ok (if segments.isEmpty then [Path.delimiter] else Path.ofSegments segments) := by
  rw [pathOf, ascend_eq w r (Nat.lt_succ_of_le (r.length_le w))]
  simp [bind, Except.bind, pure, Except.pure]

/-- A computation that comes to an end for every member does so for the list. -/
theorem exists_mapM {α β : Type} {f : α → Checked β} {l : List α}
    (h : ∀ a ∈ l, ∃ b, f a = .ok b) : ∃ bs, l.mapM f = .ok bs := by
  induction l with
  | nil => exact ⟨[], rfl⟩
  | cons a l ih =>
      obtain ⟨b, hb⟩ := h a List.mem_cons_self
      obtain ⟨bs, hbs⟩ := ih fun a ha => h a (List.mem_cons_of_mem _ ha)
      exact ⟨b :: bs, by rw [List.mapM_cons, hb, hbs]; rfl⟩

/-- Computations that agree on every member do so on the list. -/
theorem mapM_congr {α β : Type} {f f' : α → Checked β} {l : List α}
    (h : ∀ a ∈ l, f a = f' a) : l.mapM f = l.mapM f' := by
  induction l with
  | nil => rfl
  | cons a l ih =>
      rw [List.mapM_cons, List.mapM_cons, h a List.mem_cons_self,
        ih fun a ha => h a (List.mem_cons_of_mem _ ha)]

/-- **The mounts can be listed.** -/
theorem exists_mountPaths (w : g.WellLinked) : ∃ paths, g.mountPaths = .ok paths := by
  obtain ⟨t, ht, hspans, hlist⟩ := preorder_eq w
  obtain ⟨top, htop⟩ := hspans.exists_node
  rw [ht] at htop
  obtain ⟨paths, hpaths⟩ : ∃ paths, (t.ids.filter g.ownsDriver).mapM g.pathOf = .ok paths := by
    refine exists_mapM ?_
    intro id hid
    have hbelow := hspans.mem_ids.mp (List.mem_filter.mp hid).1
    rw [ht] at hbelow
    obtain ⟨segments, r⟩ := w.exists_route htop hbelow
    exact ⟨_, pathOf_eq w r⟩
  exact ⟨paths, by rw [mountPaths, hlist]; exact hpaths⟩

end VirtualFs.Mount.Graph

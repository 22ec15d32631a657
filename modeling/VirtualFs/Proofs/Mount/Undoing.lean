import VirtualFs.Proofs.Mount.Attaching

/-!
# Taking back

Attaching and detaching take each other back.  The nodes that are missing for a driver get their
numbers from the top downwards, and the nodes that only it was keeping give theirs up from the
bottom upwards, so each finds the supply as the other left it.

* `Barren.eq`: what leads nowhere and goes from below can go in one order only.
* `Inserted.of_leaf`, `Barren.extends`: what was taken out from below is added again from above.
* `Regular.detach_attached`, `Regular.attach_detached`: each operation takes back the other.
* `operate_undo`: so no later call can tell that both were made.
-/

namespace VirtualFs.Path

/-- Besides its tokens a path has at most empty pieces. -/
theorem mem_tokens_of_mem_pieces {path : Path} {piece : Segment} (h : piece ∈ pieces path) :
    piece = [] ∨ piece ∈ tokens path := by
  fun_induction tokens path with
  | case1 path hnone =>
      have hnil : path = [] := by
        cases path with
        | nil => rfl
        | cons c path => simp [takeToken?] at hnone
      rw [hnil] at h
      exact .inl (List.mem_singleton.mp h)
  | case2 path token rest ht ih =>
      obtain ⟨hd, rfl | ⟨rfl, rfl⟩⟩ := takeToken?_eq_some ht
      · rw [pieces_append hd] at h
        rcases List.mem_cons.mp h with rfl | h
        · exact .inr List.mem_cons_self
        · exact (ih h).imp_right (List.mem_cons_of_mem _)
      · rw [pieces_self hd] at h
        exact .inr (List.mem_singleton.mp h ▸ List.mem_cons_self)

end VirtualFs.Path

namespace VirtualFs.Mount.Graph

variable {ρ : Type} {g h : Graph ρ} {id : NodeId} {node : Node ρ} {gone : List NodeId}

/-! ### Drivers given and taken -/

/-- The driver that was written last is there. -/
theorem withDriver_withDriver (hn : g.node? id = some node) (d d' : Option ρ) :
    (g.withDriver id node d).withDriver id { node with driver := d } d' =
      g.withDriver id node d' := by
  have hd : (g.withDriver id node d).node? id = some { node with driver := d } := by
    rw [node?_withDriver hn, if_pos rfl]
  refine ext_node? (by simp [withDriver]) (fun j => ?_) rfl rfl rfl
  rw [node?_withDriver hd, node?_withDriver hn, node?_withDriver hn]
  by_cases hj : j = id <;> simp [hj]

/-- To write the driver that is there changes nothing. -/
theorem withDriver_self (hn : g.node? id = some node) : g.withDriver id node node.driver = g := by
  refine ext_node? (by simp [withDriver]) (fun j => ?_) rfl rfl rfl
  rw [node?_withDriver hn]
  split
  · rename_i hj
    rw [hj, hn]
  · rfl

/-! ### The order in which nodes go -/

/-- **What goes** is what leads nowhere, if all that is left leads somewhere. -/
theorem Barren.mem_iff (hb : g.Barren gone) (hf : (g.without gone).Fruitful) {j : NodeId} :
    j ∈ gone ↔ (∃ node, g.node? j = some node) ∧ j ≠ root ∧ ¬ g.Leads j := by
  constructor
  · intro hj
    exact ⟨hb.live j hj, fun e => hb.severable.root (e ▸ hj), hb.nowhere j hj⟩
  · rintro ⟨⟨node, hn⟩, hne, hnowhere⟩
    by_contra hj
    have hleft := node?_without_of_not_mem (g := g) hj
    rw [hn, Option.map_some] at hleft
    obtain ⟨k, hjk, hown⟩ := hf hleft hne
    have hk : k ∉ gone := fun hk => by
      rw [ownsDriver, node?_without, if_pos hk] at hown
      cases hown
    exact hnowhere ⟨k, below_of_without hjk, by rwa [ownsDriver_without hk] at hown⟩

/-- What goes from below does so in one order only. -/
theorem Barren.eq (w : g.WellLinked) {gone' : List NodeId} (hb : g.Barren gone)
    (hf : (g.without gone).Fruitful) (horder : gone.Pairwise fun a b => g.Below b a)
    (hb' : g.Barren gone') (hf' : (g.without gone').Fruitful)
    (horder' : gone'.Pairwise fun a b => g.Below b a) : gone = gone' := by
  have hperm := (List.perm_ext_iff_of_nodup hb.nodup hb'.nodup).mpr fun j =>
    (hb.mem_iff hf).trans (hb'.mem_iff hf').symm
  exact hperm.eq_of_pairwise (fun _ _ _ _ hxy hyx => w.isTree.below_antisymm hyx hxy) horder horder'

/-- What was added owns no drivers, and neither does what is below it. -/
theorem Grown.barren {added : List NodeId} (k : g.Grown added h) : h.Barren added where
  severable := k.severable
  nodup := k.nodup
  live id hid := (k.idle id hid).imp fun _ => And.left
  nowhere id hid := by
    rintro ⟨j, hb, hown⟩
    obtain ⟨node, hn, hd⟩ := k.idle j (k.severable.mem_of_below hb hid)
    rw [ownsDriver_of_node? hn, hd] at hown
    cases hown

/-- The first to go of nodes that are one above the other has nothing below it. -/
theorem Barren.not_links (w : g.WellLinked) (hb : g.Barren (id :: gone))
    (horder : (id :: gone).Pairwise fun a b => g.Below b a) {child : NodeId} :
    ¬ g.Links id child := by
  intro hl
  rcases List.mem_cons.mp (hb.severable.down List.mem_cons_self hl) with rfl | hchild
  · exact w.isTree.not_below_of_links hl .refl
  · exact w.isTree.not_below_of_links hl ((List.pairwise_cons.mp horder).1 child hchild)

/-- Barren nodes may go in two goes. -/
theorem Barren.split {a b : List NodeId} (hb : g.Barren (a ++ b)) :
    (g.without a).Barren b where
  severable := by
    refine ⟨fun hr => hb.severable.root (List.mem_append_right _ hr), fun {i j} hi hl => ?_⟩
    have hmem := hb.severable.down (List.mem_append_right _ hi) (links_of_without hl)
    refine (List.mem_append.mp hmem).resolve_left fun hj => ?_
    obtain ⟨node, hn, hchild⟩ := hl
    obtain ⟨-, old, -, rfl⟩ := node?_of_without hn
    simp [Node.dropChildren, hj] at hchild
  nodup := (List.nodup_append'.mp hb.nodup).2.1
  live j hj := by
    obtain ⟨node, hn⟩ := hb.live j (List.mem_append_right _ hj)
    have hja : j ∉ a := fun hja => (List.nodup_append'.mp hb.nodup).2.2 hja hj
    exact ⟨_, by rw [node?_without_of_not_mem hja, hn]; rfl⟩
  nowhere j hj := by
    rintro ⟨k, hjk, hown⟩
    have hk : k ∉ a := fun hk => by
      rw [ownsDriver, node?_without, if_pos hk] at hown
      cases hown
    rw [ownsDriver_without hk] at hown
    exact hb.nowhere j (List.mem_append_right _ hj) ⟨k, below_of_without hjk, hown⟩

/-! ### What was taken out is added again -/

/-- **A leaf** without a driver is what is added where it was taken out. -/
theorem Inserted.of_leaf (w : g.WellLinked) (hn : g.node? id = some node)
    (hd : node.driver = none) (hleaf : ∀ child, ¬ g.Links id child) {parent : NodeId}
    (hl : g.Links parent id) : ∃ above l r,
      (g.without [id]).Inserted parent above l r node.segment id g := by
  obtain ⟨above, habove, hmem⟩ := hl
  obtain ⟨below, hbelow, hparent⟩ := w.down habove hmem
  rw [hn] at hbelow
  cases hbelow
  obtain ⟨l, r, hlr⟩ := List.append_of_mem hmem
  have hnodup := w.isTree.nodup_children habove
  have hsorted := w.sorted habove
  have hoffset := w.offset_child habove hmem hn
  rw [hlr] at hnodup hsorted
  obtain ⟨-, hright, hdisj⟩ := List.nodup_append'.mp hnodup
  have hl' : ∀ c ∈ l, c ≠ id := fun c hc e => hdisj hc (e ▸ List.mem_cons_self)
  have hr' : ∀ c ∈ r, c ≠ id := fun c hc e => (List.nodup_cons.mp hright).1 (e ▸ hc)
  obtain ⟨-, hafter, hacross⟩ := List.pairwise_append.mp hsorted
  have hne : parent ≠ id := by
    rintro rfl
    exact hleaf parent ⟨above, habove, hmem⟩
  have hsegment : ∀ c, c ≠ id → (g.without [id]).segment c = g.segment c := fun c hc =>
    segment_without (by simpa using hc)
  have hchildren : (above.dropChildren [id]).children = l ++ r := by
    show above.children.filter _ = _
    rw [hlr, List.filter_append, List.filter_cons_of_neg (by simp),
      List.filter_eq_self.mpr fun c hc => by simpa using hl' c hc,
      List.filter_eq_self.mpr fun c hc => by simpa using hr' c hc]
  refine ⟨above.dropChildren [id], l, r, ?_, hchildren, ?_, fun j => ?_, fun c hc => ?_,
    fun c hc => ?_⟩
  · rw [node?_without_of_not_mem (by simpa using hne), habove]
    rfl
  · rw [node?_without, if_pos (by simp)]
  · by_cases hj : j = id
    · have hempty : node.children = [] := List.eq_nil_iff_forall_not_mem.mpr fun c hc =>
        hleaf c ⟨node, hn, hc⟩
      rw [if_pos hj, hj, hn]
      obtain ⟨segment, offset, driver, children, up⟩ := node
      cases hd
      cases hempty
      cases hparent
      rw [show offset = _ from hoffset]
      rfl
    · rw [if_neg hj]
      by_cases hp : j = parent
      · rw [if_pos hp, hp, habove, ← hlr]
        rfl
      · rw [if_neg hp, node?_without_of_not_mem (by simpa using hj)]
        cases hother : g.node? j with
        | none => rfl
        | some other =>
            -- no other node had the leaf as a child
            rw [Option.map_some, Node.dropChildren, List.filter_eq_self.mpr fun c hc => ?_]
            have hc : c ≠ id := by
              rintro rfl
              exact hp (w.isTree.parent_unique ⟨other, hother, hc⟩ ⟨above, habove, hmem⟩)
            simpa using hc
  · rw [hsegment c (hl' c hc), ← segment_of_node? hn]
    exact hacross c hc id List.mem_cons_self
  · rw [hsegment c (hr' c hc), ← segment_of_node? hn]
    exact (List.pairwise_cons.mp hafter).1 c hc

/-- A chain begins where the way along its segments was at an end. -/
theorem Extends.stops {current last : NodeId} {segments : List Segment} {created : List NodeId}
    (e : g.Extends current segments created last h) : g.Stops current segments := by
  cases e with
  | here =>
      rintro child - hhead
      cases hhead
  | down i _ _ _ _ _ _ =>
      rintro child ⟨above, habove, hmem⟩ hhead
      rw [i.found] at habove
      cases habove
      rw [i.children] at hmem
      rw [List.head?_cons, Option.some.injEq] at hhead
      rcases List.mem_append.mp hmem with hmem | hmem
      · exact (i.smaller child hmem).ne hhead.symm
      · exact (i.greater child hmem).ne hhead

/-- Nothing is said against attaching at the end of a chain that there was room for, if its last
node owns no driver. -/
theorem Extends.refusal?_eq_none {current last : NodeId} {segments : List Segment}
    {created : List NodeId} (e : g.Extends current segments created last h) (w : g.WellLinked)
    (n : g.Numbered) (hroom : h.live ≤ h.limit) (hfree : h.ownsDriver last = false)
    {path rest : Path} (hrest : Path.belowRoot? path = some rest)
    (hshort : ∀ token ∈ Path.tokens rest, Path.byteLength token ≤ Limits.maxFilenameLength) :
    g.refusal? path current segments.length = none := by
  have hverdict := n.verdict path current segments.length
  generalize g.refusal? path current segments.length = answer at hverdict
  cases hverdict with
  | free => rfl
  | relative hnone =>
      rw [hnone] at hrest
      cases hrest
  | long hrest' hmem hlong =>
      rw [hrest'] at hrest
      cases hrest
      refine absurd hlong (Nat.not_lt.mpr ?_)
      rcases Path.mem_tokens_of_mem_pieces hmem with rfl | hmem
      · exact Nat.zero_le _
      · exact hshort _ hmem
  | full _ _ hfull =>
      have hlive := (e.grown w).live
      have hlimit := (e.grown w).limit
      rw [List.length_reverse, e.length_eq] at hlive
      omega
  | taken _ _ hnone hown =>
      rw [List.eq_nil_of_length_eq_zero hnone] at e
      cases e
      rw [hfree] at hown
      cases hown

/-- **What went from below**, up the way from a node, is a chain that can be added again. -/
theorem Barren.extends (w : g.WellLinked) (n : g.Numbered) (hb : g.Barren gone)
    (horder : gone.Pairwise fun a b => g.Below b a) {segments : List Segment}
    (route : g.Route root segments id) (habove : ∀ j ∈ gone, g.Below j id) :
    ∃ front missing deepest, segments = front ++ missing ∧
      (g.without gone).Route root front deepest ∧
      (g.without gone).Extends deepest missing gone.reverse id g := by
  induction gone generalizing g id segments with
  | nil =>
      rw [without_nil]
      exact ⟨segments, [], id, (List.append_nil _).symm, route, .here⟩
  | cons first gone ih =>
      have hleaf : ∀ child, ¬ g.Links first child := fun child => hb.not_links w horder
      -- the first to go is the node at the end of the way
      have hfirst : first = id := by
        rcases Relation.ReflTransGen.cases_head (habove first List.mem_cons_self) with he | he
        · exact he
        · obtain ⟨child, hl, -⟩ := he
          exact absurd hl (hleaf child)
      subst hfirst
      obtain ⟨node, hn⟩ := route.exists_end
      have hroot : first ≠ root := fun e => hb.severable.root (e ▸ List.mem_cons_self)
      have hd : node.driver = none := by
        by_contra hd
        refine hb.nowhere first List.mem_cons_self ⟨first, .refl, ?_⟩
        rw [ownsDriver_of_node? hn]
        exact Option.isSome_iff_ne_none.mpr hd
      obtain ⟨parent, above, hparent, habove', hmem, -⟩ := w.up hn hroot
      have hl : g.Links parent first := ⟨above, habove', hmem⟩
      obtain ⟨up, l, r, i⟩ := Inserted.of_leaf w hn hd hleaf hl
      have hne : parent ∉ [first] := by simpa using i.parent_ne
      have hs : g.Severable [first] :=
        ⟨by simpa using hroot.symm, fun {a b} ha hab => by
          rw [List.mem_singleton.mp ha] at hab
          exact absurd hab (hleaf b)⟩
      have hlive : ∀ j ∈ [first], ∃ node, g.node? j = some node := by simp [hn]
      have hone : [first].length ≤ g.live := n.counted.length_le_live (by simp) hlive
      -- the way to its parent is as long as it was, less one segment
      obtain ⟨segments', hroute⟩ : ∃ segments', g.Route root segments' parent := by
        obtain ⟨top, htop, -⟩ := w.root
        exact w.exists_route htop (w.below_root habove')
      have hsplit : segments = segments' ++ [node.segment] :=
        route.segments_unique w (hroute.append (.down hl (segment_of_node? hn) (.here hn)))
      obtain ⟨hafter, horder'⟩ := List.pairwise_cons.mp horder
      have hup : ∀ j ∈ gone, j ≠ first → g.Below j parent := by
        intro j hj hjne
        rcases Relation.ReflTransGen.cases_tail (habove j (List.mem_cons_of_mem _ hj)) with
          he | ⟨c, hjc, hc⟩
        · exact absurd he.symm hjne
        · rwa [w.isTree.parent_unique hc hl] at hjc
      have hnot : ∀ j ∈ gone, j ≠ first := fun j hj e =>
        (List.nodup_cons.mp hb.nodup).1 (e ▸ hj)
      obtain ⟨front, missing, deepest, hsegments, hfront, e⟩ := ih (w.without hs)
        (n.without (by simp) hlive) (Barren.split (a := [first]) hb)
        (horder'.imp_of_mem fun ha _ hba => hs.below_without hba (by simpa using hnot _ ha))
        (hs.route_iff.mpr ⟨hroute, hne⟩)
        (fun j hj => hs.below_without (hup j hj (hnot j hj)) hne)
      rw [without_without, List.singleton_append] at hfront e
      refine ⟨front, missing ++ [node.segment], deepest, ?_, hfront, ?_⟩
      · rw [hsplit, hsegments, List.append_assoc]
      · rw [List.reverse_cons]
        refine e.snoc i w n ?_ rfl ?_
        · rw [supply_without]
          rfl
        · show g.live = g.live - 1 + 1
          exact (Nat.sub_add_cancel hone).symm

/-! ### One operation and the other -/

/-- **Detaching what was attached** takes all back, numbers to come included. -/
theorem Regular.detach_attached [DecidableEq ρ] (r : g.Regular) {path : Path} {record : ρ}
    {changes : List Change} (hattach : g.attach path record = .ok ⟨h, changes, .ok id⟩) :
    ∃ k changes', h.detach id record = .ok ⟨k, changes', .ok record⟩ ∧ k.Alike g ∧ k.Regular := by
  obtain ⟨front, missing, deepest, -, d⟩ := exists_deepest r.linked (path.drop 1)
  cases he : g.refusal? path deepest missing.length with
  | some e =>
      obtain ⟨h', changes', hattach', -⟩ := attach_refused r.linked r.numbered d he record
      rw [hattach'] at hattach
      cases hattach
  | none =>
      obtain ⟨created, k, last, node, changes', e, hn, hd, hattach'⟩ :=
        attach_accepted r.linked r.numbered d he record
      rw [hattach'] at hattach
      cases hattach
      have rh : (k.withDriver id node (some record)).Regular := by
        rcases r.attach path record with
          ⟨_, _, _, hattach, -⟩ | ⟨_, _, _, _, -, hattach, rh, -⟩ <;> rw [hattach'] at hattach <;>
          cases hattach
        exact rh
      have hn' : (k.withDriver id node (some record)).node? id =
          some { node with driver := some record } := by
        rw [node?_withDriver hn, if_pos rfl]
      obtain ⟨gone, changes'', hdetach, hb, rk, horder⟩ := rh.detach hn' rfl
      -- without the driver, the graph is the one of before with the chain of new nodes
      have hself : k.withDriver id node none = k := hd ▸ withDriver_self hn
      rw [withDriver_withDriver hn, hself] at hdetach hb rk
      rw [below_withDriver hn] at horder
      have hgrown := e.grown r.linked
      have halike : (k.without created.reverse).Alike g :=
        hgrown.alike_without (by rw [List.reverse_reverse]; exact e.supply)
      have hnumbered := (e.numbered r.numbered).without hgrown.nodup hgrown.barren.live
      have hgone : gone = created.reverse := hb.eq (e.wellLinked r.linked) rk.fruitful horder
        hgrown.barren (halike.symm.regular r hnumbered).fruitful
        (List.pairwise_reverse.mpr e.ordered)
      subst hgone
      exact ⟨_, changes'', hdetach, halike, rk⟩

/-- **Attaching what was detached**, at any path with the tokens of its node, takes all back,
numbers to come included. -/
theorem Regular.attach_detached [DecidableEq ρ] (r : g.Regular) {record owner : ρ}
    {changes : List Change} (hdetach : g.detach id record = .ok ⟨h, changes, .ok owner⟩)
    {path rest : Path} (hrest : Path.belowRoot? path = some rest)
    (route : g.Route root (Path.tokens rest) id) :
    ∃ k changes', h.attach path record = .ok ⟨k, changes', .ok id⟩ ∧ k.Alike g ∧ k.Regular := by
  by_cases howner : ∃ node, g.node? id = some node ∧ node.driver = some record
  · obtain ⟨node, hn, hd⟩ := howner
    obtain ⟨gone, changes', hdetach', hb, rh, horder⟩ := r.detach hn hd
    rw [hdetach'] at hdetach
    cases hdetach
    have w := r.linked.withDriver none hn
    have n : (g.withDriver id node none).Numbered := r.numbered.write hn _
    have habove : ∀ j ∈ gone, (g.withDriver id node none).Below j id := by
      intro j hj
      rw [below_withDriver hn]
      exact ((r.mem_gone_iff hn hb rh j).mp hj).2.1
    have hbelow : (g.withDriver id node none).Below = g.Below := below_withDriver hn
    rw [← hbelow] at horder
    obtain ⟨front, missing, deepest, hsplit, hfront, e⟩ :=
      hb.extends w n horder ((route_withDriver hn).mpr route) habove
    have d : ((g.withDriver id node none).without gone).Deepest (Path.tokens (path.drop 1)) front
        missing deepest := by
      rw [← Path.belowRoot?_eq_some hrest, hsplit]
      exact e.stops.deepest rh.linked hfront
    have hfree : ((g.withDriver id node none).without gone).refusal? path deepest
        missing.length = none :=
      e.refusal?_eq_none rh.linked rh.numbered n.limit
        (by rw [ownsDriver_withDriver hn, if_pos rfl]; rfl) hrest (route.byteLength_le r.linked)
    obtain ⟨created, k, last, node', changes'', e', hn', -, hattach⟩ :=
      attach_accepted rh.linked rh.numbered d hfree record
    obtain ⟨-, rfl, a⟩ := e.alike (.refl _) e'
    -- the chain is there again, with the same numbers, and gets its driver back
    have hnode : (g.withDriver id node none).node? id = some { node with driver := none } := by
      rw [node?_withDriver hn, if_pos rfl]
    have hsame := hn'
    rw [← a.node, hnode] at hsame
    cases hsame
    have hback : (g.withDriver id node none).withDriver id { node with driver := none }
        (some record) = g := by
      rw [withDriver_withDriver hn, ← hd, withDriver_self hn]
    have halike : (k.withDriver id { node with driver := none } (some record)).Alike g := by
      have hwrite := (a.write hnode (some { node with driver := some record })).symm
      rwa [show (g.withDriver id node none).write id (some { node with driver := some record }) =
        g from hback] at hwrite
    exact ⟨_, changes'', hattach, halike,
      halike.symm.regular r ((e'.numbered rh.numbered).write hn' _)⟩
  · rw [detach_notFound fun node hn hd => howner ⟨node, hn, hd⟩] at hdetach
    cases hdetach

/-- `h` has the nodes of `g`, and answers every later call as `g` does. -/
structure Restores [DecidableEq ρ] (h g : Graph ρ) : Prop where
  /-- The same numbers, segments, offsets, drivers and children in the same order. -/
  node : ∀ id, h.node? id = g.node? id
  /-- The same answers, numbers of new nodes included. -/
  later : h.Interchangeable g

theorem Alike.restores [DecidableEq ρ] (a : h.Alike g) (rh : h.Regular) (rg : g.Regular) :
    h.Restores g :=
  ⟨a.node, a.interchangeable rh rg⟩

/-- **Attaching and detaching** take each other back, after any operations: a driver that was
attached is detached again, and a driver that was detached is attached again, at any path with the
tokens of its node and with the number it had. -/
theorem operate_undo [DecidableEq ρ] (limit : Nat) (operations : List (Operation ρ)) (path : Path)
    (record : ρ) : ∃ g, operate limit operations = .ok g ∧
      (∀ h changes id, g.attach path record = .ok ⟨h, changes, .ok id⟩ →
        ∃ k changes', h.detach id record = .ok ⟨k, changes', .ok record⟩ ∧ k.Restores g) ∧
      ∀ h changes id owner, g.detach id record = .ok ⟨h, changes, .ok owner⟩ →
        path = [] ∨ path.head? = some '/' → g.Route root (Path.tokens (path.drop 1)) id →
        ∃ k changes', h.attach path record = .ok ⟨k, changes', .ok id⟩ ∧ k.Restores g := by
  have hstart : (withLimit limit : Graph ρ).Regular := regular_withLimit limit
  obtain ⟨g, hrun, r, -⟩ := hstart.foldlM_operation operations
  refine ⟨g, hrun, fun h changes id hattach => ?_, fun h changes id owner hdetach hpath route => ?_⟩
  · obtain ⟨k, changes', hdetach, a, rk⟩ := r.detach_attached hattach
    exact ⟨k, changes', hdetach, a.restores rk r⟩
  · obtain ⟨rest, hrest⟩ : ∃ rest, Path.belowRoot? path = some rest :=
      Option.ne_none_iff_exists'.mp fun hnone => by
        obtain ⟨hne, hhead⟩ := Path.belowRoot?_eq_none.mp hnone
        exact hpath.elim hne hhead
    rw [← Path.belowRoot?_eq_some hrest] at route
    obtain ⟨k, changes', hattach, a, rk⟩ := r.attach_detached hdetach hrest route
    exact ⟨k, changes', hattach, a.restores rk r⟩

end VirtualFs.Mount.Graph

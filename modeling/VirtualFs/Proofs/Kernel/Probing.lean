import VirtualFs.Proofs.Kernel.Instances
import VirtualFs.Proofs.Kernel.Replies
import VirtualFs.Proofs.Mount.Mounted

/-!
# Mounting a device

A call that mounts a device asks one filesystem after the other until one makes a driver, which is
then registered.  If it cannot be, the filesystem is asked to give it up.  While a filesystem is
being asked anything may be registered and mounted, but the filesystems to ask are settled when the
call comes in.

* `Pursuit`: how far such a call has come.
* `Action.ensures_entering`: registering a driver, exactly.
* `Happens.pursues`, `Pursuit.next`: the first step of such a call, and every answer to it.
* `mounts_pursued`: every mounting of every run.
-/

namespace VirtualFs

/-- What a call to mount a device goes by: the filesystem type if one was named, and the filesystems
that were registered when it came in. -/
structure Probe where
  vfs : VfsId
  path : Path
  device : Path
  fsType : Option String
  registered : List FileSystem

namespace Probe

/-- The filesystems that may be asked, in this order. -/
def candidates (q : Probe) : List FileSystem :=
  match q.fsType with
  | none => q.registered
  | some fsType => (q.registered.find? (·.fsType = fsType)).toList

/-- These filesystems have been asked, and have failed. -/
def refusals (q : Probe) (tried : List (FileSystem × Error)) : List (HookCall × Reply) :=
  tried.map fun (fs, e) => (.mount fs q.path q.device, .failed e)

/-- What is returned when these filesystems have failed, and there are no more: the error of the
filesystem that was named, if there is one of the name. -/
def verdict (q : Probe) (tried : List (FileSystem × Error)) : Error :=
  match q.fsType with
  | none => .notSupported
  | some _ => (tried.head?.map (·.2)).getD .notFound

/-- What is left to do while a filesystem is being asked, and the rest may be asked next. -/
def frame (q : Probe) (fs : FileSystem) (rest : List FileSystem) : Frame :=
  match q.fsType with
  | none => .probing q.vfs q.path q.device fs rest
  | some _ => .mounting q.vfs q.path q.device fs

variable {q : Probe} {fs : FileSystem} {rest : List FileSystem} {tried : List (FileSystem × Error)}

/-- Where a type was named, there is no other filesystem to ask. -/
theorem alone {fsType : String} (hname : q.fsType = some fsType)
    (hcandidates : q.candidates = tried.map (·.1) ++ fs :: rest) : tried = [] ∧ rest = [] := by
  rw [candidates, hname] at hcandidates
  have hlength := congrArg List.length hcandidates
  have hfew := Option.length_toList_le (o := q.registered.find? (·.fsType = fsType))
  simp only [List.length_append, List.length_map, List.length_cons] at hlength
  exact ⟨List.eq_nil_of_length_eq_zero (by omega), List.eq_nil_of_length_eq_zero (by omega)⟩

theorem refusals_concat (q : Probe) (tried : List (FileSystem × Error)) (fs : FileSystem)
    (e : Error) : q.refusals (tried ++ [(fs, e)]) =
      q.refusals tried ++ [(.mount fs q.path q.device, .failed e)] := by
  rw [refusals, refusals, List.map_append, List.map_singleton]

end Probe

/-! ### What a step of such a call does -/

namespace Moment

/-- The step mounts the driver that the filesystem has made, under a new record, and the call
returns. -/
structure Enters (n : Moment) (v : VfsId) (path : Path) (fs : FileSystem) (driver : Driver) :
    Prop where
  returned : n.outcome = .returned (.ok .done)
  mounted : ∃ i g, n.before.kernel.store.instances[v]? = some i ∧
    i.graph.Mounted path ⟨n.before.kernel.store.nextRecord, driver, some fs⟩ g ∧
    n.after.kernel.store = n.before.kernel.store.withNewRecord.withGraph v i g

/-- The step cannot mount the driver that the filesystem has made, and asks it to give the driver
up.  All nodes stay what they were, and the new record is used for nothing. -/
structure Undoes (n : Moment) (v : VfsId) (path device : Path) (fs : FileSystem) (driver : Driver)
    (e : Error) : Prop where
  waits : n.Waits (.unmount fs driver) (.undoing device e)
  barred : ∃ i g, n.before.kernel.store.instances[v]? = some i ∧ i.graph.Bars path e ∧
    (∀ id, g.node? id = i.graph.node? id) ∧
    n.after.kernel.store = n.before.kernel.store.withNewRecord.withGraph v i g

end Moment

/-- **How far a call to mount a device has come** that begins with `start`: what has been asked for
it and answered, and the step that comes next. -/
inductive Pursuit (q : Probe) (start : Moment) : List (HookCall × Reply) → Moment → Prop
  /-- Some filesystems have failed, and the next is asked. -/
  | asks {tried : List (FileSystem × Error)} {fs : FileSystem} {rest : List FileSystem}
      {now : Moment} (hcandidates : q.candidates = tried.map (·.1) ++ fs :: rest)
      (hwaits : now.Waits (.mount fs q.path q.device) (q.frame fs rest))
      (hsame : now.after.kernel.store = now.before.kernel.store) :
      Pursuit q start (q.refusals tried) now
  /-- All filesystems have failed. -/
  | fails {tried : List (FileSystem × Error)} {now : Moment}
      (hcandidates : q.candidates = tried.map (·.1))
      (hreturned : now.outcome = .returned (.error (q.verdict tried)))
      (hsame : now.after.kernel.store = now.before.kernel.store) :
      Pursuit q start (q.refusals tried) now
  /-- A filesystem has made a driver, and the driver is mounted. -/
  | enters {tried : List (FileSystem × Error)} {fs : FileSystem} {rest : List FileSystem}
      {driver : Driver} {now : Moment}
      (hcandidates : q.candidates = tried.map (·.1) ++ fs :: rest)
      (henters : now.Enters q.vfs q.path fs driver) :
      Pursuit q start (q.refusals tried ++ [(.mount fs q.path q.device, .mounted driver)]) now
  /-- A filesystem has made a driver, and is asked to give it up. -/
  | undoes {tried : List (FileSystem × Error)} {fs : FileSystem} {rest : List FileSystem}
      {driver : Driver} {e : Error} {now : Moment}
      (hcandidates : q.candidates = tried.map (·.1) ++ fs :: rest)
      (hundoes : now.Undoes q.vfs q.path q.device fs driver e) :
      Pursuit q start (q.refusals tried ++ [(.mount fs q.path q.device, .mounted driver)]) now
  /-- The filesystem has been asked to give the driver up, and has answered anything. -/
  | undone {tried : List (FileSystem × Error)} {fs : FileSystem} {rest : List FileSystem}
      {driver : Driver} {e : Error} {reply : Reply} {later : List Moment} {turn now : Moment}
      (hcandidates : q.candidates = tried.map (·.1) ++ fs :: rest)
      (hturn : start.Turn later
        (q.refusals tried ++ [(.mount fs q.path q.device, .mounted driver)]) turn)
      (hundoes : turn.Undoes q.vfs q.path q.device fs driver e)
      (hreturned : now.outcome = .returned (.error e))
      (hsame : now.after.kernel.store = now.before.kernel.store) :
      Pursuit q start (q.refusals tried ++ [(.mount fs q.path q.device, .mounted driver)] ++
        [(.unmount fs driver, reply)]) now

/-! ### Actions -/

namespace Action

variable {s : Store} {v : VfsId} {i : Instance} {path : Path}

/-- **Registering a driver** mounts it under a new record, unless something bars it. -/
theorem ensures_entering (k : s.Served) (hi : s.instances[v]? = some i) (path : Path)
    (driver : Driver) (fs : Option FileSystem) :
    (register v path driver fs).Ensures s fun result s' =>
      ∃ g, s' = s.withNewRecord.withGraph v i g ∧
        ((∃ e, result = .error e ∧ i.graph.Bars path e ∧
          ∀ id, g.node? id = i.graph.node? id) ∨
        ∃ registration, result = .ok registration ∧
          i.graph.Mounted path ⟨s.nextRecord, driver, fs⟩ g) := by
  refine (ensures_registering v path driver fs).mono ?_
  rintro _ _ (⟨habs, rfl, rfl⟩ | ⟨clean, j, g, changes, answer, habs, hj, hmount, rfl, rfl⟩)
  · exact ⟨i.graph, (Store.withGraph_self (s := s.withNewRecord) hi).symm,
      .inl ⟨_, rfl, .relative habs, fun _ => rfl⟩⟩
  cases hi.symm.trans hj
  refine ⟨g, rfl, ?_⟩
  rcases (k.graphs hi).regular.mount_cases habs ⟨s.nextRecord, driver, fs⟩ with
    ⟨h, changes', e, heq, hbars, hnodes⟩ | ⟨h, changes', id, heq, hmounted⟩
  · cases hmount.symm.trans heq
    exact .inl ⟨e, rfl, hbars, hnodes⟩
  · cases hmount.symm.trans heq
    exact .inr ⟨_, rfl, hmounted⟩

/-- **A filesystem has made a driver**: it is mounted, or to be given up. -/
theorem ensures_enteringMade (k : s.Served) (hi : s.instances[v]? = some i) (path device : Path)
    (fs : FileSystem) (driver : Driver) :
    (mountMade v path device fs driver).Ensures s fun p s' =>
      ∃ g, s' = s.withNewRecord.withGraph v i g ∧
        ((∃ e cpu, p = .waiting (.unmount fs driver) (.undoing device e) cpu ∧
          i.graph.Bars path e ∧ ∀ id, g.node? id = i.graph.node? id) ∨
        p = .succeeded .done ∧ i.graph.Mounted path ⟨s.nextRecord, driver, some fs⟩ g) := by
  refine (ensures_entering k hi path driver (some fs)).bind ?_
  rintro _ s' ⟨g, hs, ⟨e, rfl, h⟩ | ⟨registration, rfl, h⟩⟩
  · exact ensures_ask fun cpu => ⟨g, hs, .inl ⟨e, cpu, rfl, h⟩⟩
  · exact (ensures_note _).bind_same fun _ => ensures_pure ⟨g, hs, .inr ⟨rfl, h⟩⟩

end Action

/-! ### The steps -/

section

variable {past later : List Moment} {start turn now : Moment} {q : Probe}
  {dialogue : List (HookCall × Reply)} {fs : FileSystem} {rest : List FileSystem}
  {tried : List (FileSystem × Error)} {job : Job}

/-- The next filesystem is asked, if there is one. -/
theorem Pursuit.of_probe (hname : q.fsType = none) {p : Progress}
    (hp : Action.Probes q.vfs q.path q.device rest p)
    (c : Machine.Carried now.before now.event now.outcome now.after job .direct p)
    (hcandidates : q.candidates = tried.map (·.1) ++ rest)
    (hsame : now.after.kernel.store = now.before.kernel.store) :
    Pursuit q start (q.refusals tried) now := by
  cases hp with
  | fails =>
    refine .fails (by rw [hcandidates, List.append_nil]) ?_ hsame
    rw [Probe.verdict, hname]
    exact c.ends.of_finished.1
  | asks =>
    refine .asks hcandidates ⟨c.ends.of_waiting.1, ?_⟩ hsame
    rw [Probe.frame, hname]
    exact c.ends.of_waiting.2

/-- **The first step** asks the first filesystem, if there is one to ask. -/
theorem Happens.pursues (h : Happens past start) {v : VfsId} {i : Instance} {path device : Path}
    {fsType : Option String} (he : start.event = .call (.mount v path device fsType))
    (hi : start.before.kernel.store.instances[v]? = some i) :
    Pursuit ⟨v, path, device, fsType, i.filesystems⟩ start [] start := by
  obtain ⟨hlt, -⟩ := Array.getElem?_eq_some_iff.mp hi
  obtain ⟨p, c⟩ := h.carries he (decide_eq_true hlt)
  obtain ⟨hsame, j, hj, hbegins⟩ := c.ensures (Action.ensures_mountBegins v path device fsType)
  cases hi.symm.trans hj
  show Pursuit _ start (Probe.refusals ⟨v, path, device, fsType, i.filesystems⟩ []) start
  cases hbegins with
  | probes hp => exact .of_probe rfl hp c rfl hsame
  | missing hfind => exact .fails (congrArg Option.toList hfind) c.ends.of_finished.1 hsame
  | asks hfind =>
    exact .asks (congrArg Option.toList hfind) ⟨c.ends.of_waiting.1, c.ends.of_waiting.2⟩ hsame

namespace Pursuit

/-- **A filesystem has failed.** -/
theorem failed (hcandidates : q.candidates = tried.map (·.1) ++ fs :: rest) {e : Error}
    {p : Progress} (c : Machine.Carried now.before now.event now.outcome now.after
      (.resume (q.frame fs rest) (.failed e)) .direct p) :
    Pursuit q start (q.refusals tried ++ [(.mount fs q.path q.device, .failed e)]) now := by
  rw [← q.refusals_concat]
  have hmore : q.candidates = (tried ++ [(fs, e)]).map (·.1) ++ rest := by
    rw [hcandidates, List.map_append, List.append_assoc]
    rfl
  cases hname : q.fsType with
  | none =>
    rw [Probe.frame, hname] at c
    obtain ⟨hsame, hp⟩ := c.ensures
      ((Action.ensures_note _).bind_same fun _ => Action.ensures_probing _ _ _ _)
    exact .of_probe hname hp c hmore hsame
  | some fsType =>
    obtain ⟨rfl, rfl⟩ := Probe.alone hname hcandidates
    rw [Probe.frame, hname] at c
    obtain ⟨rfl, hsame⟩ := c.ensures (Q := fun p s' =>
      p = .failed e ∧ s' = now.before.kernel.store) (Action.ensures_pure ⟨rfl, rfl⟩)
    refine .fails (by rw [hmore, List.append_nil]) ?_ hsame
    rw [Probe.verdict, hname]
    exact c.ends.of_finished.1

/-- **A filesystem has made a driver.** -/
theorem made (h : Happens past now) (hcandidates : q.candidates = tried.map (·.1) ++ fs :: rest)
    {driver : Driver} {p : Progress}
    (c : Machine.Carried now.before now.event now.outcome now.after
      (.resume (q.frame fs rest) (.mounted driver)) .direct p) :
    Pursuit q start (q.refusals tried ++ [(.mount fs q.path q.device, .mounted driver)]) now := by
  obtain ⟨H, r⟩ := h.before
  obtain ⟨hvalid, -⟩ := h.resumes c.sets
  have hv : now.before.kernel.store.hasVfs q.vfs = true := by
    unfold Probe.frame at hvalid
    split at hvalid <;> exact hvalid
  have haction : Job.action (.resume (q.frame fs rest) (.mounted driver)) =
      Action.mountMade q.vfs q.path q.device fs driver := by
    unfold Probe.frame
    split <;> rfl
  obtain ⟨i, hi⟩ := Store.exists_instance hv
  rcases c.ensures (haction ▸ Action.ensures_enteringMade r.sound.served hi q.path q.device fs
    driver) with ⟨g, hs, ⟨e, cpu, rfl, hbars, hnodes⟩ | ⟨rfl, hmounted⟩⟩
  · exact .undoes hcandidates ⟨⟨c.ends.of_waiting.1, c.ends.of_waiting.2⟩, i, g, hi, hbars, hnodes,
      hs⟩
  · exact .enters hcandidates ⟨c.ends.of_finished.1, i, g, hi, hmounted, hs⟩

/-- **Every answer** takes the call further. -/
theorem next (hp : Pursuit q start dialogue turn) (hturn : start.Turn later dialogue turn)
    (h : Happens past now) {question : HookCall} {reply : Reply}
    (hc : turn.Continues now question reply) :
    Pursuit q start (dialogue ++ [(question, reply)]) now := by
  cases hp with
  | asks hcandidates hwaits hsame =>
    cases hc.asked.symm.trans hwaits.asked
    obtain ⟨haccepts, p, c⟩ := hc.carried hwaits.stack
    cases reply with
    | failed e => exact failed hcandidates c
    | mounted driver => exact made h hcandidates c
    | _ =>
      unfold Probe.frame at haccepts
      split at haccepts <;> cases haccepts
  | fails hcandidates hreturned hsame => cases hc.asked.symm.trans hreturned
  | enters hcandidates henters => cases hc.asked.symm.trans henters.returned
  | @undoes tried fs rest driver e _ hcandidates hundoes =>
    cases hc.asked.symm.trans hundoes.waits.asked
    obtain ⟨-, p, c⟩ := hc.carried hundoes.waits.stack
    have hundone : p = .failed e ∧ now.after.kernel.store = now.before.kernel.store := by
      refine c.ensures (Q := fun p s' => p = .failed e ∧ s' = now.before.kernel.store) ?_
      cases reply with
      | failed failure => exact Action.ensures_undone q.device e (some failure)
      | _ => exact Action.ensures_undone q.device e none
    obtain ⟨rfl, hsame⟩ := hundone
    exact .undone hcandidates hturn hundoes c.ends.of_finished.1 hsame
  | undone hcandidates _ hundoes hreturned hsame => cases hc.asked.symm.trans hreturned

end Pursuit

end

/-- **Every call to mount a device** asks the filesystems that were registered when it came in, in
the order in which they were registered and each at most once, or only the one of the type that was
named.  The driver of the first that makes one is mounted at the path, or given up at once. -/
theorem mounts_pursued (word enableMask : Sync.Word) (events : List Event) :
    ∃ moments, (Machine.initial word enableMask).trace [] events = .ok moments ∧
      ∀ past start later future dialogue now v path device fsType,
        moments = past ++ start :: (later ++ future) → start.Turn later dialogue now →
        start.event = .call (.mount v path device fsType) →
        start.before.kernel.store.hasVfs v = true →
        ((past.filterMap (·.enrolls? v)).map (·.fsType)).Nodup ∧
        Pursuit ⟨v, path, device, fsType, past.filterMap (·.enrolls? v)⟩ start dialogue now := by
  obtain ⟨moments, htrace, hmoments⟩ := Recalls.reached_suspended Catalog.step word enableMask
    (.initial word enableMask) events
  refine ⟨moments, htrace, fun past start later future dialogue now v path device fsType he hturn
    hevent hv => ?_⟩
  obtain ⟨h, -, k⟩ := hmoments past start (later ++ future) he
  obtain ⟨i, hi⟩ := Store.exists_instance hv
  rw [← k.enrolled v i hi]
  refine ⟨k.distinct v i hi, Suspended.turns (fun past now future he => ?_) he hturn
    (h.pursues hevent hi) fun hturn hp h hc => hp.next hturn h hc⟩
  obtain ⟨h, hsuspended, -⟩ := hmoments past now future he
  exact ⟨h, hsuspended⟩

end VirtualFs

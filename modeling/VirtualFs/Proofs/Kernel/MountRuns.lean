import VirtualFs.Proofs.Kernel.Mounting

/-!
# Runs on a mount table

A run on one mount table: calls that register and mount, each carried to its end, with whatever the
filesystems answer while they are asked (`conclude`).  Beside the machine runs a ledger that only
looks at the calls and at how they end (`Ledger.after`).

* `Carries.concludes`: what an action is carried to, question by question, its call ends in.
* `MountRun.perform_tracks`: one call keeps machine and ledger together.
* `MountRun.conclude_ends`: no call asks for ever.
* `resolve_after_run`: after every run, resolving a clean path gives what the ledger answers, and
  no run stops with a fault.
-/

namespace VirtualFs

open Mount

/-! ### One call to its end -/

/-- How a call ended: what was asked meanwhile, the result, and the machine then. -/
structure Conclusion where
  asked : List (HookCall × Reply)
  result : Except Error Answer
  machine : Machine

namespace Conclusion

/-- The same end, with a question before the others. -/
def asking (question : HookCall) (reply : Reply) (c : Conclusion) : Conclusion :=
  { c with asked := (question, reply) :: c.asked }

end Conclusion

/-- What a call comes to, with the replies that there are. -/
inductive Ending
  /-- The call has returned. -/
  | ended (c : Conclusion)
  /-- The call or one of the replies makes no sense. -/
  | refused
  /-- There is no reply to a question. -/
  | unanswered

/-- The same, with a question before the others. -/
def Ending.asking (question : HookCall) (reply : Reply) : Ending → Ending
  | ended c => ended (c.asking question reply)
  | refused => refused
  | unanswered => unanswered

namespace Machine

/-- Let an event happen, and answer what is asked with the replies until a call returns. -/
def conclude : List Reply → Machine → Event → Checked Ending
  | replies, m, e => do
    match ← m.step e with
    | (.returned result, m) => return .ended ⟨[], result, m⟩
    | (.refused, _) => return .refused
    | (.asked question, m) =>
      match replies with
      | [] => return .unanswered
      | reply :: replies => return (← conclude replies m (.reply reply)).asking question reply

end Machine

/-- The call is one on the mount table of `v`. -/
def Call.isMounting (v : VfsId) : Call → Bool
  | .register w _ _ _ | .unregister w _ | .registerFilesystem w _ | .mount w _ _ _
  | .unmount w _ => w = v
  | _ => false

/-- What is mounted after a call that ended so: at the segments of its path, a registration adds the
driver that it was called with, and a mount the driver that a filesystem made, each as the record
with the number `fresh`; an unregistration takes its record out, and an unmount what is at its path;
a failure changes nothing. -/
def Mount.Ledger.after (d : Ledger Record) (fresh : Nat) (call : Call) (c : Conclusion) :
    Ledger Record :=
  match call, c.result with
  | .register _ path driver fs, .ok _ => (Path.segments path, ⟨fresh, driver, fs⟩) :: d
  | .unregister _ registration, .ok _ => d.filter fun entry => entry.2 ≠ registration.record
  | .mount _ path _ _, .ok _ =>
    match c.asked.getLast? with
    | some (.mount fs _ _, .mounted driver) =>
      (Path.segments path, ⟨fresh, driver, some fs⟩) :: d
    | _ => d
  | .unmount _ path, .ok _ => d.filter fun entry => entry.1 ≠ Path.segments path
  | _, _ => d

/-! ### Ways to an end -/

namespace Machine

variable {m : Machine} {P : Conclusion → Prop}

/-- However the questions are answered, an event stops with no fault; if a call returns, it ends
like this; and no one is asked for ever. -/
structure Concludes (m : Machine) (e : Event) (P : Conclusion → Prop) : Prop where
  safe : ∀ replies, ∃ ending, conclude replies m e = .ok ending ∧ ∀ c, ending = .ended c → P c
  ends : ∀ replies : Nat → Reply, ∃ n ending,
    conclude ((List.range n).map replies) m e = .ok ending ∧ ending ≠ .unanswered

/-- With calls suspended below it, an action finishes, or it asks and goes on with any reply that
makes sense; after finitely many questions the call ends like this. -/
inductive Carries (cpu : Sync.Cpu LockId) (stack : List Pending) :
    Store → Action Progress → (Conclusion → Prop) → Prop
  | finished {s s' : Store} {act : Action Progress} {result : Except Error Answer}
      {P : Conclusion → Prop} (hy : act.Yields cpu s (.finished result) s')
      (hP : ∀ journal, P ⟨[], result, ⟨⟨s', cpu, journal⟩, stack⟩⟩) : Carries cpu stack s act P
  | waiting {s s' : Store} {act : Action Progress} {question : HookCall} {frame : Frame}
      {P : Conclusion → Prop} (hy : act.Yields cpu s (.waiting question frame cpu) s')
      (hreply : ∀ reply, accepts s' frame reply = true →
        Carries cpu stack s' (Action.resume frame reply) fun c => P (c.asking question reply)) :
      Carries cpu stack s act P

theorem concludes_refused {e : Event} (h : m.step e = .ok (.refused, m)) : m.Concludes e P := by
  have hrefused : ∀ replies, conclude replies m e = .ok .refused := by
    intro replies
    rw [conclude, h]
    rfl
  exact ⟨fun replies => ⟨_, hrefused replies, nofun⟩, fun _ => ⟨0, _, hrefused _, nofun⟩⟩

theorem concludes_returned {e : Event} {result : Except Error Answer} {m' : Machine}
    (h : m.step e = .ok (.returned result, m')) (hP : P ⟨[], result, m'⟩) : m.Concludes e P := by
  have hreturned : ∀ replies, conclude replies m e = .ok (.ended ⟨[], result, m'⟩) := by
    intro replies
    rw [conclude, h]
    rfl
  refine ⟨fun replies => ⟨_, hreturned replies, fun c hc => ?_⟩, fun _ =>
    ⟨0, _, hreturned _, nofun⟩⟩
  cases hc
  exact hP

theorem concludes_asked {e : Event} {question : HookCall} {m' : Machine}
    (h : m.step e = .ok (.asked question, m'))
    (hreply : ∀ reply, m'.Concludes (.reply reply) fun c => P (c.asking question reply)) :
    m.Concludes e P where
  safe replies := by
    cases replies with
    | nil =>
        refine ⟨.unanswered, ?_, nofun⟩
        rw [conclude, h]
        rfl
    | cons reply replies =>
        obtain ⟨ending, hconclude, hP⟩ := (hreply reply).safe replies
        refine ⟨ending.asking question reply, ?_, fun c hc => ?_⟩
        · rw [conclude, h]
          simp only [bind, Except.bind, hconclude]
          rfl
        · cases ending with
          | ended d =>
              cases hc
              exact hP d rfl
          | refused => cases hc
          | unanswered => cases hc
  ends replies := by
    -- the first reply is for this question, the others are for those that come
    obtain ⟨n, ending, hconclude, hends⟩ := (hreply (replies 0)).ends fun i => replies (i + 1)
    refine ⟨n + 1, ending.asking question (replies 0), ?_, ?_⟩
    · rw [List.range_succ_eq_map, List.map_cons, List.map_map, conclude, h]
      simp only [bind, Except.bind]
      rw [show replies ∘ Nat.succ = fun i => replies (i + 1) from rfl, hconclude]
      rfl
    · cases ending with
      | ended d => nofun
      | refused => nofun
      | unanswered => exact absurd rfl hends

/-- **What an action is carried to**, an event concludes in. -/
theorem Carries.concludes {cpu : Sync.Cpu LockId} {stack : List Pending} {s : Store}
    {act : Action Progress} (hc : Carries cpu stack s act P) {e : Event} {kernel : Kernel}
    (h : m.step e = run kernel stack .direct act) (hcpu : kernel.cpu = cpu)
    (hs : kernel.store = s) : m.Concludes e P := by
  induction hc generalizing m e kernel with
  | finished hy hP =>
      subst hcpu hs
      obtain ⟨journal, hrun⟩ := run_direct hy
      exact concludes_returned (h.trans hrun) (hP journal)
  | @waiting s s' act question frame P hy hreply ih =>
      subst hcpu hs
      obtain ⟨journal, hrun⟩ := run_asked .direct hy
      refine concludes_asked (h.trans hrun) fun reply => ?_
      by_cases ha : accepts s' frame reply = true
      · have hstep : step ⟨⟨s', kernel.cpu, journal⟩, ⟨frame, .direct⟩ :: stack⟩ (.reply reply) =
            run ⟨s', kernel.cpu, journal⟩ stack .direct (Action.resume frame reply) := if_pos ha
        exact ih reply ha hstep rfl rfl
      · exact concludes_refused (if_neg ha)

theorem concludes_call {call : Call}
    (hc : Carries m.kernel.cpu m.stack m.kernel.store (Action.perform call) P) :
    m.Concludes (.call call) P := by
  by_cases h : m.admits call = true
  · exact hc.concludes (by rw [step, if_pos h]) rfl rfl
  · exact concludes_refused (by rw [step, if_neg h]; rfl)

end Machine

/-! ### Every call on the mount table -/

namespace Machine

/-- Nothing is suspended, no lock is held, and the mount table is as the ledger says. -/
structure Idle (m : Machine) (d : Ledger Record) : Prop where
  stack : m.stack = []
  unlocked : m.kernel.cpu.held = []
  tracks : m.kernel.store.Tracks 0 d

variable {m : Machine} {d : Ledger Record} {cpu : Sync.Cpu LockId} {s : Store}

/-- An action that finishes with a store tracked by the ledger of the end. -/
theorem carries_finished {act : Action Progress} {s' : Store} {result : Except Error Answer}
    {d' : Conclusion → Ledger Record} (hcpu : cpu.held = [])
    (h : act.Yields cpu s (.finished result) s')
    (ht : ∀ m, s'.Tracks 0 (d' ⟨[], result, m⟩)) :
    Carries cpu [] s act fun c => c.machine.Idle (d' c) :=
  .finished h fun _ => ⟨rfl, hcpu, ht _⟩

theorem concludes_register (i : m.Idle d) (path : Path) (driver : Driver)
    (fs : Option FileSystem) : m.Concludes (.call (.register 0 path driver fs)) fun c =>
      c.machine.Idle (d.after m.kernel.store.nextRecord (.register 0 path driver fs) c) := by
  refine concludes_call ?_
  rw [i.stack, Action.perform]
  have hl := Action.isLocked_of_held i.unlocked (.mounts 0)
  rcases Action.yields_register i.tracks hl path driver fs with
    ⟨e, s', hy, ht⟩ | ⟨node, s', hy, ht⟩
  · exact carries_finished i.unlocked (hy.bind (Action.yields_pure _)) fun _ => ht
  · exact carries_finished i.unlocked (hy.bind (Action.yields_pure _)) fun _ => ht

theorem concludes_unregister (i : m.Idle d) (registration : Registration) :
    m.Concludes (.call (.unregister 0 registration)) fun c =>
      c.machine.Idle (d.after m.kernel.store.nextRecord (.unregister 0 registration) c) := by
  refine concludes_call ?_
  rw [i.stack, Action.perform]
  have hl := Action.isLocked_of_held i.unlocked (.mounts 0)
  rcases Action.yields_unregister i.tracks hl registration with ⟨e, s', hy, ht⟩ | ⟨s', hy, ht⟩
  · exact carries_finished i.unlocked (hy.bind (Action.yields_pure _)) fun _ => ht
  · exact carries_finished i.unlocked (hy.bind (Action.yields_pure _)) fun _ => ht

/-- Asking a filesystem to give up a driver that could not be mounted changes nothing. -/
theorem carries_undoing (hcpu : cpu.held = []) (ht : s.Tracks 0 d) (device : Path) (e : Error)
    (reply : Reply) (d' : Conclusion → Ledger Record)
    (hd : ∀ asked m, d' ⟨asked, .error e, m⟩ = d) :
    Carries cpu [] s (Action.resume (.undoing device e) reply) fun c => c.machine.Idle (d' c) := by
  have hy : ∀ failure, (Action.undone device e failure).Yields cpu s (.failed e) s := by
    intro failure
    cases failure with
    | none => exact Action.yields_pure _
    | some f => exact (Action.yields_note _).bind (Action.yields_pure _)
  cases reply with
  | failed f => exact carries_finished hcpu (hy (some f)) fun _ => (hd _ _).symm ▸ ht
  | _ => exact carries_finished hcpu (hy none) fun _ => (hd _ _).symm ▸ ht

/-- **A filesystem has made a driver**: it is mounted, or its filesystem is to give it up. -/
theorem carries_mountMade (hcpu : cpu.held = []) (ht : s.Tracks 0 d) (path device : Path)
    (fs : FileSystem) (driver : Driver) {d' : Conclusion → Ledger Record}
    (hok : ∀ m, d' ⟨[], .ok .done, m⟩ =
      (Path.segments path, ⟨s.nextRecord, driver, some fs⟩) :: d)
    (herror : ∀ asked e m, d' ⟨asked, .error e, m⟩ = d) :
    Carries cpu [] s (Action.mountMade 0 path device fs driver)
      fun c => c.machine.Idle (d' c) := by
  have hl := Action.isLocked_of_held hcpu (.mounts 0)
  rcases Action.yields_register ht hl path driver (some fs) with
    ⟨e, s', hy, ht⟩ | ⟨node, s', hy, ht⟩
  · refine .waiting (hy.bind (Action.yields_ask _ _)) fun reply _ => ?_
    exact carries_undoing hcpu ht device e reply (fun c => d' (c.asking _ reply))
      fun asked m => herror _ e m
  · refine carries_finished hcpu (hy.bind ((Action.yields_note _).bind (Action.yields_pure _)))
      fun m => ?_
    rw [hok]
    exact ht

theorem Carries.bind {α : Type} {stack : List Pending} {P : Conclusion → Prop} {act : Action α}
    {f : α → Action Progress} {a : α} {s' : Store} (h : act.Yields cpu s a s')
    (hc : Carries cpu stack s' (f a) P) : Carries cpu stack s (act >>= f) P := by
  cases hc with
  | finished hy hP => exact .finished (h.bind hy) hP
  | waiting hy hreply => exact .waiting (h.bind hy) hreply

/-- The ledger of an end follows a mount: a success adds what the filesystem asked last has made. -/
structure FollowsMount (d : Ledger Record) (path : Path) (fresh : Nat)
    (d' : Conclusion → Ledger Record) : Prop where
  ok : ∀ asked fs device driver m, asked.getLast? = some (.mount fs path device, .mounted driver) →
    d' ⟨asked, .ok .done, m⟩ = (Path.segments path, ⟨fresh, driver, some fs⟩) :: d
  error : ∀ asked e m, d' ⟨asked, .error e, m⟩ = d

theorem FollowsMount.asking {path : Path} {fresh : Nat} {d' : Conclusion → Ledger Record}
    (h : FollowsMount d path fresh d') (question : HookCall) (reply : Reply) :
    FollowsMount d path fresh fun c => d' (c.asking question reply) where
  ok asked fs device driver m hlast := by
    refine h.ok _ fs device driver m ?_
    rw [List.getLast?_cons, hlast]
    rfl
  error asked e m := h.error _ e m

/-- **Filesystems are asked** one after the other until one takes the device. -/
theorem carries_probe (hcpu : cpu.held = []) (ht : s.Tracks 0 d) {path : Path} (device : Path)
    (known : List FileSystem) {d' : Conclusion → Ledger Record}
    (hd : FollowsMount d path s.nextRecord d') :
    Carries cpu [] s (Action.probe 0 path device known) fun c => c.machine.Idle (d' c) := by
  induction known generalizing d' with
  | nil =>
      exact carries_finished hcpu (Action.yields_pure _) fun m => by rw [hd.error]; exact ht
  | cons fs rest ih =>
      refine .waiting (Action.yields_ask _ _) fun reply haccepts => ?_
      -- the next filesystem is asked when this one fails
      cases reply with
      | failed e => exact (ih (hd.asking _ _)).bind (Action.yields_note _)
      | mounted driver =>
          exact carries_mountMade hcpu ht path device fs driver
            (fun m => hd.ok _ fs device driver m rfl) fun asked e m => hd.error _ e m
      | _ => cases haccepts

/-- A call that mounts, with one type of filesystem or with the first that takes the device. -/
theorem concludes_mount (i : m.Idle d) (path device : Path) (fsType : Option String) :
    m.Concludes (.call (.mount 0 path device fsType)) fun c =>
      c.machine.Idle (d.after m.kernel.store.nextRecord (.mount 0 path device fsType) c) := by
  refine concludes_call ?_
  rw [i.stack, Action.perform, Action.mount]
  obtain ⟨g, hg, -⟩ := i.tracks.exists_graph
  have hd : FollowsMount d path m.kernel.store.nextRecord
      (d.after m.kernel.store.nextRecord (.mount 0 path device fsType)) :=
    { ok := by
        intro asked fs device driver m hlast
        simp only [Ledger.after, hlast]
      error := fun asked e m => rfl }
  have hknown := Action.yields_filesystems (Action.isLocked_of_held i.unlocked (.filesystems 0)) hg
  refine Carries.bind hknown ?_
  cases fsType with
  | none => exact carries_probe i.unlocked i.tracks device g.filesystems hd
  | some fsType =>
      dsimp only
      cases hfind : g.filesystems.find? (·.fsType = fsType) with
      | none =>
          refine Carries.bind (Action.yields_note _) ?_
          exact carries_finished i.unlocked (Action.yields_pure _) fun _ => i.tracks
      | some fs =>
          refine .waiting (Action.yields_ask _ _) fun reply haccepts => ?_
          cases reply with
          | failed e =>
              exact carries_finished i.unlocked (Action.yields_pure _) fun _ => i.tracks
          | mounted driver =>
              exact carries_mountMade i.unlocked i.tracks path device fs driver
                (fun m => hd.ok _ fs device driver m rfl) fun asked e m => hd.error _ e m
          | _ => cases haccepts

/-- A call that unmounts: where the filesystem does not give its driver up, it is put back. -/
theorem concludes_unmount (i : m.Idle d) (path : Path) :
    m.Concludes (.call (.unmount 0 path)) fun c =>
      c.machine.Idle (d.after m.kernel.store.nextRecord (.unmount 0 path) c) := by
  refine concludes_call ?_
  rw [i.stack, Action.perform, Action.unmount]
  have hl := Action.isLocked_of_held i.unlocked (.mounts 0)
  rcases Action.yields_detach i.tracks hl path with ⟨e, s', hy, ht⟩ | ⟨record, s', hy, missing⟩
  · refine Carries.bind hy ?_
    exact carries_finished i.unlocked (Action.yields_pure _) fun _ => ht
  · refine Carries.bind hy ?_
    dsimp only
    cases record.fs with
    | none =>
        refine Carries.bind (Action.yields_note _) ?_
        exact carries_finished i.unlocked (Action.yields_pure _) fun _ => missing.tracks
    | some fs =>
        refine .waiting (Action.yields_ask _ _) fun reply haccepts => ?_
        cases reply with
        | failed e =>
            obtain ⟨s'', hy', ht⟩ := Action.yields_reattach missing hl
            refine Carries.bind hy' ?_
            exact carries_finished i.unlocked (Action.yields_pure _) fun _ => ht
        | done =>
            refine Carries.bind (Action.yields_note _) ?_
            exact carries_finished i.unlocked (Action.yields_pure _) fun _ => missing.tracks
        | _ => cases haccepts

/-- A new type of filesystem changes nothing that is mounted. -/
theorem concludes_registerFilesystem (i : m.Idle d) (fs : FileSystem) :
    m.Concludes (.call (.registerFilesystem 0 fs)) fun c =>
      c.machine.Idle (d.after m.kernel.store.nextRecord (.registerFilesystem 0 fs) c) := by
  refine concludes_call ?_
  rw [i.stack, Action.perform]
  obtain ⟨j, hj, r, hg⟩ := i.tracks.exists_graph
  rcases Action.yields_registerFilesystem (Action.isLocked_of_held i.unlocked _) hj fs with
    ⟨e, hy⟩ | hy
  · exact carries_finished i.unlocked (hy.bind (Action.yields_pure _)) fun _ => i.tracks
  · obtain ⟨hlt, -⟩ := Array.getElem?_eq_some_iff.mp hj
    exact carries_finished i.unlocked (hy.bind (Action.yields_pure _)) fun _ =>
      ⟨⟨_, Array.getElem?_setIfInBounds_self_of_lt hlt, r, hg⟩, i.tracks.fresh, i.tracks.keys,
        i.tracks.once⟩

/-- **Every call on the mount table**, once ended, leaves it as the ledger says. -/
theorem Idle.concludes (i : m.Idle d) {call : Call} (h : call.isMounting 0 = true) :
    m.Concludes (.call call) fun c =>
      c.machine.Idle (d.after m.kernel.store.nextRecord call c) := by
  cases call <;> simp only [Call.isMounting, decide_eq_true_eq, Bool.false_eq_true] at h <;> subst h
  case register path driver fs => exact concludes_register i path driver fs
  case unregister registration => exact concludes_unregister i registration
  case registerFilesystem fs => exact concludes_registerFilesystem i fs
  case mount path device fsType => exact concludes_mount i path device fsType
  case unmount path => exact concludes_unmount i path

end Machine

/-! ### Runs -/

/-- A machine whose first file system is the one under test, and what its ledger lists. -/
structure MountRun where
  machine : Machine
  ledger : Ledger Record

namespace MountRun

/-- A file system with room for `limit` mount nodes. -/
def start (word enableMask : Sync.Word) (limit : Nat) : Checked MountRun := do
  let (_, m) ← (Machine.initial word enableMask).step (.call (.createVfs limit))
  return ⟨m, []⟩

/-- One call on the mount table, with the replies to what it asks. -/
def perform (s : MountRun) (call : Call) (replies : List Reply) : Checked (Option MountRun) :=
  if call.isMounting 0 then do
    match ← Machine.conclude replies s.machine (.call call) with
    | .ended c => return some ⟨c.machine, s.ledger.after s.machine.kernel.store.nextRecord call c⟩
    | .refused | .unanswered => return none
  else return none

/-- Calls one after the other; a run in which one of them does not come to its end has none. -/
def run (s : MountRun) : List (Call × List Reply) → Checked (Option MountRun)
  | [] => return some s
  | (call, replies) :: rest => do
    match ← s.perform call replies with
    | none => return none
    | some s => s.run rest

/-- Nothing is suspended, and the mount table is as the ledger lists it. -/
def Tracks (s : MountRun) : Prop := s.machine.Idle s.ledger

theorem start_tracks (word enableMask : Sync.Word) (limit : Nat) :
    ∃ s, start word enableMask limit = .ok s ∧ s.Tracks := by
  refine ⟨_, rfl, rfl, rfl, ⟨_, rfl, Graph.regular_withLimit limit,
    Graph.represents_withLimit limit⟩, ?_, ?_, ?_⟩
  · simp
  · exact .nil
  · simp

theorem perform_tracks {s : MountRun} (t : s.Tracks) (call : Call) (replies : List Reply) :
    ∃ s', s.perform call replies = .ok s' ∧ ∀ u, s' = some u → u.Tracks := by
  rw [perform]
  by_cases h : call.isMounting 0 = true
  · obtain ⟨ending, hconclude, hc⟩ := (t.concludes h).safe replies
    rw [if_pos h, hconclude]
    cases ending with
    | ended c =>
        refine ⟨_, rfl, fun u hu => ?_⟩
        cases hu
        exact hc c rfl
    | refused => exact ⟨none, rfl, nofun⟩
    | unanswered => exact ⟨none, rfl, nofun⟩
  · exact ⟨none, by rw [if_neg h]; rfl, by simp⟩

/-- **No filesystem is asked for ever**: whatever the replies are, finitely many of them are enough
for a call to return or to be refused. -/
theorem conclude_ends {s : MountRun} (t : s.Tracks) {call : Call} (h : call.isMounting 0 = true)
    (replies : Nat → Reply) : ∃ n ending,
      Machine.conclude ((List.range n).map replies) s.machine (.call call) = .ok ending ∧
      ending ≠ .unanswered :=
  (t.concludes h).ends replies

theorem run_tracks {s : MountRun} (t : s.Tracks) (script : List (Call × List Reply)) :
    ∃ s', s.run script = .ok s' ∧ ∀ u, s' = some u → u.Tracks := by
  induction script generalizing s with
  | nil => exact ⟨some s, rfl, fun u hu => by cases hu; exact t⟩
  | cons first rest ih =>
      obtain ⟨call, replies⟩ := first
      obtain ⟨s', hperform, ht⟩ := perform_tracks t call replies
      cases s' with
      | none => exact ⟨none, by rw [run, hperform]; rfl, by simp⟩
      | some next =>
          obtain ⟨s'', hrun, ht⟩ := ih (ht next rfl)
          exact ⟨s'', by rw [run, hperform]; exact hrun, ht⟩

end MountRun

/-- **Resolving after a run**: whatever was registered, mounted and unmounted, and whatever the
filesystems answered, a clean path that is empty or absolute is served as the ledger says. -/
theorem resolve_after_run (word enableMask : Sync.Word) (limit : Nat)
    (script : List (Call × List Reply)) :
    ∃ final, (do (← MountRun.start word enableMask limit).run script) = .ok final ∧
      ∀ s, final = some s → (s.ledger.map Prod.fst).Nodup ∧
        ∀ path, Path.isAbsolute (Path.clean path) = true →
          ∃ m, s.machine.step (.call (.query (.resolve 0 (Path.clean path)))) =
            .ok (.returned ((s.ledger.answer (Path.segments path)).map .resolved), m) := by
  obtain ⟨s, hstart, ht⟩ := MountRun.start_tracks word enableMask limit
  obtain ⟨final, hrun, hfinal⟩ := MountRun.run_tracks ht script
  refine ⟨final, by rw [hstart]; exact hrun, fun u hu => ?_⟩
  have t := hfinal u hu
  refine ⟨t.tracks.keys, fun path hpath => ?_⟩
  obtain ⟨i, hi, r, hg⟩ := t.tracks.exists_graph
  have hresolve : i.graph.resolve (Path.clean path) = u.ledger.answer (Path.segments path) := by
    rw [Path.clean_eq_ofSegments hpath]
    exact Graph.resolve_eq_answer r hg fun _ hs => Path.mem_segments hs
  have hadmits : u.machine.admits (.query (.resolve 0 (Path.clean path))) = true := by
    obtain ⟨hlt, -⟩ := Array.getElem?_eq_some_iff.mp hi
    exact decide_eq_true hlt
  have hy : (Action.onGraph 0 fun g => pure (g.resolve (Path.clean path))).Yields
      u.machine.kernel.cpu u.machine.kernel.store (u.ledger.answer (Path.segments path))
      u.machine.kernel.store :=
    Action.yields_onGraph (Action.isLocked_of_held t.unlocked _) hi (by rw [hresolve]; rfl)
  have hquery : (Action.perform (.query (.resolve 0 (Path.clean path)))).Yields
      u.machine.kernel.cpu u.machine.kernel.store
      (.finished ((u.ledger.answer (Path.segments path)).map .resolved))
      u.machine.kernel.store := by
    refine Action.Yields.bind (a := (u.ledger.answer (Path.segments path)).map .resolved) ?_
      (Action.yields_pure _)
    exact hy.bind (Action.yields_pure _)
  obtain ⟨journal, hrun⟩ := Machine.run_direct hquery
  exact ⟨_, by rw [Machine.step, if_pos hadmits]; exact hrun⟩

/-- A driver at `/dev`, and one at `/dev/sd` that the second filesystem makes, serve by whole
segments: `/dev/sda` is with the first. -/
example : (do
    let some s ← (← MountRun.start 0 0 4).run [
        (.register 0 "/dev".toList (.external ⟨0, "dev"⟩) none, []),
        (.registerFilesystem 0 ⟨0, "ext2"⟩, []),
        (.registerFilesystem 0 ⟨1, "fat"⟩, []),
        (.mount 0 "/dev/sd".toList "/disk".toList none,
          [.failed .invalidArgument, .mounted (.external ⟨1, "fat"⟩)]),
        (.unmount 0 "/dev/sda".toList, [])] | return none
    return some (← s.machine.step (.call (.query (.resolve 0 "/dev/sda".toList)))).1) =
    .ok (some (.returned (.ok (.resolved (.driver ⟨1, .external ⟨0, "dev"⟩, none⟩ 5))))) := by
  cbv

end VirtualFs

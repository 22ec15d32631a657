import Mathlib.Tactic.Common
import VirtualFs.Kernel.Machine

/-!
# What an action comes to

`act.Yields cpu s a s'` says that the action, run on the store `s`, stops with no fault, answers
`a`, leaves the store `s'`, and leaves the locks and the interrupt word as it found them.  What it
reports is left open: no action looks at the journal.

* `Section.bind_eq`, `Yields.bind`: one section or action after the other.
* `yields_locked`, `yields_holding`: a lock that is free is taken and released again.
* `Machine.run_asked`, `Machine.run_returned`: what a step of the machine makes of it.
-/

namespace VirtualFs

/-! ### Sections -/

namespace Section

variable {α β : Type} {s s' s'' : Store} {a : α} {b : β}

/-- One section after another. -/
theorem bind_eq {sec : Section α} {f : α → Section β} (h : sec s = .ok (a, s'))
    (h' : f a s' = .ok (b, s'')) : (sec >>= f) s = .ok (b, s'') := by
  show (sec s >>= fun p => f p.1 p.2) = _
  rw [h]
  exact h'

/-- A computation that may stop, and does not. -/
theorem lift_eq {c : Checked α} (h : c = .ok a) (s : Store) :
    (liftM c : Section α) s = .ok (a, s) := by
  rw [h]
  rfl

theorem orUnknown_eq {o : Option α} (h : o = some a) (s : Store) : orUnknown o s = .ok (a, s) := by
  rw [h]
  rfl

theorem getVfs_eq {v : VfsId} {i : Instance} (hi : s.instances[v]? = some i) :
    getVfs v s = .ok (i, s) :=
  bind_eq rfl (orUnknown_eq hi s)

end Section

/-! ### Actions -/

namespace Action

variable {α β : Type} {act : Action α} {cpu : Sync.Cpu LockId} {s s' s'' : Store} {a : α}

/-- From the store `s` the action goes on to the answer `a` and the store `s'`. -/
def Yields (act : Action α) (cpu : Sync.Cpu LockId) (s : Store) (a : α) (s' : Store) : Prop :=
  ∀ journal, ∃ journal', act ⟨s, cpu, journal⟩ = .ok (a, ⟨s', cpu, journal'⟩)

theorem yields_pure (a : α) : (pure a : Action α).Yields cpu s a s :=
  fun journal => ⟨journal, rfl⟩

theorem Yields.bind {f : α → Action β} {b : β} (h : act.Yields cpu s a s')
    (h' : (f a).Yields cpu s' b s'') : (act >>= f).Yields cpu s b s'' := by
  intro journal
  obtain ⟨journal', h⟩ := h journal
  obtain ⟨journal'', h'⟩ := h' journal'
  refine ⟨journal'', ?_⟩
  show (act _ >>= fun p => f p.1 p.2) = _
  rw [h]
  exact h'

theorem yields_ask (question : HookCall) (frame : Frame) :
    (ask question frame).Yields cpu s (.waiting question frame cpu) s :=
  fun journal => ⟨journal, rfl⟩

theorem yields_note (n : Notice) : (note n).Yields cpu s () s :=
  fun journal => ⟨journal ++ [n], rfl⟩

theorem yields_noteChanges (changes : List Mount.Change) :
    (noteChanges changes).Yields cpu s () s :=
  fun journal => ⟨journal ++ changes.map .changed, rfl⟩

theorem yields_unlocked {sec : Section α} (h : sec s = .ok (a, s')) :
    (unlocked sec).Yields cpu s a s' := by
  refine fun journal => ⟨journal, ?_⟩
  show (sec s >>= fun p => _) = _
  rw [h]
  rfl

/-! ### Locks -/

theorem lock?_of_free {l : LockId} (h : cpu.isLocked l = false) :
    cpu.lock? l = some (cpu.acquire l) := by
  rw [Sync.Cpu.lock?, if_neg (by rw [h]; exact Bool.false_ne_true)]

/-- With no lock held, every lock is free. -/
theorem isLocked_of_held (h : cpu.held = []) (l : LockId) : cpu.isLocked l = false := by
  rw [Sync.Cpu.isLocked, Sync.Cpu.savedBy, h]
  rfl

/-- While one lock is held, the others are as free as before. -/
theorem isLocked_acquire {l l' : LockId} (h : cpu.isLocked l' = false) (hne : l' ≠ l) :
    (cpu.acquire l).isLocked l' = false := by
  rw [Sync.Cpu.isLocked, Sync.Cpu.savedBy_acquire, if_neg hne]
  exact h

/-- **A section under a free lock** does what it does without, and changes nothing else. -/
theorem locked_eq {l : LockId} {k : Kernel} (hl : k.cpu.isLocked l = false) {sec : Section α}
    (h : sec k.store = .ok (a, s')) : locked l sec k = .ok (a, { k with store := s' }) := by
  simp only [locked, lock?_of_free hl, h, bind, Except.bind, pure, Except.pure,
    Sync.Cpu.release_acquire]

theorem yields_locked {l : LockId} (hl : cpu.isLocked l = false) {sec : Section α}
    (h : sec s = .ok (a, s')) : (locked l sec).Yields cpu s a s' :=
  fun journal => ⟨journal, locked_eq hl h⟩

/-- **An action under a free lock** finds it held. -/
theorem yields_holding {l : LockId} (hl : cpu.isLocked l = false)
    (h : act.Yields (cpu.acquire l) s a s') : (holding l act).Yields cpu s a s' := by
  intro journal
  obtain ⟨journal', h⟩ := h journal
  refine ⟨journal', ?_⟩
  simp only [holding, lock?_of_free hl, h, bind, Except.bind, pure, Except.pure,
    Sync.Cpu.release_acquire]

end Action

/-- What a process gets changes nothing. -/
theorem Process.yields_deliver (cpu : Sync.Cpu LockId) (s : Store) (op : ProcessOp)
    (result : Except Error Answer) :
    ∃ answer, (Process.deliver op result).Yields cpu s answer s := by
  rw [Process.deliver]
  cases result.bind Process.returned with
  | ok answer => exact ⟨answer, Action.yields_pure answer⟩
  | error e => exact ⟨_, (Action.yields_note _).bind (Action.yields_pure _)⟩

/-! ### Steps of the machine -/

namespace Machine

variable {kernel : Kernel} {stack : List Pending} {act : Action Progress} {s' : Store}

/-- A question suspends the call, with the processor that it was put with. -/
theorem run_asked {question : HookCall} {frame : Frame} {cpu : Sync.Cpu LockId} (origin : Origin)
    (h : act.Yields kernel.cpu kernel.store (.waiting question frame cpu) s') :
    ∃ journal, run kernel stack origin act =
      .ok (.asked question, ⟨⟨s', cpu, journal⟩, ⟨frame, origin⟩ :: stack⟩) := by
  obtain ⟨journal, h⟩ := h kernel.journal
  refine ⟨journal, ?_⟩
  rw [run, show kernel = ⟨kernel.store, kernel.cpu, kernel.journal⟩ from rfl, h]
  rfl

/-- A result is returned as it is, or as a number to a process. -/
theorem run_returned {result : Except Error Answer} (origin : Origin)
    (h : act.Yields kernel.cpu kernel.store (.finished result) s') :
    ∃ journal result', run kernel stack origin act =
      .ok (.returned result', ⟨⟨s', kernel.cpu, journal⟩, stack⟩) := by
  obtain ⟨journal, h⟩ := h kernel.journal
  rw [run, show kernel = ⟨kernel.store, kernel.cpu, kernel.journal⟩ from rfl, h]
  cases origin with
  | direct => exact ⟨journal, result, rfl⟩
  | process op =>
      obtain ⟨answer, hd⟩ := Process.yields_deliver kernel.cpu s' op result
      obtain ⟨journal', hd⟩ := hd journal
      refine ⟨journal', .ok answer, ?_⟩
      simp only [bind, Except.bind, hd]
      rfl

/-- A call from outside gets its result as it is. -/
theorem run_direct {result : Except Error Answer}
    (h : act.Yields kernel.cpu kernel.store (.finished result) s') :
    ∃ journal, run kernel stack .direct act =
      .ok (.returned result, ⟨⟨s', kernel.cpu, journal⟩, stack⟩) := by
  obtain ⟨journal, h⟩ := h kernel.journal
  refine ⟨journal, ?_⟩
  rw [run, show kernel = ⟨kernel.store, kernel.cpu, kernel.journal⟩ from rfl, h]
  rfl

end Machine

end VirtualFs

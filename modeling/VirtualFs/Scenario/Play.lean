import VirtualFs.Scenario.Log
import VirtualFs.Scenario.Session

/-!
# Playing a scenario

Steps are run one after the other.  While a step runs, the machine asks the stand-ins; a stand-in
first runs the next script for its hook, whose steps are run in the same way, and then replies.  A
table that nothing holds any more is let go of at once, and the hooks that this calls belong to
the step that was the last to hold it.

The first argument of the functions that call each other bounds how deep they do; `budget` is
enough for every list of steps, since every script is run at most as often as it was queued.
-/

namespace VirtualFs.Scenario

mutual

/-- How many steps a step can lead to, counting the steps of its script as often as they may run. -/
def Step.weight : Step → Nat
  | .script _ _ steps _ times => 1 + times * (1 + weights steps)
  | _ => 1

/-- The same for a list of steps. -/
def Step.weights : List Step → Nat
  | [] => 0
  | step :: rest => step.weight + Step.weights rest

end

namespace Session

/-- Nothing holds the table. -/
def isFree (s : Session) (t : TableId) : Bool :=
  t != Store.kernelTable && s.ops.current != some t && ! s.held.contains t &&
    ! s.tables.any (·.2 = t)

mutual

/-- Run a step. -/
def runStep : Nat → Step → Playing StepReport
  | 0, _ => throw .boundExceeded
  | fuel + 1, step => do
    let outer := (← get).calls
    modify fun s => { s with calls := [] }
    let (result, holds) ← match ← plan step with
      | .answer result => pure (result, [])
      | .release released next => do
        releaseAll fuel released
        pure (← next, [])
      | .event event holds next => do
        modify fun s => { s with held := holds ++ s.held }
        let finish ← next (← settle fuel (← stepMachine event))
        releaseAll fuel finish.released
        pure (finish.result, holds)
      | .question question holds next => do
        modify fun s => { s with held := holds ++ s.held }
        let finish ← next (← reply fuel question)
        releaseAll fuel finish.released
        pure (finish.result, holds)
    modify fun s => { s with held := holds.foldl List.erase s.held }
    releaseAll fuel holds
    let calls := (← get).calls
    modify fun s => { s with calls := outer }
    return .mk result calls

/-- Run steps one after the other. -/
def runSteps : Nat → List Step → Playing (List StepReport)
  | _, [] => return []
  | 0, _ :: _ => throw .boundExceeded
  | fuel + 1, step :: rest => do
    let report ← runStep fuel step
    return report :: (← runSteps fuel rest)

/-- Reply to the questions of the machine until the call returns. -/
def settle : Nat → Outcome → Playing (Except Error Answer)
  | _, .returned result => return result
  | _, .refused => throw .unknownObject
  | 0, .asked _ => throw .boundExceeded
  | fuel + 1, .asked question => do
    let r ← reply fuel question
    settle fuel (← stepMachine (.reply r))

/-- Reply to a question: run the next script for the hook, and then give its result, or do what the
stand-in does. -/
def reply : Nat → HookCall → Playing Reply
  | 0, _ => throw .boundExceeded
  | fuel + 1, question => do
    match (← get).shownAs question with
    | none => perform question
    | some on =>
      let hook := Hook.of question
      match takeScript on hook (← get).scripts with
      | none =>
        modify fun s => { s with calls := s.calls ++ [.mk on question []] }
        perform question
      | some (script, rest) =>
        modify fun s => { s with scripts := rest }
        let reports ← runSteps fuel script.steps
        modify fun s => { s with calls := s.calls ++ [.mk on question reports] }
        match script.result.bind (·.reply? hook) with
        | some reply => return reply
        | none => perform question

/-- Let go of the tables of a list that nothing holds. -/
def releaseAll : Nat → List TableId → Playing Unit
  | _, [] => return
  | 0, _ :: _ => throw .boundExceeded
  | fuel + 1, t :: rest => do
    if (← get).isFree t then
      let _ ← settle fuel (← stepMachine (.call (.dropTable t)))
    releaseAll fuel rest

end

/-- A depth that playing the steps does not exceed. -/
def budget (steps : List Step) : Nat :=
  let depth := 4 * Step.weights steps + 64
  depth * depth

end Session

/-- What a scenario begins with. -/
structure Setting where
  /-- The node limit of each file system. -/
  limits : List (Option Nat)
  /-- The name of the kernel's table, if it has one. -/
  kernelName : Option String
  showsNodes : Bool
deriving DecidableEq, Repr

/-- What is shown of a step at the top: its report and the notices that it and its scripts gave. -/
structure TopReport where
  report : StepReport
  notices : List Notice

namespace Session

/-- A session without file systems. -/
def empty (setting : Setting) : Session :=
  { machine := .initial 1 1
    mocks := ⟨#[], #[]⟩
    drivers := []
    filesystems := #[]
    filesystemNames := []
    scripts := []
    registrations := []
    kernelName := setting.kernelName
    tables := []
    ops := ⟨none, Limits.defaultMaxFds⟩
    held := []
    calls := []
    showsNodes := setting.showsNodes }

/-- Make file systems with node limits. -/
def addFileSystems : List (Option Nat) → Playing Unit
  | [] => return
  | limit :: rest => do
    let _ ← stepMachine (.call (.createVfs (limit.getD Limits.unboundedNodes)))
    addFileSystems rest

/-- Take the notices out of the journal, without those that mark a node where no number shows. -/
def takeNotices : Playing (List Notice) := do
  let s ← get
  let kernel := s.machine.kernel
  set { s with machine := { s.machine with kernel := { kernel with journal := [] } } }
  return if s.showsNodes then kernel.journal else kernel.journal.filter (! marksNode ·)

/-- Run steps at the top: what is shown of each, and the session they leave or the fault that
stopped them. -/
def runTop (fuel : Nat) (s : Session) : List Step → List TopReport × Except Fault Session
  | [] => ([], .ok s)
  | step :: rest =>
    match (do return TopReport.mk (← runStep fuel step) (← takeNotices) : Playing TopReport) s with
    | .error fault => ([], .error fault)
    | .ok (report, s) =>
      let (reports, result) := runTop fuel s rest
      (report :: reports, result)

end Session

/-- The last process ends: its table, if nothing else holds it, is let go of. -/
def Session.endProcess (fuel : Nat) : Playing Unit := do
  let last := (← get).ops.current
  modify fun s => { s with ops := { s.ops with current := none } }
  releaseAll fuel last.toList

/-- Play a scenario: what is shown of each step, and the session that is left at the end or the
fault that stopped it. -/
def play (setting : Setting) (steps : List Step) : List TopReport × Except Fault Session :=
  let fuel := Session.budget steps
  match Session.addFileSystems setting.limits (Session.empty setting) with
  | .error fault => ([], .error fault)
  | .ok ((), s) =>
    let (reports, result) := s.runTop fuel steps
    (reports, do
      let s ← result
      let ((), s) ← Session.endProcess fuel s
      return s)

end VirtualFs.Scenario

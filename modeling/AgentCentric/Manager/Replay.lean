import AgentCentric.Manager.Contract
import Mathlib.Data.List.Infix

namespace AgentCentric.Manager

def startsWith (text start : String) : Bool := start.toList.isPrefixOf text.toList

def includes (text part : String) : Bool := text.toList.tails.any (part.toList.isPrefixOf ·)

structure Trajectory where
  taskId : String
  agentName : String
  steps : List (StepRecord Json)

/-- Step indices are contiguous from `expected` on. -/
def checkIndices : Nat → List (StepRecord Json) → Except String Unit
  | _, [] => .ok ()
  | expected, step :: steps =>
    if step.stepIndex ≠ expected then
      .error ("Trajectory step index out of order: expected " ++ toString expected ++ ", got " ++
        toString step.stepIndex ++ ".")
    else checkIndices (expected + 1) steps

def StoredTrajectory.toTrajectory (stored : StoredTrajectory Json) : Except String Trajectory := do
  checkIndices 0 stored.steps
  .ok ⟨stored.taskId,stored.agentName,stored.steps⟩

def boundaryPrefixes : List String :=
  ["pipeline stage ","parallel group begin","parallel stage ","parallel group end"]

namespace StepRecord

def signature (step : StepRecord Json) : String × String := (step.status.value,step.description)

def isBoundary (step : StepRecord Json) : Bool :=
  boundaryPrefixes.any (startsWith step.description)

end StepRecord

def isParallel (steps : List (StepRecord Json)) : Bool :=
  steps.any fun s =>
    startsWith s.description "parallel stage " || s.description = "parallel group begin"

def boundaries (steps : List (StepRecord Json)) : List (String × String) :=
  (steps.filter (·.isBoundary)).map (·.signature)

def work (steps : List (StepRecord Json)) : List (String × String) :=
  (steps.filter (!·.isBoundary)).map (·.signature)

def stepsEquivalent (original replayed : Trajectory) : Bool :=
  if isParallel original.steps || isParallel replayed.steps then
    if boundaries original.steps ≠ boundaries replayed.steps then false
    else (work original.steps).isPerm (work replayed.steps)
  else original.steps.map (·.signature) = replayed.steps.map (·.signature)

def labels (step : StepRecord Json) : List String :=
  if startsWith step.description "pipeline stage " || startsWith step.description "parallel stage " then
    match step.input with
    | .dict items =>
      match Dict.lookup items "agent" with
      | some (.str agent) => [agent]
      | _ => []
    | _ => []
  else if step.description = "parallel group begin" then
    match step.input with
    | .dict items =>
      match Dict.lookup items "stages" with
      | some (.list stages) => stages.filterMap fun stage =>
          match stage with
          | .str agent => some agent
          | _ => none
      | _ => []
    | _ => []
  else []

def addLabel (seen : List String) (agent : String) : List String :=
  if agent ∈ seen then seen else seen ++ [agent]

def composeAgents (trajectory : Trajectory) : List String :=
  let named := (trajectory.steps.flatMap labels).foldl addLabel []
  if named ≠ [] then named else [trajectory.agentName]

def agentsEquivalent (original replayed : Trajectory) : Bool :=
  composeAgents original = composeAgents replayed

structure Counts where
  requests : Nat
  succeeded : Nat
  failed : Nat
  rejected : Nat
  deriving DecidableEq

def isRequest (description : String) : Bool :=
  startsWith description "tool '" && includes description " request"

def toolName (description : String) : Except String String :=
  let quote := Char.ofNat 39
  match description.toList.dropWhile (· ≠ quote) with
  | [] => .error "substring not found"
  | _ :: rest =>
    if quote ∈ rest then .ok (String.ofList (rest.takeWhile (· ≠ quote)))
    else .error "substring not found"

def isResult (tool : String) (step : StepRecord Json) : Bool :=
  startsWith step.description ("tool '" ++ tool ++ "' result") ||
    step.description = "model call failed"

def pairedResult (steps : List (StepRecord Json)) (request : StepRecord Json) (tool : String) :
    Option (StepRecord Json) :=
  steps.find? fun other => decide (request.stepIndex < other.stepIndex) && isResult tool other

def countRequest (request : StepRecord Json) (paired : Option (StepRecord Json)) (c : Counts) :
    Counts :=
  let c := { c with requests := c.requests + 1 }
  if request.status = .rejected then { c with rejected := c.rejected + 1 }
  else
    match paired with
    | none => c
    | some result =>
      if result.status = .failed then { c with failed := c.failed + 1 }
      else { c with succeeded := c.succeeded + 1 }

def countStep (steps : List (StepRecord Json)) (counts : Dict String Counts)
    (step : StepRecord Json) : Except String (Dict String Counts) :=
  if isRequest step.description then do
    let tool ← toolName step.description
    let c := (counts.get tool).getD ⟨0,0,0,0⟩
    .ok (counts.set tool (countRequest step (pairedResult steps step tool) c))
  else .ok counts

def byName (a b : String × Counts) : Bool := a.1 ≤ b.1

/-- What was requested, succeeded, failed and was rejected, for each tool. -/
def toolPattern (trajectory : Trajectory) : Except String (List (String × Counts)) := do
  let counts ← trajectory.steps.foldlM (countStep trajectory.steps) Dict.empty
  .ok (counts.entries.insertionSort (byName · ·))

inductive ReplayDiff where
  | outcome (original replayed : OutcomeKind)
  | failureReason (original replayed : Option String)
  | output (original replayed : Json)
  | steps (original replayed : Nat)
  | agents (original replayed : List String)
  | tools (original replayed : List (String × Counts))

def ReplayDiff.field : ReplayDiff → String
  | .outcome _ _ => "outcome"
  | .failureReason _ _ => "failure_reason"
  | .output _ _ => "output"
  | .steps _ _ => "steps"
  | .agents _ _ => "agents"
  | .tools _ _ => "tools"

structure ReplayResult where
  passed : Bool
  originalTrajectoryId : String
  replayedTrajectoryId : String
  diffs : List ReplayDiff
  message : String

def diffIf (differs : Bool) (diff : ReplayDiff) : List ReplayDiff := if differs then [diff] else []

def outcomeDiffs (original replayed : StoredOutcome Json) : List ReplayDiff :=
  diffIf (original.kind ≠ replayed.kind) (.outcome original.kind replayed.kind) ++
  diffIf (original.kind = .failure && original.reason ≠ replayed.reason)
    (.failureReason original.reason replayed.reason) ++
  diffIf (original.kind = .verified && !original.output.pyEq replayed.output)
    (.output original.output replayed.output)

/-- `_verify_against_stored`. -/
def verifyReplay (original replayed : StoredTrajectory Json) : Except String ReplayResult :=
  if original.outcome.kind = .interrupted then
    .ok ⟨false,original.trajectoryId,replayed.trajectoryId,
      [.outcome .interrupted replayed.outcome.kind],
      "The stored trajectory is interrupted and cannot be replayed as equivalent; replay requires " ++
        "a deterministic configuration."⟩
  else do
    let left ← original.toTrajectory
    let right ← replayed.toTrajectory
    let leftTools ← toolPattern left
    let rightTools ← toolPattern right
    let diffs := outcomeDiffs original.outcome replayed.outcome ++
      diffIf (!stepsEquivalent left right) (.steps left.steps.length right.steps.length) ++
      diffIf (!agentsEquivalent left right) (.agents (composeAgents left) (composeAgents right)) ++
      diffIf (leftTools ≠ rightTools) (.tools leftTools rightTools)
    .ok ⟨diffs.isEmpty,original.trajectoryId,replayed.trajectoryId,diffs,
      if diffs.isEmpty then "Replay is equivalent to the stored trajectory."
      else "Replay diverged in " ++ toString diffs.length ++ " correctness-relevant aspect(s)."⟩

inductive WorkerStep where
  | step (description : String) (detail : Json) (elapsedSeconds : Decimal)
  | rejected (tool : String) (args : Json)
  | request (tool : String) (args : Json)
  | result (tool : String) (output : Json)
  | executionFailed (tool : String) (error : String)
  | cancelled (message : String)
  | forced

def WorkerStep.record : WorkerStep → StepRecord Json
  | .step description detail elapsedSeconds =>
    ⟨0,.completed,description,.null,detail,none,elapsedSeconds⟩
  | .rejected tool args =>
    ⟨0,.rejected,"tool " ++ pyRepr tool ++ " request rejected",
      .dict [("tool",.str tool),("args",args)],.null,some "tool not granted to this agent",zeroSeconds⟩
  | .request tool args =>
    ⟨0,.completed,"tool " ++ pyRepr tool ++ " request",.dict [("tool",.str tool),("args",args)],.null,
      none,zeroSeconds⟩
  | .result tool output =>
    ⟨0,.completed,"tool " ++ pyRepr tool ++ " result",.null,output,none,zeroSeconds⟩
  | .executionFailed tool error =>
    ⟨0,.failed,"tool " ++ pyRepr tool ++ " execution failed",.null,.null,some error,zeroSeconds⟩
  | .cancelled message => ⟨0,.cancelled,"agent cancelled",.null,.null,some message,zeroSeconds⟩
  | .forced =>
    ⟨0,.cancelled,"agent forcibly terminated",.null,.null,
      some "child ignored cooperative cancellation; killed as last resort",zeroSeconds⟩

def numberFrom : Nat → List (StepRecord Json) → List (StepRecord Json)
  | _, [] => []
  | n, step :: steps => { step with stepIndex := n } :: numberFrom (n + 1) steps

/-- A run with a parallel group: what was recorded up to the last begin marker, the log of each
stage worker, and what was recorded from the end marker on. -/
structure Composition where
  taskId : String
  agentName : String
  before : List (StepRecord Json)
  workers : List (List WorkerStep)
  after : List (StepRecord Json)
  marked : before.any (·.description = "parallel group begin") = true

/-- The trajectory, with the workers' steps in the order `s`. -/
def Composition.stored (c : Composition) (s : List WorkerStep) (trajectoryId : String)
    (outcome : StoredOutcome Json) : StoredTrajectory Json :=
  ⟨trajectoryId,c.taskId,c.agentName,numberFrom 0 (c.before ++ s.map WorkerStep.record ++ c.after),outcome⟩

end AgentCentric.Manager

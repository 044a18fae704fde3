import AgentCentric.Library.Thread
import AgentCentric.Manager.Contract

namespace AgentCentric.Manager

/-- An exception. `except Exception` passes over one that is not `ordinary`. -/
structure Raised where
  ordinary : Bool
  text : String

structure ToolResult where
  success : Bool
  output : Value
  error : Option String

/-- What an agent yields or returns. -/
inductive Item where
  | result : Value → Item
  | step : String → Value → Item
  | request : String → List (String × Value) → Item
  | unsupported : Item

/-- What `next_step` does. -/
inductive NextStep where
  | item : Item → NextStep
  | subprocessTimeout : String → NextStep
  | agentExecution : String → NextStep
  | raised : Raised → NextStep

inductive Executed where
  | output : Value → Executed
  | toolExecution : String → Executed
  | raised : Raised → Executed

/-- How a store takes a record. It refuses one with a `TrajectoryStoreError`. -/
inductive Taking where
  | stored : Taking
  | refused : String → Taking
  | raised : Raised → Taking

structure VerificationResult where
  passed : Bool
  message : String

/-- The clock, the sessions of agents, the tools, the gate, the store and the scheduler. `W` is
whatever they depend on and change. -/
structure Host (W S : Type) where
  monotonic : W → Decimal × W
  minus : Decimal → Decimal → Decimal
  session : AgentComponentManifest → Value → Nat → List String → Decimal → W →
    Except Raised S × W
  nextStep : S → Option ToolResult → W → NextStep × W
  cancel : S → String → W → W
  close : S → W → W
  forced : S → W → Bool
  /-- Whether the tool registry has a descriptor. -/
  describes : String → Bool
  execute : String → List (String × Value) → W → Executed × W
  verify : String → Value → Value → Except Raised VerificationResult
  begin : W → Taking × W
  append : StepRecord Value → W → Taking × W
  record : StoredOutcome Value → W → Taking × W
  /-- The order in which the workers of the group at a stage run. -/
  picks : Nat → List (Option Nat)

structure Seat where
  stage : Nat
  branch : Option Nat
  deriving DecidableEq

/-- Where an exception goes: to the future of a worker, to the handler of the loop that drives an
agent, or to the caller of the Manager. -/
inductive Place where
  | worker | handler | caller
  deriving DecidableEq

inductive Ending where
  | succeeded | failed | raised
  deriving DecidableEq

inductive Event where
  /-- An agent is asked for a session, on a payload and with the tools granted. -/
  | started : Seat → String → Value → List String → Event
  /-- The head of the loop, and whether the cancel event was set. -/
  | boundary : Seat → Bool → Event
  | stepped : Seat → Event
  | executed : Seat → String → Event
  /-- The joiner takes the result of a worker. -/
  | taken : Seat → Ending → Event
  /-- A step that the store did not take. -/
  | lost : Event
  | raised : Place → Raised → Event
  /-- A stage of a pipeline ended with a verified output, or its branches with theirs. -/
  | produced : Nat → List Value → Event
  | handed : Nat → Event
  /-- An agent stage of a pipeline failed. -/
  | stopped : Nat → Event

inductive LogEntry where
  | step : StepRecord Value → LogEntry
  | outcome : StoredOutcome Value → LogEntry

def LogEntry.isOutcome : LogEntry → Bool
  | .step _ => false
  | .outcome _ => true

/-- `steps` is the list in memory, `log` what the store has under the id of the run. The trace is no
data of the program. -/
structure Run (W : Type) where
  world : W
  steps : List (StepRecord Value)
  log : List LogEntry
  cancelled : Bool
  trace : List Event

namespace Run

def note {W : Type} (s : Run W) (event : Event) : Run W :=
  { s with trace := s.trace ++ [event] }

end Run

inductive Decision where
  | verified : Value → Decision
  | failure : FailureReason → String → Decision

def Decision.stored : Decision → StoredOutcome Value
  | .verified output => ⟨.verified,output,none,""⟩
  | .failure reason message => ⟨.failure,.none,some reason.value,message⟩

/-- The sealed result: a verified result or an explicit failure, with the audit record. -/
structure Outcome where
  taskId : String
  agentName : String
  decision : Decision
  steps : List (StepRecord Value)
  trajectoryId : Option String

/-- What names a record. -/
structure Trail where
  taskId : String
  agentName : String
  trajectoryId : String

abbrev Do (W α : Type) : Type := Act Raised (Run W) α

section
variable {W S : Type} (host : Host W S)

def note (event : Event) : Do W Unit := Act.write fun s => s.note event

def raising {α : Type} (place : Place) (r : Raised) : Do W α := do
  note (.raised place r)
  Act.raise r

def ask {α : Type} (call : W → α × W) : Do W α := fun s =>
  (.ok (call s.world).1,{ s with world := (call s.world).2 })

def clock : Do W Decimal := ask host.monotonic

/-- The time since `start`. -/
def elapsedSince (start : Decimal) : Do W Decimal := do
  let now ← clock host
  pure (host.minus now start)

def exceeds (elapsed limit : Decimal) : Bool := limit.double < elapsed.double

def storeAppend (place : Place) (record : StepRecord Value) : Do W (Option String) := do
  let taking ← ask (host.append record)
  match taking with
  | .stored => do
    Act.write fun s => { s with log := s.log ++ [.step record] }
    pure none
  | .refused text => do
    note .lost
    pure (some text)
  | .raised r => do
    note .lost
    raising place r

/-- A step takes the next index, goes into memory and from there to the store. A worker does this
under the lock. -/
def appendStep (place : Place) (record : StepRecord Value) : Do W (Option String) := do
  let s ← Act.read
  let record := { record with stepIndex := s.steps.length }
  Act.write fun s => { s with steps := s.steps ++ [record] }
  storeAppend host place record

def storeOutcome (place : Place) (trail : Trail) (outcome : StoredOutcome Value) :
    Do W (Option String) := do
  let s ← Act.read
  if s.log.any (·.isOutcome) then
    pure (some ("Outcome for trajectory " ++ pyRepr trail.trajectoryId ++ " already recorded."))
  else do
    let taking ← ask (host.record outcome)
    match taking with
    | .stored => do
      Act.write fun s => { s with log := s.log ++ [.outcome outcome] }
      pure none
    | .refused text => pure (some text)
    | .raised r => raising place r

/-- The check of `Trajectory`, from index `expected` on. -/
def indexError : Nat → List (StepRecord Value) → Option String
  | _, [] => none
  | expected, step :: steps =>
    if step.stepIndex ≠ expected then
      some ("Trajectory step index out of order: expected " ++ toString expected ++ ", got " ++
        toString step.stepIndex ++ ".")
    else indexError (expected + 1) steps

def sealSteps (place : Place) : Do W (List (StepRecord Value)) := do
  let s ← Act.read
  match indexError 0 s.steps with
  | some message => raising place ⟨true,message⟩
  | none => pure s.steps

def buildInternalFailure (trail : Trail) (message : String) : Outcome :=
  ⟨trail.taskId,trail.agentName,.failure .internal message,[],none⟩

def recordFailure (place : Place) (trail : Trail) (reason : FailureReason) (message : String) :
    Do W Outcome := do
  let refused ← storeOutcome host place trail (Decision.failure reason message).stored
  match refused with
  | some text =>
    pure (buildInternalFailure trail
      ("Failed to persist failure outcome (" ++ reason.value ++ "): " ++ text))
  | none => do
    let steps ← sealSteps place
    pure ⟨trail.taskId,trail.agentName,.failure reason message,steps,some trail.trajectoryId⟩

def recordSuccess (trail : Trail) (output : Value) : Do W Outcome := do
  let refused ← storeOutcome host .caller trail (Decision.verified output).stored
  match refused with
  | some text =>
    recordFailure host .caller trail .internal ("Failed to persist verified outcome: " ++ text)
  | none => do
    let steps ← sealSteps .caller
    pure ⟨trail.taskId,trail.agentName,.verified output,steps,some trail.trajectoryId⟩

def storeBegin : Do W (Option String) := do
  let taking ← ask host.begin
  match taking with
  | .stored => pure none
  | .refused text => pure (some text)
  | .raised r => raising .caller r

end

end AgentCentric.Manager

import AgentCentric.Manager.Host

namespace AgentCentric.Manager
open Proc (act)

structure StageFailure where
  reason : FailureReason
  message : String

structure CompositionLimit where
  envelope : ResourceEnvelope
  start : Decimal
  baseSteps : Nat

/-- The arguments of `_execute_agent`. The cancel event comes with `stage_worker`. -/
structure Execution where
  seat : Seat
  trail : Trail
  payload : Value
  envelope : ResourceEnvelope
  tools : List String
  stageStart : Decimal
  composition : Option CompositionLimit
  stageWorker : Bool

namespace Execution

/-- Where an exception goes from inside the `try`. -/
def inner (x : Execution) : Place := if x.stageWorker then .worker else .handler

def outer (x : Execution) : Place := if x.stageWorker then .worker else .caller

end Execution

/-- A recorded outcome, or what the joiner will record. -/
def Failed : Bool → Type
  | false => Outcome
  | true => StageFailure

/-- The loop ended with the output of the agent or with a failure. -/
inductive LoopEnd (stageWorker : Bool) where
  | finished : Value → LoopEnd stageWorker
  | failed : Failed stageWorker → LoopEnd stageWorker

/-- What is sent back to the agent, and the steps it took. -/
structure ToolDelivery where
  toolResult : ToolResult
  consumed : Nat

def firstOf {ε σ α : Type} : List (Proc ε σ (Option α)) → Proc ε σ (Option α)
  | [] => pure none
  | check :: checks => do
    let found ← check
    match found with
    | some a => pure (some a)
    | none => firstOf checks

abbrev Task (W α : Type) : Type := Proc Raised (Run W) α

section
variable {W S : Type} (host : Host W S)

def deferredOrRecordedFailure (place : Place) (trail : Trail) (reason : FailureReason)
    (message : String) : (stageWorker : Bool) → Do W (Failed stageWorker)
  | false => recordFailure host place trail reason message
  | true => (pure ⟨reason,message⟩ : Do W StageFailure)

def startSession (x : Execution) (manifest : AgentComponentManifest) : Do W S := do
  note (.started x.seat manifest.name x.payload x.tools)
  let session ← ask (host.session manifest x.payload x.envelope.maxSteps x.tools
    x.envelope.timeoutSeconds)
  match session with
  | .ok session => pure session
  | .error r => raising x.inner r

def close (session : S) : Do W Unit := Act.write fun s =>
  { s with world := host.close session s.world }

def sendCancelled (session : S) (message : String) : Do W Unit := Act.write fun s =>
  { s with world := host.cancel session message s.world }

def wasForced (session : S) : Do W Bool := do
  let s ← Act.read
  pure (host.forced session s.world)

def fail (x : Execution) (place : Place) (session : S) (reason : FailureReason)
    (message : String) : Task W (Failed x.stageWorker) := do
  act (close host session)
  act (deferredOrRecordedFailure host place x.trail reason message x.stageWorker)

def cancellation (description error : String) : StepRecord Value :=
  ⟨0,.cancelled,description,.none,.none,some error,zeroSeconds⟩

def cancel (x : Execution) (session : S) (reason : FailureReason) (message : String) :
    Task W (Failed x.stageWorker) := do
  let refused ← act (appendStep host x.inner (cancellation "agent cancelled" message))
  if refused.isSome then
    act (deferredOrRecordedFailure host x.inner x.trail .internal
      "Failed to persist agent cancellation step." x.stageWorker)
  else do
    act (sendCancelled host session message)
    act (close host session)
    let forced ← act (wasForced host session)
    if forced then do
      let refused ← act (appendStep host x.inner (cancellation "agent forcibly terminated"
        "child ignored cooperative cancellation; killed as last resort"))
      if refused.isSome then
        act (deferredOrRecordedFailure host x.inner x.trail .internal
          "Failed to persist forced-termination step." x.stageWorker)
      else fail host x x.inner session reason message
    else fail host x x.inner session reason message

/-- `cancel_event.is_set()`. -/
def readCancelEvent (x : Execution) : Do W Bool := do
  let s ← Act.read
  note (.boundary x.seat (x.stageWorker && s.cancelled))
  pure (x.stageWorker && s.cancelled)

def checkCancelled (x : Execution) : Task W (Option StageFailure) := do
  let isSet ← act (readCancelEvent x)
  if isSet then
    pure (some ⟨.cancelled,"Parallel composition aborted because a sibling stage failed."⟩)
  else pure none

def checkCompositionTimeout (x : Execution) : Task W (Option StageFailure) :=
  match x.composition with
  | none => pure none
  | some composition => do
    let elapsed ← act (elapsedSince host composition.start)
    if exceeds elapsed composition.envelope.timeoutSeconds then
      pure (some ⟨.timeout,"Composition exceeded overall timeout of " ++
        Value.seconds composition.envelope.timeoutSeconds ++ "s."⟩)
    else pure none

def checkStageTimeout (x : Execution) : Task W (Option StageFailure) := do
  let elapsed ← act (elapsedSince host x.stageStart)
  if exceeds elapsed x.envelope.timeoutSeconds then
    pure (some ⟨.timeout,"Agent exceeded overall timeout of " ++
      Value.seconds x.envelope.timeoutSeconds ++ "s."⟩)
  else pure none

/-- `len(steps)`. -/
def stepCount : Do W Nat := do
  let s ← Act.read
  pure s.steps.length

def checkCompositionSteps (x : Execution) : Task W (Option StageFailure) :=
  match x.composition with
  | none => pure none
  | some composition => do
    let count ← act stepCount
    if composition.envelope.maxSteps ≤ count - composition.baseSteps then
      pure (some ⟨.stepLimit,"Composition exceeded step limit of " ++
        toString composition.envelope.maxSteps ++ "."⟩)
    else pure none

def checks (x : Execution) : List (Task W (Option StageFailure)) :=
  [checkCancelled x,checkCompositionTimeout host x,checkStageTimeout host x,
    checkCompositionSteps x]

def persistStep (x : Execution) (index : Nat) (description : String) (detail : Value)
    (elapsed : Decimal) : Task W (Option Outcome) := do
  let refused ← act (appendStep host x.inner
    ⟨index,.completed,description,.none,detail,none,elapsed⟩)
  if refused.isSome then do
    let outcome ← act (recordFailure host x.inner x.trail .internal
      ("Failed to persist step " ++ toString index ++ "."))
    pure (some outcome)
  else pure none

def persistMessage (outcome : Outcome) : String :=
  match outcome.decision with
  | .failure _ message => message
  | .verified _ => "Failed to persist step."

def unpersisted (outcome : Outcome) : (stageWorker : Bool) → Failed stageWorker
  | false => outcome
  | true => (⟨.internal,persistMessage outcome⟩ : StageFailure)

def executeTool (x : Execution) (name : String) (args : List (String × Value)) :
    Do W Executed := do
  note (.executed x.seat name)
  ask (host.execute name args)

def toolRecord (status : StepStatus) (name what : String) (input output : Value)
    (error : Option String) : StepRecord Value :=
  ⟨0,status,"tool " ++ pyRepr name ++ " " ++ what,input,output,error,zeroSeconds⟩

def toolInput (name : String) (args : List (String × Value)) : Value :=
  .dict [("tool",.str name),("args",.dict args)]

/-- `none` if a step was not taken. -/
def mediateTool (x : Execution) (name : String) (args : List (String × Value)) :
    Task W (Option ToolDelivery) :=
  if name ∉ x.tools then do
    let refused ← act (appendStep host x.inner (toolRecord .rejected name "request rejected"
      (toolInput name args) .none (some "tool not granted to this agent")))
    if refused.isSome then pure none
    else pure (some ⟨⟨false,.none,some "tool not granted to this agent"⟩,1⟩)
  else do
    let refused ← act (appendStep host x.inner (toolRecord .completed name "request"
      (toolInput name args) .none none))
    if refused.isSome then pure none
    else do
      let executed ← act (executeTool host x name args)
      match executed with
      | .raised r => act (raising x.inner r)
      | .toolExecution text => do
        let refused ← act (appendStep host x.inner (toolRecord .failed name "execution failed"
          .none .none (some text)))
        if refused.isSome then pure none else pure (some ⟨⟨false,.none,some text⟩,2⟩)
      | .output output => do
        let refused ← act (appendStep host x.inner (toolRecord .completed name "result"
          .none output none))
        if refused.isSome then pure none else pure (some ⟨⟨true,output,none⟩,2⟩)

def takeStep (x : Execution) (session : S) (sent : Option ToolResult) : Do W NextStep := do
  note (.stepped x.seat)
  ask (host.nextStep session sent)

def overStepBudget (x : Execution) (elapsed : Decimal) : Option Decimal :=
  match x.envelope.maxStepSeconds with
  | none => none
  | some limit => if exceeds elapsed limit then some limit else none

/-- What an item that is no result leads to. `one` and `two` go on after that many steps more. -/
def handleItem (x : Execution) (session : S) (stageStep : Nat)
    (one two : Option ToolResult → Task W (LoopEnd x.stageWorker)) :
    Item → Decimal → Task W (LoopEnd x.stageWorker)
  | .step description detail, elapsed => do
    let index ← act stepCount
    let outcome ← persistStep host x index description detail elapsed
    match outcome with
    | some outcome => pure (.failed (unpersisted outcome x.stageWorker))
    | none => one none
  | .request name args, _ => do
    let delivery ← mediateTool host x name args
    match delivery with
    | none => do
      let failure ← fail host x x.inner session .internal
        "Tool mediation could not be durably recorded."
      pure (.failed failure)
    | some delivery =>
      if delivery.consumed = 1 then one (some delivery.toolResult)
      else two (some delivery.toolResult)
  | _, _ => do
    let failure ← fail host x x.inner session .agentError
      ("Agent yielded an unsupported value at step " ++ toString stageStep ++ ".")
    pure (.failed failure)

def cancelled (x : Execution) (session : S) (reason : FailureReason) (message : String) :
    Task W (LoopEnd x.stageWorker) := do
  let failure ← cancel host x session reason message
  pure (.failed failure)

def turn (x : Execution) (session : S) (stageStep : Nat) (sent : Option ToolResult)
    (one two : Option ToolResult → Task W (LoopEnd x.stageWorker)) :
    Task W (LoopEnd x.stageWorker) := do
  let stop ← firstOf (checks host x)
  match stop with
  | some stop => cancelled host x session stop.reason stop.message
  | none => do
    let stepStart ← act (clock host)
    let next ← act (takeStep host x session sent)
    match next with
    | .raised r => act (raising x.inner r)
    | .subprocessTimeout text =>
      cancelled host x session .timeout
        ("Agent subprocess did not respond within the envelope timeout: " ++ text)
    | .agentExecution text => do
      let failure ← fail host x x.inner session .agentError ("Agent execution failed: " ++ text)
      pure (.failed failure)
    | .item (.result output) => pure (.finished output)
    | .item item => do
      let elapsed ← act (elapsedSince host stepStart)
      match overStepBudget x elapsed with
      | some limit =>
        cancelled host x session .timeout ("Step " ++ toString stageStep ++
          " exceeded per-step budget of " ++ Value.seconds limit ++ "s.")
      | none => handleItem host x session stageStep one two item elapsed

def lastTurn (x : Execution) (session : S) : Task W (LoopEnd x.stageWorker) := do
  let stop ← firstOf (checks host x)
  match stop with
  | some stop => cancelled host x session stop.reason stop.message
  | none =>
    cancelled host x session .stepLimit
      ("Agent exceeded step limit of " ++ toString x.envelope.maxSteps ++ ".")

/-- `left` steps are left of `max_steps`, `stageStep` were taken. -/
def loop (x : Execution) (session : S) :
    (left stageStep : Nat) → Option ToolResult → Task W (LoopEnd x.stageWorker)
  | 0, _, _ => lastTurn host x session
  | 1, n, sent =>
    turn host x session n sent (loop x session 0 (n + 1)) (loop x session 0 (n + 2))
  | left+2, n, sent =>
    turn host x session n sent (loop x session (left + 1) (n + 1)) (loop x session left (n + 2))

/-- `except Exception`. -/
def exceptOrdinary {α : Type} (m : Task W α) (handler : String → Task W α) : Task W α :=
  Proc.caught m fun r => if r.ordinary then handler r.text else Proc.raise r

def openSession (registry : Registry) (x : Execution) :
    Task W (Failed x.stageWorker ⊕ S) :=
  exceptOrdinary
    (match registry.getByName x.trail.agentName with
    | none => do
      let failure ← act (deferredOrRecordedFailure host x.inner x.trail .unknownAgent
        ("No agent registered with name " ++ pyRepr x.trail.agentName ++ ".") x.stageWorker)
      pure (.inl failure)
    | some manifest => do
      let session ← act (startSession host x manifest)
      pure (.inr session))
    fun text => do
      let failure ← act (deferredOrRecordedFailure host x.outer x.trail .internal
        ("Failed to start agent: " ++ text) x.stageWorker)
      pure (.inl failure)

def drive (x : Execution) (session : S) : Task W (LoopEnd x.stageWorker) :=
  exceptOrdinary (loop host x session x.envelope.maxSteps 0 none) fun text => do
    let failure ← fail host x x.outer session .agentError ("Agent raised an exception: " ++ text)
    pure (.failed failure)

def verifyOutput (x : Execution) (output : Value) : Do W VerificationResult :=
  match host.verify x.trail.agentName x.payload output with
  | .ok verification => pure verification
  | .error r => raising x.outer r

def gate (x : Execution) (session : S) (output : Value) :
    Task W (Option (Failed x.stageWorker) × Value) := do
  let verification ← act (verifyOutput host x output)
  if verification.passed then do
    act (close host session)
    pure (none,output)
  else do
    let failure ← fail host x x.outer session .verificationFailed verification.message
    pure (some failure,.none)

def executeAgent (registry : Registry) (x : Execution) :
    Task W (Option (Failed x.stageWorker) × Value) := do
  let opened ← openSession host registry x
  match opened with
  | .inl failure => pure (some failure,.none)
  | .inr session => do
    let ended ← drive host x session
    match ended with
    | .failed failure => pure (some failure,.none)
    | .finished output => gate host x session output

end

end AgentCentric.Manager

import AgentCentric.Manager.Group

namespace AgentCentric.Manager

structure Constraint where
  decision : PolicyDecision
  kind : String
  label : String

namespace Constraint

def message (c : Constraint) : String := c.decision.reason.getD (c.kind ++ " denied")

def value (c : Constraint) : Value := .tuple [.str c.kind,.str c.label]

end Constraint

namespace Policy

def ofSelector (policy : Policy) (scope : String) : Selector → Constraint
  | .agentName name => ⟨policy.checkAgent name,scope ++ "agent",name⟩
  | .capability capability =>
    ⟨policy.checkCapability capability,scope ++ "capability",capability.name⟩

def ofTools (policy : Policy) (scope : String) (tools : List String) : List Constraint :=
  tools.map fun tool => ⟨policy.checkTool tool,scope ++ "tool",tool⟩

/-- `_check_stage_policy`. -/
def ofStage (policy : Policy) (stage : StageSpec) : List Constraint :=
  policy.ofSelector "stage " stage.selector :: policy.ofTools "stage " stage.grantedTools

end Policy

def Stage.specs : Stage → List StageSpec
  | .agent spec => [spec]
  | .group parallel => parallel.stages

def Stage.specAt : Stage → Option Nat → Option StageSpec
  | .agent spec,none => some spec
  | .group parallel,some i => parallel.stages[i]?
  | _,_ => none

namespace TaskSpecification

def specAt (task : TaskSpecification) (seat : Seat) : Option StageSpec :=
  match task.work with
  | .single selector =>
    (Stage.agent ⟨selector,task.grantedTools,none,none,none⟩).specAt seat.branch
  | .pipeline pipeline => (pipeline.stages[seat.stage]?).bind (·.specAt seat.branch)
  | .parallel parallel => (Stage.group parallel).specAt seat.branch

def specs (task : TaskSpecification) : List StageSpec :=
  match task.work with
  | .single _ => []
  | .pipeline pipeline => pipeline.stages.flatMap (·.specs)
  | .parallel parallel => parallel.stages

/-- The checks that `_evaluate_task_policy` makes, in its order. -/
def constraints (task : TaskSpecification) (policy : Policy) : List Constraint :=
  (match task.work with
  | .single selector => [policy.ofSelector "" selector]
  | _ => []) ++ policy.ofTools "" task.grantedTools ++ task.specs.flatMap policy.ofStage

def violation (task : TaskSpecification) (policy : Policy) : Option String :=
  ((task.constraints policy).find? (!·.decision.allowed)).map (·.message)

end TaskSpecification

section
variable {W S : Type} (host : Host W S)

def policyRejected (message : String) : StepRecord Value :=
  ⟨0,.rejected,"policy rejected",.none,.none,some message,zeroSeconds⟩

def policyViolation (trail : Trail) (message : String) : Do W Outcome := do
  let refused ← appendStep host .caller (policyRejected message)
  if refused.isSome then
    recordFailure host .caller trail .internal "Failed to persist policy rejection step."
  else recordFailure host .caller trail .policyViolation message

def policyAccepted (constraints : List Constraint) : StepRecord Value :=
  ⟨0,.completed,"policy accepted",.dict [("constraints",.list (constraints.map (·.value)))],.none,
    none,zeroSeconds⟩

def evaluateTaskPolicy (trail : Trail) (task : TaskSpecification) : Do W (Option Outcome) :=
  match task.policy with
  | none => pure none
  | some policy =>
    match task.violation policy with
    | some message => do
      let outcome ← policyViolation host trail message
      pure (some outcome)
    | none => do
      let refused ← appendStep host .caller (policyAccepted (task.constraints policy))
      if refused.isSome then do
        let outcome ← recordFailure host .caller trail .internal
          "Failed to persist policy acceptance step."
        pure (some outcome)
      else pure none

def Capability.repr (capability : Capability) : String :=
  "Capability(name=" ++ pyRepr capability.name ++ ", version=" ++ pyRepr capability.version ++ ")"

def Work.selectorRepr : Work → String
  | .single (.agentName name) => pyRepr name
  | .single (.capability capability) => capability.repr
  | _ => "None"

/-- `task.agent_name or ""`. -/
def Work.agentName : Work → String
  | .single (.agentName name) => name
  | _ => ""

def unknownMessage (task : TaskSpecification) : String :=
  "No agent registered for selector " ++ task.work.selectorRepr ++ "."

def runUnknownAgent (task : TaskSpecification) (trajectoryId : String) : Do W Outcome := do
  let trail : Trail := ⟨task.taskId,task.work.agentName,trajectoryId⟩
  let refused ← storeBegin host
  match refused with
  | some text =>
    pure (buildInternalFailure trail ("Could not persist unknown-agent failure: " ++ text))
  | none => do
    let decision := Decision.failure .unknownAgent (unknownMessage task)
    let refused ← storeOutcome host .caller trail decision.stored
    match refused with
    | some text =>
      pure (buildInternalFailure trail ("Could not persist unknown-agent failure: " ++ text))
    | none => pure ⟨trail.taskId,trail.agentName,decision,[],some trajectoryId⟩

/-- The record begins, the policy accepts the task, and `work` is done. -/
def governed (trail : Trail) (task : TaskSpecification) (work : Do W Outcome) : Do W Outcome := do
  let refused ← storeBegin host
  match refused with
  | some text =>
    pure (buildInternalFailure trail ("Could not begin durable trajectory: " ++ text))
  | none => do
    let violation ← evaluateTaskPolicy host trail task
    match violation with
    | some outcome => pure outcome
    | none => work

def singleExecution (task : TaskSpecification) (trail : Trail) (start : Decimal) : Execution where
  seat := ⟨0,none⟩
  trail := trail
  payload := task.payload
  envelope := task.envelope
  tools := buildToolContext host task.grantedTools
  stageStart := start
  composition := none
  stageWorker := false

def runAgent (registry : Registry) (x : Execution) :
    Do W (Option (Failed x.stageWorker) × Value) :=
  (executeAgent host registry x).alone

def certify (trail : Trail) : Option Outcome × Value → Do W Outcome
  | (some outcome,_) => pure outcome
  | (none,output) => recordSuccess host trail output

def runSingle (registry : Registry) (task : TaskSpecification) (selector : Selector)
    (trajectoryId : String) : Do W Outcome :=
  match registry.resolve selector with
  | none => runUnknownAgent host task trajectoryId
  | some manifest => do
    let trail : Trail := ⟨task.taskId,manifest.name,trajectoryId⟩
    let start ← clock host
    governed host trail task do
      let ended ← runAgent host registry (singleExecution host task trail start)
      certify host trail ended

inductive StageEnd where
  | output : Value → List Value → StageEnd
  | stopped : Outcome → StageEnd
  | groupFailed : StageFailure → StageEnd

/-- What of a pipeline stays the same from stage to stage. -/
structure Pipeline where
  task : TaskSpecification
  trail : Trail
  composition : CompositionLimit

def unknownStage (registry : Registry) (i : Nat) : Stage → Option String
  | .agent spec =>
    if (registry.resolve spec.selector).isSome then none
    else some ("Stage " ++ toString i ++ " references an unknown agent (" ++ spec.label ++ ").")
  | .group parallel =>
    (parallel.stages.find? fun spec => (registry.resolve spec.selector).isNone).map fun spec =>
      "Stage " ++ toString i ++ " (parallel group) references an unknown agent (" ++ spec.label ++
        ")."

namespace Stage

def first : Stage → StageSpec
  | .agent spec => spec
  | .group parallel => parallel.stages.head parallel.nonempty

def label (stage : Stage) : String := stage.first.label

def name (registry : Registry) : Stage → String
  | .agent spec => ((registry.resolve spec.selector).map (·.name)).getD ""
  | .group parallel => (parallel.stages.head parallel.nonempty).label

def kind : Stage → String
  | .agent _ => "agent"
  | .group _ => "parallel"

def effective (task : TaskSpecification) : Stage → ResourceEnvelope
  | .agent spec => spec.effective task
  | .group _ => task.envelope

def outputSchema : Stage → Option HandoffSchema
  | .agent spec => spec.outputSchema
  | .group _ => none

def inputSchema : Stage → Option HandoffSchema
  | .agent spec => spec.inputSchema
  | .group _ => none

def defaultSchema : Stage → HandoffSchema
  | .agent _ => .fields (Dict.empty.set "text" .any)
  | .group _ => .fields (Dict.empty.set "stages" .list)

end Stage

def boundaryMarker (task : TaskSpecification) (i : Nat) (stage : Stage) : StepRecord Value :=
  ⟨0,.started,"pipeline stage " ++ toString i ++ " begin",
    .dict [("stage",.int i),("agent",.str stage.label),("kind",.str stage.kind),
      ("envelope",(stage.effective task).summary)],.none,none,zeroSeconds⟩

def stageExecution (registry : Registry) (p : Pipeline) (i : Nat) (spec : StageSpec)
    (start : Decimal) (payload : Value) : Execution where
  seat := ⟨i,none⟩
  trail := { p.trail with agentName := (Stage.agent spec).name registry }
  payload := payload
  envelope := spec.effective p.task
  tools := buildToolContext host spec.grantedTools
  stageStart := start
  composition := some p.composition
  stageWorker := false

def joinValue (joined : List Joined) : Value :=
  .dict [("stages",.list (joined.map fun entry =>
    .tuple [.int entry.1,.str entry.2.1,entry.2.2]))]

def agentEnd : Option Outcome × Value → StageEnd
  | (some outcome,_) => .stopped outcome
  | (none,output) => .output output [output]

def groupOutcome : Except StageFailure (List Joined) → StageEnd
  | .error failure => .groupFailed failure
  | .ok joined => .output (joinValue joined) (joined.map fun entry => entry.2.2)

def executeStage (registry : Registry) (p : Pipeline) (i : Nat) (start : Decimal)
    (payload : Value) : Stage → Do W StageEnd
  | .agent spec => do
    let ended ← runAgent host registry (stageExecution host registry p i spec start payload)
    pure (agentEnd ended)
  | .group parallel => do
    let ended ← runParallelGroup host registry
      ⟨p.task,p.trail.trajectoryId,i,parallel,p.composition,start,payload⟩
    pure (groupOutcome ended)

def stageAccount (i : Nat) (agent : String) (start : Decimal) (startedSteps : Nat) :
    Do W Value := do
  let elapsed ← elapsedSince host start
  let count ← stepCount
  pure (.dict [("stage",.int i),("agent",.str agent),("elapsed_seconds",.float elapsed),
    ("steps",.int (count - startedSteps : Nat))])

def accounting (accounts : List Value) (count : Nat) : StepRecord Value :=
  ⟨0,.completed,"pipeline resource accounting",.none,
    .dict [("stages",.list accounts),("total_steps",.int (count + 1 : Nat))],none,zeroSeconds⟩

def persistStageSummary (accounts : List Value) : Do W Bool := do
  let count ← stepCount
  let refused ← appendStep host .caller (accounting accounts count)
  pure refused.isNone

def unaccounted (trail : Trail) : Do W Outcome :=
  recordFailure host .caller trail .internal "Failed to persist pipeline resource accounting."

def stageFailureToOutcome (trail : Trail) (accounts : List Value) (failure : StageFailure) :
    Do W Outcome := do
  let persisted ← persistStageSummary host accounts
  if persisted then recordFailure host .caller trail failure.reason failure.message
  else unaccounted host trail

def handedOff : Value → Value
  | .dict items => .dict items
  | output => .dict [("text",output)]

def handoffChecks (i : Nat) (producing consuming : Stage) : List (String × HandoffSchema) :=
  let declared := (producing.outputSchema.toList.map fun schema =>
      ("stage " ++ toString i ++ " output_schema",schema)) ++
    consuming.inputSchema.toList.map fun schema =>
      ("stage " ++ toString (i + 1) ++ " input_schema",schema)
  if declared = [] then [("default object shape",producing.defaultSchema)] else declared

def handoffError (i : Nat) (payload : Value) : List (String × HandoffSchema) → Option String
  | [] => none
  | (label,schema) :: rest =>
    if (validateHandoff payload schema).1 then handoffError i payload rest
    else some ("Hand-off from stage " ++ toString i ++ " rejected by " ++ label ++ ": " ++
      (validateHandoff payload schema).2)

def summarisePayload : Value → Value
  | .dict items => .dict [("kind",.str "object"),
      ("fields",.dict (items.map fun item => (item.1,.str item.2.typeName)))]
  | payload => .dict [("kind",.str payload.typeName)]

def handoffRecord (i : Nat) (payload : Value) : StepRecord Value :=
  ⟨0,.completed,"stage " ++ toString i ++ " hand-off validated",
    .dict [("from_stage",.int i),("to_stage",.int (i + 1 : Nat)),
      ("shape",summarisePayload payload)],.none,none,zeroSeconds⟩

def validateStageHandoff (trail : Trail) (i : Nat) (producing consuming : Stage)
    (payload : Value) : Do W (Option Outcome) :=
  match handoffError i payload (handoffChecks i producing consuming) with
  | some message => do
    let outcome ← recordFailure host .caller trail .handoffFailed message
    pure (some outcome)
  | none => do
    let refused ← appendStep host .caller (handoffRecord i payload)
    if refused.isSome then do
      let outcome ← recordFailure host .caller trail .internal
        "Failed to persist stage hand-off validation step."
      pure (some outcome)
    else do
      note (.handed i)
      pure none

def handOn (trail : Trail) (i : Nat) (producing : Stage) (output : Value) :
    List Stage → Do W (Except Outcome Value)
  | [] => pure (.ok output)
  | consuming :: _ => do
    let failure ← validateStageHandoff host trail i producing consuming (handedOff output)
    match failure with
    | some outcome => pure (.error outcome)
    | none => pure (.ok (handedOff output))

def finishPipeline (trail : Trail) (accounts : List Value) (payload : Value) : Do W Outcome := do
  let persisted ← persistStageSummary host accounts
  if persisted then recordSuccess host trail payload else unaccounted host trail

/-- The stages from `i` on. -/
def runStages (registry : Registry) (p : Pipeline) :
    Nat → List Stage → Value → List Value → Do W Outcome
  | _, [], payload, accounts => finishPipeline host p.trail accounts payload
  | i, stage :: rest, payload, accounts => do
    let start ← clock host
    let startedSteps ← stepCount
    match unknownStage registry i stage with
    | some message => recordFailure host .caller p.trail .unknownAgent message
    | none => do
      let refused ← appendStep host .caller (boundaryMarker p.task i stage)
      if refused.isSome then
        recordFailure host .caller p.trail .internal
          ("Failed to persist stage-boundary step for stage " ++ toString i ++ ".")
      else do
        let ended ← executeStage host registry p i start payload stage
        match ended with
        | .groupFailed failure => stageFailureToOutcome host p.trail accounts failure
        | .stopped outcome => do
          note (.stopped i)
          let account ← stageAccount host i (stage.name registry) start startedSteps
          let persisted ← persistStageSummary host (accounts ++ [account])
          if persisted then pure outcome else unaccounted host p.trail
        | .output output parts => do
          note (.produced i parts)
          let account ← stageAccount host i (stage.name registry) start startedSteps
          let passed ← handOn host p.trail i stage output rest
          match passed with
          | .error outcome => pure outcome
          | .ok payload => runStages registry p (i + 1) rest payload (accounts ++ [account])

def runPipeline (registry : Registry) (task : TaskSpecification)
    (pipeline : SequentialComposition) (trajectoryId : String) : Do W Outcome :=
  match registry.resolve (pipeline.stages.head pipeline.nonempty).first.selector with
  | none => runUnknownAgent host task trajectoryId
  | some manifest => do
    let trail : Trail := ⟨task.taskId,manifest.name,trajectoryId⟩
    let start ← clock host
    governed host trail task
      (runStages host registry ⟨task,trail,⟨task.envelope,start,0⟩⟩ 0 pipeline.stages task.payload
        [])

def conclude (trail : Trail) : Except StageFailure (List Joined) → Do W Outcome
  | .error failure => recordFailure host .caller trail failure.reason failure.message
  | .ok joined => recordSuccess host trail (joinValue joined)

def runParallel (registry : Registry) (task : TaskSpecification) (parallel : ParallelComposition)
    (trajectoryId : String) : Do W Outcome :=
  match registry.resolve (parallel.stages.head parallel.nonempty).selector with
  | none => runUnknownAgent host task trajectoryId
  | some manifest => do
    let trail : Trail := ⟨task.taskId,manifest.name,trajectoryId⟩
    let start ← clock host
    governed host trail task do
      let ended ← runParallelGroup host registry
        ⟨task,trajectoryId,0,parallel,⟨task.envelope,start,0⟩,start,.none⟩
      conclude host trail ended

/-- `AgentManager.run`, the `seq`-th time. -/
def run (registry : Registry) (task : TaskSpecification) (seq : Nat) : Do W Outcome :=
  let trajectoryId := task.taskId ++ "#" ++ toString seq
  match task.work with
  | .single selector => runSingle host registry task selector trajectoryId
  | .pipeline pipeline => runPipeline host registry task pipeline trajectoryId
  | .parallel parallel => runParallel host registry task parallel trajectoryId

/-- Nothing is in memory yet, and no record has begun. -/
def Run.start (w : W) : Run W := ⟨w,[],[],false,[]⟩

end

/-- `ResourceEnvelope(60.0, 100)`. -/
theorem hundred_pos : 0 < 100 := by decide

def defaultEnvelope : ResourceEnvelope :=
  ⟨⟨['6','0','.','0'],by decide,by decide⟩,100,none,by decide +kernel,hundred_pos,by simp⟩

/-- `StageSpec(agent_name=name)`. -/
def StageSpec.named (name : String) : StageSpec := ⟨.agentName name,[],none,none,none⟩

/-- `TaskSpecification(task_id="t", payload=payload, …)`. -/
def TaskSpecification.plain (work : Work) (payload : Value) : TaskSpecification :=
  ⟨"t",work,payload,defaultEnvelope,[],none⟩

def Registry.ofNames (names : List String) : Registry :=
  names.foldl (fun registry name =>
    match registry.register ⟨name,"agents:" ++ name,[]⟩ with
    | .ok registry => registry
    | .error _ => registry) .empty

def Host.plain (agent : String → Item)
    (verify : String → Value → Value → Except Raised VerificationResult) : Host Unit String where
  monotonic w := (zeroSeconds,w)
  minus _ _ := zeroSeconds
  session manifest _ _ _ _ w := (.ok manifest.name,w)
  nextStep session _ w := (.item (agent session),w)
  cancel _ _ w := w
  close _ w := w
  forced _ _ := false
  describes _ := true
  execute _ _ w := (.output .none,w)
  verify := verify
  begin w := (.stored,w)
  append _ w := (.stored,w)
  record _ w := (.stored,w)
  picks _ := []

end AgentCentric.Manager

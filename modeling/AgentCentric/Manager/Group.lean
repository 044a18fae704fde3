import AgentCentric.Library.Pool
import AgentCentric.Manager.Execute

namespace AgentCentric.Manager

namespace StageSpec

/-- `_stage_label`. -/
def label (stage : StageSpec) : String :=
  match stage.selector with
  | .agentName name => name
  | .capability capability => "capability:" ++ capability.name

def effective (stage : StageSpec) (task : TaskSpecification) : ResourceEnvelope :=
  stage.stageEnvelope.getD task.envelope

end StageSpec

/-- `_summarise_envelope`. -/
def ResourceEnvelope.summary (envelope : ResourceEnvelope) : Value :=
  .dict [("max_steps",.int envelope.maxSteps),("timeout_seconds",.float envelope.timeoutSeconds),
    ("max_step_seconds",Value.optional .float envelope.maxStepSeconds)]

/-- A branch whose agent was found, and the time it began. -/
structure Branch where
  spec : StageSpec
  agent : String
  start : Decimal

abbrev WorkerEnd : Type := Option StageFailure × Value

abbrev Joined : Type := Nat × String × Value

structure Join where
  joined : List Joined
  failure : Option StageFailure
  accounts : List Value

/-- The arguments of `_run_parallel_group`. `stage` is where the group stands. -/
structure Group where
  task : TaskSpecification
  trajectoryId : String
  stage : Nat
  parallel : ParallelComposition
  composition : CompositionLimit
  start : Decimal
  payload : Value

namespace Group

def input (g : Group) : Value :=
  match g.payload with
  | .none => g.task.payload
  | payload => payload

def seat (g : Group) (i : Nat) : Seat := ⟨g.stage,some i⟩

end Group

section
variable {W S : Type} (host : Host W S)

/-- `_build_tool_context` and `_build_tool_context_for_stage`. -/
def buildToolContext (granted : List String) : List String := granted.filter (host.describes ·)

def groupBegin (g : Group) : StepRecord Value :=
  ⟨0,.started,"parallel group begin",
    .dict [("stages",.list (g.parallel.stages.map fun s => .str s.label)),
      ("envelope",g.task.envelope.summary)],.none,none,zeroSeconds⟩

def branchBegin (g : Group) (i : Nat) (stage : StageSpec) : StepRecord Value :=
  ⟨0,.started,"parallel stage " ++ toString i ++ " begin",
    .dict [("stage",.int i),("agent",.str stage.label),
      ("envelope",(stage.effective g.task).summary)],.none,none,zeroSeconds⟩

def beginBranches (registry : Registry) (g : Group) :
    Nat → List StageSpec → Do W (Except StageFailure (List Branch))
  | _, [] => pure (.ok [])
  | i, stage :: rest =>
    match registry.resolve stage.selector with
    | none => pure (.error ⟨.unknownAgent,"Parallel stage " ++ toString i ++
        " references an unknown agent (" ++ stage.label ++ ")."⟩)
    | some manifest => do
      let refused ← appendStep host .caller (branchBegin g i stage)
      if refused.isSome then
        pure (.error ⟨.internal,"Failed to persist parallel stage " ++ toString i ++
          " begin step."⟩)
      else do
        let start ← clock host
        let branches ← beginBranches registry g (i + 1) rest
        pure (branches.map (⟨stage,manifest.name,start⟩ :: ·))

def branchExecution (g : Group) (i : Nat) (branch : Branch) : Execution where
  seat := g.seat i
  trail := ⟨g.task.taskId,branch.agent,g.trajectoryId⟩
  payload := g.input
  envelope := branch.spec.effective g.task
  tools := buildToolContext host branch.spec.grantedTools
  stageStart := branch.start
  composition := some g.composition
  stageWorker := true

def worker (registry : Registry) (g : Group) (i : Nat) (branch : Branch) :
    Thread (Run W) (Except Raised WorkerEnd) :=
  executeAgent host registry (branchExecution host g i branch)

def collect (g : Group) (i : Nat) (result : Except Raised WorkerEnd) (s : Run W) : Run W :=
  match result with
  | .error _ => { s.note (.taken (g.seat i) .raised) with cancelled := true }
  | .ok (some _,_) => s.note (.taken (g.seat i) .failed)
  | .ok (none,_) => s.note (.taken (g.seat i) .succeeded)

def pool (registry : Registry) (g : Group) (branches : List Branch) (s : Run W) :
    Pool (Run W) (Except Raised WorkerEnd) :=
  ⟨s,branches.mapIdx (worker host registry g),[]⟩

def runWorkers (registry : Registry) (g : Group) (branches : List Branch) :
    Do W (List (Except Raised WorkerEnd)) := fun s =>
  let ended := (pool host registry g branches s).run (collect g) (host.picks g.stage)
  (.ok ended.taken,ended.shared)

def workerEnd : Except Raised WorkerEnd → WorkerEnd
  | .ok ended => ended
  | .error r => (some ⟨.internal,"Parallel worker raised: " ++ r.text⟩,.none)

def branchAccount (i : Nat) (agent : String) (elapsed : Option Decimal) : Value :=
  .dict ([("agent",.str agent),("stage",.int i)] ++
    elapsed.toList.map fun d => ("elapsed_seconds",.float d))

def joinBranches : Nat → Option StageFailure → List (Branch × Except Raised WorkerEnd) →
    Do W Join
  | _, failure, [] => pure ⟨[],failure,[]⟩
  | i, failure, (branch,result) :: rest => do
    let elapsed ← elapsedSince host branch.start
    match workerEnd result with
    | (none,output) => do
      let more ← joinBranches (i + 1) failure rest
      pure { more with
        joined := (i,branch.agent,output) :: more.joined
        accounts := branchAccount i branch.agent (some elapsed) :: more.accounts }
    | (some found,_) => do
      let more ← joinBranches (i + 1) (failure <|> some found) rest
      pure { more with
        accounts := branchAccount i branch.agent (if failure.isNone then some elapsed else none) ::
          more.accounts }

def groupEnd (accounts : List Value) (elapsed : Decimal) : StepRecord Value :=
  ⟨0,.completed,"parallel group end",.none,.dict [("stages",.list accounts)],none,elapsed⟩

def runParallelGroup (registry : Registry) (g : Group) :
    Do W (Except StageFailure (List Joined)) := do
  let refused ← appendStep host .caller (groupBegin g)
  if refused.isSome then
    pure (.error ⟨.internal,"Failed to persist parallel group begin step."⟩)
  else do
    let begun ← beginBranches host registry g 0 g.parallel.stages
    match begun with
    | .error failure => pure (.error failure)
    | .ok branches => do
      let results ← runWorkers host registry g branches
      let join ← joinBranches host 0 none (branches.zip results)
      let elapsed ← elapsedSince host g.start
      let refused ← appendStep host .caller (groupEnd join.accounts elapsed)
      if refused.isSome then
        pure (.error ⟨.internal,"Failed to persist parallel group end step."⟩)
      else
        match join.failure with
        | some failure => pure (.error failure)
        | none => pure (.ok join.joined)

end

end AgentCentric.Manager

import AgentCentric.Library.JsonAccess
import AgentCentric.Network.Value

namespace AgentCentric.Manager

/-- Outcome of a single recorded step. -/
inductive StepStatus where
  | started | completed | failed | timeout | rejected | cancelled
  deriving DecidableEq

def StepStatus.value : StepStatus → String
  | .started => "started"
  | .completed => "completed"
  | .failed => "failed"
  | .timeout => "timeout"
  | .rejected => "rejected"
  | .cancelled => "cancelled"

/-- `StepStatus(text)`. -/
def StepStatus.ofValue (text : String) : Option StepStatus :=
  [.started,.completed,.failed,.timeout,.rejected,.cancelled].find? (·.value = text)

theorem StepStatus.ofValue_value (status : StepStatus) :
    StepStatus.ofValue status.value = some status := by
  cases status <;> decide

/-- Machine-readable reason a task did not produce a verified result. -/
inductive FailureReason where
  | agentError | timeout | stepLimit | verificationFailed | unknownAgent | handoffFailed
  | policyViolation | cancelled | internal
  deriving DecidableEq

def FailureReason.value : FailureReason → String
  | .agentError => "agent_error"
  | .timeout => "timeout"
  | .stepLimit => "step_limit"
  | .verificationFailed => "verification_failed"
  | .unknownAgent => "unknown_agent"
  | .handoffFailed => "handoff_failed"
  | .policyViolation => "policy_violation"
  | .cancelled => "cancelled"
  | .internal => "internal"

/-- A single step. What it observed and produced are values of any kind. -/
structure StepRecord (V : Type) where
  stepIndex : Int
  status : StepStatus
  description : String
  input : V
  output : V
  error : Option String
  elapsedSeconds : Decimal

def zeroSeconds : Decimal := .zero

inductive OutcomeKind where
  | verified | failure | interrupted
  deriving DecidableEq

def OutcomeKind.value : OutcomeKind → String
  | .verified => "verified"
  | .failure => "failure"
  | .interrupted => "interrupted"

/-- The terminal decision of a task, as stored for replay. -/
structure StoredOutcome (V : Type) where
  kind : OutcomeKind
  output : V
  reason : Option String
  message : String

structure StoredTrajectory (V : Type) where
  trajectoryId : String
  taskId : String
  agentName : String
  steps : List (StepRecord V)
  outcome : StoredOutcome V

namespace StoredOutcome

def verified (output : Json) : StoredOutcome Json := ⟨.verified,output,none,""⟩

def failure (reason : FailureReason) (message : String) : StoredOutcome Json :=
  ⟨.failure,.null,some reason.value,message⟩

def interrupted : StoredOutcome Json := ⟨.interrupted,.null,none,""⟩

/-- Python's `==`. -/
def pyEq (o p : StoredOutcome Json) : Bool :=
  o.kind = p.kind && Json.pyEq o.output p.output && o.reason = p.reason && o.message = p.message

end StoredOutcome

/-- Python's `==`. -/
def StepRecord.pyEq (s t : StepRecord Json) : Bool :=
  s.stepIndex = t.stepIndex && s.status = t.status && s.description = t.description &&
    Json.pyEq s.input t.input && Json.pyEq s.output t.output && s.error = t.error &&
    s.elapsedSeconds.double = t.elapsedSeconds.double

def stepsEq : List (StepRecord Json) → List (StepRecord Json) → Bool
  | [], [] => true
  | s :: ss, t :: ts => s.pyEq t && stepsEq ss ts
  | _, _ => false

/-- Python's `==`. -/
def StoredTrajectory.pyEq (t u : StoredTrajectory Json) : Bool :=
  t.trajectoryId = u.trajectoryId && t.taskId = u.taskId && t.agentName = u.agentName &&
    stepsEq t.steps u.steps && t.outcome.pyEq u.outcome

open Network (ValueType)

/-- A Python value as agents, tools and the Manager pass it on. An `object` is of any other type. -/
inductive Value where
  | none : Value
  | bool : Bool → Value
  | int : Int → Value
  | float : Decimal → Value
  | str : String → Value
  | list : List Value → Value
  | tuple : List Value → Value
  | dict : List (String × Value) → Value
  | object : String → Nat → Value

namespace Value

/-- `type(value).__name__`. -/
def typeName : Value → String
  | .none => "NoneType"
  | .bool _ => "bool"
  | .int _ => "int"
  | .float _ => "float"
  | .str _ => "str"
  | .list _ => "list"
  | .tuple _ => "tuple"
  | .dict _ => "dict"
  | .object name _ => name

/-- `_TYPE_CHECKERS`. -/
def isOf : ValueType → Value → Bool
  | .any, _ => true
  | .str, .str _ => true
  | .int, .int _ => true
  | .float, .float _ => true
  | .bool, .bool _ => true
  | .dict, .dict _ => true
  | .list, .list _ => true
  | .null, .none => true
  | _, _ => false

def optional {α : Type} (f : α → Value) : Option α → Value
  | Option.none => .none
  | some a => f a

def seconds (d : Decimal) : String := String.ofList d.chars

end Value

inductive HandoffSchema where
  | scalar : ValueType → HandoffSchema
  | fields : Dict String ValueType → HandoffSchema

def validateFields (items : List (String × Value)) : List (String × ValueType) → Bool × String
  | [] => (true,"Payload matches the declared object schema.")
  | (field,type) :: rest =>
    match Dict.lookup items field with
    | none => (false,"Missing required field " ++ pyRepr field ++ ".")
    | some value =>
      if value.isOf type then validateFields items rest
      else (false,"Field " ++ pyRepr field ++ " is not of expected type " ++ pyRepr type.name ++ ".")

def validateHandoff (payload : Value) : HandoffSchema → Bool × String
  | .scalar type =>
    if payload.isOf type then (true,"Payload matches scalar type " ++ pyRepr type.name ++ ".")
    else (false,"Payload is not of expected type " ++ pyRepr type.name ++ ".")
  | .fields schema =>
    match payload with
    | .dict items => validateFields items schema.entries
    | _ => (false,"Payload is not a mapping; expected an object schema.")

structure ResourceEnvelope where
  timeoutSeconds : Decimal
  maxSteps : Nat
  maxStepSeconds : Option Decimal
  timeout_pos : 0 < timeoutSeconds.double
  steps_pos : 0 < maxSteps
  step_pos : ∀ d ∈ maxStepSeconds, 0 < d.double

structure Capability where
  name : String
  version : String
  deriving DecidableEq

/-- Exactly one of `agent_name` and `capability`. -/
inductive Selector where
  | agentName : String → Selector
  | capability : Capability → Selector

structure StageSpec where
  selector : Selector
  grantedTools : List String
  stageEnvelope : Option ResourceEnvelope
  outputSchema : Option HandoffSchema
  inputSchema : Option HandoffSchema

structure ParallelComposition where
  stages : List StageSpec
  nonempty : stages ≠ []

inductive Stage where
  | agent : StageSpec → Stage
  | group : ParallelComposition → Stage

structure SequentialComposition where
  stages : List Stage
  nonempty : stages ≠ []

/-- A task is for one agent, or it is exactly one of the compositions. -/
inductive Work where
  | single : Selector → Work
  | pipeline : SequentialComposition → Work
  | parallel : ParallelComposition → Work

structure PolicyDecision where
  allowed : Bool
  reason : Option String

structure Policy where
  allowAgents : List String
  denyAgents : List String
  allowCapabilities : List Capability
  denyCapabilities : List Capability
  allowTools : List String
  denyTools : List String

namespace Policy

/-- What is denied is denied. Otherwise a nonempty set of what is allowed decides. -/
def check {α : Type} [DecidableEq α] (allow deny : List α) (item : α) (label : String) :
    PolicyDecision :=
  if item ∈ deny then ⟨false,some (label ++ " denied by policy")⟩
  else if allow ≠ [] ∧ item ∉ allow then ⟨false,some (label ++ " not allowed by policy")⟩
  else ⟨true,none⟩

def checkAgent (policy : Policy) (agentName : String) : PolicyDecision :=
  check policy.allowAgents policy.denyAgents agentName ("agent " ++ pyRepr agentName)

def checkCapability (policy : Policy) (capability : Capability) : PolicyDecision :=
  check policy.allowCapabilities policy.denyCapabilities capability
    ("capability " ++ pyRepr capability.name ++ " (v" ++ capability.version ++ ")")

def checkTool (policy : Policy) (toolName : String) : PolicyDecision :=
  check policy.allowTools policy.denyTools toolName ("tool " ++ pyRepr toolName)

end Policy

structure TaskSpecification where
  taskId : String
  work : Work
  payload : Value
  envelope : ResourceEnvelope
  grantedTools : List String
  policy : Option Policy

structure AgentComponentManifest where
  name : String
  entryPoint : String
  declaredCapabilities : List Capability

structure Registry where
  byName : Dict String AgentComponentManifest
  byCapability : Dict Capability AgentComponentManifest
  named : ∀ name manifest, byName.get name = some manifest → manifest.name = name
  owned : ∀ capability manifest, byCapability.get capability = some manifest →
    byName.get manifest.name = some manifest ∧ capability ∈ manifest.declaredCapabilities

namespace Registry

def empty : Registry := ⟨.empty,.empty,by simp,by simp⟩

def ownedError (capability : Capability) (owner manifest : AgentComponentManifest) : String :=
  "Capability " ++ pyRepr capability.name ++ " (v" ++ capability.version ++ ") is already " ++
    "declared by agent " ++ pyRepr owner.name ++ "; cannot register " ++ pyRepr manifest.name ++ "."

def conflict (registry : Registry) (manifest : AgentComponentManifest) :
    List Capability → Option String
  | [] => none
  | capability :: rest =>
    match registry.byCapability.get capability with
    | some owner => some (ownedError capability owner manifest)
    | none => registry.conflict manifest rest

def claims (manifest : AgentComponentManifest) : List (Capability × AgentComponentManifest) :=
  manifest.declaredCapabilities.map fun capability => (capability,manifest)

/-- What `register` leaves when all checks passed. -/
def commit (registry : Registry) (manifest : AgentComponentManifest)
    (h : registry.byName.get manifest.name = none) : Registry where
  byName := registry.byName.set manifest.name manifest
  byCapability := registry.byCapability.update (claims manifest)
  named := by
    intro name found hfound
    rw [Dict.get_set] at hfound
    by_cases hname : manifest.name = name
    · rw [if_pos hname] at hfound
      cases hfound
      exact hname
    · rw [if_neg hname] at hfound
      exact registry.named name found hfound
  owned := by
    intro capability found hfound
    rcases Dict.get_update_cases registry.byCapability (claims manifest) capability with hold | hmem
    · rw [hold.2] at hfound
      obtain ⟨hget,hdeclared⟩ := registry.owned capability found hfound
      refine ⟨?_,hdeclared⟩
      have hne : manifest.name ≠ found.name := by
        intro heq
        rw [heq,hget] at h
        cases h
      rw [Dict.get_set_ne _ _ hne,hget]
    · obtain ⟨owner,howner,hget⟩ := hmem
      rw [hget] at hfound
      cases hfound
      obtain ⟨c,hc,heq⟩ := List.mem_map.1 howner
      cases heq
      exact ⟨Dict.get_set_self _ _ _,hc⟩

def register (registry : Registry) (manifest : AgentComponentManifest) : Except String Registry :=
  if h : registry.byName.get manifest.name = none then
    match registry.conflict manifest manifest.declaredCapabilities with
    | some message => .error message
    | none => .ok (registry.commit manifest h)
  else .error ("Agent " ++ pyRepr manifest.name ++ " is already registered.")

def getByName (registry : Registry) (name : String) : Option AgentComponentManifest :=
  registry.byName.get name

def getByCapability (registry : Registry) (capability : Capability) :
    Option AgentComponentManifest :=
  registry.byCapability.get capability

/-- `_resolve` and `_resolve_stage`. -/
def resolve (registry : Registry) : Selector → Option AgentComponentManifest
  | .agentName name => registry.getByName name
  | .capability capability => registry.getByCapability capability

theorem name_of_resolve (registry : Registry) {name : String}
    {manifest : AgentComponentManifest} (h : registry.resolve (.agentName name) = some manifest) :
    manifest.name = name :=
  registry.named name manifest h

end Registry

end AgentCentric.Manager

import AgentCentric.Library.Act
import AgentCentric.Provider.Plan

namespace AgentCentric.Provider

inductive CallKind where
  | observe | apply | health | teardown
  deriving DecidableEq

def CallKind.text : CallKind → String
  | .observe => "observe"
  | .apply => "apply"
  | .health => "health"
  | .teardown => "teardown"

def CallKind.action : CallKind → EvidenceAction
  | .observe => .observe
  | .apply => .apply
  | .health => .health
  | .teardown => .teardown

/-- The change that an `apply` call asks for. -/
structure Change where
  kind : String
  name : String
  digest : Digest
  action : PlanAction
  kind_ne : kind ≠ ""
  name_ne : name ≠ ""
  mutating : action.isMutating = true

def Change.key (c : Change) : ResourceKey := ⟨c.kind,c.name,c.kind_ne,c.name_ne⟩

inductive Request where
  | observe | health | teardown
  | apply : Change → Request

def Request.op : Request → CallKind
  | .observe => .observe
  | .health => .health
  | .teardown => .teardown
  | .apply _ => .apply

/-- One call of the provider's interface. Only an `apply` call names a resource. -/
structure ProviderCall where
  provider : String
  request : Request
  provider_ne : provider ≠ ""

def ProviderCall.toDict (c : ProviderCall) : Json :=
  match c.request with
  | .apply change =>
    .dict [("op",.str "apply"),("provider",.str c.provider),("kind",.str change.kind),
      ("name",.str change.name),("digest",.str change.digest.text),
      ("change",.str change.action.text)]
  | request =>
    .dict [("op",.str request.op.text),("provider",.str c.provider),("kind",.str ""),
      ("name",.str ""),("digest",.str ""),("change",.str "")]

def ProviderCall.hash (sha256 : List Char → Digest) (c : ProviderCall) : String :=
  (sha256 c.toDict.bytes).text

def PlanStep.toChange (s : PlanStep) : Except String Change :=
  match hdigest : s.digest with
  | some digest =>
    .ok ⟨s.kind,s.name,digest,s.action,s.kind_ne,s.name_ne,by rw [s.pinned,hdigest]; rfl⟩
  | none => .error "an apply call must carry a 64-hex digest: ''"

/-- The untrusted response of a call. -/
structure ProviderResult where
  ok : Bool
  observed : List ObservedResource
  detail : String

abbrev Outer (W α : Type) := Act String W α

/-- A runtime: the provider, its adapter and its notifier, both of which act on the world
outside, and the events the notifier is bound to. -/
structure Runtime (W : Type) where
  id : String
  id_ne : id ≠ ""
  target : ProviderTarget
  adapter : ProviderCall → Outer W ProviderResult
  notifier : NotificationEvent → ProviderPlan → Outer W Unit
  binding : Option (List NotificationEvent)
  maxAttempts : Nat
  positive : 0 < maxAttempts

/-- The ledger, and the world outside. What was called and what was to be recorded is kept for
the statements about runs, nothing reads it. -/
structure Scene (W : Type) where
  ledger : Ledger
  world : W
  calls : List (Request × Bool)
  records : List Evidence

def Scene.new {W : Type} (w : W) : Scene W := ⟨[],w,[],[]⟩

abbrev Step (W α : Type) := Act String (Scene W) α

/-- Something done outside leaves the ledger alone. -/
def outside {W α : Type} (m : Outer W α) : Step W α := fun s =>
  let r := m s.world
  (r.1,{ s with world := r.2 })

structure ReconcileResult where
  action : ReconcileAction
  plan : ProviderPlan
  attempts : Nat

namespace Runtime

def record {W : Type} (sha256 : List Char → Digest) (e : Evidence) : Step W Unit :=
  Act.write fun s => { s with
    ledger := s.ledger.append sha256 e
    records := s.records ++ [e] }

/-- `_call`: the call, and the record of its response. -/
def call {W : Type} (sha256 : List Char → Digest) (R : Runtime W) (request : Request)
    (planHash : String) : Step W ProviderResult := do
  let c : ProviderCall := ⟨R.id,request,R.id_ne⟩
  let result ← outside (R.adapter c)
  Act.write fun s => { s with calls := s.calls ++ [(request,result.ok)] }
  record sha256
    ⟨request.op.action,c.hash sha256,R.id,planHash,result.ok,result.detail,none,none⟩
  pure result

def observe {W : Type} (sha256 : List Char → Digest) (R : Runtime W) :
    Step W (List ObservedResource) := do
  let result ← R.call sha256 .observe ""
  if result.ok then pure result.observed
  else Act.raise ("provider observe failed: " ++ result.detail)

def health {W : Type} (sha256 : List Char → Digest) (R : Runtime W) (plan : ProviderPlan) :
    Step W Bool := do
  let result ← R.call sha256 .health (plan.hash sha256).text
  pure result.ok

def applySteps {W : Type} (sha256 : List Char → Digest) (R : Runtime W) (plan : ProviderPlan) :
    List PlanStep → Step W Bool
  | [] => pure true
  | s :: rest => do
      let change ← Act.lift s.toChange
      let result ← R.call sha256 (.apply change) (plan.hash sha256).text
      if result.ok then R.applySteps sha256 plan rest else pure false

def apply {W : Type} (sha256 : List Char → Digest) (R : Runtime W) (plan : ProviderPlan)
    (expectedHash : Digest) (approved : Bool) : Step W Bool := do
  Act.lift (assertPlanAppliable sha256 plan expectedHash approved)
  if plan.isConverged then pure true
  else R.applySteps sha256 plan plan.mutatingSteps

/-- `_plan`: towards the desired state, from what is observed now. -/
def plan {W : Type} (sha256 : List Char → Digest) (R : Runtime W) (desired : List ResourceSpec) :
    Step W ProviderPlan := do
  let observed ← R.observe sha256
  Act.lift (planProvider sha256 R.id desired observed R.target)

def transition {W : Type} (sha256 : List Char → Digest) (R : Runtime W) (action : EvidenceAction)
    (ok : Bool) (plan : ProviderPlan) (desired : Option (List ResourceSpec)) : Evidence :=
  ⟨action,(sha256 (action.text ++ ":" ++ (plan.hash sha256).text).toList).text,R.id,
    (plan.hash sha256).text,ok,"",some plan.toItems,
    desired.map fun ds => ds.map ResourceSpec.toDict⟩

def notify {W : Type} (R : Runtime W) (event : NotificationEvent) (plan : ProviderPlan) :
    Step W Unit :=
  match R.binding with
  | some events =>
    if event ∈ events then outside (R.notifier event plan)
    else Act.raise ("notification event " ++ pyRepr event.text ++
      " is not bound to this component.")
  | none => outside (R.notifier event plan)

def applyHealthy {W : Type} (sha256 : List Char → Digest) (R : Runtime W) (plan : ProviderPlan)
    (approved : Bool) : Step W Bool := do
  let applied ← R.apply sha256 plan (plan.hash sha256) approved
  if applied then R.health sha256 plan else pure false

def passes {W : Type} (sha256 : List Char → Digest) (R : Runtime W) (plan : ProviderPlan)
    (approved : Bool) : Step W Bool :=
  if plan.isConverged then R.health sha256 plan else R.applyHealthy sha256 plan approved

def rollback {W : Type} (sha256 : List Char → Digest) (R : Runtime W)
    (previous : List ResourceSpec) : Step W Bool := do
  let target ← R.plan sha256 previous
  let rolledBack ← R.applyHealthy sha256 target true
  if rolledBack then
    record sha256 (R.transition sha256 .rolledBack true target none)
    R.notify .rolledBack target
    pure true
  else pure false

/-- How the loop of `reconcile` ends: healthy, or escalated. -/
inductive Verdict where
  | healthy : ProviderPlan → Nat → Verdict
  | escalated : ProviderPlan → Nat → Verdict

def escalate {W : Type} (sha256 : List Char → Digest) (R : Runtime W) (plan : ProviderPlan)
    (attempts : Nat) : Step W Verdict := do
  record sha256 (R.transition sha256 .escalated false plan none)
  R.notify .escalated plan
  pure (.escalated plan attempts)

/-- The loop of `reconcile`. Every round but the last one makes an attempt, so that as many
rounds as attempts are enough. -/
def settle {W : Type} (sha256 : List Char → Digest) (R : Runtime W) (desired : List ResourceSpec)
    (approved : Bool) : Nat → ProviderPlan → Nat → Step W Verdict
  | 0, _, _ => Act.raise "no more rounds"
  | rounds+1, plan, attempts => do
      let passed ← R.passes sha256 plan approved
      if passed then pure (.healthy plan attempts)
      else
        let s ← Act.read
        let previous ← Act.lift s.ledger.lastHealthyDesired
        match reconcileAction false false previous.isSome (attempts + 1) R.maxAttempts,previous with
        | .rollback,some previous =>
            let rolledBack ← R.rollback sha256 previous
            if rolledBack then
              let plan ← R.plan sha256 desired
              R.settle sha256 desired approved rounds plan (attempts + 1)
            else R.escalate sha256 plan (attempts + 1)
        | _,_ => R.escalate sha256 plan (attempts + 1)

def finishConverged {W : Type} (sha256 : List Char → Digest) (R : Runtime W)
    (desired : List ResourceSpec) (plan : ProviderPlan) (hadHistory : Bool) : Step W Unit := do
  record sha256 (R.transition sha256 .healthy true plan (some desired))
  record sha256 (R.transition sha256 .converged true plan none)
  R.notify (if hadHistory then .healed else .provisioned) plan

/-- The part of `reconcile` before it finishes. -/
def drive {W : Type} (sha256 : List Char → Digest) (R : Runtime W) (desired : List ResourceSpec)
    (approved : Bool) : Step W (Bool × Verdict) := do
  let s ← Act.read
  let plan ← R.plan sha256 desired
  let verdict ← R.settle sha256 desired approved R.maxAttempts plan 0
  pure (decide (0 < s.ledger.length),verdict)

def reconcile {W : Type} (sha256 : List Char → Digest) (R : Runtime W) (desired : List ResourceSpec)
    (approved : Bool) : Step W ReconcileResult := do
  let driven ← R.drive sha256 desired approved
  match driven with
  | (hadHistory,.healthy plan attempts) => do
      R.finishConverged sha256 desired plan hadHistory
      pure ⟨.converged,plan,attempts⟩
  | (_,.escalated plan attempts) => pure ⟨.escalate,plan,attempts⟩

end Runtime

/-- The resources that are there, each with the content address of its state. -/
abbrev Hosted := Dict ResourceKey Digest

namespace Hosted

def seed (state : Hosted) (resources : List ObservedResource) : Hosted :=
  state.update (resources.map fun r => (r.key,r.resourceHash))

def ofDesired (sha256 : List Char → Digest) (desired : List ResourceSpec) : Hosted :=
  Dict.empty.update (desired.map fun r => (r.key,r.hash sha256))

def observed (state : Hosted) : List ObservedResource :=
  (state.entries.insertionSort fun a b => a.1.le b.1).map fun e =>
    ⟨e.1.kind,e.1.name,e.2,e.1.kind_ne,e.1.name_ne⟩

def perform (state : Hosted) (c : Change) : Hosted :=
  if c.action = .delete then state.erase c.key else state.set c.key c.digest

end Hosted

/-- `InMemoryProviderAdapter`. -/
structure InMemory where
  failOps : CallKind → Bool
  healthy : Bool
  state : Hosted

namespace InMemory

def call (c : ProviderCall) : Outer InMemory ProviderResult := fun m =>
  if m.failOps c.request.op then (.ok ⟨false,[],c.request.op.text ++ " failed (scripted)"⟩,m)
  else match c.request with
    | .observe => (.ok ⟨true,m.state.observed,""⟩,m)
    | .apply change => (.ok ⟨true,[],""⟩,{ m with state := m.state.perform change })
    | .health => (.ok ⟨m.healthy,[],""⟩,m)
    | .teardown => (.ok ⟨true,[],""⟩,{ m with state := Dict.empty })

end InMemory

def Runtime.inMemory (id : String) (h : id ≠ "") : Runtime InMemory where
  id := id
  id_ne := h
  target := .localTarget
  adapter := InMemory.call
  notifier := fun _ _ => pure ()
  binding := none
  maxAttempts := 3
  positive := by omega

theorem local_ne : "local" ≠ "" := by decide
theorem db_ne : "db" ≠ "" := by decide
theorem main_ne : "main" ≠ "" := by decide

/-- An in-memory adapter with no failures in its script, whose health gate is closed while the
resource is there. -/
def InMemory.poisoned (poison : ResourceKey) (c : ProviderCall) : Outer InMemory ProviderResult :=
  fun m =>
    if c.request.op = .health then (.ok ⟨(m.state.get poison).isNone,[],""⟩,m)
    else InMemory.call c { m with failOps := fun _ => false }

def Runtime.poisoned (poison : ResourceKey) : Runtime InMemory :=
  { Runtime.inMemory "local" local_ne with adapter := InMemory.poisoned poison }

/-- The relation allows whatever may happen before a run ends. -/
structure Allows {W : Type} (sha256 : List Char → Digest) (T : Scene W → Scene W → Prop) : Prop where
  outside : ∀ {α : Type} (m : Outer W α), Act.Keeps T (outside m)
  called : ∀ request ok, Act.Keeps T (Act.write fun s : Scene W =>
    { s with calls := s.calls ++ [(request,ok)] } : Step W Unit)
  recorded : ∀ e : Evidence, e.action ≠ .healthy → e.action ≠ .converged → e.action ≠ .escalated →
    Act.Keeps T (Runtime.record sha256 e)

section
open Act AgentCentric.Provider.Runtime
variable {W : Type} (sha256 : List Char → Digest) (R : Runtime W) {T : Scene W → Scene W → Prop}
  [Std.Refl T] [IsTrans (Scene W) T] (hT : Allows sha256 T)

include hT

theorem keeps_call (request : Request) (planHash : String) :
    Keeps T (R.call sha256 request planHash) := by
  apply keeps_bind (hT.outside _)
  intro result
  apply keeps_bind (hT.called _ _)
  intro _
  apply keeps_bind
  · apply hT.recorded <;> cases request <;> simp [Request.op,CallKind.action]
  · intro _
    exact keeps_pure _

theorem keeps_observe : Keeps T (R.observe sha256) := by
  apply keeps_bind (keeps_call sha256 R hT _ _)
  intro result
  cases result.ok
  · exact keeps_raise _
  · exact keeps_pure _

theorem keeps_health (plan : ProviderPlan) : Keeps T (R.health sha256 plan) :=
  keeps_bind (keeps_call sha256 R hT _ _) fun _ => keeps_pure _

theorem keeps_applySteps (plan : ProviderPlan) (steps : List PlanStep) :
    Keeps T (R.applySteps sha256 plan steps) := by
  induction steps with
  | nil => exact keeps_pure _
  | cons s rest ih =>
    unfold applySteps
    apply keeps_bind
    · exact keeps_lift _
    intro change
    apply keeps_bind (keeps_call sha256 R hT _ _)
    intro result
    cases result.ok
    · exact keeps_pure _
    · exact ih

theorem keeps_apply (plan : ProviderPlan) (expectedHash : Digest) (approved : Bool) :
    Keeps T (R.apply sha256 plan expectedHash approved) := by
  unfold Runtime.apply
  apply keeps_bind
  · exact keeps_lift _
  · intro _
    cases plan.isConverged
    · exact keeps_applySteps sha256 R hT plan _
    · exact keeps_pure _

theorem keeps_plan (desired : List ResourceSpec) : Keeps T (R.plan sha256 desired) :=
  keeps_bind (keeps_observe sha256 R hT) fun _ => keeps_lift _

omit [IsTrans (Scene W) T] in
theorem keeps_notify (event : NotificationEvent) (plan : ProviderPlan) :
    Keeps T (R.notify event plan) := by
  unfold notify
  cases R.binding with
  | none => exact hT.outside _
  | some events =>
    by_cases hbound : event ∈ events
    · simp only [hbound,if_true]
      exact hT.outside _
    · simp only [hbound,if_false]
      exact keeps_raise _

theorem keeps_applyHealthy (plan : ProviderPlan) (approved : Bool) :
    Keeps T (R.applyHealthy sha256 plan approved) := by
  apply keeps_bind (keeps_apply sha256 R hT _ _ _)
  intro applied
  cases applied
  · exact keeps_pure _
  · exact keeps_health sha256 R hT plan

theorem keeps_passes (plan : ProviderPlan) (approved : Bool) :
    Keeps T (R.passes sha256 plan approved) := by
  unfold passes
  cases plan.isConverged
  · exact keeps_applyHealthy sha256 R hT plan approved
  · exact keeps_health sha256 R hT plan

theorem keeps_rollback (previous : List ResourceSpec) : Keeps T (R.rollback sha256 previous) := by
  apply keeps_bind (keeps_plan sha256 R hT previous)
  intro target
  apply keeps_bind (keeps_applyHealthy sha256 R hT target true)
  intro rolledBack
  cases rolledBack
  · exact keeps_pure _
  · apply keeps_bind (hT.recorded _ (by simp [transition]) (by simp [transition]) (by simp [transition]))
    intro _
    apply keeps_bind (keeps_notify sha256 R hT _ _)
    intro _
    exact keeps_pure _

end

end AgentCentric.Provider

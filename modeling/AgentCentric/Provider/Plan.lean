import AgentCentric.Library.Checked
import AgentCentric.Library.Json

namespace AgentCentric.Provider

@[ext] structure ResourceKey where
  kind : String
  name : String
  kind_ne : kind ≠ ""
  name_ne : name ≠ ""

instance : DecidableEq ResourceKey := fun _ _ => decidable_of_iff _ ResourceKey.ext_iff.symm

/-- Python's `repr` of a pair of texts. -/
def ResourceKey.repr (key : ResourceKey) : String :=
  "(" ++ pyRepr key.kind ++ ", " ++ pyRepr key.name ++ ")"

def ResourceKey.le (a b : ResourceKey) : Bool :=
  a.kind < b.kind ∨ a.kind = b.kind ∧ a.name ≤ b.name

structure ResourceSpec where
  kind : String
  name : String
  spec : List (String × Json)
  kind_ne : kind ≠ ""
  name_ne : name ≠ ""

def forbiddenSecretKeys : List String := ["value","secret","plaintext","data","material"]

namespace ResourceSpec

def toDict (r : ResourceSpec) : Json :=
  .dict [("kind",.str r.kind),("name",.str r.name),("spec",.dict r.spec)]

def key (r : ResourceSpec) : ResourceKey := ⟨r.kind,r.name,r.kind_ne,r.name_ne⟩

def hash (sha256 : List Char → Digest) (r : ResourceSpec) : Digest := sha256 r.toDict.bytes

def smuggled (spec : List (String × Json)) : List String :=
  sortStrings (forbiddenSecretKeys.filter fun key => (Dict.lookup spec key).isSome)

/-- `str(value)`. -/
def text : Json → String
  | .str s => s
  | other => other.dumps

def fromDict (data : Json) : Except String ResourceSpec :=
  match data with
  | .dict items =>
    match (Dict.lookup items "spec").getD (.dict []) with
    | .dict spec =>
      if smuggled spec ≠ [] then
        .error ("a resource spec declares secret *references* only; remove " ++
          pyReprList (smuggled spec) ++ " (never store secret material in a plan).")
      else
        match Dict.lookup items "kind",Dict.lookup items "name" with
        | some kind,some name =>
          if hkind : text kind = "" then .error "ResourceSpec kind must be non-empty."
          else if hname : text name = "" then .error "ResourceSpec name must be non-empty."
          else .ok ⟨text kind,text name,spec,hkind,hname⟩
        | _,_ => .error "missing key"
    | _ => .error "ResourceSpec spec must be a mapping."
  | _ => .error "ResourceSpec must be an object."

end ResourceSpec

/-- One observed resource, reduced to its content address. -/
structure ObservedResource where
  kind : String
  name : String
  resourceHash : Digest
  kind_ne : kind ≠ ""
  name_ne : name ≠ ""

def ObservedResource.key (r : ObservedResource) : ResourceKey := ⟨r.kind,r.name,r.kind_ne,r.name_ne⟩

inductive PlanAction where
  | create | update | delete | noop
  deriving DecidableEq

def PlanAction.text : PlanAction → String
  | .create => "create"
  | .update => "update"
  | .delete => "delete"
  | .noop => "noop"

def PlanAction.isMutating : PlanAction → Bool
  | .noop => false
  | _ => true

/-- One action of a plan: it is pinned by a digest exactly if it changes something, and
nothing is deleted without approval. -/
structure PlanStep where
  action : PlanAction
  kind : String
  name : String
  digest : Option Digest
  requiresApproval : Bool
  kind_ne : kind ≠ ""
  name_ne : name ≠ ""
  pinned : action.isMutating = digest.isSome
  approval : action = .delete → requiresApproval = true

def digestText : Option Digest → String
  | some d => d.text
  | none => ""

namespace PlanStep

def key (s : PlanStep) : ResourceKey := ⟨s.kind,s.name,s.kind_ne,s.name_ne⟩

def toDict (s : PlanStep) : Json :=
  .dict [("action",.str s.action.text),("kind",.str s.kind),("name",.str s.name),
    ("digest",.str (digestText s.digest)),("requires_approval",.bool s.requiresApproval)]

def change (action : PlanAction) (h : action = .create ∨ action = .update) (r : ResourceSpec)
    (digest : Digest) (cloud : Bool) : PlanStep where
  action := action
  kind := r.kind
  name := r.name
  digest := some digest
  requiresApproval := cloud
  kind_ne := r.kind_ne
  name_ne := r.name_ne
  pinned := by rcases h with rfl | rfl <;> rfl
  approval := by rcases h with rfl | rfl <;> simp

def noop (r : ResourceSpec) : PlanStep :=
  ⟨.noop,r.kind,r.name,none,false,r.kind_ne,r.name_ne,rfl,by simp⟩

def delete (r : ObservedResource) : PlanStep :=
  ⟨.delete,r.kind,r.name,some r.resourceHash,true,r.kind_ne,r.name_ne,rfl,fun _ => rfl⟩

def le (a b : PlanStep) : Bool :=
  a.kind < b.kind ∨ a.kind = b.kind ∧ (a.name < b.name ∨ a.name = b.name ∧
    a.action.text ≤ b.action.text)

end PlanStep

inductive ProviderTarget where
  | localTarget | cloud
  deriving DecidableEq

def ProviderTarget.text : ProviderTarget → String
  | .localTarget => "local"
  | .cloud => "cloud"

structure ProviderPlan where
  provider : String
  target : ProviderTarget
  desiredHash : Digest
  steps : List PlanStep

namespace ProviderPlan

def new (provider : String) (target : ProviderTarget) (desiredHash : Digest)
    (steps : List PlanStep) : ProviderPlan :=
  ⟨provider,target,desiredHash,steps.insertionSort fun a b => a.le b⟩

def toItems (p : ProviderPlan) : List (String × Json) :=
  [("schema",.str "provider.v1"),("provider",.str p.provider),("target",.str p.target.text),
    ("desired_hash",.str p.desiredHash.text),("steps",.list (p.steps.map PlanStep.toDict))]

def hash (sha256 : List Char → Digest) (p : ProviderPlan) : Digest :=
  sha256 (Json.dict p.toItems).bytes

def mutatingSteps (p : ProviderPlan) : List PlanStep := p.steps.filter fun s => s.action.isMutating

def isConverged (p : ProviderPlan) : Bool := p.mutatingSteps.isEmpty

end ProviderPlan

def byKey {α : Type} (key : α → ResourceKey) (what : String) :
    List α → Dict ResourceKey α → Except String (Dict ResourceKey α)
  | [], d => .ok d
  | r :: rest, d =>
    if (d.get (key r)).isSome then
      .error ("duplicate " ++ what ++ " resource: " ++ (key r).repr)
    else byKey key what rest (d.set (key r) r)

def sortedKeys {α : Type} (d : Dict ResourceKey α) : List ResourceKey :=
  d.keys.insertionSort fun a b => a.le b

def desiredStep (sha256 : List Char → Digest) (cloud : Bool) (current : Option ObservedResource)
    (r : ResourceSpec) : PlanStep :=
  match current with
  | none => .change .create (.inl rfl) r (r.hash sha256) cloud
  | some observed =>
    if observed.resourceHash ≠ r.hash sha256 then
      .change .update (.inr rfl) r (r.hash sha256) cloud
    else .noop r

def inKeyOrder {α : Type} (d : Dict ResourceKey α) : List α := (sortedKeys d).filterMap d.get

def planSteps (sha256 : List Char → Digest) (cloud : Bool) (desired : Dict ResourceKey ResourceSpec)
    (observed : Dict ResourceKey ObservedResource) : List PlanStep :=
  let surplus := (sortedKeys observed).filter fun key => (desired.get key).isNone
  (inKeyOrder desired).map (fun r => desiredStep sha256 cloud (observed.get r.key) r) ++
    (surplus.filterMap observed.get).map PlanStep.delete

def desiredDocument (desired : Dict ResourceKey ResourceSpec) : Json :=
  .dict [("resources",.list ((inKeyOrder desired).map ResourceSpec.toDict))]

/-- `plan_provider`: the difference of desired and observed state. -/
def planProvider (sha256 : List Char → Digest) (provider : String) (desired : List ResourceSpec)
    (observed : List ObservedResource) (target : ProviderTarget) : Except String ProviderPlan := do
  require (provider ≠ "") "provider id must be non-empty."
  let desiredByKey ← byKey ResourceSpec.key "desired" desired Dict.empty
  let observedByKey ← byKey ObservedResource.key "observed" observed Dict.empty
  pure (ProviderPlan.new provider target (sha256 (desiredDocument desiredByKey).bytes)
    (planSteps sha256 (target = .cloud) desiredByKey observedByKey))

/-- `assert_plan_appliable`. A step that changes something is pinned by construction. -/
def assertPlanAppliable (sha256 : List Char → Digest) (plan : ProviderPlan) (expectedHash : Digest)
    (approved : Bool) : Except String Unit := do
  require (plan.hash sha256 = expectedHash)
    "provider plan drifted: the pinned hash does not match the plan (refused before apply)."
  forEach (fun step : PlanStep => require (¬ step.requiresApproval ∨ approved)
    ("plan step " ++ step.action.text ++ " " ++ step.kind ++ "/" ++ step.name ++
      " requires operator approval (refused).")) plan.steps

inductive ReconcileAction where
  | converged | apply | rollback | escalate
  deriving DecidableEq

def reconcileAction (converged healthOk rollbackAvailable : Bool) (attempts maxAttempts : Nat) :
    ReconcileAction :=
  if converged then .converged
  else if healthOk then .apply
  else if rollbackAvailable ∧ attempts < maxAttempts then .rollback
  else .escalate

inductive NotificationEvent where
  | provisioned | healed | rolledBack | escalated
  deriving DecidableEq

def NotificationEvent.text : NotificationEvent → String
  | .provisioned => "provisioned"
  | .healed => "healed"
  | .rolledBack => "rolled-back"
  | .escalated => "escalated"

/-- What a desired resource is once it was written and read back. -/
def ResourceSpec.canonical (r : ResourceSpec) : ResourceSpec :=
  { r with spec := Json.sorted r.spec }

def ResourceSpec.Clean (r : ResourceSpec) : Prop := ResourceSpec.smuggled r.spec = []

inductive EvidenceAction where
  | observe | apply | health | teardown | converged | healthy | rolledBack | escalated
  deriving DecidableEq

def EvidenceAction.text : EvidenceAction → String
  | .observe => "observe"
  | .apply => "apply"
  | .health => "health"
  | .teardown => "teardown"
  | .converged => "converged"
  | .healthy => "healthy"
  | .rolledBack => "rolled-back"
  | .escalated => "escalated"

structure Evidence where
  action : EvidenceAction
  callHash : String
  provider : String
  planHash : String
  ok : Bool
  detail : String
  plan : Option (List (String × Json))
  desired : Option (List Json)

namespace Evidence

def toItems (e : Evidence) : List (String × Json) :=
  [("schema",.str "provider.evidence/v1"),("action",.str e.action.text),
    ("call_hash",.str e.callHash),("provider",.str e.provider),("plan_hash",.str e.planHash),
    ("ok",.bool e.ok),("detail",.str e.detail),("plan",(e.plan.map Json.dict).getD .null),
    ("desired",(e.desired.map Json.list).getD .null)]

def fingerprint (sha256 : List Char → Digest) (e : Evidence) : Digest :=
  sha256 (Json.dict e.toItems).bytes

def line (sha256 : List Char → Digest) (e : Evidence) : String :=
  (Json.dict (e.toItems ++ [("fingerprint",.str (e.fingerprint sha256).text)])).compact

/-- The record as it is read back: its documents have their keys in order. -/
def reread (e : Evidence) : Evidence :=
  { e with
    plan := e.plan.map Json.sorted
    desired := e.desired.map fun documents => documents.map Json.canonical }

end Evidence

/-- The records of the file, each with the fingerprint that stands on its line. -/
structure Entry where
  fingerprint : Digest
  evidence : Evidence

abbrev Ledger := List Entry

namespace Ledger

def holds (ledger : Ledger) (fingerprint : Digest) : Bool :=
  ledger.any fun entry => entry.fingerprint = fingerprint

/-- A record whose fingerprint is there already is not written again. -/
def append (sha256 : List Char → Digest) (ledger : Ledger) (e : Evidence) : Ledger :=
  if ledger.holds (e.fingerprint sha256) then ledger
  else ledger ++ [⟨e.fingerprint sha256,e.reread⟩]

def healthyDesired (entry : Entry) : Option (List Json) :=
  if entry.evidence.action = .healthy then entry.evidence.desired else none

def readDesired (documents : List Json) : Except String (List ResourceSpec) :=
  documents.mapM ResourceSpec.fromDict

def lastHealthy (ledger : Ledger) : Option (List Json) := ledger.reverse.findSome? healthyDesired

def lastHealthyDesired (ledger : Ledger) : Except String (Option (List ResourceSpec)) :=
  match ledger.lastHealthy with
  | none => .ok none
  | some documents => (readDesired documents).map some

theorem holds_append (sha256 : List Char → Digest) (ledger : Ledger) (e : Evidence) :
    (ledger.append sha256 e).holds (e.fingerprint sha256) = true := by
  unfold append
  split
  · assumption
  · simp [holds]

theorem lastHealthy_concat (ledger : Ledger) (entry : Entry) :
    lastHealthy (ledger ++ [entry]) = (healthyDesired entry).or ledger.lastHealthy := by
  unfold lastHealthy
  rw [List.reverse_append,List.reverse_singleton,List.singleton_append,List.findSome?_cons]
  cases healthyDesired entry <;> rfl

/-- Only records of healthy plans count. -/
theorem append_other (sha256 : List Char → Digest) (ledger : Ledger) {e : Evidence}
    (h : e.action ≠ .healthy) : (ledger.append sha256 e).lastHealthy = ledger.lastHealthy := by
  unfold append
  split
  · rfl
  · rw [lastHealthy_concat]
    simp [healthyDesired,Evidence.reread,h]

theorem append_healthy (sha256 : List Char → Digest) (ledger : Ledger) {e : Evidence}
    {documents : List Json} (haction : e.action = .healthy) (hdesired : e.desired = some documents) :
    (ledger.append sha256 e).lastHealthy =
      if ledger.holds (e.fingerprint sha256) then ledger.lastHealthy
      else some (documents.map Json.canonical) := by
  unfold append
  split
  · rfl
  · rw [lastHealthy_concat]
    simp [healthyDesired,Evidence.reread,haction,hdesired]

end Ledger

namespace Evidence

def actionOf (t : String) : Option EvidenceAction :=
  [EvidenceAction.observe,.apply,.health,.teardown,.converged,.healthy,.rolledBack,.escalated].find?
    fun a => a.text = t

def optionalDict : Json → Option (List (String × Json))
  | .dict items => some items
  | _ => none

def optionalList : Json → Option (List Json)
  | .list xs => some xs
  | _ => none

/-- `from_dict`, of a document as `to_dict` makes it. -/
def fromItems (items : List (String × Json)) : Option Evidence :=
  match Dict.lookup items "action",Dict.lookup items "call_hash",Dict.lookup items "provider",
      Dict.lookup items "plan_hash",Dict.lookup items "ok",Dict.lookup items "detail" with
  | some (.str action),some (.str callHash),some (.str provider),some (.str planHash),
      some (.bool ok),some (.str detail) =>
    (actionOf action).map fun action =>
      ⟨action,callHash,provider,planHash,ok,detail,
        optionalDict ((Dict.lookup items "plan").getD .null),
        optionalList ((Dict.lookup items "desired").getD .null)⟩
  | _,_,_,_,_,_ => none

def readLine (text : String) : Option (String × Evidence) :=
  match Json.loads text with
  | some (.dict items) =>
    match Dict.lookup items "fingerprint",fromItems items with
    | some (.str fingerprint),some e => some (fingerprint,e)
    | _,_ => none
  | _ => none

theorem actionOf_text (a : EvidenceAction) : actionOf a.text = some a := by
  cases a <;> decide

theorem readLine_line (sha256 : List Char → Digest) (e : Evidence) :
    readLine (e.line sha256) = some ((e.fingerprint sha256).text,e.reread) := by
  have hget : ∀ key, Dict.lookup (Json.sorted (e.toItems ++
      [("fingerprint",Json.str (e.fingerprint sha256).text)])) key =
      (Dict.lookup (e.toItems ++
        [("fingerprint",Json.str (e.fingerprint sha256).text)]) key).map Json.canonical :=
    Json.lookup_sorted _
  have hplan : optionalDict (((e.plan.map Json.dict).getD .null).canonical) =
      e.plan.map Json.sorted := by
    cases e.plan with
    | none => rfl
    | some items => simp [Json.canonical_dict,optionalDict]
  have hdesired : optionalList (((e.desired.map Json.list).getD .null).canonical) =
      e.desired.map fun documents => documents.map Json.canonical := by
    cases e.desired with
    | none => rfl
    | some documents => simp [Json.canonical_list,optionalList]
  unfold readLine line
  rw [Json.loads_compact,Json.canonical_dict]
  simp only [fromItems,hget]
  simp [toItems,Dict.lookup,Json.canonical,actionOf_text,hplan,hdesired,reread]

end Evidence
end AgentCentric.Provider

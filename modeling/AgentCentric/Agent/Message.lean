import AgentCentric.Library.JsonAccess

namespace AgentCentric

/-- A Python value: what JSON can write, or any other object, known by its identity. -/
inductive PyValue where
  | json : Json → PyValue
  | object : Nat → PyValue

/-- An exception. `_dispatch` turns those of the first kind (`ProtocolError`, `ValueError`,
`KeyError`) into an error response and lets the others through. -/
inductive Raised where
  | rejected : String → Raised
  | escaped : String → Raised
  deriving DecidableEq

def Raised.text : Raised → String
  | .rejected t => t
  | .escaped t => t

inductive DirectiveKind where
  | configure | run | spawn | ping | kill | register | resolve | stateGet | stateSet | audit
  deriving DecidableEq

instance : LawfulBEq (String × DirectiveKind) := inferInstance

def DirectiveKind.text : DirectiveKind → String
  | .configure => "configure"
  | .run => "run"
  | .spawn => "spawn"
  | .ping => "ping"
  | .kill => "kill"
  | .register => "register"
  | .resolve => "resolve"
  | .stateGet => "state_get"
  | .stateSet => "state_set"
  | .audit => "audit"

inductive ResponseKind where
  | ok | result | error | telemetry
  deriving DecidableEq

def ResponseKind.text : ResponseKind → String
  | .ok => "ok"
  | .result => "result"
  | .error => "error"
  | .telemetry => "telemetry"

def ResponseKind.ofText (t : String) : Option ResponseKind :=
  [ResponseKind.ok,.result,.error,.telemetry].find? fun k => k.text = t

namespace Json

def isNull : Json → Bool
  | .null => true
  | _ => false

def isNumber : Json → Bool
  | .int _ | .decimal _ | .nan | .infinity | .negInfinity => true
  | _ => false

/-- `value <= n`. Nothing is compared with `nan`, and what is no number is not compared. -/
def atMost (bound : Json) (n : Nat) : Bool :=
  match bound with
  | .int i => i ≤ n
  | .decimal d => d.value ≤ n
  | .bool b => b.toNat ≤ n
  | .negInfinity => true
  | _ => false

def lessThan (bound : Json) (n : Nat) : Bool :=
  match bound with
  | .int i => i < n
  | .decimal d => d.value < n
  | .bool b => b.toNat < n
  | .negInfinity => true
  | _ => false

def isStr : Json → Bool
  | .str _ => true
  | _ => false

/-- `for name in value`. -/
def elements : Json → Except Raised (List Json)
  | .list xs => .ok xs
  | .str s => .ok (s.toList.map fun c => .str (String.ofList [c]))
  | .dict items => .ok (items.map fun item => .str item.1)
  | other => .error (.escaped ("'" ++ other.typeName ++ "' object is not iterable"))

def field (payload : Dict String Json) (key : String) : Json := (payload.get key).getD .null

end Json

/-- A unit of work sent down the tree. -/
structure Directive where
  correlationId : String
  kind : DirectiveKind
  payload : Dict String Json

structure Fingerprint where
  correlationId : String
  kind : DirectiveKind
  canonic : String
  deriving DecidableEq

def Directive.fingerprint (d : Directive) : Fingerprint :=
  ⟨d.correlationId,d.kind,(Json.dict d.payload.entries).dumps⟩

theorem Directive.get_of_fingerprint {d e : Directive} (h : d.fingerprint = e.fingerprint)
    (key : String) :
    (d.payload.get key).map Json.canonical = (e.payload.get key).map Json.canonical := by
  have hcanonic := congrArg Fingerprint.canonic h
  have hperm := Json.perm_of_dumps hcanonic
  simp only [Json.canonicalItems_eq] at hperm
  have hnodup : ((d.payload.entries.map fun p => (p.1,p.2.canonical)).map Prod.fst).Nodup := by
    have heq : (d.payload.entries.map fun p => (p.1,p.2.canonical)).map Prod.fst =
        d.payload.entries.map Prod.fst := by
      rw [List.map_map]
      rfl
    rw [heq]
    exact d.payload.nodup
  have hlookup := Dict.lookup_perm hperm hnodup key
  rwa [Dict.lookup_map,Dict.lookup_map] at hlookup

/-- `"|".join(fingerprint)`. -/
def Fingerprint.text (f : Fingerprint) : String :=
  f.correlationId ++ "|" ++ f.kind.text ++ "|" ++ f.canonic

/-- The outcome of a directive. A child's response is taken from the wire, so that all
fields but the first two hold whatever JSON it sent. `None` is `null`. -/
structure Response where
  correlationId : String
  kind : ResponseKind
  value : PyValue
  verified : Json
  node : Json
  error : Json
  source : Json
  sources : Json
  confidence : Json
  modelRecord : Json

/-- The defaults of the class. -/
def Response.plain (correlationId : String) (kind : ResponseKind) (verified : Bool)
    (node : String) : Response :=
  ⟨correlationId,kind,.json .null,.bool verified,.str node,.null,.str "",.null,.null,.null⟩

def Response.failure (correlationId node message : String) : Response :=
  { Response.plain correlationId .error false node with error := .str message }

def maxModelConfidence : Rat := 99 / 100

def isContentHash : Json → Bool
  | .str s => isSha256 s
  | _ => false

def confidenceInRange : Json → Bool
  | .int n => n = 0
  | .decimal d => 0 ≤ d.value ∧ d.value ≤ maxModelConfidence
  | _ => false

/-- The messages of `ProtocolError` are text only: they are caught where they are raised. -/
def validateResponse (msg : Response) : Except String Unit := do
  require (msg.correlationId ≠ "") "response is missing a correlation id"
  require (¬ (msg.kind = .result ∧ ¬ msg.verified.truthy))
    "a 'result' response must be verified"
  require (¬ (msg.kind = .error ∧ msg.verified.truthy))
    "an 'error' response must not be verified"
  require msg.source.isStr "response source must be a string"
  match msg.confidence with
  | .null => pure ()
  | confidence => do
      require confidence.isNumber "response confidence must be numeric"
      require (confidenceInRange confidence) "response confidence must be in [0.0, 0.99]"
  match msg.modelRecord with
  | .null => pure ()
  | record =>
      require (isContentHash record)
        "response model_record must be a 64-character lowercase hex digest"

open Json

/-- `dict(pairs)`: each element must be a sequence of two, the first of which can be a key. -/
def checkPairs : Nat → List Json → Except Raised Unit
  | _, [] => .ok ()
  | i, pair :: rest =>
    match pair.elements with
    | .error _ => .error (.escaped ("cannot convert dictionary update sequence element #" ++
        toString i ++ " to a sequence"))
    | .ok [.list _,_] => .error (.escaped "unhashable type: 'list'")
    | .ok [.dict _,_] => .error (.escaped "unhashable type: 'dict'")
    | .ok [_,_] => checkPairs (i + 1) rest
    | .ok other => .error (.rejected ("dictionary update sequence element #" ++ toString i ++
        " has length " ++ toString other.length ++ "; 2 is required"))

/-- `dict(value or {})`. -/
def checkDict (value : Json) : Except Raised Unit :=
  if ¬ value.truthy then .ok ()
  else match value with
    | .dict _ => .ok ()
    | value => value.elements.bind (checkPairs 0)

/-- Hard bounds on an agent: numbers, or `null` for unbounded. -/
structure ResourceEnvelope where
  stepLimit : Json
  sizeCap : Json
  latencySeconds : Json
  childLimit : Json

namespace ResourceEnvelope

/-- One round of `validate`. -/
def checkBound (name : String) (bound : Json) : Except String Unit :=
  match bound with
  | .null => .ok ()
  | .bool _ => .ok ()
  | bound => do
      require bound.isNumber (name ++ " must be a number, got " ++ bound.typeName)
      require (¬ bound.lessThan 0) (name ++ " must be non-negative, got " ++ bound.repr)

def validate (env : ResourceEnvelope) : Except String Unit := do
  checkBound "step_limit" env.stepLimit
  checkBound "size_cap" env.sizeCap
  checkBound "latency_seconds" env.latencySeconds
  checkBound "child_limit" env.childLimit

/-- The reserved `extra` dimensions bound nothing and are left out. -/
def toPayload (env : ResourceEnvelope) : List (String × Json) :=
  [("step_limit",env.stepLimit),("size_cap",env.sizeCap),("latency_seconds",env.latencySeconds),
    ("child_limit",env.childLimit),("extra",.dict [])]

def fromPayload (items : List (String × Json)) : Except Raised (Option ResourceEnvelope) :=
  if items = [] then .ok none
  else do
    let bound (name : String) := (Dict.lookup items name).getD .null
    checkDict (bound "extra")
    let env : ResourceEnvelope :=
      ⟨bound "step_limit",bound "size_cap",bound "latency_seconds",bound "child_limit"⟩
    env.validate.mapError Raised.rejected
    pure (some env)

end ResourceEnvelope

structure EnvelopeGuard where
  envelope : Option ResourceEnvelope
  steps : Nat
  children : Nat

namespace EnvelopeGuard

def new (envelope : Option ResourceEnvelope) : EnvelopeGuard := ⟨envelope,0,0⟩

def payloadByteLength (payload : Dict String Json) : Nat :=
  (Json.dict payload.entries).dumps.length

/-- Why a directive violates the envelope. `late` is what the clock says: more seconds have
gone by since the grant than the latency bound. -/
def checkDirective (guard : EnvelopeGuard) (late : Bool) (kind : DirectiveKind)
    (payload : Dict String Json) : Option String :=
  match guard.envelope with
  | none => none
  | some env =>
    if ¬ env.latencySeconds.isNull ∧ late then
      some ("resource envelope: agent latency exceeded " ++ env.latencySeconds.repr ++
        "s bound")
    else if env.sizeCap.lessThan (payloadByteLength payload) then
      some ("resource envelope: directive payload exceeds " ++ env.sizeCap.repr ++
        " byte cap")
    else if (kind = .run ∨ kind = .spawn) ∧ env.stepLimit.atMost guard.steps then
      some ("resource envelope: step limit " ++ env.stepLimit.repr ++ " exceeded")
    else if kind = .spawn ∧ env.childLimit.atMost guard.children then
      some ("resource envelope: child limit " ++ env.childLimit.repr ++ " exceeded")
    else none

def recordStep (guard : EnvelopeGuard) (isSpawn : Bool) : EnvelopeGuard :=
  { guard with
    steps := guard.steps + 1
    children := if isSpawn then guard.children + 1 else guard.children }

end EnvelopeGuard
end AgentCentric

import AgentCentric.Agent.Message
import AgentCentric.Agent.Store

namespace AgentCentric

/-- A registered callable, as a task and as a verifier. It may read and change the world,
and it may raise. -/
structure Callable (W : Type) where
  qualname : String
  call : List (String × Json) → W → Except Raised PyValue × W
  judge : PyValue → W → Except Raised Bool × W

/-- A catalog record. -/
structure RegistryEntry (W : Type) where
  name : String
  sourceUrl : Json
  kind : Json
  callable : Option (Callable W)

/-- What an agent decides with. `children` are the names of its channels to the child agents;
the agents behind them are not part of it. -/
structure Agent (W : Type) where
  identity : String
  registry : Dict String (RegistryEntry W)
  verifier : Option String
  envelopeGuard : Option EnvelopeGuard
  results : Dict Fingerprint Response
  usedKeys : List (String × DirectiveKind)
  /-- An answer is kept together with its correlation id. -/
  used : ∀ f response, results.get f = some response → (f.correlationId,f.kind) ∈ usedKeys
  delegated : Dict String String
  stateStore : Option StateStore
  catalog : Option (Dict String (RegistryEntry W))
  childKinds : List String
  children : List String
  alive : Bool

/-- How a directive was handled: what was answered or raised, and whether the task was
called. -/
structure Turn (W : Type) where
  outcome : Except Raised Response
  agent : Agent W
  world : W
  called : Bool

namespace Agent
open Json

/-- An agent after `init`. -/
def new {W : Type} (identity : String) (catalog : Option (Dict String (RegistryEntry W)))
    (childKinds : List String) : Agent W where
  identity := identity
  registry := Dict.empty
  verifier := none
  envelopeGuard := none
  results := Dict.empty
  usedKeys := []
  used := by simp
  delegated := Dict.empty
  stateStore := none
  catalog := catalog
  childKinds := childKinds
  children := []
  alive := true

def resolve {W : Type} (a : Agent W) (name : String) : Option (Callable W) :=
  (a.registry.get name).bind RegistryEntry.callable

/-- `registry.source(name) or ""`. -/
def sourceOf {W : Type} (a : Agent W) (name : String) : Json :=
  match (a.registry.get name).map RegistryEntry.sourceUrl with
  | some url => if url.truthy then url else .str ""
  | none => .str ""

def error {W : Type} (a : Agent W) (d : Directive) (message : String) : Response :=
  Response.failure d.correlationId a.identity message

def answer {W : Type} (a : Agent W) (w : W) (response : Response) : Turn W :=
  ⟨.ok response,a,w,false⟩

def refuse {W : Type} (a : Agent W) (w : W) (d : Directive) (message : String) : Turn W :=
  a.answer w (a.error d message)

/-- Only a text can be registered, and a list or dictionary cannot even be looked up. -/
def verify {W : Type} (a : Agent W) (value : PyValue) (verifierName : Json) (w : W) :
    Except Raised Bool × W :=
  match verifierName with
  | .null => (.ok true,w)
  | .str name =>
    match a.resolve name with
    | none => (.ok false,w)
    | some verifier => verifier.judge value w
  | .list _ => (.error (.escaped "unhashable type: 'list'"),w)
  | .dict _ => (.error (.escaped "unhashable type: 'dict'"),w)
  | _ => (.ok false,w)

def verifierFor {W : Type} (a : Agent W) (d : Directive) : Json :=
  let named := field d.payload "verifier"
  if named.truthy then named
  else match a.verifier with
    | some name => .str name
    | none => .null

def runArgs (d : Directive) : Json := (d.payload.get "args").getD (.dict [])

def violation {W : Type} (a : Agent W) (late : Bool) (d : Directive) : Option String :=
  a.envelopeGuard.bind fun guard => guard.checkDirective late d.kind d.payload

def counted {W : Type} (a : Agent W) (isSpawn : Bool) : Agent W :=
  { a with envelopeGuard := a.envelopeGuard.map (·.recordStep isSpawn) }

def result {W : Type} (a : Agent W) (d : Directive) (taskName : String) (value : PyValue)
    (verified : Bool) : Response where
  correlationId := d.correlationId
  kind := if verified then .result else .error
  value := if verified then value else .json .null
  verified := .bool verified
  node := .str a.identity
  error := if verified then .null
    else .str ("verification failed for task " ++ pyRepr taskName)
  source := a.sourceOf taskName
  sources := match field d.payload "sources" with
    | .list xs => .list xs
    | _ => .null
  confidence := .null
  modelRecord := .null

def keep {W : Type} (a : Agent W) (d : Directive) (response : Response) : Agent W :=
  { a with
    results := a.results.set d.fingerprint response
    usedKeys := (d.correlationId,d.kind) :: a.usedKeys
    used := by
      intro f kept hkept
      rw [Dict.get_set] at hkept
      split at hkept
      · rename_i heq
        subst heq
        exact List.mem_cons_self
      · exact List.mem_cons_of_mem _ (a.used f kept hkept) }

def raisedText (taskName : String) (reason : String) : String :=
  "task " ++ pyRepr taskName ++ " raised: " ++ reason

def notMapping {W : Type} (task : Callable W) (args : Json) : String :=
  task.qualname ++ "() argument after ** must be a mapping, not " ++ args.typeName

/-- `task(**args)`, and the verification of what it returns. Neither a task that raises nor
a verifier that does leaves a trace in the cache. -/
def execute {W : Type} (a : Agent W) (d : Directive) (taskName : String) (task : Callable W)
    (w : W) : Turn W :=
  match runArgs d with
  | .dict items =>
    match task.call items w with
    | (.error e,w₁) => ⟨.ok (a.error d (raisedText taskName e.text)),a,w₁,true⟩
    | (.ok value,w₁) =>
      match a.verify value (a.verifierFor d) w₁ with
      | (.error e,w₂) => ⟨.error e,a,w₂,true⟩
      | (.ok verified,w₂) =>
        let response := a.result d taskName value verified
        ⟨.ok response,a.keep d response,w₂,true⟩
  | args => a.refuse w d (raisedText taskName (notMapping task args))

/-- `_run_task`. The clock says whether the latency bound is exceeded. -/
def runTask {W : Type} (a : Agent W) (late : Bool) (d : Directive) (w : W) : Turn W :=
  match a.results.get d.fingerprint with
  | some response => a.answer w response
  | none =>
    if (d.correlationId,d.kind) ∈ a.usedKeys then
      a.refuse w d "correlation id reused for different directive"
    else
      match field d.payload "task" with
      | .str taskName =>
        match a.violation late d with
        | some reason => a.refuse w d reason
        | none =>
          match a.resolve taskName with
          | none => a.refuse w d ("unknown task " ++ pyRepr taskName)
          | some task => (a.counted false).execute d taskName task w
      | _ => a.refuse w d "run directive requires a 'task' name"

/-- `_state_get`. A row that is no JSON is no `StoreError`. -/
def stateGet {W : Type} (a : Agent W) (d : Directive) : Except Raised Response :=
  match a.stateStore with
  | none => .ok (a.error d "no durable state store configured")
  | some store =>
    match field d.payload "key" with
    | .str key =>
      if key = "" then .ok (a.error d "state_get requires a 'key'")
      else
        match store.get key with
        | .error .decode => .error (.rejected StoreError.decode.text)
        | .error e => .ok (a.error d ("state read failed: " ++ e.text))
        | .ok .null => .ok (a.error d ("state key " ++ pyRepr key ++ " not found"))
        | .ok value => .ok
            { Response.plain d.correlationId .result true a.identity with value := .json value }
    | _ => .ok (a.error d "state_get requires a 'key'")

def stateSet {W : Type} (a : Agent W) (d : Directive) : Response × Agent W :=
  match a.stateStore with
  | none => (a.error d "no durable state store configured",a)
  | some store =>
    match field d.payload "key" with
    | .str key =>
      if key = "" then (a.error d "state_set requires a 'key'",a)
      else if (a.results.get d.fingerprint).isSome then
        (Response.plain d.correlationId .ok true a.identity,a)
      else
        match store.set key (field d.payload "value") d.fingerprint.text with
        | .error e => (a.error d ("state write failed: " ++ e.text),a)
        | .ok store' =>
          (Response.plain d.correlationId .ok true a.identity,
            { a with stateStore := some store' })
    | _ => (a.error d "state_set requires a 'key'",a)

end Agent
end AgentCentric

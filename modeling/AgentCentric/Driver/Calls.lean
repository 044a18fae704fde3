import AgentCentric.Driver.Tree

namespace AgentCentric.Cbp
open Json

/-- How a directive ended. -/
structure Terminal where
  kind : ResponseKind
  value : PyValue
  error : Json

structure LedgerEntry where
  kind : DirectiveKind
  payload : Dict String Json
  /-- Recorded by `configure_child`. -/
  child : Bool
  response : Option Terminal

/-- What is given to a driver once and for all. -/
structure Config (W N : Type) where
  transport : String
  /-- `check_tcp_bind`: why an endpoint may not be bound. -/
  checkTcpBind : String → Option String
  /-- `_isolate_state_path`. -/
  isolate : String → String
  integrity : Integrity
  agents : ChildAgents W N

structure CbpDriver (W N : Type) where
  peerAutz : Option PeerAuthz
  scenery : Scenery W N
  seq : Nat
  childBase : Nat
  ledger : Dict String LedgerEntry
  verifierNames : List String

structure Grant where
  tasks : List String
  verifiers : List String
  rules : List String
  verifier : Option String
  state : Option String
  stateReadOnly : Bool
  trajectory : Option String
  envelope : Option ResourceEnvelope

/-- The calls of a driver. Those that only read are one; `run_plan` and `store_keys` call `run`. -/
inductive Call (W : Type) where
  | register (name : String) (fn : Callable W) (sourceUrl : String) : Call W
  | resolve (name : String) : Call W
  | stateSet (key : String) (value : Json) : Call W
  | stateGet (key : String) : Call W
  | audit : Call W
  | configure (grant : Grant) (clearVerifier : Bool) : Call W
  | configureChild (identity : String) (grant : Grant) (storeKeys : List String) : Call W
  | configureProvider (child : String) (provider : ModelProvider W) (modelId : Option String) :
      Call W
  | run (task : String) (args : Json) (verifier child sources : Option Json) : Call W
  | spawn (identity : String) (endpoint kind : Option String) : Call W
  | replay (target : Option String) : Call W
  | replaySession (entries : Option (List (String × LedgerEntry))) : Call W
  | ping : Call W
  | kill : Call W
  | inspect : Call W

structure Surroundings (W : Type) where
  /-- What the polls find, one after the other. -/
  windows : List (List Delivery)
  /-- What a grant of `configure_child` opens. -/
  outside : Outside
  /-- How many entries of a session are issued again before an exception ends it. -/
  issued : Nat
  /-- What another tree makes of a `run` that is issued again: whether a task is called. -/
  fresh : Dict String Json → W → Bool × W

inductive Outcome where
  /-- `per-peer authorization refused: …` -/
  | refused : String → Outcome
  | responded : Response → Outcome
  | raised : Raised → Outcome
  | returned : Outcome

def texts (xs : List String) : Json := .list (xs.map .str)

def optional {α : Type} (name : String) (value : Option α) (f : α → Json) :
    List (String × Json) := (value.map fun v => (name,f v)).toList

namespace Grant

def names (g : Grant) : List String := g.verifiers ++ (g.verifier.filter (· ≠ "")).toList

def lists (g : Grant) : List (String × Json) :=
  [("tasks",texts g.tasks),("verifiers",texts g.verifiers),("rules",texts g.rules)]

def envelopeItem (g : Grant) : List (String × Json) :=
  optional "_envelope" g.envelope fun env => .dict env.toPayload

def stores (isolate : String → String) (g : Grant) : List (String × Json) :=
  (match g.state with
    | some path => [("state",.str (isolate path)),("state_read_only",.bool g.stateReadOnly)]
    | none => []) ++
  optional "trajectory" g.trajectory fun path => .str (isolate path)

def verifierItem (g : Grant) : List (String × Json) := optional "verifier" g.verifier .str

/-- The payload of `configure`. -/
def payload (isolate : String → String) (g : Grant) (clearVerifier : Bool) : Dict String Json :=
  Dict.empty.update (g.lists ++ g.envelopeItem ++ g.verifierItem ++
    (if clearVerifier then [("_clear_verifier",.bool true)] else []) ++ g.stores isolate)

/-- What `configure_child` records. -/
def recorded (isolate : String → String) (g : Grant) (identity : String) (storeKeys : List String) :
    Dict String Json :=
  Dict.empty.update [("identity",.str identity),("extra",.dict (g.lists ++
    [("store_keys",texts storeKeys)] ++ g.envelopeItem ++ g.stores isolate ++ g.verifierItem))]

/-- What `Agent.configure_child` hands to the child. -/
def handed (isolate : String → String) (g : Grant) (storeKeys : List String) : Directive :=
  ⟨"configure-child",.configure,Dict.empty.update (g.lists ++ g.envelopeItem ++ g.verifierItem ++
    g.stores isolate ++ (if storeKeys = [] then [] else [("store_keys",texts storeKeys)]))⟩

def validate (g : Grant) : Except Raised Unit :=
  match g.envelope with
  | none => .ok ()
  | some env => env.validate.mapError .rejected

end Grant

namespace CbpDriver
variable {W N : Type}

def new (identity : String) (peerAutz : Option PeerAuthz) (w : W) : CbpDriver W N where
  peerAutz := peerAutz
  scenery := ⟨⟨Agent.new identity (some Dict.empty) ["store","bills","model"],Dict.empty⟩,w,
    [],[],[],[]⟩
  seq := 0
  childBase := 0
  ledger := Dict.empty
  verifierNames := []

def tree (s : CbpDriver W N) : Tree W N := s.scenery.tree
def world (s : CbpDriver W N) : W := s.scenery.world
def trace (s : CbpDriver W N) : List (Change W N) := s.scenery.trace

def move (s : CbpDriver W N) (order : Option Order) (executed : Bool) (tree : Tree W N) (w : W) :
    CbpDriver W N := { s with scenery := s.scenery.move order executed tree w }

def correlation (s : CbpDriver W N) (start : String) : String × CbpDriver W N :=
  (start ++ "-" ++ toString (s.seq + 1),{ s with seq := s.seq + 1 })

def refusal (s : CbpDriver W N) (kind : DirectiveKind) (payload : Dict String Json) :
    Option String :=
  s.peerAutz.bind fun authz =>
    authz.authorize s.tree.root.identity kind.text (textOf (field payload "child"))

def setOutcome (s : CbpDriver W N) (correlationId : String) (response : Response) :
    CbpDriver W N :=
  match s.ledger.get correlationId with
  | none => s
  | some entry =>
    let terminal : Terminal := ⟨response.kind,response.value,response.error⟩
    { s with ledger := s.ledger.set correlationId { entry with response := some terminal } }

def attempts (K : Config W N) (d : Directive) :
    Nat → List (List Delivery) → CbpDriver W N → Outcome × CbpDriver W N
  | 0,_,s => (.raised (.escaped "no response from root"),s)
  | n + 1,windows,s =>
    let sent := { s.scenery with down := s.scenery.down ++ [d] }
    let polled := sent.poll K.agents K.integrity (windows.headD [])
    let s := { s with scenery := polled.2 }
    match polled.1 with
    | .error e => (.raised e,s)
    | .ok responses =>
      match responses.find? fun response => response.correlationId = d.correlationId with
      | some response => (.responded response,s.setOutcome d.correlationId response)
      | none => attempts K d n windows.tail s

def settleAttempts : Nat := 5

def roundtrip (K : Config W N) (env : Surroundings W) (kind : DirectiveKind)
    (payload : Dict String Json) (start : String) (s : CbpDriver W N) :
    Outcome × CbpDriver W N :=
  let (correlationId,s) := s.correlation start
  match s.refusal kind payload with
  | some reason => (.refused reason,s)
  | none =>
    attempts K ⟨correlationId,kind,payload⟩ settleAttempts env.windows
      { s with ledger := s.ledger.set correlationId ⟨kind,payload,false,none⟩ }

/-- `register`: the catalog of the tree, and the registry of the root. -/
def register (name : String) (fn : Callable W) (sourceUrl : String) (s : CbpDriver W N) :
    CbpDriver W N :=
  let entry : RegistryEntry W := ⟨name,.str sourceUrl,.str "python",some fn⟩
  let root := s.tree.root.register entry
  s.move (some ⟨.register,none⟩) false
    { s.tree with root := { root with catalog := some (s.scenery.catalog.set name entry) } } s.world

def noted (g : Grant) (s : CbpDriver W N) : CbpDriver W N :=
  { s with verifierNames := s.verifierNames ++ g.names.filter fun name => name ∉ s.verifierNames }

def configure (K : Config W N) (env : Surroundings W) (g : Grant) (clearVerifier : Bool)
    (s : CbpDriver W N) : Outcome × CbpDriver W N :=
  match g.validate with
  | .error e => (.raised e,s)
  | .ok _ =>
    roundtrip K env .configure (g.payload K.isolate clearVerifier) "configure" (s.noted g)

/-- `configure_child`: the root hands the grant to the child. -/
def configureChild (K : Config W N) (env : Surroundings W) (identity : String) (g : Grant)
    (storeKeys : List String) (s : CbpDriver W N) : Outcome × CbpDriver W N :=
  let (correlationId,s) := s.correlation "configure-child"
  match g.validate with
  | .error e => (.raised e,s)
  | .ok _ =>
    let entry : LedgerEntry := ⟨.configure,g.recorded K.isolate identity storeKeys,true,none⟩
    let s := { s with ledger := s.ledger.set correlationId entry }
    match s.tree.nodes.get identity with
    | none => (.responded (Response.failure "configure-child" s.tree.root.identity
        ("no spawned child " ++ pyRepr identity)),s)
    | some node =>
      let r := K.agents.configure s.scenery.catalog env.outside (g.handed K.isolate storeKeys) node
      (match r.1 with
        | .ok response => .responded response
        | .error e => .raised e,
        s.move (some ⟨.configure,some identity⟩) false
          { s.tree with nodes := s.tree.nodes.set identity r.2 } s.world)

def providerError (s : CbpDriver W N) (child message : String) : Outcome :=
  .responded (Response.failure "configure-provider" s.tree.root.identity
    ("cannot configure provider on child " ++ pyRepr child ++ ": " ++ message))

/-- `configure_provider`. No directive is made of it. -/
def configureProvider (K : Config W N) (child : String) (provider : ModelProvider W)
    (modelId : Option String) (s : CbpDriver W N) : Outcome × CbpDriver W N :=
  match s.tree.nodes.get child with
  | none => (s.providerError child "no spawned child",s)
  | some node =>
    match K.agents.attach provider modelId node with
    | none => (s.providerError child ("child " ++ pyRepr child ++ " is not a model agent"),s)
    | some node =>
      (.responded (Response.plain "configure-provider" .ok true s.tree.root.identity),
        s.move none false { s.tree with nodes := s.tree.nodes.set child node } s.world)

/-- `args or {}`, and what else is given. -/
def runPayload (task : String) (args : Json) (verifier child sources : Option Json) :
    Dict String Json :=
  Dict.empty.update ([("task",.str task),("args",if args.truthy then args else .dict [])] ++
    optional "verifier" verifier id ++ optional "child" child id ++ optional "sources" sources id)

/-- `"://" in endpoint`. -/
def hasScheme (endpoint : String) : Bool := endpoint.toList.tails.any ("://".toList.isPrefixOf ·)

/-- `_child_endpoint`: over tcp each child gets a port of its own. -/
def childEndpoint (K : Config W N) (identity : String) (s : CbpDriver W N) :
    String × CbpDriver W N :=
  if K.transport = "tcp" then
    ("tcp://127.0.0.1:" ++ toString (5600 + (s.childBase + 1) * 2),
      { s with childBase := s.childBase + 1 })
  else (K.transport ++ "://children-" ++ identity,s)

def spawnEndpoint (K : Config W N) (identity : String) (endpoint : Option String)
    (s : CbpDriver W N) : String × CbpDriver W N :=
  match endpoint with
  | some endpoint => if hasScheme endpoint then (endpoint,s) else s.childEndpoint K identity
  | none => s.childEndpoint K identity

def spawnPayload (identity endpoint : String) (kind : Option String) : Dict String Json :=
  Dict.empty.update ([("identity",.str identity),("endpoint",.str endpoint)] ++
    optional "kind" kind .str)

def unbound (K : Config W N) (endpoint : String) : Option String :=
  if startsWith endpoint "tcp://" then K.checkTcpBind (String.ofList (endpoint.toList.drop 6))
  else none

def spawn (K : Config W N) (env : Surroundings W) (identity : String)
    (endpoint kind : Option String) (s : CbpDriver W N) : Outcome × CbpDriver W N :=
  let (endpoint,s) := s.spawnEndpoint K identity endpoint
  match unbound K endpoint with
  | some reason => (.responded (Response.failure "" s.tree.root.identity reason),s)
  | none => roundtrip K env .spawn (spawnPayload identity endpoint kind) "spawn" s

/-- The `run` directives among some entries. -/
def runsOf (entries : List (String × LedgerEntry)) : List (Dict String Json) :=
  (entries.filter fun e => !e.2.child && e.2.kind = .run).map fun e => e.2.payload

/-- The `run` that `replay` is about. -/
def chosenRun (runs : List (String × LedgerEntry)) : Option String → Option (String × LedgerEntry)
  | some correlationId => runs.find? fun e => e.1 = correlationId
  | none => runs.getLast?

/-- `replay`: the `run` that is issued again, if there is one that can be. -/
def replayed (s : CbpDriver W N) (target : Option String) : Option (Dict String Json) :=
  let runs := s.ledger.entries.filter fun e => e.2.kind = .run
  ((chosenRun runs target).map fun e => e.2.payload).filter fun payload =>
    ((textOf (field payload "task")).bind s.scenery.catalog.get).isSome

/-- A `run` is issued again on a tree of its own, which is then closed. -/
def issueAgain (env : Surroundings W) (s : CbpDriver W N) (payload : Dict String Json) :
    CbpDriver W N :=
  let r := env.fresh payload s.world
  s.move (some ⟨.run,childNamed .run payload⟩) r.1 s.tree r.2

def call (K : Config W N) (env : Surroundings W) (s : CbpDriver W N) :
    Call W → Outcome × CbpDriver W N
  | .register name fn sourceUrl => (.returned,s.register name fn sourceUrl)
  | .resolve name => s.roundtrip K env .resolve (Dict.empty.set "name" (.str name)) "resolve"
  | .stateSet key value => s.roundtrip K env .stateSet
      (Dict.empty.update [("key",.str key),("value",value)]) "state-set"
  | .stateGet key => s.roundtrip K env .stateGet (Dict.empty.set "key" (.str key)) "state-get"
  | .audit => s.roundtrip K env .audit Dict.empty "audit"
  | .configure grant clearVerifier => s.configure K env grant clearVerifier
  | .configureChild identity grant storeKeys => s.configureChild K env identity grant storeKeys
  | .configureProvider child provider modelId => s.configureProvider K child provider modelId
  | .run task args verifier child sources =>
      s.roundtrip K env .run (runPayload task args verifier child sources) "run"
  | .spawn identity endpoint kind => s.spawn K env identity endpoint kind
  | .replay target => (.returned,(s.replayed target).toList.foldl (issueAgain env) s)
  | .replaySession entries => (.returned,
      (runsOf ((entries.getD s.ledger.entries).take env.issued)).foldl (issueAgain env) s)
  | .ping => s.roundtrip K env .ping Dict.empty "ping"
  | .kill => s.roundtrip K env .kill Dict.empty "kill"
  | .inspect => (.returned,s)

def step (K : Config W N) (s : CbpDriver W N) (i : Call W × Surroundings W) :
    Outcome × CbpDriver W N := s.call K i.2 i.1

end CbpDriver
end AgentCentric.Cbp

import AgentCentric.Network.Document

namespace AgentCentric.Flow
open Network

structure Request where
  task : String
  args : Dict String Value
  verifier : Json
  child : Json

structure Response where
  verified : Bool
  value : Value
  error : Option String

/-- One `driver.run` call made for a component, with its answer. -/
structure Activation where
  id : String
  request : Request
  response : Response

/-- The driver's answer may depend on everything it was asked before; an error is an
exception that `driver.run` raises. -/
abbrev Driver := List Activation → Request → Except String Response

/-- A driver that is a function of `(task, args, verifier, child)`. -/
def Driver.ofFunction (f : Request → Except String Response) : Driver := fun _ request => f request

structure StepResult where
  step : Nat
  id : String
  task : String
  verified : Bool
  value : Value
  error : Option String

def Activation.result (step : Nat) (a : Activation) : StepResult :=
  ⟨step,a.id,a.request.task,a.response.verified,a.response.value,a.response.error⟩

def stepResults (log : List Activation) : List StepResult :=
  log.mapIdx Activation.result

structure RunResult where
  ok : Bool
  results : List StepResult
  completed : Nat
  failed : Option StepResult
  error : Option String

def refused (message : String) : RunResult := ⟨false,[],0,none,some message⟩

/-- A bounded connection. `id` is the identity of the object: two connections between
the same ports are different buffers. -/
structure Connection where
  id : Nat
  source : String
  sourcePort : String
  target : String
  targetPort : String
  capacity : Int
  deriving DecidableEq, Repr

def Connection.ofEdge (e : Edge) (id : Nat) : Connection :=
  ⟨id,e.source,e.sourceField,e.target,e.targetArg,e.capacity⟩

def connect (edges : List Edge) : List Connection := edges.mapIdx fun i e => .ofEdge e i

def Connection.text (c : Connection) : String :=
  s!"connection {c.source}.{c.sourcePort} -> {c.target}.{c.targetPort}"

/-- The buffers of all connections. `taken` is a history nothing reads: the packets that
`receive` has handed out. -/
structure Buffers where
  queue : Nat → List Value
  taken : Nat → List Value

namespace Buffers

def empty : Buffers := ⟨fun _ => [],fun _ => []⟩

def isFull (b : Buffers) (c : Connection) : Bool := c.capacity ≤ (b.queue c.id).length

def isEmpty (b : Buffers) (c : Connection) : Bool := (b.queue c.id).isEmpty

/-- `_buffer.append(value)`. -/
def put (b : Buffers) (c : Connection) (v : Value) : Buffers :=
  { b with queue := Function.update b.queue c.id (b.queue c.id ++ [v]) }

def send (b : Buffers) (c : Connection) (v : Value) : Except String Buffers :=
  if b.isFull c then
    .error s!"{c.text} is full (capacity {c.capacity}); back-pressure"
  else .ok (b.put c v)

def receive (b : Buffers) (c : Connection) : Except String (Value × Buffers) :=
  match b.queue c.id with
  | [] => .error s!"{c.text} is empty; inport {pyRepr c.targetPort} has no IP"
  | v :: rest => .ok (v,⟨Function.update b.queue c.id rest,
      Function.update b.taken c.id (b.taken c.id ++ [v])⟩)

/-- Every packet that was ever sent on a connection, oldest first. -/
def history (b : Buffers) (c : Connection) : List Value := b.taken c.id ++ b.queue c.id

@[simp] theorem history_empty (c : Connection) : empty.history c = [] := rfl

@[simp] theorem taken_put (b : Buffers) (c : Connection) (v : Value) :
    (b.put c v).taken = b.taken := rfl

theorem queue_put {b : Buffers} {c w : Connection} {v : Value} :
    (b.put c v).queue w.id = if w.id = c.id then b.queue w.id ++ [v] else b.queue w.id := by
  by_cases h : w.id = c.id
  · simp [put,h]
  · simp [put,h]

theorem isFull_put_ne {b : Buffers} {c w : Connection} (v : Value) (h : w.id ≠ c.id) :
    (b.put c v).isFull w = b.isFull w := by
  simp [isFull,queue_put,h]

def front (b : Buffers) (c : Connection) : Value := (b.queue c.id).headD .null

theorem receive_cons {b : Buffers} {c : Connection} (h : b.queue c.id ≠ []) :
    b.receive c = .ok (b.front c, ⟨Function.update b.queue c.id (b.queue c.id).tail,
        Function.update b.taken c.id (b.taken c.id ++ [b.front c])⟩) := by
  unfold receive front
  cases hqueue : b.queue c.id with
  | nil => exact absurd hqueue h
  | cons v rest => rfl

end Buffers

/-- The specific side of `"any"`. -/
def effectivePortType (source target : ValueType) : ValueType :=
  if source = .any then target else source

def mismatchText (place : String) (required : ValueType) : String :=
  s!"{place}: value does not match declared port type {pyRepr required.name} (fail-closed)"

def checkIP (value : Value) (source target : ValueType) (place : String) : Except String Unit :=
  require (valueMatchesType value (effectivePortType source target))
    (mismatchText place (effectivePortType source target))

def extractOutput (output : Value) (port : String) (outPorts : List String) (id : String) :
    Except String Value :=
  match output with
  | .dict items =>
      expect (Dict.lookup items port)
        s!"component {id}: output has no field {pyRepr port} for out-port"
  | other =>
      if outPorts.length = 1 then .ok other
      else .error s!"component {id}: output is not a mapping for out-port {pyRepr port}"

def requiredType (net : ComponentNetwork) (c : Connection) : ValueType :=
  let sourceType := ((net.component? c.source).map (·.portType .output c.sourcePort)).getD .any
  let targetType := ((net.component? c.target).map (·.portType .input c.targetPort)).getD .any
  effectivePortType sourceType targetType

/-- `dict(component.args)` overridden by the component's initial packets. -/
def templateArgs (net : ComponentNetwork) (c : Component) : Dict String Value :=
  let packets := (net.iips.filter fun i => i.component = c.id).map fun i => (i.port,i.value)
  c.args.update ((Dict.empty : Dict String Value).update packets).entries

def makeRequest (c : Component) (args : Dict String Value) : Request :=
  ⟨c.task,args,c.verifier,c.child⟩

def schedule (net : ComponentNetwork) : List Component := net.order.filterMap net.component?

/-- The checks both engines make before they build their connections; `mode` closes
the message as the engine words it. -/
def checkLimits (net : ComponentNetwork) (stepLimit : Option Int) : Except String Int := do
  net.validate
  let limit := stepLimit.getD defaultStepLimit
  require (0 < limit) s!"step_limit must be positive, got {limit}"
  require (net.order.length ≤ limit)
    (s!"network has {net.order.length} components, exceeding the " ++
      s!"{limit}-component step limit (fail-closed)")
  pure limit

def declaresPort (net : ComponentNetwork) (id : String) (d : Direction) (port : String) : Bool :=
  ((net.component? id).map (·.portNames d)).getD [] |>.contains port

def byTargetPort (a b : Connection) : Bool := a.targetPort ≤ b.targetPort

def feeding (wires : List Connection) (id : String) : List Connection :=
  (wires.filter fun c => c.target = id).insertionSort (byTargetPort · ·)

theorem connect_ids (edges : List Edge) : (connect edges).map (·.id) = List.range edges.length := by
  apply List.ext_getElem
  · simp [connect]
  · intro i _ _
    simp [connect,Connection.ofEdge]

theorem connect_mem {edges : List Edge} {c : Connection} (h : c ∈ connect edges) :
    ∃ e ∈ edges, c = .ofEdge e c.id := by
  obtain ⟨i,hi,rfl⟩ := List.mem_mapIdx.mp h
  exact ⟨_,List.getElem_mem hi,rfl⟩

theorem connect_ids_nodup (edges : List Edge) : ((connect edges).map (·.id)).Nodup := by
  rw [connect_ids]
  exact List.nodup_range

/-- Different wires have different buffers. -/
def DistinctIds (wires : List Connection) : Prop :=
  ∀ c ∈ wires, ∀ c' ∈ wires, c.id = c'.id → c = c'

theorem connect_distinct (edges : List Edge) : DistinctIds (connect edges) :=
  fun _ hc _ hc' heq => List.inj_on_of_nodup_map (connect_ids_nodup edges) hc hc' heq

end AgentCentric.Flow

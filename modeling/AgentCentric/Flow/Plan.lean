import AgentCentric.Flow.Emitter

namespace AgentCentric.Flow
open Network

/-- What `run_stream` has fixed when its loop starts. -/
structure Plan where
  network : ComponentNetwork
  order : List Component
  connections : List Connection
  limit : Int

namespace Plan

def incoming (p : Plan) (id : String) : List Connection :=
  p.connections.filter fun c => c.target = id

def outgoing (p : Plan) (id port : String) : List Connection :=
  p.connections.filter fun c => c.source = id ∧ c.sourcePort = port

/-- `sorted(outgoing.get(cid, {}))`. -/
def wiredPorts (p : Plan) (id : String) : List String :=
  sortStrings ((p.connections.filter fun c => c.source = id).map (·.sourcePort)).dedup

def sendLimit (p : Plan) : Int := p.limit * maxConnectionCapacity

end Plan

def sourceThenTarget (a b : Connection) : Bool :=
  toLex (a.source,toLex (a.sourcePort,toLex (a.target,a.targetPort))) ≤
    toLex (b.source,toLex (b.sourcePort,toLex (b.target,b.targetPort)))

def byTarget (a b : Connection) : Bool :=
  toLex (a.target,a.targetPort) ≤ toLex (b.target,b.targetPort)

/-- `sorted(network.edges(), key=...)`, each edge with its own buffer. -/
def connectionsOf (edges : List Edge) : List Connection :=
  (connect edges).insertionSort (sourceThenTarget · ·)

def checkStreamPorts (net : ComponentNetwork) (e : Edge) : Except String Unit := do
  require (declaresPort net e.source .output e.sourceField)
    (s!"edge {ComponentNetwork.edgeText e}: source {pyRepr e.source} declares no out-port " ++
      s!"{pyRepr e.sourceField} (streaming mode)")
  require (declaresPort net e.target .input e.targetArg)
    (s!"edge {ComponentNetwork.edgeText e}: target {pyRepr e.target} declares no in-port " ++
      s!"{pyRepr e.targetArg} (streaming mode)")

def checkSingleWire : List Connection → List (String × String) → Except String Unit
  | [], _ => .ok ()
  | c :: rest, seen => do
      require ((c.target,c.targetPort) ∉ seen)
        s!"inport {c.target}.{c.targetPort} has more than one incoming connection (fail-closed)"
      checkSingleWire rest ((c.target,c.targetPort) :: seen)

/-- Everything before the loop; an error is a run with no results. -/
def prepare (net : ComponentNetwork) (stepLimit : Option Int) : Except String Plan := do
  let limit ← checkLimits net stepLimit
  forEach (checkStreamPorts net) net.edges
  checkSingleWire (connectionsOf net.edges) []
  pure ⟨net,schedule net,connectionsOf net.edges,limit⟩

def portElements (c : Component) (output : Value) (port : String) :
    Except String (Stream'.Seq Value) := do
  let value ← extractOutput output port (c.portNames .output) c.id
  if port ∈ c.stream then
    expect value.elements
      s!"component {c.id}: streaming out-port {pyRepr port} value is not iterable"
  else pure (Stream'.Seq.cons value Stream'.Seq.nil)

def targetsOf (p : Plan) (id port : String) : Targets :=
  ((p.outgoing id port).insertionSort (byTarget · ·)).map fun k => (k,requiredType p.network k)

/-- The streams of `_build_emitter`, one for each wired out-port. -/
def buildStream (p : Plan) (c : Component) (output : Value) (port : String) :
    Except String OutStream := do
  let elements ← portElements c output port
  pure ⟨targetsOf p c.id port,elements⟩

def buildStreams (p : Plan) (c : Component) (output : Value) :
    List String → Except String (List OutStream)
  | [] => .ok []
  | port :: ports => do
      let stream ← buildStream p c output port
      let streams ← buildStreams p c output ports
      pure (stream :: streams)

def buildEmitter (p : Plan) (c : Component) (output : Value) : Except String Emitter := do
  let streams ← buildStreams p c output (p.wiredPorts c.id)
  pure ⟨streams,none⟩

def Connection.inPort (c : Connection) : String × String := (c.target,c.targetPort)

structure Plan.Sound (p : Plan) : Prop where
  nodup : p.connections.Nodup
  distinct : DistinctIds p.connections
  singleWire : (p.connections.map Connection.inPort).Nodup
  capacity : ∀ c ∈ p.connections, 1 ≤ c.capacity
  source : ∀ c ∈ p.connections, c.source ∈ p.order.map (·.id)
  target : ∀ c ∈ p.connections, c.target ∈ p.order.map (·.id)
  orderNodup : (p.order.map (·.id)).Nodup
  component : ∀ c ∈ p.order, p.network.component? c.id = some c
  ranked : Kahn.Ranked (p.connections.map fun c => (c.source,c.target))
    fun id => (p.order.map (·.id)).idxOf id
  limitPos : 0 < p.limit
  orderLength : p.order.length ≤ p.limit

/-- What holds of the plans of both engines; an in-port may have several wires here. -/
structure Plan.Laid (p : Plan) : Prop where
  nodup : p.connections.Nodup
  distinct : DistinctIds p.connections
  capacity : ∀ c ∈ p.connections, 1 ≤ c.capacity
  source : ∀ c ∈ p.connections, c.source ∈ p.order.map (·.id)
  target : ∀ c ∈ p.connections, c.target ∈ p.order.map (·.id)
  orderNodup : (p.order.map (·.id)).Nodup
  component : ∀ c ∈ p.order, p.network.component? c.id = some c
  ranked : Kahn.Ranked (p.connections.map fun c => (c.source,c.target))
    fun id => (p.order.map (·.id)).idxOf id
  limitPos : 0 < p.limit
  orderLength : p.order.length ≤ p.limit

theorem Plan.Sound.laid {p : Plan} (h : p.Sound) : p.Laid :=
  ⟨h.nodup,h.distinct,h.capacity,h.source,h.target,h.orderNodup,h.component,h.ranked,h.limitPos,
    h.orderLength⟩

theorem Plan.Laid.sound {p : Plan} (h : p.Laid)
    (hsingle : (p.connections.map Connection.inPort).Nodup) : p.Sound :=
  ⟨h.nodup,h.distinct,hsingle,h.capacity,h.source,h.target,h.orderNodup,h.component,h.ranked,
    h.limitPos,h.orderLength⟩

variable {net : ComponentNetwork}

theorem schedule_ids (h : net.Validated) : (schedule net).map (·.id) = net.order := by
  have hmem : ∀ id ∈ net.order, ∃ c, net.component? id = some c := by
    intro id hid
    exact Option.isSome_iff_exists.mp
      (ComponentNetwork.mem_ids.mp (h.order_perm.mem_iff.mp hid))
  unfold schedule
  generalize net.order = ids at hmem
  induction ids with
  | nil => rfl
  | cons id ids ih =>
    obtain ⟨c,hc⟩ := hmem id (by simp)
    simp [hc,ComponentNetwork.component?_id hc,ih fun i hi => hmem i (by simp [hi])]

theorem schedule_component {c : Component} (h : c ∈ schedule net) :
    net.component? c.id = some c := by
  obtain ⟨id,_,hc⟩ := List.mem_filterMap.mp h
  rwa [ComponentNetwork.component?_id hc]

theorem connectionsOf_perm (edges : List Edge) : (connectionsOf edges).Perm (connect edges) :=
  List.perm_insertionSort _ _

theorem checkSingleWire_ok {cs : List Connection} {seen : List (String × String)}
    (h : checkSingleWire cs seen = .ok ()) :
    (cs.map Connection.inPort).Nodup ∧ ∀ c ∈ cs, c.inPort ∉ seen := by
  induction cs generalizing seen with
  | nil => simp
  | cons c cs ih =>
    simp only [checkSingleWire,bind_ok,require_ok,decide_eq_true_eq] at h
    obtain ⟨_,hnew,hrest⟩ := h
    obtain ⟨hnodup,hseen⟩ := ih hrest
    have hne : c.inPort ∉ cs.map Connection.inPort := by
      intro hmem
      obtain ⟨c',hc',heq⟩ := List.mem_map.mp hmem
      exact hseen c' hc' (List.mem_cons.mpr (.inl heq))
    refine ⟨List.nodup_cons.mpr ⟨hne,hnodup⟩,fun c' hc' => ?_⟩
    cases List.mem_cons.mp hc' with
    | inl heq => exact heq ▸ hnew
    | inr hmem => exact fun hin => hseen c' hmem (List.mem_cons_of_mem _ hin)

theorem checkLimits_ok {stepLimit : Option Int} {limit : Int}
    (h : checkLimits net stepLimit = .ok limit) :
    net.Validated ∧ 0 < limit ∧ net.order.length ≤ limit := by
  simp only [checkLimits,bind_ok,require_ok,decide_eq_true_eq] at h
  obtain ⟨_,hvalid,_,hpos,_,hlen,hlimit⟩ := h
  cases hlimit
  exact ⟨ComponentNetwork.validated_of_validate hvalid,hpos,hlen⟩

theorem plan_laid {wires : List Connection} {limit : Int}
    (hvalid : net.Validated) (hpos : 0 < limit) (hlen : net.order.length ≤ limit)
    (hperm : wires.Perm (connect net.edges)) : Plan.Laid ⟨net,schedule net,wires,limit⟩ := by
  have hmem : ∀ {c}, c ∈ wires → c ∈ connect net.edges := fun hc => hperm.mem_iff.mp hc
  have hedge : ∀ c ∈ wires, net.EdgeOk
      ⟨c.source,c.sourcePort,c.target,c.targetPort,c.capacity⟩ := by
    intro c hc
    obtain ⟨e,he,hce⟩ := connect_mem (hmem hc)
    rw [hce]
    exact hvalid.edge e he
  exact
    { nodup := hperm.nodup_iff.mpr (List.Nodup.of_map _ (connect_ids_nodup net.edges))
      distinct := fun c hc c' hc' => connect_distinct net.edges c (hmem hc) c' (hmem hc')
      capacity := fun c hc => (hedge c hc).capacityPos
      source := fun c hc => by
        rw [schedule_ids hvalid]
        exact hvalid.order_perm.mem_iff.mpr (hedge c hc).source
      target := fun c hc => by
        rw [schedule_ids hvalid]
        exact hvalid.order_perm.mem_iff.mpr (hedge c hc).target
      orderNodup := by
        rw [schedule_ids hvalid]
        exact hvalid.order_sorted.nodup
      component := fun c hc => schedule_component hc
      ranked := by
        rw [schedule_ids hvalid]
        intro a b hab
        obtain ⟨c,hc,heq⟩ := List.mem_map.mp hab
        obtain ⟨e,he,hce⟩ := connect_mem (hmem hc)
        rw [hce] at heq
        exact hvalid.order_ranked a b (List.mem_map.mpr ⟨e,he,heq⟩)
      limitPos := hpos
      orderLength := by
        have hlength := congrArg List.length (schedule_ids hvalid)
        simp only [List.length_map] at hlength
        change ((schedule net).length : Int) ≤ limit
        omega }

theorem plan_sound {wires : List Connection} {limit : Int}
    (hvalid : net.Validated) (hpos : 0 < limit) (hlen : net.order.length ≤ limit)
    (hperm : wires.Perm (connect net.edges)) (hsingle : (wires.map Connection.inPort).Nodup) :
    Plan.Sound ⟨net,schedule net,wires,limit⟩ :=
  (plan_laid hvalid hpos hlen hperm).sound hsingle

theorem prepare_sound {stepLimit : Option Int} {p : Plan}
    (h : prepare net stepLimit = .ok p) : p.Sound := by
  simp only [prepare,bind_ok] at h
  obtain ⟨limit,hlimit,_,_,_,hsingle,hp⟩ := h
  cases hp
  obtain ⟨hvalid,hpos,hlen⟩ := checkLimits_ok hlimit
  exact plan_sound hvalid hpos hlen (connectionsOf_perm net.edges) (checkSingleWire_ok hsingle).1

end AgentCentric.Flow

namespace AgentCentric.Flow
open Network

def checkFlowPorts (net : ComponentNetwork) (e : Edge) : Except String Unit := do
  require (declaresPort net e.source .output e.sourceField)
    (s!"edge {ComponentNetwork.edgeText e}: source {pyRepr e.source} does not declare out-port " ++
      s!"{pyRepr e.sourceField} (port mode)")
  require (declaresPort net e.target .input e.targetArg)
    (s!"edge {ComponentNetwork.edgeText e}: target {pyRepr e.target} does not declare in-port " ++
      s!"{pyRepr e.targetArg} (port mode)")

def prepareFlow (net : ComponentNetwork) (stepLimit : Option Int) : Except String Plan := do
  let limit ← checkLimits net stepLimit
  forEach (checkFlowPorts net) net.edges
  pure ⟨net,schedule net,connect net.edges,limit⟩

def bySourcePort (a b : Connection) : Bool := a.sourcePort ≤ b.sourcePort

def leaving (wires : List Connection) (id : String) : List Connection :=
  (wires.filter fun c => c.source = id).insertionSort (bySourcePort · ·)

/-- One packet from each connection into component `id`. -/
def fill (id : String) : List Connection → Buffers → Dict String Value →
    Except String (Dict String Value × Buffers)
  | [], b, args => .ok (args,b)
  | k :: rest, b, args => do
      require (!b.isEmpty k)
        (s!"component {id}: inport {pyRepr k.targetPort} has no IP (deadlock; fail-closed)")
      let (v,b') ← b.receive k
      fill id rest b' (args.set k.targetPort v)

/-- The output of `c` goes to its connections. -/
def deliver (net : ComponentNetwork) (c : Component) (output : Value) :
    List Connection → Buffers → Except String Buffers
  | [], b => .ok b
  | k :: rest, b => do
      let value ← extractOutput output k.sourcePort (c.portNames .output) c.id
      let targetType := ((net.component? k.target).map (·.portType .input k.targetPort)).getD .any
      checkIP value (c.portType .output k.sourcePort) targetType k.text
      let b' ← b.send k value
      deliver net c output rest b'

inductive FlowVerdict where
  | success : FlowVerdict
  | unverified : FlowVerdict
  | failed : String → FlowVerdict
  deriving DecidableEq, Repr

structure FlowEnding where
  verdict : FlowVerdict
  log : List Activation
  completed : Nat

def flowLoop (d : Driver) (p : Plan) : List Component → Buffers → List Activation → FlowEnding
  | [], _, log => ⟨.success,log,log.length⟩
  | c :: rest, b, log =>
    match fill c.id (feeding p.connections c.id) b (templateArgs p.network c) with
    | .error message => ⟨.failed message,log,log.length⟩
    | .ok (args,b₁) =>
      match d log (makeRequest c args) with
      | .error message =>
          ⟨.failed s!"component {c.id} ({c.task}) raised: {message}",log,log.length⟩
      | .ok response =>
        let log' := log ++ [⟨c.id,makeRequest c args,response⟩]
        if response.verified = false then ⟨.unverified,log',log.length⟩
        else
          match deliver p.network c response.value (leaving p.connections c.id) b₁ with
          | .error message => ⟨.failed message,log',log.length⟩
          | .ok b₂ => flowLoop d p rest b₂ log'

def flowReport (e : FlowEnding) : RunResult :=
  let results := stepResults e.log
  { ok := e.verdict = .success
    results := results
    completed := e.completed
    failed := if e.verdict = .unverified then results.getLast? else none
    error := match e.verdict with
      | .failed message => some message
      | _ => none }

def runFlow (d : Driver) (net : ComponentNetwork) (stepLimit : Option Int) : RunResult :=
  match prepareFlow net stepLimit with
  | .error message => refused message
  | .ok p => flowReport (flowLoop d p p.order .empty [])

/-- The `driver.run` calls of a single-shot run, with their answers. -/
def flowLog (d : Driver) (net : ComponentNetwork) (stepLimit : Option Int) : List Activation :=
  match prepareFlow net stepLimit with
  | .error _ => []
  | .ok p => (flowLoop d p p.order .empty []).log

end AgentCentric.Flow

namespace AgentCentric.Flow
open Network Machine

/-- The scheduler's variables. `log` holds the `driver.run` calls of the run, of which
the `results` list shows the answers. -/
structure State where
  buffers : Buffers
  spentSources : List String
  emitters : String → Option Emitter
  activations : Nat
  sends : Nat
  log : List Activation

def State.initial : State := ⟨.empty,[],fun _ => none,0,0,[]⟩

/-- Why a run ended. -/
inductive Verdict where
  | success : Verdict
  | unverified : Verdict
  | stranded : Verdict
  | allBlocked : Verdict
  | failed : String → Verdict
  deriving DecidableEq, Repr

def Verdict.error : Verdict → Option String
  | .success => none
  | .unverified => none
  | .stranded => some
      "deadlock: no component is ready and packets remain undelivered (fail-closed)"
  | .allBlocked => some
      "deadlock: every producer is blocked and no component is ready (fail-closed)"
  | .failed message => some message

def isReady (p : Plan) (s : State) (c : Component) : Bool :=
  (s.emitters c.id).isNone &&
    (((p.incoming c.id).isEmpty && decide (c.id ∉ s.spentSources)) ||
      (!(p.incoming c.id).isEmpty && (p.incoming c.id).all fun k => !s.buffers.isEmpty k))

def ready (p : Plan) (s : State) : List Component := p.order.filter (isReady p s)

/-- `sorted(wired)`. -/
def wired (p : Plan) (id : String) : List Connection := feeding p.connections id

def receiveAll : List Connection → Buffers → Dict String Value →
    Except String (Dict String Value × Buffers)
  | [], b, args => .ok (args,b)
  | c :: rest, b, args => do
      let (v,b') ← b.receive c
      receiveAll rest b' (args.set c.targetPort v)

/-- The state when the arguments of `c` are complete. -/
def State.fed (s : State) (p : Plan) (c : Component) (b : Buffers) : State :=
  { s with
    buffers := b
    spentSources := if (wired p c.id).isEmpty then c.id :: s.spentSources else s.spentSources
    activations := s.activations + 1 }

def State.answered (s : State) (a : Activation) : State := { s with log := s.log ++ [a] }

def State.emitting (s : State) (id : String) (e : Emitter) : State :=
  { s with
    emitters := if e.isEmpty then s.emitters else Function.update s.emitters id (some e) }

/-- The body of the loop for the first ready component. -/
def activate (d : Driver) (p : Plan) (s : State) (c : Component) : Outcome State Verdict :=
  match receiveAll (wired p c.id) s.buffers (templateArgs p.network c) with
  | .error message => .halt (.failed message) s
  | .ok (args,b) =>
    if p.limit < (s.fed p c b).activations then
      .halt (.failed s!"activation limit {p.limit} exceeded (fail-closed)") (s.fed p c b)
    else
      match d s.log (makeRequest c args) with
      | .error message =>
          .halt (.failed s!"component {c.id} ({c.task}) raised: {message}") (s.fed p c b)
      | .ok response =>
        let s' := (s.fed p c b).answered ⟨c.id,makeRequest c args,response⟩
        if response.verified = false then .halt .unverified s'
        else
          match buildEmitter p c response.value with
          | .error message => .halt (.failed message) s'
          | .ok emitter => .next (s'.emitting c.id emitter)

/-- One pass over the emitters, with the status of the last one stepped. -/
structure Round where
  status : Status
  emitters : String → Option Emitter
  buffers : Buffers

/-- The `for` loop over the emitters, up to the first that is not blocked. -/
def round : List String → (String → Option Emitter) → Buffers → Round
  | [], emitters, b => ⟨.blocked,emitters,b⟩
  | id :: rest, emitters, b =>
    match emitters id with
    | none => round rest emitters b
    | some e =>
      match e.step b with
      | ⟨.blocked,e',b'⟩ => round rest (Function.update emitters id (some e')) b'
      | ⟨.done,_,b'⟩ => ⟨.done,Function.update emitters id none,b'⟩
      | ⟨status,e',b'⟩ => ⟨status,Function.update emitters id (some e'),b'⟩

def producers (p : Plan) (s : State) : List String :=
  (p.order.map (·.id)).filter fun id => (s.emitters id).isSome

def State.passed (s : State) (r : Round) : State :=
  { s with
    emitters := r.emitters
    buffers := r.buffers
    sends := if r.status = .progress then s.sends + 1 else s.sends }

def emit (p : Plan) (s : State) : Outcome State Verdict :=
  let r := round (producers p s) s.emitters s.buffers
  match r.status with
  | .blocked => .halt .allBlocked (s.passed r)
  | .done => .next (s.passed r)
  | .mismatch message => .halt (.failed message) (s.passed r)
  | .progress =>
      if p.sendLimit < (s.passed r).sends then
        .halt (.failed s!"send limit {p.sendLimit} exceeded (fail-closed)") (s.passed r)
      else .next (s.passed r)

def settle (p : Plan) (s : State) : Outcome State Verdict :=
  if p.connections.all fun c => s.buffers.isEmpty c then .halt .success s
  else .halt .stranded s

/-- One turn of `while True`. -/
def schedulerStep (d : Driver) (p : Plan) (s : State) : Outcome State Verdict :=
  match ready p s with
  | c :: _ => activate d p s c
  | [] => if producers p s = [] then settle p s else emit p s

/-- More turns than the activation and send limits allow. -/
def Plan.fuel (p : Plan) : Nat := 2 * p.limit.toNat + p.sendLimit.toNat + 4

def runLoop (d : Driver) (p : Plan) : Option (Ending State Verdict) :=
  Machine.run (schedulerStep d p) p.fuel .initial

def report (e : Ending State Verdict) : RunResult :=
  let results := stepResults e.final.log
  { ok := e.verdict = .success
    results := results
    completed := results.length
    failed := if e.verdict = .unverified then results.getLast? else none
    error := e.verdict.error }

def runStream (d : Driver) (net : ComponentNetwork) (stepLimit : Option Int) : RunResult :=
  match prepare net stepLimit with
  | .error message => refused message
  | .ok p =>
    match runLoop d p with
    | some e => report e
    | none => refused "the scheduler loop did not end"

end AgentCentric.Flow

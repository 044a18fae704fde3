import AgentCentric.Library.JsonAccess
import AgentCentric.Library.Kahn
import AgentCentric.Network.Value
import Mathlib.Data.Prod.Lex

namespace AgentCentric.Network

/-- `_PORT_DIRECTIONS`. -/
inductive Direction where
  | input | output
  deriving DecidableEq, Repr

def Direction.name : Direction → String
  | .input => "in"
  | .output => "out"

def maxConnectionCapacity : Int := 1024
def defaultStepLimit : Int := 512
def maxSubnetDepth : Nat := 8

structure ComponentOf (Net : Type) where
  id : String
  task : String
  args : Dict String Value
  verifier : Json
  child : Json
  ports : Dict Direction (List String)
  portTypes : Dict Direction (Dict String ValueType)
  stream : List String
  external : Dict String String
  subnet : Option Net

structure Edge where
  source : String
  sourceField : String
  target : String
  targetArg : String
  capacity : Int
  deriving DecidableEq, Repr

structure IIP where
  component : String
  port : String
  value : Value

/-- A network as it was put together: the component dictionary lists one component for
each id in the order of first addition, edges and packets are in the order of the calls. -/
inductive ComponentNetwork where
  | mk (components : List (ComponentOf ComponentNetwork)) (edges : List Edge) (iips : List IIP)

abbrev Component := ComponentOf ComponentNetwork

namespace ComponentOf

/-- `component.ports.get(direction, ())`. -/
def portNames {Net : Type} (c : ComponentOf Net) (d : Direction) : List String :=
  (c.ports.get d).getD []

/-- `component.port_types.get(direction, {}).get(name, "any")`. -/
def portType {Net : Type} (c : ComponentOf Net) (d : Direction) (name : String) : ValueType :=
  (((c.portTypes.get d).getD .empty).get name).getD .any

end ComponentOf

variable {net : ComponentNetwork}

namespace ComponentNetwork

def components : ComponentNetwork → List Component
  | .mk components _ _ => components

def edges : ComponentNetwork → List Edge
  | .mk _ edges _ => edges

def iips : ComponentNetwork → List IIP
  | .mk _ _ iips => iips

def empty : ComponentNetwork := .mk [] [] []

def component? (net : ComponentNetwork) (id : String) : Option Component :=
  net.components.find? (fun c => c.id = id)

/-- The keys of `_components`. -/
def ids (net : ComponentNetwork) : List String := (net.components.map (·.id)).dedup

theorem mem_ids {id : String} : id ∈ net.ids ↔ (net.component? id).isSome := by
  simp [ids,component?,List.find?_isSome]

theorem component?_id {id : String} {c : Component}
    (h : net.component? id = some c) : c.id = id := by
  simpa using List.find?_some h

def checkPorts (c : Component) (entry : Direction × List String) : Except String Unit :=
  require (entry.2.all (· ≠ "") && decide entry.2.Nodup)
    s!"component {pyRepr c.id}: {entry.1.name} ports must be unique and non-empty"

def checkPortTypes (c : Component) (entry : Direction × Dict String ValueType) :
    Except String Unit :=
  forEach (fun typed => do
    require (typed.1 ≠ "") s!"component {pyRepr c.id}: typed port name must be non-empty"
    require (typed.1 ∈ c.portNames entry.1)
      (s!"component {pyRepr c.id}: port type declared for {pyRepr typed.1}, which is not a " ++
        s!"declared {entry.1.name}-port (fail-closed)")) entry.2.entries

def place (c : Component) : List Component → List Component
  | [] => [c]
  | d :: ds => if d.id = c.id then c :: ds else d :: place c ds

/-- `add_component`. An unknown port direction or an unknown type name cannot be
expressed here: `Direction` and `ValueType` list the known ones. -/
def addComponent (net : ComponentNetwork) (c : Component) : Except String ComponentNetwork := do
  require (c.id ≠ "") "component id must be non-empty"
  require (!c.id.toList.contains '.')
    (s!"component id {pyRepr c.id} must not contain '.'; cross-boundary " ++
      "flow uses a composite's declared external ports (fail-closed)")
  forEach (checkPorts c) c.ports.entries
  forEach (checkPortTypes c) c.portTypes.entries
  pure (.mk (place c net.components) net.edges net.iips)

def addEdge (net : ComponentNetwork) (e : Edge) : ComponentNetwork :=
  .mk net.components (net.edges ++ [e]) net.iips

def addIIP (net : ComponentNetwork) (i : IIP) : ComponentNetwork :=
  .mk net.components net.edges (net.iips ++ [i])

def edgeText (e : Edge) : String :=
  s!"{e.source}.{e.sourceField} -> {e.target}.{e.targetArg}"

def validateEdge (net : ComponentNetwork) (e : Edge) : Except String Unit := do
  require (!(e.source.toList.contains '.' || e.target.toList.contains '.'))
    ("dotted component references are not allowed; cross-boundary flow must use a " ++
      "composite's declared external ports (fail-closed)")
  let source ← expect (net.component? e.source)
    s!"edge source {pyRepr e.source} is not a component"
  let target ← expect (net.component? e.target)
    s!"edge target {pyRepr e.target} is not a component"
  require (e.source ≠ e.target) "self-loop edge is not allowed"
  require (1 ≤ e.capacity ∧ e.capacity ≤ maxConnectionCapacity)
    (s!"connection {edgeText e} has capacity {e.capacity}; " ++
      s!"must be within 1..{maxConnectionCapacity}")
  require (source.portNames .output = [] || e.sourceField ∈ source.portNames .output)
    (s!"edge {edgeText e}: source {pyRepr e.source} declares no out-port " ++
      s!"{pyRepr e.sourceField}")
  require (target.portNames .input = [] || e.targetArg ∈ target.portNames .input)
    (s!"edge {edgeText e}: target {pyRepr e.target} declares no in-port " ++
      s!"{pyRepr e.targetArg}")
  let sourceType := source.portType .output e.sourceField
  let targetType := target.portType .input e.targetArg
  require (typesCompatible sourceType targetType)
    (s!"edge {edgeText e}: incompatible port types " ++
      s!"{pyRepr sourceType.name} -> {pyRepr targetType.name} (fail-closed)")

instance : LawfulBEq (String × String) := inferInstance

/-- The loop over the packets, with the `seen_iips` set. -/
def validateIIPs (net : ComponentNetwork) : List IIP → List (String × String) → Except String Unit
  | [], _ => .ok ()
  | i :: rest, seen => do
      let target ← expect (net.component? i.component)
        s!"IIP target {pyRepr i.component} is not a component"
      require (i.port ≠ "") "IIP port must be non-empty"
      require ((i.component,i.port) ∉ seen)
        s!"IIP for {i.component}.{i.port} is declared more than once"
      require (i.port ∈ target.portNames .input)
        s!"IIP target {pyRepr i.component} declares no in-port {pyRepr i.port}"
      let declared := target.portType .input i.port
      require (valueMatchesType i.value declared)
        (s!"IIP for {i.component}.{i.port}: value does not match the declared in-port " ++
          s!"type {pyRepr declared.name} (fail-closed)")
      validateIIPs net rest ((i.component,i.port) :: seen)

def checkBothSources (net : ComponentNetwork) (e : Edge) : Except String Unit :=
  require ((e.target,e.targetArg) ∉ net.iips.map fun i => (i.component,i.port))
    (s!"inport {e.target}.{e.targetArg} has both an IIP and an incoming connection from " ++
      s!"{pyRepr e.source} (fail-closed)")

/-- `ref.split(".")` of a reference with exactly one dot and text on both sides. -/
def splitReference (ref : String) : Option (String × String) :=
  let cs := ref.toList
  if cs.count '.' ≠ 1 ∨ cs.head? = some '.' ∨ cs.getLast? = some '.' then none
  else some (String.ofList (cs.takeWhile (· ≠ '.')),String.ofList ((cs.dropWhile (· ≠ '.')).drop 1))

def checkExternalPort (c : Component) (subnet : ComponentNetwork) (entry : String × String) :
    Except String Unit := do
  let (innerId,innerPort) ← expect (splitReference entry.2)
    (s!"component {pyRepr c.id}: external port {pyRepr entry.1} must map to an interior " ++
      s!"'component.port' reference, got {pyRepr entry.2}")
  let inner ← expect (subnet.component? innerId)
    (s!"component {pyRepr c.id}: external port {pyRepr entry.1} maps to unknown interior " ++
      s!"component {pyRepr innerId} (fail-closed)")
  let side : Direction := if entry.1 ∈ c.portNames .input then .input else .output
  require (innerPort ∈ inner.portNames side)
    (s!"component {pyRepr c.id}: external {side.name}-port {pyRepr entry.1} maps to interior " ++
      s!"{pyRepr entry.2}, which declares no matching {side.name}-port (fail-closed)")

def checkExternal (c : Component) (subnet : ComponentNetwork) : Except String Unit := do
  let declared := (c.portNames .input ++ c.portNames .output).dedup
  let mapped := c.external.keys
  require (declared.all (· ∈ mapped) && mapped.all (· ∈ declared))
    (s!"component {pyRepr c.id}: a composite's external ports must exactly match its declared " ++
      s!"ports (missing={pyReprList (sortStrings (declared.filter (· ∉ mapped)))}, " ++
      s!"extra={pyReprList (sortStrings (mapped.filter (· ∉ declared)))})")
  forEach (checkExternalPort c subnet)
    (c.external.entries.insertionSort (fun a b => a.1 ≤ b.1))

/-- The body of the loop over the components; `descend` treats a subnet body. -/
def validateComponent (descend : Component → ComponentNetwork → Except String Unit)
    (c : Component) : Except String Unit := do
  forEach (fun port => require (port ∈ c.portNames .output)
    (s!"component {pyRepr c.id}: stream out-port {pyRepr port} is not a declared out-port " ++
      "(fail-closed)")) c.stream
  match c.subnet with
  | none =>
      require (c.external.entries = [])
        s!"component {pyRepr c.id} declares external ports without a subnet body (fail-closed)"
  | some subnet => descend c subnet

/-- `queue.pop()` and `queue.append`. -/
def stack : Kahn.Worklist String where
  pop q := q.getLast?.map fun x => (x,q.dropLast)
  push q x := q ++ [x]
  pop_nil := rfl
  pop_perm q x r h := by
    cases hq : q.getLast? with
    | none => simp [hq] at h
    | some y =>
      simp only [hq,Option.map_some,Option.some.injEq,Prod.mk.injEq] at h
      obtain ⟨rfl,rfl⟩ := h
      have hcat := List.dropLast_append_getLast? y hq
      calc q = q.dropLast ++ [y] := hcat.symm
        _ |>.Perm (y :: q.dropLast) := List.perm_append_singleton y q.dropLast
  pop_cons x q := by simp [List.getLast?_cons]
  push_perm q x := List.perm_append_singleton x q

/-- `ready.pop(0)`, and `ready.append` followed by `ready.sort()`. -/
def sortedQueue : Kahn.Worklist String where
  pop
    | [] => none
    | x :: q => some (x,q)
  push q x := sortStrings (q ++ [x])
  pop_nil := rfl
  pop_perm q x r h := by
    cases q with
    | nil => simp at h
    | cons y q =>
      simp only [Option.some.injEq,Prod.mk.injEq] at h
      obtain ⟨rfl,rfl⟩ := h
      exact List.Perm.refl _
  pop_cons x q := rfl
  push_perm q x := (sortStrings_perm (q ++ [x])).trans (List.perm_append_singleton x q)

def links (net : ComponentNetwork) : List (String × String) :=
  net.edges.map fun e => (e.source,e.target)

def sourcesFirst (net : ComponentNetwork) : List String :=
  net.ids.filter (fun id => Kahn.indegree net.links [] id = 0)

def checkAcyclic (net : ComponentNetwork) : Except String Unit :=
  let seen := Kahn.sort stack (Kahn.successors net.links) net.ids net.sourcesFirst net.links
  require (seen.length = net.ids.length) "component network contains a cycle"

/-- `_topological_order`. -/
def order (net : ComponentNetwork) : List String :=
  Kahn.sort sortedQueue (fun id => sortStrings (Kahn.successors net.links id)) net.ids
    (sortStrings net.sourcesFirst) net.links

/-- `validate(_depth)` with `maxSubnetDepth - _depth` levels to go. -/
def validateDepth : Nat → ComponentNetwork → Except String Unit
  | levels, net => do
      forEach net.validateEdge net.edges
      net.validateIIPs net.iips []
      forEach net.checkBothSources net.edges
      forEach (validateComponent fun c subnet =>
        match levels with
        | 0 => .error (s!"subnet nesting exceeds the depth limit {maxSubnetDepth} at " ++
            s!"component {pyRepr c.id} (fail-closed)")
        | levels+1 => do
            checkExternal c subnet
            validateDepth levels subnet)
        (net.components.insertionSort (fun a b => a.id ≤ b.id))
      net.checkAcyclic

def validate (net : ComponentNetwork) : Except String Unit := validateDepth maxSubnetDepth net

/-- The facts about an edge that `validate` lets through. -/
structure EdgeOk (net : ComponentNetwork) (e : Edge) : Prop where
  source : e.source ∈ net.ids
  target : e.target ∈ net.ids
  noSelfLoop : e.source ≠ e.target
  capacityPos : 1 ≤ e.capacity
  capacityMax : e.capacity ≤ maxConnectionCapacity

structure Validated (net : ComponentNetwork) : Prop where
  edge : ∀ e ∈ net.edges, net.EdgeOk e
  acyclic : net.checkAcyclic = .ok ()

theorem edgeOk_of_validateEdge {e : Edge} (h : net.validateEdge e = .ok ()) : net.EdgeOk e := by
  unfold validateEdge at h
  simp only [bind_ok,expect_ok,require_ok,decide_eq_true_eq] at h
  obtain ⟨_,_,s,hs,t,ht,_,hne,_,hcap,_⟩ := h
  exact ⟨mem_ids.mpr (by simp [hs]),mem_ids.mpr (by simp [ht]),hne,hcap.1,hcap.2⟩

theorem validated_of_validate (h : net.validate = .ok ()) : net.Validated := by
  unfold validate validateDepth at h
  simp only [bind_ok,forEach_ok] at h
  obtain ⟨_,hedges,_,_,_,_,_,_,hacyclic⟩ := h
  exact ⟨fun e he => edgeOk_of_validateEdge (hedges e he),hacyclic⟩

theorem Validated.links_mem (h : net.Validated) :
    ∀ l ∈ net.links, l.1 ∈ net.ids ∧ l.2 ∈ net.ids := by
  intro l hl
  obtain ⟨e,he,rfl⟩ := List.mem_map.mp hl
  exact ⟨(h.edge e he).source,(h.edge e he).target⟩

theorem ids_nodup (net : ComponentNetwork) : net.ids.Nodup := List.nodup_dedup _

theorem Validated.ranked (h : net.Validated) : ∃ rank, Kahn.Ranked net.links rank := by
  have hsorted := Kahn.sort_sorted stack (fun n => List.Perm.refl (Kahn.successors net.links n))
    (fun l hl => (h.links_mem l hl).2) net.ids_nodup (List.Perm.refl _)
  have hlen : (Kahn.sort stack (Kahn.successors net.links) net.ids net.sourcesFirst
      net.links).length = net.ids.length := by
    have hacyclic := h.acyclic
    simpa [checkAcyclic] using hacyclic
  have hperm := (List.subperm_of_subset hsorted.nodup hsorted.mem).perm_of_length_le
    (Nat.le_of_eq hlen.symm)
  exact ⟨_,hsorted.ranked fun l hl => hperm.mem_iff.mpr (h.links_mem l hl).2⟩

theorem Validated.order_sorted (h : net.Validated) : Kahn.Sorted net.links net.ids net.order :=
  Kahn.sort_sorted sortedQueue (fun n => sortStrings_perm (Kahn.successors net.links n))
    (fun l hl => (h.links_mem l hl).2) net.ids_nodup (sortStrings_perm _)

/-- The order lists every component once. -/
theorem Validated.order_perm (h : net.Validated) : net.order.Perm net.ids := by
  obtain ⟨rank,hrank⟩ := h.ranked
  exact h.order_sorted.perm net.ids_nodup (fun l hl => (h.links_mem l hl).1) hrank

/-- Every edge goes forward in the order. -/
theorem Validated.order_ranked (h : net.Validated) :
    Kahn.Ranked net.links (fun id => net.order.idxOf id) :=
  h.order_sorted.ranked fun l hl => h.order_perm.mem_iff.mpr (h.links_mem l hl).2

end ComponentNetwork
end AgentCentric.Network

namespace AgentCentric.Network

structure Wire where
  inport : String
  source : String
  outport : String
  capacity : Int
  deriving DecidableEq, Repr

/-- One step of the plan. `wires`, `verifier` and `child` are there when they are not empty. -/
structure PlanStep where
  task : String
  args : Dict String Value
  wires : List Wire
  verifier : Option Json
  child : Option Json

/-- `key=lambda w: (w["source"], w["outport"], w["inport"], w["capacity"])`. -/
def bySource (a b : Wire) : Bool :=
  toLex (a.source,toLex (a.outport,toLex (a.inport,a.capacity))) ≤
    toLex (b.source,toLex (b.outport,toLex (b.inport,b.capacity)))

namespace ComponentNetwork

/-- What an edge into component `id` adds to its step. -/
def resolveEdge (net : ComponentNetwork) (id : String) (found : Dict String Value × List Wire)
    (e : Edge) : Except String (Dict String Value × List Wire) :=
  if e.target ≠ id then .ok found
  else do
    -- a `KeyError` here; validation has excluded it
    let source ← expect (net.component? e.source) (pyRepr e.source)
    if source.portNames .output ≠ [] then
      pure (found.1,found.2 ++ [⟨e.targetArg,e.source,e.sourceField,e.capacity⟩])
    else do
      let value ← expect (source.args.get e.sourceField)
        (s!"edge {e.source}.{e.sourceField} -> {id}.{e.targetArg}: source has no output field " ++
          s!"{pyRepr e.sourceField}")
      pure (found.1.set e.targetArg value,found.2)

def nonEmpty (v : Json) : Option Json := if v.truthy then some v else none

def compileStep (net : ComponentNetwork) (id : String) : Except String PlanStep := do
  let c ← expect (net.component? id) (pyRepr id)
  let (args,wires) ← net.edges.foldlM (net.resolveEdge id) (c.args,[])
  pure ⟨c.task,args,wires.insertionSort (bySource · ·),nonEmpty c.verifier,nonEmpty c.child⟩

def compile (net : ComponentNetwork) : Except String (List PlanStep) := do
  net.validate
  net.order.mapM net.compileStep

end ComponentNetwork
end AgentCentric.Network

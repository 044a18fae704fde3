import AgentCentric.Agent.ModelAgent

namespace AgentCentric.Cbp
open Json

def startsWith (text initial : String) : Bool := initial.toList.isPrefixOf text.toList

structure PeerPolicy where
  peer : String
  roles : List String
  subgroup : Option String

structure PeerAuthz where
  policies : Dict String PeerPolicy

namespace PeerAuthz

def add (authz : PeerAuthz) (policy : PeerPolicy) : PeerAuthz :=
  ⟨authz.policies.set policy.peer policy⟩

def allowed (roles : List String) : String :=
  let joined := String.intercalate ", " roles
  if joined = "" then "none" else joined

/-- `authorize`: the reason for a refusal. -/
def authorize (authz : PeerAuthz) (peer directiveKind : String) (routed : Option String) :
    Option String :=
  match authz.policies.get peer with
  | none => some ("peer " ++ pyRepr peer ++ " is not authorised to drive the transport")
  | some policy =>
    if directiveKind ∉ policy.roles then
      some ("peer " ++ pyRepr peer ++ " is not authorised to issue directive " ++
        pyRepr directiveKind ++ " (allowed: " ++ allowed policy.roles ++ ")")
    else
      match policy.subgroup,routed with
      | some subgroup,some routed =>
        if startsWith routed subgroup then none
        else some ("peer " ++ pyRepr peer ++ " may not route to " ++ pyRepr routed ++
          " (subgroup " ++ pyRepr subgroup ++ ")")
      | _,_ => none

end PeerAuthz

structure Order where
  kind : DirectiveKind
  child : Option String

def childNamed (kind : DirectiveKind) (payload : Dict String Json) : Option String :=
  match kind with
  | .run => textOf (field payload "child")
  | .spawn => textOf (field payload "identity")
  | _ => none

def orderOf (d : Directive) : Order := ⟨d.kind,childNamed d.kind d.payload⟩

def PeerAuthz.Permits (authz : PeerAuthz) (peer : String) (order : Order) : Prop :=
  ∃ policy, authz.policies.get peer = some policy ∧ order.kind.text ∈ policy.roles ∧
    ∀ child subgroup, order.child = some child → policy.subgroup = some subgroup →
      startsWith child subgroup = true

theorem PeerAuthz.authorize_eq_none (authz : PeerAuthz) (peer : String) (kind : DirectiveKind)
    (routed : Option String) :
    authz.authorize peer kind.text routed = none ↔ authz.Permits peer ⟨kind,routed⟩ := by
  unfold authorize Permits
  cases hpolicy : authz.policies.get peer with
  | none => simp
  | some policy =>
    by_cases hrole : kind.text ∈ policy.roles
    · cases hsubgroup : policy.subgroup with
      | none => simp [hrole,hsubgroup]
      | some subgroup =>
        cases routed with
        | none => simp [hrole,hsubgroup]
        | some child => simp [hrole,hsubgroup]
    · simp [hrole]

abbrev Catalog (W : Type) := Dict String (RegistryEntry W)

structure Served (W N : Type) where
  outcome : Except Raised Unit
  node : N
  world : W
  messages : List ChildMessage
  /-- A task was called. -/
  called : Bool

/-- The agents below the root, each with what is below it. The classes that a kind stands for are
declared, and `N` is whatever they keep. -/
structure ChildAgents (W N : Type) where
  /-- An agent of the kind, once `_spawn` has initialised it. -/
  born : String → Json → N
  /-- `_configure`. -/
  configure : Catalog W → Outside → Directive → N → Except Raised Response × N
  receive : Catalog W → Outside → Directive → N → W → Served W N
  /-- `set_provider`, where the agent is a model agent. -/
  attach : ModelProvider W → Option String → N → Option N

structure Tree (W N : Type) where
  root : Agent W
  /-- `_child_agents`. -/
  nodes : Dict String N

/-- A directive that was forwarded to a child. `order` is what the root was told. -/
structure Across where
  child : String
  directive : Directive
  order : Order

structure Upward where
  child : String
  message : ChildMessage
  order : Order

/-- One thing that happened to the tree or around it, and the directive it happened for. -/
structure Change (W N : Type) where
  tree : Tree W N
  world : W
  order : Option Order
  /-- A task was called. -/
  executed : Bool
  tree' : Tree W N
  world' : W

structure Scenery (W N : Type) where
  tree : Tree W N
  world : W
  down : List Directive
  across : List Across
  upward : List Upward
  trace : List (Change W N)

/-- What a poll finds: a message of the driver, or that it got lost, the message of some parent,
or that of some child. -/
inductive Delivery where
  | down : Outside → Delivery
  | lost : Delivery
  | across : Nat → Outside → Delivery
  | upward : Nat → Delivery

namespace Scenery
variable {W N : Type}

def move (s : Scenery W N) (order : Option Order) (executed : Bool) (tree : Tree W N) (w : W) :
    Scenery W N :=
  { s with
    tree := tree
    world := w
    trace := s.trace ++ [⟨s.tree,s.world,order,executed,tree,w⟩] }

def catalog (s : Scenery W N) : Catalog W := s.tree.root.catalog.getD Dict.empty

def nodesAfter (C : ChildAgents W N) (d : Directive) (before after : Agent W)
    (nodes : Dict String N) : Dict String N :=
  if ¬ after.alive then Dict.empty
  else match textOf (field d.payload "identity") with
    | some child =>
      if child ∈ after.children ∧ child ∉ before.children then
        nodes.set child (C.born child (field d.payload "kind"))
      else nodes
    | none => nodes

def executes (a : Agent W) (o : Outside) (d : Directive) (w : W) : Bool :=
  a.alive && (Agent.maybeDelegate d).isNone && (a.handle o d w).called

def deliverDown (C : ChildAgents W N) (I : Integrity) (s : Scenery W N) (o : Outside)
    (d : Directive) : Effect × Scenery W N :=
  let root := s.tree.root
  let r := root.react Handler.base I s.world (.directive d o)
  let moved := s.move (some (orderOf d)) (executes root o d s.world)
    ⟨r.agent,nodesAfter C d root r.agent s.tree.nodes⟩ r.world
  match r.effect with
  | .delegated child sent payload =>
    (r.effect,{ moved with
      across := moved.across ++ [⟨child,⟨sent.correlationId,sent.kind,payload⟩,orderOf d⟩] })
  | effect => (effect,moved)

def deliverAcross (C : ChildAgents W N) (s : Scenery W N) (o : Outside) (m : Across) :
    Effect × Scenery W N :=
  match s.tree.nodes.get m.child with
  | none => (.silent,s)
  | some node =>
    let served := C.receive s.catalog o m.directive node s.world
    let moved := s.move (some m.order) served.called
      { s.tree with nodes := s.tree.nodes.set m.child served.node } served.world
    let left := { moved with
      upward := moved.upward ++ served.messages.map fun message => ⟨m.child,message,m.order⟩ }
    match served.outcome with
    | .error e => (.raised e,left)
    | .ok _ => (.silent,left)

def deliverUpward (I : Integrity) (s : Scenery W N) (m : Upward) : Effect × Scenery W N :=
  let r := s.tree.root.react Handler.base I s.world (.child m.child m.message)
  (r.effect,s.move (some m.order) false { s.tree with root := r.agent } r.world)

def deliver (C : ChildAgents W N) (I : Integrity) (s : Scenery W N) :
    Delivery → Effect × Scenery W N
  | .down o =>
    match s.down with
    | [] => (.silent,s)
    | d :: rest => deliverDown C I { s with down := rest } o d
  | .lost => (.silent,{ s with down := s.down.tail })
  | .across i o =>
    match s.across[i]? with
    | none => (.silent,s)
    | some m => deliverAcross C { s with across := s.across.eraseIdx i } o m
  | .upward i =>
    match s.upward[i]? with
    | none => (.silent,s)
    | some m => deliverUpward I { s with upward := s.upward.eraseIdx i } m

/-- `_poll_tree_bounded`: what the root sends up or takes in. An exception ends it. -/
def poll (C : ChildAgents W N) (I : Integrity) :
    List Delivery → Scenery W N → Except Raised (List Response) × Scenery W N
  | [],s => (.ok [],s)
  | delivery :: rest,s =>
    let r := deliver C I s delivery
    match r.1 with
    | .raised e => (.error e,r.2)
    | effect =>
      let later := poll C I rest r.2
      match effect with
      | .answered response | .relayed _ response | .received response =>
        (later.1.map (response :: ·),later.2)
      | _ => later

end Scenery

def protocolVersion : String := "directive-response/v1"

/-- `_payload`. -/
def responsePayload (r : Response) : Json :=
  .dict [("value",match r.value with
      | .json value => value
      | .object _ => .null),
    ("verified",r.verified),("node",r.node),("error",r.error),("source",r.source),
    ("sources",r.sources),("protocol",.str protocolVersion),("confidence",r.confidence),
    ("model_record",r.modelRecord)]

def messagesUp {W : Type} (a : Agent W) (d : Directive) : Effect → List ChildMessage
  | .answered r => [.four "ack",
      .five a.identity r.correlationId "response" r.kind.text (responsePayload r)]
  | _ => if d.correlationId = "" then [] else [.four "ack"]

def ChildAgents.base {W : Type} (childKinds : List String) (I : Integrity) :
    ChildAgents W (Agent W) where
  born identity _ := Agent.new identity none childKinds
  configure catalog o d a := { a with catalog := some catalog }.configure o d
  receive catalog o d a w :=
    let a := { a with catalog := some catalog }
    let r := a.react Handler.base I w (.directive d o)
    { outcome := match r.effect with
        | .raised e => .error e
        | _ => .ok ()
      node := r.agent
      world := r.world
      messages := messagesUp a d r.effect
      called := Scenery.executes a o d w }
  attach _ _ _ := none

end AgentCentric.Cbp

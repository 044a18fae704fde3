import AgentCentric.Agent.Transport
import AgentCentric.Driver.Calls

namespace AgentCentric.Binds
open Json Transport

/-- An agent of the tree, with what its configuration says about the transport. -/
structure Node (W : Type) where
  agent : Agent W
  transport : String
  transportSecurity : String

/-- A spawn directive without its endpoint, and what is found out while it is handled. -/
structure Spawn where
  correlationId : String
  identity : String
  kind : Option String
  late : Bool
  /-- Why an `ipc` socket could not be made owner-only. -/
  mode : Option String

def Spawn.directive (r : Spawn) (endpoint : String) : Directive :=
  ⟨r.correlationId,.spawn,Cbp.CbpDriver.spawnPayload r.identity endpoint r.kind⟩

variable {W : Type} (U : Digits)

namespace Node

def endpoint (n : Node W) (ep : String) : String :=
  if Cbp.CbpDriver.hasScheme ep then ep else n.transport ++ "://" ++ ep

def tcpPortFor (identity : String) : Nat := 5800 + (identity.toList.map Char.toNat).sum % 800

/-- `_child_endpoint` of an agent. -/
def childEndpoint (n : Node W) (identity : String) : String :=
  if n.transport = "tcp" then "tcp://127.0.0.1:" ++ toString (tcpPortFor identity)
  else n.transport ++ "://" ++ identity

def asks (n : Node W) (r : Spawn) (ep : String) : Option String :=
  if r.identity = "" ∨ ep = "" then none
  else if (n.agent.violation r.late (r.directive ep)).isSome then none
  else if r.identity ∈ n.agent.children then none
  else if ¬ n.agent.declares ((r.kind.map Json.str).getD .null) then none
  else some (n.endpoint ep)

/-- Why the child is not provisioned: the policy, or after it the mode of the socket. -/
def refused (n : Node W) (r : Spawn) (ep : String) : Option String :=
  (refusal U (n.endpoint ep).toList n.transportSecurity).orElse fun _ =>
    if "ipc://".toList.isPrefixOf (n.endpoint ep).toList then r.mode else none

def outside (n : Node W) (r : Spawn) (ep : String) : Outside where
  late := r.late
  state := .error (.escaped "")
  trajectory := .ok ()
  bound := .ok (n.refused U r ep)
  rows := none

def spawn (n : Node W) (r : Spawn) (ep : String) : Except Raised Response × Agent W :=
  n.agent.spawn (n.outside U r ep) (r.directive ep)

def binds (n : Node W) (r : Spawn) (ep : String) : Option String :=
  (n.asks r ep).filter fun e => (refusal U e.toList n.transportSecurity).isNone

def child (n : Node W) (identity : String) : Node W :=
  ⟨Agent.new identity n.agent.catalog n.agent.childKinds,n.transport,n.transportSecurity⟩

end Node

/-- The agents by their paths from the root, and the endpoints that were bound so far. -/
structure Tree (W : Type) where
  transport : String
  security : String
  childBase : Nat
  nodes : Dict (List String) (Node W)
  bound : List String

/-- A driver after `__init__`, or why there is none, and what was bound for it. -/
structure Started (W : Type) where
  bound : List String
  tree : Except String (Tree W)

/-- `__init__`. -/
def construct (transport endpoint : String) (mode : Option String) : Started W :=
  let root := transport ++ "://" ++ endpoint
  let reason := if transport = "tcp" then checkTcpBind U endpoint.toList securityDefault else none
  match reason with
  | some reason => ⟨[],.error reason⟩
  | none =>
    match if transport = "ipc" then mode else none with
    | some reason => ⟨[root],.error reason⟩
    | none =>
      let agent : Agent W := Agent.new "root" (some Dict.empty) ["store","bills","model"]
      ⟨[root],.ok ⟨transport,securityDefault,0,
        Dict.empty.set [] ⟨agent,transport,securityDefault⟩,[root]⟩⟩

/-- A spawn directive for the agent at a path, one that this agent issues itself, the `spawn` of
the driver, and a configuration. -/
inductive Event where
  | directive (path : List String) (r : Spawn) (endpoint : String)
  | own (path : List String) (r : Spawn)
  | call (r : Spawn) (endpoint : Option String)
  | configure (path : List String) (o : Outside) (d : Directive)

namespace Tree

def spawnAt (s : Tree W) (path : List String) (r : Spawn) (ep : Node W → String) :
    Option (Except Raised Response) × Tree W :=
  match s.nodes.get path with
  | none => (none,s)
  | some n =>
    let t := n.spawn U r (ep n)
    let nodes := s.nodes.set path { n with agent := t.2 }
    (some t.1,{ s with
      nodes := if r.identity ∈ t.2.children ∧ r.identity ∉ n.agent.children then
          nodes.set (path ++ [r.identity]) (n.child r.identity)
        else nodes
      bound := s.bound ++ (n.binds U r (ep n)).toList })

/-- `_child_endpoint` of the driver. -/
def childEndpoint (s : Tree W) (identity : String) : String × Tree W :=
  if s.transport = "tcp" then
    ("tcp://127.0.0.1:" ++ toString (5600 + (s.childBase + 1) * 2),
      { s with childBase := s.childBase + 1 })
  else (s.transport ++ "://children-" ++ identity,s)

def spawnEndpoint (s : Tree W) (identity : String) (endpoint : Option String) :
    String × Tree W :=
  match endpoint with
  | some endpoint =>
    if Cbp.CbpDriver.hasScheme endpoint then (endpoint,s) else s.childEndpoint identity
  | none => s.childEndpoint identity

def step (s : Tree W) : Event → Option (Except Raised Response) × Tree W
  | .directive path r endpoint => s.spawnAt U path r fun _ => endpoint
  | .own path r => s.spawnAt U path r fun n => n.childEndpoint r.identity
  | .call r endpoint =>
    let (endpoint,s) := s.spawnEndpoint r.identity endpoint
    match refusal U endpoint.toList s.security with
    | some reason => (some (.ok (Response.failure "" "root" reason)),s)
    | none => s.spawnAt U [] r fun _ => endpoint
  | .configure path o d =>
    match s.nodes.get path with
    | none => (none,s)
    | some n =>
      let t := n.agent.configure o d
      (some t.1,{ s with nodes := s.nodes.set path { n with agent := t.2 } })

def run (s : Tree W) (events : List Event) : Tree W := events.foldl (fun s e => (s.step U e).2) s

def asksAt (s : Tree W) (path : List String) (r : Spawn) (ep : Node W → String) :
    Option String :=
  (s.nodes.get path).bind fun n => n.asks r (ep n)

def asks (s : Tree W) : Event → Option String
  | .directive path r endpoint => s.asksAt path r fun _ => endpoint
  | .own path r => s.asksAt path r fun n => n.childEndpoint r.identity
  | .call r endpoint =>
    let endpoint := (s.spawnEndpoint r.identity endpoint).1
    if (refusal U endpoint.toList s.security).isSome then some endpoint
    else s.asksAt [] r fun _ => endpoint
  | .configure _ _ _ => none

def childrenOf (s : Tree W) (path : List String) : Option (List String) :=
  (s.nodes.get path).map fun n => n.agent.children

end Tree

/-- Nothing more is bound, and every agent has the children that it had. -/
def Spared (s s' : Tree W) : Prop :=
  s'.bound = s.bound ∧ ∀ path, s'.childrenOf path = s.childrenOf path

def Refused (result : Option (Except Raised Response)) : Prop :=
  ∃ response, result = some (.ok response) ∧ response.kind = .error

variable {U}

theorem field_identity (r : Spawn) (ep : String) :
    field (r.directive ep).payload "identity" = .str r.identity := by
  cases r with
  | mk _ _ kind => cases kind <;> rfl

theorem field_endpoint (r : Spawn) (ep : String) :
    field (r.directive ep).payload "endpoint" = .str ep := by
  cases r with
  | mk _ _ kind => cases kind <;> rfl

theorem field_kind (r : Spawn) (ep : String) :
    field (r.directive ep).payload "kind" = (r.kind.map Json.str).getD .null := by
  cases r with
  | mk _ _ kind => cases kind <;> rfl

theorem spawn_asks (n : Node W) (r : Spawn) (ep : String) :
    (n.asks r ep = none ∧ (n.spawn U r ep).2.children = n.agent.children) ∨
    (n.asks r ep = some (n.endpoint ep) ∧ ∀ reason, n.refused U r ep = some reason → ∃ response,
        (n.spawn U r ep).1 = .ok response ∧ response.kind = .error ∧
          (n.spawn U r ep).2.children = n.agent.children) := by
  have htruthy (text : String) : ¬ (Json.str text).truthy = true ↔ text = "" := by
    simp [Json.truthy]
  have hchild : n.agent.hasChild (.str r.identity) = true ↔ r.identity ∈ n.agent.children := by
    simp [Agent.hasChild]
  unfold Node.spawn Node.asks Agent.spawn
  simp only [field_identity,field_endpoint,htruthy,hchild]
  by_cases hempty : r.identity = "" ∨ ep = ""
  · simp only [if_pos hempty]
    exact .inl (by simp)
  · simp only [if_neg hempty]
    cases hviolation : n.agent.violation r.late (r.directive ep) with
    | some reason =>
      simp only [Node.outside,hviolation]
      exact .inl (by simp)
    | none =>
      simp only [Node.outside,hviolation]
      by_cases hthere : r.identity ∈ n.agent.children
      · simp only [if_pos hthere]
        exact .inl (by simp)
      · simp only [if_neg hthere,Agent.bindChild,field_kind]
        have hdeclares (kind : Json) : (n.agent.counted true).declares kind =
            n.agent.declares kind := rfl
        simp only [hdeclares]
        by_cases hkind : n.agent.declares ((r.kind.map Json.str).getD .null) = true
        · simp only [hkind,not_true_eq_false,if_false]
          refine .inr ⟨rfl,fun reason hrefused => ?_⟩
          simp only [hrefused]
          exact ⟨_,rfl,rfl,rfl⟩
        · simp only [if_pos hkind]
          exact .inl ⟨by simp,rfl⟩

structure Loopback (s : Tree W) : Prop where
  driver : s.security = securityDefault
  agents : ∀ path n, s.nodes.get path = some n → n.transportSecurity = securityDefault

/-- One step: nothing is asked for, or it is refused, or it is bound. -/
inductive Stepped (U : Digits) (s : Tree W) :
    Option String → Option (Except Raised Response) → Tree W → Prop
  | idle {result : Option (Except Raised Response)} {s' : Tree W} (hspared : Spared s s') :
      Stepped U s none result s'
  | refused {e : String} {result : Option (Except Raised Response)} {s' : Tree W}
      (hpolicy : refusal U e.toList securityDefault ≠ none) (hrefused : Refused result)
      (hspared : Spared s s') : Stepped U s (some e) result s'
  | bound {e : String} {result : Option (Except Raised Response)} {s' : Tree W}
      (hpolicy : refusal U e.toList securityDefault = none) (hbound : s'.bound = s.bound ++ [e]) :
      Stepped U s (some e) result s'

theorem Spared.refl (s : Tree W) : Spared s s := ⟨rfl,fun _ => rfl⟩

theorem childrenOf_set {s s' : Tree W} {path : List String} {n n' : Node W}
    (hn : s.nodes.get path = some n) (hnodes : s'.nodes = s.nodes.set path n')
    (hchildren : n'.agent.children = n.agent.children) (path' : List String) :
    s'.childrenOf path' = s.childrenOf path' := by
  unfold Tree.childrenOf
  rw [hnodes,Dict.get_set]
  split
  · rename_i heq
    rw [← heq,hn]
    exact congrArg some hchildren
  · rfl

theorem spawnAt_stepped {s : Tree W} (h : Loopback s) (path : List String) (r : Spawn)
    (ep : Node W → String) :
    Stepped U s (s.asksAt path r ep) (s.spawnAt U path r ep).1 (s.spawnAt U path r ep).2 := by
  unfold Tree.asksAt Tree.spawnAt
  cases hn : s.nodes.get path with
  | none => exact .idle (.refl s)
  | some n =>
    have hsecurity := h.agents path n hn
    dsimp only [Option.bind_some]
    have hframe (hchildren : (n.spawn U r (ep n)).2.children = n.agent.children)
        (hbinds : n.binds U r (ep n) = none) : Spared s (s.spawnAt U path r ep).2 := by
      unfold Tree.spawnAt
      simp only [hn,hbinds,hchildren,Option.toList_none,List.append_nil]
      rw [if_neg fun hnew => hnew.2 hnew.1]
      exact ⟨rfl,childrenOf_set hn rfl hchildren⟩
    unfold Tree.spawnAt at hframe
    simp only [hn] at hframe
    obtain ⟨hasks,hchildren⟩ | ⟨hasks,hrefused⟩ := spawn_asks (U := U) n r (ep n)
    · rw [hasks]
      exact .idle (hframe hchildren (by rw [Node.binds,hasks]; rfl))
    · rw [hasks]
      cases hpolicy : refusal U (n.endpoint (ep n)).toList securityDefault with
      | some reason =>
        have hreason : n.refused U r (ep n) = some reason := by
          rw [Node.refused,hsecurity,hpolicy]
          rfl
        obtain ⟨response,hresult,hkind,hchildren⟩ := hrefused reason hreason
        refine .refused (by simp [hpolicy]) ⟨response,congrArg some hresult,hkind⟩
          (hframe hchildren ?_)
        rw [Node.binds,hasks,hsecurity]
        simp [hpolicy]
      | none =>
        refine .bound hpolicy ?_
        have hbinds : n.binds U r (ep n) = some (n.endpoint (ep n)) := by
          rw [Node.binds,hasks,hsecurity]
          simp [hpolicy]
        rw [hbinds]
        rfl

theorem spawnEndpoint_spares (s : Tree W) (identity : String) (endpoint : Option String) :
    (s.spawnEndpoint identity endpoint).2.bound = s.bound ∧
      (s.spawnEndpoint identity endpoint).2.nodes = s.nodes ∧
      (s.spawnEndpoint identity endpoint).2.security = s.security := by
  unfold Tree.spawnEndpoint Tree.childEndpoint
  repeat' split
  all_goals exact ⟨rfl,rfl,rfl⟩

theorem Stepped.since {s t s' : Tree W} {asked : Option String}
    {result : Option (Except Raised Response)} (h : Stepped U t asked result s')
    (hbound : t.bound = s.bound) (hspared : ∀ s', Spared t s' → Spared s s') :
    Stepped U s asked result s' := by
  cases h with
  | idle h' => exact .idle (hspared _ h')
  | refused hpolicy hrefused h' => exact .refused hpolicy hrefused (hspared _ h')
  | bound hpolicy h' => exact .bound hpolicy (h'.trans (by rw [hbound]))

theorem guarded_children (a : Agent W) (d : Directive) : (a.guarded d).children = a.children := by
  unfold Agent.guarded
  split <;> rfl

theorem step_stepped {s : Tree W} (h : Loopback s) (event : Event) :
    Stepped U s (s.asks U event) (s.step U event).1 (s.step U event).2 := by
  cases event with
  | directive path r endpoint => exact spawnAt_stepped h path r fun _ => endpoint
  | own path r => exact spawnAt_stepped h path r fun n => n.childEndpoint r.identity
  | call r endpoint =>
    obtain ⟨hbound,hnodes,hsecurity⟩ := spawnEndpoint_spares s r.identity endpoint
    have hspared (s' : Tree W) (h' : Spared (s.spawnEndpoint r.identity endpoint).2 s') :
        Spared s s' := by
      refine ⟨h'.1.trans hbound,fun path => (h'.2 path).trans ?_⟩
      rw [Tree.childrenOf,hnodes,Tree.childrenOf]
    simp only [Tree.asks,Tree.step,hsecurity,h.driver]
    cases hpolicy : refusal U (s.spawnEndpoint r.identity endpoint).1.toList securityDefault with
    | some reason =>
      exact .refused (by simp [hpolicy]) ⟨_,rfl,rfl⟩ (hspared _ (.refl _))
    | none =>
      have hloopback : Loopback (s.spawnEndpoint r.identity endpoint).2 :=
        ⟨hsecurity.trans h.driver,fun path n hn => h.agents path n (hnodes ▸ hn)⟩
      have hstep := spawnAt_stepped (U := U) hloopback [] r
        fun _ => (s.spawnEndpoint r.identity endpoint).1
      have hasks : (s.spawnEndpoint r.identity endpoint).2.asksAt [] r
          (fun _ => (s.spawnEndpoint r.identity endpoint).1) =
          s.asksAt [] r fun _ => (s.spawnEndpoint r.identity endpoint).1 := by
        rw [Tree.asksAt,hnodes,Tree.asksAt]
      rw [hasks] at hstep
      exact hstep.since hbound hspared
  | configure path o d =>
    simp only [Tree.asks,Tree.step]
    cases hn : s.nodes.get path with
    | none => exact .idle (.refl s)
    | some n =>
      have hchildren : (n.agent.configure o d).2.children = n.agent.children :=
        (Agent.configure_provisions n.agent o d).children.trans (guarded_children n.agent d)
      exact .idle ⟨rfl,childrenOf_set hn rfl hchildren⟩

theorem Loopback.set {s : Tree W} (h : Loopback s) {path : List String} {n : Node W}
    (hn : n.transportSecurity = securityDefault) :
    ∀ path' n', (s.nodes.set path n).get path' = some n' →
      n'.transportSecurity = securityDefault := by
  intro path' n' hn'
  rw [Dict.get_set] at hn'
  split at hn'
  · cases hn'
    exact hn
  · exact h.agents path' n' hn'

theorem Loopback.spawnAt {s : Tree W} (h : Loopback s) (path : List String) (r : Spawn)
    (ep : Node W → String) : Loopback (s.spawnAt U path r ep).2 := by
  unfold Tree.spawnAt
  cases hn : s.nodes.get path with
  | none => exact h
  | some n =>
    have hsecurity := h.agents path n hn
    refine ⟨h.driver,?_⟩
    dsimp only
    split
    · have hset : Loopback { s with
          nodes := s.nodes.set path { n with agent := (n.spawn U r (ep n)).2 } } :=
        ⟨h.driver,h.set hsecurity⟩
      exact hset.set hsecurity
    · exact h.set hsecurity

theorem Loopback.step {s : Tree W} (h : Loopback s) (event : Event) :
    Loopback (s.step U event).2 := by
  cases event with
  | directive path r endpoint => exact h.spawnAt path r _
  | own path r => exact h.spawnAt path r _
  | call r endpoint =>
    obtain ⟨-,hnodes,hsecurity⟩ := spawnEndpoint_spares s r.identity endpoint
    have hloopback : Loopback (s.spawnEndpoint r.identity endpoint).2 :=
      ⟨hsecurity.trans h.driver,fun path n hn => h.agents path n (hnodes ▸ hn)⟩
    simp only [Tree.step]
    split
    · exact hloopback
    · exact hloopback.spawnAt [] r _
  | configure path o d =>
    simp only [Tree.step]
    cases hn : s.nodes.get path with
    | none => exact h
    | some n => exact ⟨h.driver,h.set (n := { n with agent := (n.agent.configure o d).2 })
        (h.agents path n hn)⟩

theorem Loopback.run {s : Tree W} (h : Loopback s) (events : List Event) :
    Loopback (s.run U events) := by
  induction events generalizing s with
  | nil => exact h
  | cons event rest ih => exact ih (h.step event)

def Confined (U : Digits) (s : Tree W) (events : List Event) : Prop :=
  (∀ e ∈ (s.run U events).bound, Allowed e.toList) ∧
    ∀ before event, before ++ [event] <+: events → ∀ e, (s.run U before).asks U event = some e →
      ¬Allowed e.toList → Refused ((s.run U before).step U event).1 ∧
        Spared (s.run U before) ((s.run U before).step U event).2

def AsksClean (U : Digits) (s : Tree W) (events : List Event) : Prop :=
  ∀ before event, before ++ [event] <+: events → ∀ e, (s.run U before).asks U event = some e →
    Clean U e.toList

theorem run_concat (s : Tree W) (before : List Event) (event : Event) :
    s.run U (before ++ [event]) = ((s.run U before).step U event).2 := by
  simp [Tree.run]

theorem AsksClean.initial {s : Tree W} {before events : List Event} (h : AsksClean U s events)
    (hbefore : before <+: events) : AsksClean U s before :=
  fun earlier event hearlier => h earlier event (hearlier.trans hbefore)

theorem bound_allowed {s : Tree W} (h : Loopback s) (hstart : ∀ e ∈ s.bound, Allowed e.toList)
    {events : List Event} (hclean : AsksClean U s events) :
    ∀ e ∈ (s.run U events).bound, Allowed e.toList := by
  induction events using List.reverseRecOn with
  | nil => exact hstart
  | append_singleton before event ih =>
    have hbefore := ih (hclean.initial (List.prefix_append _ _))
    have hevent := hclean before event (List.prefix_refl _)
    have hrun : Loopback (s.run U before) := h.run before
    have hstep := step_stepped (U := U) hrun event
    rw [run_concat]
    cases hasks : (s.run U before).asks U event with
    | none =>
      rw [hasks] at hstep
      cases hstep with
      | idle hspared =>
        rw [hspared.1]
        exact hbefore
    | some e =>
      rw [hasks] at hstep
      cases hstep with
      | refused _ _ hspared =>
        rw [hspared.1]
        exact hbefore
      | bound hpolicy hbound =>
        rw [hbound]
        intro e' he'
        rcases List.mem_append.1 he' with he' | he'
        · exact hbefore e' he'
        · rw [List.mem_singleton.1 he']
          exact clean_iff.1 (hevent e hasks) hpolicy

theorem tree_confined_iff {s : Tree W} (h : Loopback s) (hstart : ∀ e ∈ s.bound, Allowed e.toList)
    (events : List Event) : Confined U s events ↔ AsksClean U s events := by
  constructor
  · rintro ⟨-,hrefused⟩ before event hevents e hasks
    rw [clean_iff]
    intro hpolicy
    by_contra hallowed
    obtain ⟨-,hspared⟩ := hrefused before event hevents e hasks hallowed
    have hrun : Loopback (s.run U before) := h.run before
    have hstep := step_stepped (U := U) hrun event
    rw [hasks] at hstep
    cases hstep with
    | refused hrefusal _ _ => exact hrefusal hpolicy
    | bound _ hbound =>
      rw [hspared.1] at hbound
      simp at hbound
  · intro hclean
    refine ⟨bound_allowed h hstart hclean,fun before event hevents e hasks hallowed => ?_⟩
    have hrun : Loopback (s.run U before) := h.run before
    have hstep := step_stepped (U := U) hrun event
    rw [hasks] at hstep
    cases hstep with
    | refused _ hrefused hspared => exact ⟨hrefused,hspared⟩
    | bound hpolicy _ =>
      exact absurd (clean_iff.1 (hclean before event hevents e hasks) hpolicy) hallowed

def Obeys (W : Type) (U : Digits) (transport endpoint : String) (mode : Option String)
    (events : List Event) : Prop :=
  let started : Started W := construct U transport endpoint mode
  (∀ e ∈ started.bound, Allowed e.toList) ∧
    (¬Allowed (transport ++ "://" ++ endpoint).toList →
      (∃ reason, started.tree = .error reason) ∧ started.bound = []) ∧
    ∀ s, started.tree = .ok s → Confined U s events

/-- The root over `tcp` is clean, any other is allowed as it stands, and what is asked for
afterwards is clean. -/
def Careful (W : Type) (U : Digits) (transport endpoint : String) (mode : Option String)
    (events : List Event) : Prop :=
  let started : Started W := construct U transport endpoint mode
  (if transport = "tcp" then Clean U (transport ++ "://" ++ endpoint).toList
    else Allowed (transport ++ "://" ++ endpoint).toList) ∧
    ∀ s, started.tree = .ok s → AsksClean U s events

theorem construct_cases (U : Digits) (transport endpoint : String) (mode : Option String) :
    let root := transport ++ "://" ++ endpoint
    let started : Started W := construct U transport endpoint mode
    (transport = "tcp" ∧ refusal U root.toList securityDefault ≠ none ∧ started.bound = [] ∧
      ∃ reason, started.tree = .error reason) ∨
    ((transport = "tcp" → refusal U root.toList securityDefault = none) ∧
      started.bound = [root] ∧ ∀ s, started.tree = .ok s → Loopback s ∧ s.bound = [root]) := by
  have htcp (h : transport = "tcp") : refusal U (transport ++ "://" ++ endpoint).toList
      securityDefault = checkTcpBind U endpoint.toList securityDefault := by
    have hroot : (transport ++ "://" ++ endpoint).toList = "tcp://".toList ++ endpoint.toList := by
      rw [h,String.toList_append]
      rfl
    rw [hroot,refusal,if_pos (List.isPrefixOf_iff_prefix.2 (List.prefix_append _ _))]
    rfl
  have hnew (agent : Agent W) : Loopback (⟨transport,securityDefault,0,
      Dict.empty.set [] ⟨agent,transport,securityDefault⟩,[transport ++ "://" ++ endpoint]⟩ :
        Tree W) := by
    refine ⟨rfl,fun path n hn => ?_⟩
    simp only [Dict.get_set,Dict.get_empty] at hn
    split at hn
    · cases hn
      rfl
    · cases hn
  dsimp only
  unfold construct
  dsimp only
  split
  · rename_i reason hreason
    split at hreason
    · rename_i heq
      exact .inl ⟨heq,by rw [htcp heq,hreason]; exact Option.some_ne_none reason,rfl,reason,rfl⟩
    · cases hreason
  · rename_i hreason
    have hpolicy (h : transport = "tcp") :
        refusal U (transport ++ "://" ++ endpoint).toList securityDefault = none := by
      rw [htcp h]
      simpa [h] using hreason
    refine .inr ⟨hpolicy,?_⟩
    split
    · exact ⟨rfl,fun s hs => by cases hs⟩
    · refine ⟨rfl,fun s hs => ?_⟩
      cases hs
      exact ⟨hnew _,rfl⟩

/-- Every endpoint that is bound is allowed, and no other bind succeeds, for exactly the drivers and
directives that ask for clean endpoints. -/
theorem obeys_iff (U : Digits) (transport endpoint : String) (mode : Option String)
    (events : List Event) :
    Obeys W U transport endpoint mode events ↔ Careful W U transport endpoint mode events := by
  unfold Obeys Careful
  dsimp only
  obtain ⟨htcp,hrefusal,hbound,reason,hreason⟩ | ⟨hpolicy,hbound,htree⟩ :=
    construct_cases (W := W) U transport endpoint mode
  · rw [hbound,hreason,if_pos htcp,clean_iff]
    exact ⟨fun _ => ⟨fun h => absurd h hrefusal,nofun⟩,
      fun _ => ⟨nofun,fun _ => ⟨⟨reason,rfl⟩,rfl⟩,nofun⟩⟩
  · have hroot : (if transport = "tcp" then Clean U (transport ++ "://" ++ endpoint).toList
        else Allowed (transport ++ "://" ++ endpoint).toList) ↔
        Allowed (transport ++ "://" ++ endpoint).toList := by
      split
      · rename_i htcp
        rw [clean_iff]
        exact ⟨fun h => h (hpolicy htcp),fun h _ => h⟩
      · exact .rfl
    rw [hroot,hbound]
    constructor
    · rintro ⟨hallowed,-,hconfined⟩
      have hallowed' := hallowed _ (List.mem_singleton.2 rfl)
      refine ⟨hallowed',fun s hs => ?_⟩
      obtain ⟨hloopback,hstart⟩ := htree s hs
      exact (tree_confined_iff hloopback (hstart ▸ hallowed) events).1 (hconfined s hs)
    · rintro ⟨hallowed,hclean⟩
      have hall : ∀ e ∈ [transport ++ "://" ++ endpoint], Allowed e.toList := by
        intro e he
        rw [List.mem_singleton.1 he]
        exact hallowed
      refine ⟨hall,fun h => absurd hallowed h,fun s hs => ?_⟩
      obtain ⟨hloopback,hstart⟩ := htree s hs
      exact (tree_confined_iff hloopback (hstart ▸ hall) events).2 (hclean s hs)

/-- A websocket endpoint on every interface is bound by the root over `inproc`. -/
theorem websocket_bound : ¬ ∀ (U : Digits) (transport endpoint : String) (mode : Option String)
    (events : List Event), Obeys Unit U transport endpoint mode events := by
  intro h
  have hopen := (h ⟨Char.isDigit,Char.isDigit⟩ "inproc" "root" none
    [.directive [] ⟨"spawn-1","child",none,false,none⟩ "ws://0.0.0.0:5600"]).2.2 _ rfl
  have hallowed := hopen.1 "ws://0.0.0.0:5600" (by decide +kernel)
  rcases hallowed with h | h | ⟨host,port,h,-⟩
  · exact absurd h (by decide)
  · exact absurd h (by decide)
  · rw [List.append_assoc] at h
    exact absurd (List.cons.inj h).1 (by decide)

end AgentCentric.Binds

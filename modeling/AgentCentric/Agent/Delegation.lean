import AgentCentric.Agent.Handle

namespace AgentCentric
open Json Replay

/-- The traffic-integrity trailer: how it is attached, and how it is checked and removed.
Without a secret nothing is attached and everything passes. -/
structure Integrity where
  attach : String → String → Dict String Json → Dict String Json
  strip : String → String → Json → Except Raised (Option Json)

def Integrity.off : Integrity := ⟨fun _ _ payload => payload,fun _ _ payload => .ok (some payload)⟩

structure Handler (W : Type) where
  handle : Agent W → Outside → Directive → W → Turn W
  delegated : ∀ a o d w, (handle a o d w).agent.delegated = a.delegated

def Handler.base {W : Type} : Handler W := ⟨Agent.handle,Agent.handle_delegated⟩

inductive ChildMessage where
  /-- Frames that cannot be decoded. -/
  | garbled : Raised → ChildMessage
  | four (messageKind : String) : ChildMessage
  | five (identity correlationId messageKind responseKind : String) (body : Json) : ChildMessage
  | other : ChildMessage

/-- What reaches an agent. -/
inductive Event where
  | directive : Directive → Outside → Event
  | malformed : String → Event
  | child (channel : String) : ChildMessage → Event

/-- What comes of it. -/
inductive Effect where
  | delegated (child : String) (d : Directive) (payload : Dict String Json) : Effect
  | relayed (channel : String) : Response → Effect
  | answered : Response → Effect
  /-- A child's response that fulfils no delegation goes no further. -/
  | received : Response → Effect
  | silent : Effect
  | raised : Raised → Effect

structure Reaction (W : Type) where
  effect : Effect
  agent : Agent W
  world : W

namespace Agent

/-- `_send`. The effect is what is done with the response, once it may be sent. -/
def send {W : Type} (a : Agent W) (w : W) (response : Response) (effect : Response → Effect) :
    Except Raised (Reaction W) :=
  if ¬ a.alive then
    .error (.escaped ("Agent " ++ pyRepr a.identity ++ " is not initialised."))
  else
    match validateResponse response with
    | .error reason => .error (.rejected reason)
    | .ok _ =>
      match response.value with
      | .object _ => .error (.escaped "object is not JSON serializable")
      | .json _ => .ok ⟨effect response,a,w⟩

def malformed {W : Type} (a : Agent W) (w : W) (reason : String) : Reaction W :=
  ⟨.answered (Response.failure "malformed" a.identity
    ("malformed directive rejected: " ++ reason)),a,w⟩

def maybeDelegate (d : Directive) : Option String :=
  if d.kind ≠ .run then none
  else match field d.payload "child" with
    | .str target => if target = "" then none else some target
    | _ => none

/-- `_dispatch_inner`, with the state an exception leaves behind. -/
def dispatchInner {W : Type} (H : Handler W) (I : Integrity) (a : Agent W) (o : Outside)
    (d : Directive) (w : W) : Except (Raised × Agent W × W) (Reaction W) :=
  match maybeDelegate d with
  | some target =>
    if target ∈ a.children then
      .ok ⟨.delegated target d
          (I.attach d.correlationId d.kind.text (d.payload.erase "child")),
        { a with delegated := a.delegated.set d.correlationId target },w⟩
    else
      (a.send w (a.error d ("delegation target " ++ pyRepr target ++ " is not a spawned child"))
        .answered).mapError fun e => (e,a,w)
  | none =>
    let t := H.handle a o d w
    match t.outcome with
    | .error e => .error (e,t.agent,t.world)
    | .ok response =>
      (t.agent.send t.world response .answered).mapError fun e => (e,t.agent,t.world)

/-- `_dispatch`: some exceptions become error responses. -/
def dispatch {W : Type} (H : Handler W) (I : Integrity) (a : Agent W) (o : Outside)
    (d : Directive) (w : W) : Reaction W :=
  match a.dispatchInner H I o d w with
  | .ok reaction => reaction
  | .error (.escaped text,a,w) => ⟨.raised (.escaped text),a,w⟩
  | .error (.rejected text,a,w) =>
    match a.send w (a.error d ("directive rejected: " ++ text)) .answered with
    | .ok reaction => reaction
    | .error e => ⟨.raised e,a,w⟩

def childResponse (identity correlationId : String) (kind : ResponseKind)
    (items : List (String × Json)) : Response :=
  let get (name : String) (default : Json) := (Dict.lookup items name).getD default
  { correlationId := correlationId
    kind := kind
    value := .json (get "value" .null)
    verified := get "verified" (.bool false)
    node := get "node" (.str identity)
    error := get "error" .null
    source := get "source" (.str "")
    sources := get "sources" .null
    confidence := get "confidence" .null
    modelRecord := get "model_record" .null }

def validateChild (identity correlationId responseKind : String) (items : List (String × Json)) :
    Except String Response :=
  match ResponseKind.ofText responseKind with
  | none => .error (if correlationId = "" then "response is missing a correlation id"
      else "unknown response kind " ++ pyRepr responseKind)
  | some kind =>
    let response := childResponse identity correlationId kind items
    (validateResponse response).map fun _ => response

/-- `_handle_child`: an acknowledgment is no response. -/
def handleChild {W : Type} (I : Integrity) (a : Agent W) (m : ChildMessage) :
    Except Raised (Option Response) :=
  match m with
  | .garbled e => .error e
  | .four kind =>
    if kind = "ack" then .ok none
    else .ok (some (Response.failure "" a.identity "malformed child message"))
  | .other => .ok (some (Response.failure "" a.identity "malformed child response"))
  | .five identity correlationId messageKind responseKind body =>
    if messageKind ≠ "response" then
      .ok (some (Response.failure correlationId a.identity ("child " ++ pyRepr identity ++
        " sent message kind " ++ pyRepr messageKind ++ ", expected response")))
    else
      match I.strip correlationId responseKind body with
      | .error e => .error e
      | .ok none => .ok (some (Response.failure correlationId a.identity
          ("child " ++ pyRepr identity ++ " failed traffic-integrity verification")))
      | .ok (some (.dict items)) =>
        match validateChild identity correlationId responseKind items with
        | .ok response => .ok (some response)
        | .error reason => .ok (some (Response.failure correlationId a.identity
            ("child " ++ pyRepr identity ++ " sent invalid response: " ++ reason)))
      | .ok (some other) =>
        .error (.escaped ("'" ++ other.typeName ++ "' object has no attribute 'get'"))

def demoted {W : Type} (a : Agent W) (response : Response) (channel : String) : Response :=
  { Response.failure response.correlationId a.identity ("child " ++ pyRepr channel ++
      " returned a value that failed the parent's verifier") with
    sources := response.sources }

def reverify {W : Type} (a : Agent W) (response : Response) (w : W) : Except Raised Bool × W :=
  match a.verifier with
  | none => (.ok true,w)
  | some name =>
    if response.verified.truthy then a.verify response.value (.str name) w else (.ok true,w)

def relayVerified {W : Type} (a : Agent W) (response : Response) (channel : String) (w : W) :
    Reaction W :=
  match a.reverify response w with
  | (.error e,w) => ⟨.raised e,a,w⟩
  | (.ok accepted,w) =>
    let up := if accepted then response else a.demoted response channel
    match a.send w up (.relayed channel) with
    | .ok reaction => reaction
    | .error e => ⟨.raised e,a,w⟩

/-- `_delegated.pop(correlation_id, None)`. -/
def fulfilled {W : Type} (a : Agent W) (correlationId : String) : Agent W :=
  { a with delegated := a.delegated.erase correlationId }

/-- One round of `_drain_child`. The delegation is looked up by correlation id only. -/
def drainChild {W : Type} (I : Integrity) (a : Agent W) (channel : String) (m : ChildMessage)
    (w : W) : Reaction W :=
  match a.handleChild I m with
  | .error e => ⟨.raised e,a,w⟩
  | .ok none => ⟨.silent,a,w⟩
  | .ok (some response) =>
    match a.delegated.get response.correlationId with
    | none => ⟨.received response,a,w⟩
    | some _ => (a.fulfilled response.correlationId).relayVerified response channel w

/-- One event. An agent that was killed handles none, and only the channels of children
are polled. -/
def react {W : Type} (H : Handler W) (I : Integrity) (a : Agent W) (w : W) : Event → Reaction W
  | .directive d o =>
    if ¬ a.alive then ⟨.silent,a,w⟩
    else if d.correlationId = "" then a.malformed w "directive is missing a correlation id"
    else a.dispatch H I o d w
  | .malformed reason => if ¬ a.alive then ⟨.silent,a,w⟩ else a.malformed w reason
  | .child channel m =>
    if ¬ a.alive ∨ channel ∉ a.children then ⟨.silent,a,w⟩
    else a.drainChild I channel m w

end Agent

structure Step (W : Type) where
  agent : Agent W
  world : W
  event : Event
  effect : Effect

structure Past (W : Type) where
  steps : List (Step W)
  agent : Agent W
  world : W

variable {W : Type}

namespace Past

def start {W : Type} (a : Agent W) (w : W) : Past W := ⟨[],a,w⟩

def next {W : Type} (H : Handler W) (I : Integrity) (p : Past W) (e : Event) : Past W :=
  let r := p.agent.react H I p.world e
  ⟨p.steps ++ [⟨p.agent,p.world,e,r.effect⟩],r.agent,r.world⟩

def run {W : Type} (H : Handler W) (I : Integrity) (a : Agent W) (w : W) (es : List Event) :
    Past W := es.foldl (next H I) (start a w)

theorem run_concat (H : Handler W) (I : Integrity) (a : Agent W) (w : W)
    (es : List Event) (e : Event) : run H I a w (es ++ [e]) = (run H I a w es).next H I e := by
  simp [run]

end Past

def Step.concerns {W : Type} (correlationId : String) (s : Step W) : Bool :=
  match s.effect with
  | .delegated _ d _ => d.correlationId = correlationId
  | .relayed _ response => response.correlationId = correlationId
  | _ => false

variable {I : Integrity} {response : Response}

namespace Agent

/-- The three kinds of reactions. -/
inductive Reacts {W : Type} (I : Integrity) (a : Agent W) (w : W) (e : Event)
    (r : Reaction W) : Prop where
  | delegates {d : Directive} {child : String} {payload : Dict String Json} :
      d.correlationId ≠ "" → r.effect = .delegated child d payload →
      r.agent.delegated = a.delegated.set d.correlationId child → Reacts I a w e r
  | relays {channel child : String} {m : ChildMessage} {response : Response} {accepted : Bool}
      {w' : W} : e = .child channel m → channel ∈ a.children →
      a.handleChild I m = .ok (some response) →
      a.delegated.get response.correlationId = some child →
      a.reverify response w = (.ok accepted,w') →
      r.effect = .relayed channel (if accepted then response else a.demoted response channel) →
      r.agent.delegated = a.delegated.erase response.correlationId → Reacts I a w e r
  | other : (∀ child d payload, r.effect ≠ .delegated child d payload) →
      (∀ channel response, r.effect ≠ .relayed channel response) →
      (∀ k child, r.agent.delegated.get k = some child → a.delegated.get k = some child) →
      Reacts I a w e r

theorem send_ok {a : Agent W} {w : W} {effect : Response → Effect}
    {r : Reaction W} (h : a.send w response effect = .ok r) : r = ⟨effect response,a,w⟩ := by
  unfold send at h
  split at h
  · cases h
  split at h
  · cases h
  split at h
  · cases h
  · exact (Except.ok.inj h).symm

theorem Reacts.answered {a b : Agent W} {w w' : W} {e : Event}
    {effect : Effect} (hdelegated : b.delegated = a.delegated)
    (heffect : (∃ response, effect = .answered response) ∨ ∃ e, effect = .raised e) :
    Reacts I a w e ⟨effect,b,w'⟩ := by
  apply Reacts.other
  · rcases heffect with ⟨_,rfl⟩ | ⟨_,rfl⟩ <;> simp
  · rcases heffect with ⟨_,rfl⟩ | ⟨_,rfl⟩ <;> simp
  · intro k child hk
    rw [← hdelegated]
    exact hk

theorem Reacts.silent {a : Agent W} {w : W} {e : Event} : Reacts I a w e ⟨.silent,a,w⟩ :=
  .other (by simp) (by simp) fun _ _ h => h

theorem dispatchInner_cases (H : Handler W) (I : Integrity) (a : Agent W) (o : Outside)
    (d : Directive) (w : W) : (∃ child payload, a.dispatchInner H I o d w =
      .ok ⟨.delegated child d payload,
        { a with delegated := a.delegated.set d.correlationId child },w⟩) ∨
    (∃ response b w', a.dispatchInner H I o d w = .ok ⟨.answered response,b,w'⟩ ∧
      b.delegated = a.delegated) ∨
    (∃ e b w', a.dispatchInner H I o d w = .error (e,b,w') ∧ b.delegated = a.delegated) := by
  unfold dispatchInner
  split
  · split
    · exact .inl ⟨_,_,rfl⟩
    · rename_i target _ _
      cases hsend : a.send w (a.error d ("delegation target " ++ pyRepr target ++
          " is not a spawned child")) .answered with
      | error e => exact .inr (.inr ⟨e,a,w,rfl,rfl⟩)
      | ok r =>
        rw [send_ok hsend]
        exact .inr (.inl ⟨_,a,w,rfl,rfl⟩)
  · have hkept := H.delegated a o d w
    dsimp only
    split
    · rename_i e _
      exact .inr (.inr ⟨e,_,_,rfl,hkept⟩)
    · rename_i response _
      cases hsend : (H.handle a o d w).agent.send (H.handle a o d w).world response .answered with
      | error e => exact .inr (.inr ⟨e,_,_,rfl,hkept⟩)
      | ok r =>
        rw [send_ok hsend]
        exact .inr (.inl ⟨response,_,_,rfl,hkept⟩)

theorem dispatch_reacts (H : Handler W) (I : Integrity) (a : Agent W) (o : Outside)
    {d : Directive} (w : W) (hid : d.correlationId ≠ "") (e : Event) :
    Reacts I a w e (a.dispatch H I o d w) := by
  unfold dispatch
  rcases dispatchInner_cases H I a o d w with
    ⟨child,payload,heq⟩ | ⟨response,b,w',heq,hkept⟩ | ⟨raised,b,w',heq,hkept⟩
  · rw [heq]
    exact .delegates hid rfl rfl
  · rw [heq]
    exact .answered hkept (.inl ⟨_,rfl⟩)
  · rw [heq]
    cases raised with
    | escaped text => exact .answered hkept (.inr ⟨_,rfl⟩)
    | rejected text =>
      dsimp only
      cases hsend : b.send w' (b.error d ("directive rejected: " ++ text)) .answered with
      | error e' => exact .answered hkept (.inr ⟨_,rfl⟩)
      | ok r =>
        rw [send_ok hsend]
        exact .answered hkept (.inl ⟨_,rfl⟩)

theorem drainChild_reacts (I : Integrity) {a : Agent W} {channel : String}
    (m : ChildMessage) (w : W) (hchannel : channel ∈ a.children) :
    Reacts I a w (.child channel m) (a.drainChild I channel m w) := by
  unfold drainChild
  split
  · exact .answered rfl (.inr ⟨_,rfl⟩)
  · exact .silent
  · rename_i response hresponse
    split
    · exact .other (by simp) (by simp) fun _ _ h => h
    · rename_i child hpending
      have hkept : ∀ k x, (a.delegated.erase response.correlationId).get k = some x →
          a.delegated.get k = some x := by
        intro k x hk
        rw [Dict.get_erase] at hk
        split at hk
        · cases hk
        · exact hk
      unfold relayVerified
      split
      · exact .other (by simp) (by simp) hkept
      · rename_i accepted w' hverify
        dsimp only
        split
        · rename_i r hsend
          rw [send_ok hsend]
          exact .relays rfl hchannel hresponse hpending hverify rfl rfl
        · exact .other (by simp) (by simp) hkept

theorem react_reacts (H : Handler W) (I : Integrity) (a : Agent W) (w : W)
    (e : Event) : Reacts I a w e (a.react H I w e) := by
  cases e with
  | directive d o =>
    unfold react
    dsimp only
    split
    · exact .silent
    split
    · exact .answered rfl (.inl ⟨_,rfl⟩)
    · rename_i hid
      exact dispatch_reacts H I a o w hid _
  | malformed reason =>
    unfold react
    dsimp only
    split
    · exact .silent
    · exact .answered rfl (.inl ⟨_,rfl⟩)
  | child channel m =>
    unfold react
    dsimp only
    split
    · exact .silent
    · rename_i hready
      have hchannel : channel ∈ a.children := by
        by_contra hout
        exact hready (.inr hout)
      exact drainChild_reacts I m w hchannel

end Agent

variable {es : List Event}

namespace Past

/-- A pending delegation is the last thing that happened with its correlation id. -/
def Pending {W : Type} (p : Past W) : Prop :=
  ∀ k child, p.agent.delegated.get k = some child →
    k ≠ "" ∧ ∃ t d payload, latest (Step.concerns k) p.steps = some t ∧
      t.effect = .delegated child d payload

theorem Pending.next {H : Handler W} {p : Past W} (h : p.Pending)
    (e : Event) : (p.next H I e).Pending := by
  intro k child hk
  have hsteps : (p.next H I e).steps =
      p.steps ++ [⟨p.agent,p.world,e,(p.agent.react H I p.world e).effect⟩] := rfl
  have hagent : (p.next H I e).agent = (p.agent.react H I p.world e).agent := rfl
  rw [hagent] at hk
  rw [hsteps,latest_concat]
  cases p.agent.react_reacts H I p.world e with
  | @delegates d target payload hid heffect hdelegated =>
    rw [hdelegated,Dict.get_set] at hk
    simp only [Step.concerns,heffect]
    by_cases heq : d.correlationId = k
    · rw [if_pos heq] at hk
      cases hk
      subst heq
      exact ⟨hid,⟨p.agent,p.world,e,.delegated child d payload⟩,d,payload,by simp,rfl⟩
    · rw [if_neg heq] at hk
      simpa [heq] using h k child hk
  | @relays channel owner m response accepted w' _ _ _ _ _ heffect hdelegated =>
    rw [hdelegated,Dict.get_erase] at hk
    split at hk
    · cases hk
    · rename_i hne
      have hid : (if accepted then response else p.agent.demoted response channel).correlationId =
          response.correlationId := by cases accepted <;> rfl
      simp only [Step.concerns,heffect,hid,hne,decide_false,Bool.false_eq_true,if_false]
      exact h k child hk
  | other hdelegates hrelays hkept =>
    have hquiet : Step.concerns k
        ⟨p.agent,p.world,e,(p.agent.react H I p.world e).effect⟩ = false := by
      unfold Step.concerns
      split
      · rename_i child' d' payload' heq
        exact absurd heq (hdelegates child' d' payload')
      · rename_i channel' response' heq
        exact absurd heq (hrelays channel' response')
      · rfl
    rw [hquiet]
    exact h k child (hkept k child hk)

theorem run_pending {H : Handler W} {a : Agent W} (w : W)
    (hnone : a.delegated = Dict.empty) (es : List Event) : (run H I a w es).Pending := by
  induction es using List.reverseRecOn with
  | nil =>
    intro k child hk
    simp [run,start,hnone] at hk
  | append_singleton es e ih =>
    rw [run_concat]
    exact ih.next e

theorem run_split {H : Handler W} {a : Agent W} {w : W} {before after : List (Step W)} {s : Step W}
    (h : (run H I a w es).steps = before ++ s :: after) :
    ∃ first e, before = (run H I a w first).steps ∧
      s = ⟨(run H I a w first).agent,(run H I a w first).world,e,
        ((run H I a w first).agent.react H I (run H I a w first).world e).effect⟩ := by
  induction es using List.reverseRecOn generalizing after with
  | nil => simp [run,start] at h
  | append_singleton es e ih =>
    rw [run_concat] at h
    simp only [Past.next] at h
    rcases List.eq_nil_or_concat after with rfl | ⟨after',last,rfl⟩
    · obtain ⟨hbefore,hs⟩ := List.append_inj' h rfl
      exact ⟨es,e,hbefore.symm,by simpa using hs.symm⟩
    · rw [List.concat_eq_append,← List.cons_append,← List.append_assoc] at h
      exact ih (List.append_inj' h rfl).1

end Past

/-- Every relayed response answers the last directive that was delegated under its correlation
id, which has no other answer; it came on the channel of the child that the directive went to;
and where it is marked verified the agent's verifier accepts its value. -/
structure RelaysSound {W : Type} (steps : List (Step W)) : Prop where
  once : ∀ before s after channel response, steps = before ++ s :: after →
    s.effect = .relayed channel response →
    ∃ t child d payload, latest (Step.concerns response.correlationId) before = some t ∧
      t.effect = .delegated child d payload ∧ d.correlationId = response.correlationId
  channel : ∀ before s after channel response, steps = before ++ s :: after →
    s.effect = .relayed channel response →
    ∀ t child d payload, latest (Step.concerns response.correlationId) before = some t →
      t.effect = .delegated child d payload → child = channel
  verified : ∀ s ∈ steps, ∀ channel response name, s.effect = .relayed channel response →
    response.verified.truthy → s.agent.verifier = some name →
    ∃ w, s.agent.verify response.value (.str name) s.world = (.ok true,w)

/-- Whenever a child's response carries a pending correlation id, and its verification does not
raise, the pending delegation names the channel it came on. -/
def AnsweredByOwner {W : Type} (I : Integrity) (steps : List (Step W)) : Prop :=
  ∀ s ∈ steps, ∀ channel m response child accepted w, s.event = .child channel m →
    s.agent.alive → channel ∈ s.agent.children → s.agent.handleChild I m = .ok (some response) →
    s.agent.delegated.get response.correlationId = some child →
    s.agent.reverify response s.world = (.ok accepted,w) → child = channel

namespace Agent

theorem reverify_fulfilled (a : Agent W) (k : String) (response : Response) (w : W) :
    (a.fulfilled k).reverify response w = a.reverify response w := rfl

theorem demoted_fulfilled (a : Agent W) (k : String) (response : Response)
    (channel : String) : (a.fulfilled k).demoted response channel = a.demoted response channel :=
  rfl

theorem send_of_valid {a : Agent W} {w : W}
    {effect : Response → Effect} {j : Json} (halive : a.alive = true)
    (hvalid : validateResponse response = .ok ()) (hvalue : response.value = .json j) :
    a.send w response effect = .ok ⟨effect response,a,w⟩ := by
  simp [send,halive,hvalid,hvalue]

theorem failure_valid {correlationId : String} (node message : String) (h : correlationId ≠ "") :
    validateResponse (Response.failure correlationId node message) = .ok () := by
  simp [validateResponse,Response.failure,Response.plain,require,h,truthy,isStr]
  rfl

theorem validateChild_valid {identity correlationId responseKind : String}
    {items : List (String × Json)}
    (h : validateChild identity correlationId responseKind items = .ok response) :
    validateResponse response = .ok () ∧ ∃ j, response.value = .json j := by
  unfold validateChild at h
  split at h
  · cases h
  · rename_i kind _
    cases hvalid : validateResponse (childResponse identity correlationId kind items) with
    | error reason => simp [hvalid,Except.map] at h
    | ok _ =>
      simp only [hvalid,Except.map,Except.ok.injEq] at h
      subst h
      exact ⟨hvalid,_,rfl⟩

theorem handleChild_valid {a : Agent W} {m : ChildMessage}
    (h : a.handleChild I m = .ok (some response)) (hid : response.correlationId ≠ "") :
    validateResponse response = .ok () ∧ ∃ j, response.value = .json j := by
  unfold handleChild at h
  split at h
  · cases h
  · split at h
    · cases h
    · cases h
      exact absurd rfl hid
  · cases h
    exact absurd rfl hid
  · split at h
    · cases h
      exact ⟨failure_valid _ _ hid,_,rfl⟩
    split at h
    · cases h
    · cases h
      exact ⟨failure_valid _ _ hid,_,rfl⟩
    · split at h
      · rename_i hchild
        cases h
        exact validateChild_valid hchild
      · cases h
        exact ⟨failure_valid _ _ hid,_,rfl⟩
    · cases h

theorem react_relays (H : Handler W) {a : Agent W} {w w' : W}
    {channel child : String} {m : ChildMessage} {accepted : Bool}
    (halive : a.alive = true) (hchannel : channel ∈ a.children)
    (hresponse : a.handleChild I m = .ok (some response)) (hid : response.correlationId ≠ "")
    (hpending : a.delegated.get response.correlationId = some child)
    (hverify : a.reverify response w = (.ok accepted,w')) :
    (a.react H I w (.child channel m)).effect =
      .relayed channel (if accepted then response else a.demoted response channel) := by
  obtain ⟨hvalid,j,hvalue⟩ := handleChild_valid hresponse hid
  have hdemoted : validateResponse (a.demoted response channel) = .ok () := by
    simp [validateResponse,demoted,Response.failure,Response.plain,require,hid,truthy,isStr]
    rfl
  have hready : ¬ (¬ a.alive = true ∨ channel ∉ a.children) := by simp [halive,hchannel]
  have hdrain : a.react H I w (.child channel m) =
      (a.fulfilled response.correlationId).relayVerified response channel w := by
    simp only [react,if_neg hready,drainChild,hresponse,hpending]
  have hsend : ∀ up : Response, validateResponse up = .ok () → (∃ j, up.value = .json j) →
      (a.fulfilled response.correlationId).send w' up (.relayed channel) =
        .ok ⟨.relayed channel up,a.fulfilled response.correlationId,w'⟩ := by
    rintro up hup ⟨i,hi⟩
    exact send_of_valid halive hup hi
  rw [hdrain]
  simp only [relayVerified,reverify_fulfilled,hverify,demoted_fulfilled]
  cases accepted with
  | true => simp only [if_true,hsend response hvalid ⟨j,hvalue⟩]
  | false => simp only [Bool.false_eq_true,if_false,hsend _ hdemoted ⟨.null,rfl⟩]

theorem react_relayed {H : Handler W} {a : Agent W} {w : W} {e : Event}
    {channel : String} {up : Response} (h : (a.react H I w e).effect = .relayed channel up) :
    ∃ m response child accepted w', e = .child channel m ∧ a.alive = true ∧
      channel ∈ a.children ∧ a.handleChild I m = .ok (some response) ∧
      a.delegated.get response.correlationId = some child ∧
      a.reverify response w = (.ok accepted,w') ∧
      up = if accepted then response else a.demoted response channel := by
  cases a.react_reacts H I w e with
  | delegates _ heffect => simp [heffect] at h
  | other _ hrelays => exact absurd h (hrelays channel up)
  | @relays c child m response accepted w' hevent hchannel hresponse hpending hverify heffect =>
    have halive : a.alive = true := by
      by_contra hdead
      simp [react,hevent,hdead] at h
    rw [h] at heffect
    cases heffect
    exact ⟨m,response,child,accepted,w',hevent,halive,hchannel,hresponse,hpending,hverify,rfl⟩

theorem verdict_correlationId (a : Agent W) (response : Response) (channel : String)
    (accepted : Bool) : (if accepted then response else a.demoted response channel).correlationId =
      response.correlationId := by
  cases accepted <;> rfl

theorem verdict_verified {a : Agent W} {channel name : String}
    {accepted : Bool} {w w' : W} (hname : a.verifier = some name)
    (hverify : a.reverify response w = (.ok accepted,w'))
    (htrue : (if accepted then response else a.demoted response channel).verified.truthy = true) :
    a.verify (if accepted then response else a.demoted response channel).value (.str name) w =
      (.ok true,w') := by
  cases accepted with
  | true =>
    simp only [if_true] at htrue
    simpa [reverify,hname,htrue] using hverify
  | false => simp [demoted,Response.failure,Response.plain,truthy] at htrue

end Agent

theorem answeredByOwner_of_sound {H : Handler W} {a : Agent W} {w : W}
    (hnone : a.delegated = Dict.empty) (h : RelaysSound (Past.run H I a w es).steps) :
    AnsweredByOwner I (Past.run H I a w es).steps := by
  intro s hs channel m response child accepted w' hevent halive hchannel hresponse hpending hverify
  obtain ⟨before,after,hsplit⟩ := List.append_of_mem hs
  obtain ⟨first,e,hbefore,hstep⟩ := Past.run_split hsplit
  obtain ⟨hid,t,d,payload,ht,heffect⟩ :=
    Past.run_pending w hnone first response.correlationId child (by rw [hstep] at hpending; exact hpending)
  rw [hstep] at hevent halive hchannel hresponse hpending hverify
  have hrelay := Agent.react_relays H halive hchannel hresponse hid hpending hverify
  have hseffect : s.effect = _ := (by rw [hstep,← hevent] : s.effect = _).trans hrelay
  refine h.channel before s after channel _ hsplit hseffect t child d payload ?_ heffect
  rw [Agent.verdict_correlationId,hbefore]
  exact ht

theorem relays_once {H : Handler W} {a : Agent W} {w : W}
    (hnone : a.delegated = Dict.empty) {before after : List (Step W)} {s : Step W}
    {channel : String} {up : Response} (hsplit : (Past.run H I a w es).steps = before ++ s :: after)
    (heffect : s.effect = .relayed channel up) :
    ∃ t child d payload, latest (Step.concerns up.correlationId) before = some t ∧
      t.effect = .delegated child d payload ∧ d.correlationId = up.correlationId ∧
      s.agent.delegated.get up.correlationId = some child := by
  obtain ⟨first,e,hbefore,hstep⟩ := Past.run_split hsplit
  rw [hstep] at heffect
  obtain ⟨m,response,child,accepted,w',-,-,-,-,hpending,-,rfl⟩ := Agent.react_relayed heffect
  obtain ⟨-,t,d,payload,ht,hdelegated⟩ := Past.run_pending w hnone first _ _ hpending
  rw [Agent.verdict_correlationId,hbefore,hstep]
  refine ⟨t,child,d,payload,ht,hdelegated,?_,hpending⟩
  have hconcerns := (latest_mem ht).2
  simpa [Step.concerns,hdelegated] using hconcerns

theorem relays_verified {H : Handler W} {a : Agent W} {w : W}
    {s : Step W} (hs : s ∈ (Past.run H I a w es).steps) {channel name : String}
    {up : Response} (heffect : s.effect = .relayed channel up) (htrue : up.verified.truthy = true)
    (hname : s.agent.verifier = some name) :
    ∃ w, s.agent.verify up.value (.str name) s.world = (.ok true,w) := by
  obtain ⟨before,after,hsplit⟩ := List.append_of_mem hs
  obtain ⟨first,e,-,hstep⟩ := Past.run_split hsplit
  rw [hstep] at heffect hname
  obtain ⟨m,response,owner,accepted,w',-,-,-,-,-,hverify,rfl⟩ := Agent.react_relayed heffect
  rw [hstep]
  exact ⟨w',Agent.verdict_verified hname hverify htrue⟩

theorem sound_of_answeredByOwner {H : Handler W} {a : Agent W} {w : W}
    (hnone : a.delegated = Dict.empty) (h : AnsweredByOwner I (Past.run H I a w es).steps) :
    RelaysSound (Past.run H I a w es).steps := by
  constructor
  · intro before s after channel up hsplit heffect
    obtain ⟨t,child,d,payload,ht,hdelegated,hid,-⟩ := relays_once hnone hsplit heffect
    exact ⟨t,child,d,payload,ht,hdelegated,hid⟩
  · intro before s after channel up hsplit heffect t child d payload ht hdelegated
    obtain ⟨t',owner,d',payload',ht',hdelegated',-,hpending⟩ := relays_once hnone hsplit heffect
    rw [ht] at ht'
    cases ht'
    rw [hdelegated] at hdelegated'
    cases hdelegated'
    obtain ⟨first,e,-,hstep⟩ := Past.run_split hsplit
    have hs : s ∈ (Past.run H I a w es).steps := by simp [hsplit]
    rw [hstep] at heffect hpending
    obtain ⟨m,response,owner,accepted,w',hevent,halive,hchannel,hresponse,-,hverify,rfl⟩ :=
      Agent.react_relayed heffect
    rw [Agent.verdict_correlationId] at hpending
    rw [hstep] at hs
    exact h _ hs channel m response child accepted w' hevent halive hchannel hresponse hpending
      hverify
  · intro s hs channel up name heffect htrue hname
    exact relays_verified hs heffect htrue hname

/-- In any run, what is relayed is sound exactly if every response with a pending correlation
id comes from the child that the pending delegation names. -/
theorem relaysSound_iff {W : Type} (H : Handler W) (I : Integrity) {a : Agent W} (w : W)
    (es : List Event) (hnone : a.delegated = Dict.empty) :
    RelaysSound (Past.run H I a w es).steps ↔ AnsweredByOwner I (Past.run H I a w es).steps :=
  ⟨answeredByOwner_of_sound hnone,sound_of_answeredByOwner hnone⟩

/-- Two children are spawned, a directive is delegated to the first, and the second sends a
response with its correlation id. -/
def crossed : List Event :=
  let outside : Outside := ⟨false,.error (.escaped ""),.ok (),.ok none,none⟩
  let spawn (id child : String) : Event := .directive ⟨id,.spawn,
    (Dict.empty.set "identity" (.str child)).set "endpoint" (.str child)⟩ outside
  [spawn "spawn-1" "a",spawn "spawn-2" "b",
    .directive ⟨"run-3",.run,
      (Dict.empty.set "task" (.str "t")).set "child" (.str "a")⟩ outside,
    .child "b" (.five "b" "run-3" "response" "result"
      (.dict [("value",.int 7),("verified",.bool true)]))]

theorem relaysSound_iff_crossed :
    let steps := (Past.run Handler.base Integrity.off (Agent.new "root" none []) () crossed).steps
    RelaysSound steps ↔ AnsweredByOwner Integrity.off steps :=
  relaysSound_iff Handler.base Integrity.off () crossed rfl

/-- The second child's value goes up as the answer to the first child's directive. -/
theorem crossed_not_sound :
    ¬ RelaysSound
      (Past.run Handler.base Integrity.off (Agent.new "root" none []) () crossed).steps := by
  intro h
  have hchannel := h.channel
    ((Past.run Handler.base Integrity.off (Agent.new "root" none []) () crossed).steps.take 3)
    _ [] "b" _ rfl rfl _ "a" _ _ rfl rfl
  exact absurd hchannel (by decide)

end AgentCentric

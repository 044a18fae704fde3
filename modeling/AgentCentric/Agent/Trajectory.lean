import AgentCentric.Agent.Dispatch

namespace AgentCentric.Trajectory
open Json

/-- The columns of an event, without its correlation id. -/
structure AuditRow where
  kind : String
  node : String
  verified : Bool
  value : Option String
  error : Option String
  source : String
  sources : Option String
  fingerprint : String

/-- `_canonic`, where there is a value. What is no JSON is not sent, and not recorded either. -/
def valueColumn : PyValue → Option String
  | .json .null | .object _ => none
  | .json value => some value.dumps

def sourcesColumn : Json → Option String
  | .null => none
  | sources => some sources.dumps

/-- What stands in a column of texts. Lists, dictionaries and integers of more than 64 bits cannot
be bound. -/
def errorColumn : Json → Option (Option String)
  | .null | .nan => some none
  | .str s => some (some s)
  | .bool b => some (some (if b then "1" else "0"))
  | .int n => if -(2 ^ 63) ≤ n ∧ n < 2 ^ 63 then some (some (toString n)) else none
  | .decimal d => some (some (String.ofList d.chars))
  | .infinity => some (some "Inf")
  | .negInfinity => some (some "-Inf")
  | .list _ | .dict _ => none

/-- What `record` inserts, if it can be bound. -/
def rowOf (kind node fingerprint : String) (response : Response) : Option AuditRow :=
  (errorColumn response.error).map fun error =>
    { kind := kind
      node := node
      verified := response.verified.truthy
      value := valueColumn response.value
      error := error
      source := response.source.text
      sources := sourcesColumn response.sources
      fingerprint := fingerprint }

def plainError : Json → Bool
  | .null | .str _ => true
  | _ => false

structure AuditRow.Tells (row : AuditRow) (response : Response) : Prop where
  verified : row.verified = response.verified.truthy
  value : row.value = valueColumn response.value
  error : response.error = match row.error with
    | none => .null
    | some text => .str text
  source : response.source = .str row.source
  sources : row.sources = sourcesColumn response.sources

variable {response : Response}

theorem rowOf_tells {kind node fingerprint : String} {row : AuditRow}
    (h : rowOf kind node fingerprint response = some row) (hsource : response.source.isStr = true) :
    row.Tells response ↔ plainError response.error = true := by
  rw [rowOf,Option.map_eq_some_iff] at h
  obtain ⟨error,herror,rfl⟩ := h
  have htext : response.source = .str response.source.text := by
    cases hs : response.source with
    | str s => rfl
    | _ =>
      rw [hs] at hsource
      cases hsource
  constructor
  · intro htells
    have htold := htells.error
    simp only at htold
    rw [htold]
    cases error <;> rfl
  · intro hplain
    refine ⟨rfl,rfl,?_,htext,rfl⟩
    cases he : response.error with
    | null =>
      rw [he] at herror
      cases herror
      rfl
    | str s =>
      rw [he] at herror
      cases herror
      rfl
    | _ =>
      rw [he] at hplain
      cases hplain

/-- A directive that an agent executes, or a child's response that it relays: what comes of it, if
no exception goes through, and what is handed to the store. -/
structure Due where
  session : Nat
  correlationId : String
  node : String
  fingerprint : String
  relayed : Bool
  outcome : Option Response
  recorded : Option Response
  same : ∀ response, recorded = some response →
    outcome = some response ∧ response.source.isStr = true

def Due.kindOf (due : Due) (response : Response) : String :=
  if due.relayed then "relay" else response.kind.text

def Due.row (due : Due) : Option AuditRow :=
  due.recorded.bind fun response =>
    rowOf (due.kindOf response) due.node due.fingerprint response

structure Life (W : Type) where
  session : Nat
  agent : Agent W
  world : W
  opened : Option String

inductive Move (W : Type) where
  /-- The agent of a new session. -/
  | session (a : Agent W) (w : W)
  /-- What others do to the agent, such as `configure_child`. -/
  | changed (a : Agent W) (w : W) (opened : Option String)
  | event (e : Event)

variable {W : Type}

def handled (H : Handler W) (a : Agent W) (o : Outside) (d : Directive) (w : W) :
    Option (Turn W) :=
  match Agent.maybeDelegate d with
  | some target =>
    if target ∈ a.children then none
    else some (a.refuse w d ("delegation target " ++ pyRepr target ++ " is not a spawned child"))
  | none => some (H.handle a o d w)

def openedAfter (opened : Option String) (d : Directive) (t : Turn W) : Option String :=
  match d.kind, t.outcome with
  | .kill, .ok _ => none
  | .configure, .ok _ =>
    if Agent.grantsPath d "trajectory" then some (field d.payload "trajectory").text else opened
  | _, _ => opened

def answerOf : Effect → Option Response
  | .answered response => some response
  | _ => none

def sentBy (t : Turn W) : Option Response :=
  match t.outcome with
  | .error _ => none
  | .ok response =>
    match t.agent.sends response with
    | .error _ => none
    | .ok _ => some response

theorem sentBy_some {t : Turn W} (h : sentBy t = some response) :
    t.outcome = .ok response ∧ t.agent.sends response = .ok () := by
  unfold sentBy at h
  split at h
  · cases h
  · rename_i hok
    split at h
    · cases h
    · rename_i hsends
      cases h
      exact ⟨hok,hsends⟩

theorem source_of_valid {u : Unit} (h : validateResponse response = .ok u) :
    response.source.isStr = true := by
  simp only [validateResponse,bind_ok,require_ok] at h
  obtain ⟨_,-,_,-,_,-,_,hsource,-⟩ := h
  exact hsource

theorem source_of_sends {a : Agent W} (h : a.sends response = .ok ()) :
    response.source.isStr = true := by
  unfold Agent.sends at h
  split at h
  · cases h
  · split at h
    · cases h
    · rename_i hvalid
      exact source_of_valid hvalid

theorem effect_of_sent {a : Agent W} {d : Directive} (h : a.sends response = .ok ()) :
    answerOf (a.effectOf d (.ok response)) = some response := by
  rw [Agent.effectOf,h]
  rfl

theorem answer_of_sent {H : Handler W} (I : Integrity) {a : Agent W} {o : Outside}
    {d : Directive} {w : W} {t : Turn W} (h : handled H a o d w = some t)
    (hsent : sentBy t = some response) :
    answerOf (a.dispatch H I o d w).effect = some response := by
  obtain ⟨hout,hsends⟩ := sentBy_some hsent
  unfold handled at h
  split at h
  · rename_i target hroute
    split at h
    · cases h
    · rename_i hchild
      cases h
      rw [Agent.dispatch_misrouted I o w hroute hchild]
      cases hout
      exact effect_of_sent hsends
  · rename_i hroute
    cases h
    rw [Agent.dispatch_handled I a o w hroute,hout]
    exact effect_of_sent hsends

theorem validateChild_source {identity correlationId responseKind : String}
    {items : List (String × Json)}
    (h : Agent.validateChild identity correlationId responseKind items = .ok response) :
    response.source.isStr = true := by
  unfold Agent.validateChild at h
  split at h
  · cases h
  · rename_i kind _
    dsimp only at h
    cases hchecked : validateResponse (Agent.childResponse identity correlationId kind items) with
    | error e =>
      rw [hchecked] at h
      cases h
    | ok u =>
      rw [hchecked] at h
      cases h
      exact source_of_valid hchecked

theorem handleChild_source {I : Integrity} {a : Agent W} {m : ChildMessage}
    (h : a.handleChild I m = .ok (some response)) : response.source.isStr = true := by
  cases m with
  | garbled e => cases h
  | four kind =>
    rw [Agent.handleChild] at h
    split at h
    · cases h
    · cases h
      rfl
  | other =>
    cases h
    rfl
  | five identity correlationId messageKind responseKind body =>
    rw [Agent.handleChild] at h
    split at h
    · cases h
      rfl
    · split at h
      · cases h
      · cases h
        rfl
      · split at h
        · rename_i hvalid
          cases h
          exact validateChild_source hvalid
        · cases h
          rfl
      · cases h

def localDue (H : Handler W) (I : Integrity) (path : String) (life : Life W) (d : Directive)
    (o : Outside) : Option Due :=
  match h : handled H life.agent o d life.world with
  | none => none
  | some t =>
    let after := openedAfter life.opened d t
    if after = some path ∨ (after = none ∧ life.opened = some path) then
      some
        { session := life.session
          correlationId := d.correlationId
          node := life.agent.identity
          fingerprint := d.fingerprint.text
          relayed := false
          outcome := answerOf (life.agent.dispatch H I o d life.world).effect
          recorded := if after = some path then sentBy t else none
          same := by
            intro response hresponse
            split at hresponse
            · exact ⟨answer_of_sent I h hresponse,source_of_sends (sentBy_some hresponse).2⟩
            · cases hresponse }
    else none

def takenUp (I : Integrity) (a : Agent W) (channel : String) (m : ChildMessage) (w : W) :
    Option Response :=
  match a.handleChild I m with
  | .ok (some response) =>
    match a.delegated.get response.correlationId with
    | none => none
    | some _ =>
      match (a.reverify response w).1 with
      | .error _ => none
      | .ok accepted => some (if accepted then response else a.demoted response channel)
  | _ => none

theorem takenUp_source {I : Integrity} {a : Agent W} {channel : String} {m : ChildMessage} {w : W}
    (h : takenUp I a channel m w = some response) : response.source.isStr = true := by
  unfold takenUp at h
  split at h
  · rename_i response' hchild
    split at h
    · cases h
    · split at h
      · cases h
      · cases h
        split
        · exact handleChild_source hchild
        · rfl
  · cases h

def relayDue (I : Integrity) (path : String) (life : Life W) (channel : String)
    (m : ChildMessage) : Option Due :=
  if life.opened = some path then
    match h : takenUp I life.agent channel m life.world with
    | none => none
    | some response => some
        { session := life.session
          correlationId := response.correlationId
          node := life.agent.identity
          fingerprint := "relay|" ++ life.agent.identity ++ "|" ++ channel
          relayed := true
          outcome := some response
          recorded := some response
          same := fun _ hresponse => ⟨hresponse,Option.some.inj hresponse ▸ takenUp_source h⟩ }
  else none

def dueOf (H : Handler W) (I : Integrity) (path : String) (life : Life W) : Event → Option Due
  | .malformed _ => none
  | .directive d o =>
    if life.agent.alive = true ∧ d.correlationId ≠ "" then localDue H I path life d o else none
  | .child channel m =>
    if life.agent.alive = true ∧ channel ∈ life.agent.children then relayDue I path life channel m
    else none

def openedBy (H : Handler W) (life : Life W) : Event → Option String
  | .directive d o =>
    if life.agent.alive = true ∧ d.correlationId ≠ "" then
      match handled H life.agent o d life.world with
      | none => life.opened
      | some t => openedAfter life.opened d t
    else life.opened
  | _ => life.opened

def Life.step (H : Handler W) (I : Integrity) (life : Life W) : Move W → Life W
  | .session a w => ⟨life.session + 1,a,w,none⟩
  | .changed a w opened => ⟨life.session,a,w,opened⟩
  | .event e =>
    let r := life.agent.react H I life.world e
    ⟨life.session,r.agent,r.world,openedBy H life e⟩

/-- All that is to be recorded in the trajectory at a path. What the store raises leaves the agent
as it is. -/
def dues (H : Handler W) (I : Integrity) (path : String) : Life W → List (Move W) → List Due
  | _, [] => []
  | life, move :: moves =>
    (match move with
      | .event e => (dueOf H I path life e).toList
      | _ => []) ++ dues H I path (life.step H I move) moves

end AgentCentric.Trajectory

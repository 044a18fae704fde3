import AgentCentric.Agent.Accounting
import AgentCentric.Agent.Idempotence

namespace AgentCentric
open Json

def DirectiveKind.ofText (t : String) : Option DirectiveKind :=
  [DirectiveKind.configure,.run,.spawn,.ping,.kill,.register,.resolve,.stateGet,.stateSet,
    .audit].find? fun k => k.text = t

/-- What the standard library reads out of bytes and out of texts. -/
structure Codec where
  decode : ByteArray → Except Raised String
  loads : String → Except Raised Json

structure Received where
  correlationId : String
  kind : DirectiveKind
  payload : Json
  id_ne : correlationId ≠ ""

def Received.directive (m : Received) : Directive :=
  match m.payload with
  | .dict items => ⟨m.correlationId,m.kind,Dict.empty.update items⟩
  | _ => ⟨m.correlationId,m.kind,Dict.empty⟩

def validateDirective (correlationId directiveKind : String) (payload : Json) :
    Except Raised Received :=
  if h : correlationId = "" then .error (.rejected "directive is missing a correlation id")
  else match DirectiveKind.ofText directiveKind with
    | none => .error (.rejected ("unknown directive kind " ++ pyRepr directiveKind))
    | some kind => .ok ⟨correlationId,kind,payload,h⟩

def recv (C : Codec) (I : Integrity) : List ByteArray → Except Raised Received
  | [f₀,f₁,f₂,f₃] => do
    let correlationId ← C.decode f₀
    let messageKind ← C.decode f₁
    let directiveKind ← C.decode f₂
    let text ← C.decode f₃
    let payload ← C.loads text
    require (messageKind = "directive")
      (.rejected ("expected a directive, got message kind " ++ pyRepr messageKind))
    let clean ← I.strip correlationId directiveKind payload
    let payload ← expect clean
      (.rejected ("directive " ++ pyRepr correlationId ++ " failed traffic-integrity verification"))
    validateDirective correlationId directiveKind payload
  | frames => .error (.rejected ("malformed directive: " ++ toString frames.length ++ " frames"))

/-- One step of `poll`, as far as the parent's message goes: what was sent up, and what was
returned or raised. -/
structure Polled (W : Type) where
  sent : List Response
  outcome : Except Raised (Option Response)
  agent : Agent W
  world : W

namespace Agent
variable {W : Type}

/-- `_send`, as far as it may raise. -/
def sends (a : Agent W) (response : Response) : Except Raised Unit :=
  if ¬ a.alive then
    .error (.escaped ("Agent " ++ pyRepr a.identity ++ " is not initialised."))
  else
    match validateResponse response with
    | .error reason => .error (.rejected reason)
    | .ok _ =>
      match response.value with
      | .object _ => .error (.escaped "object is not JSON serializable")
      | .json _ => .ok ()

def respond (a : Agent W) (recorded : Except Raised Unit) (w : W) (response : Response) :
    Polled W :=
  match a.sends response with
  | .error e => ⟨[],.error e,a,w⟩
  | .ok _ => ⟨[response],recorded.map fun _ => some response,a,w⟩

/-- `_handle`, where the payload is no mapping: what looks a field up raises. -/
def handleBare (a : Agent W) (o : Outside) (m : Received) (w : W) : Turn W :=
  let raising : Turn W :=
    ⟨.error (.escaped ("'" ++ m.payload.typeName ++ "' object has no attribute 'get'")),a,w,false⟩
  match m.kind with
  | .stateSet | .stateGet => if a.stateStore.isSome then raising else a.handle o m.directive w
  | .audit | .ping | .kill => a.handle o m.directive w
  | _ => raising

/-- `_handle`. -/
def handleReceived (a : Agent W) (o : Outside) (m : Received) (w : W) : Turn W :=
  match m.payload with
  | .dict _ => a.handle o m.directive w
  | _ => a.handleBare o m w

/-- `_dispatch_inner`. -/
def route (a : Agent W) (o : Outside) (recorded : Except Raised Unit)
    (m : Received) (w : W) : Polled W :=
  match maybeDelegate m.directive with
  | some target =>
    if target ∈ a.children then
      ⟨[],.ok none,{ a with delegated := a.delegated.set m.correlationId target },w⟩
    else a.respond recorded w (a.error m.directive
      ("delegation target " ++ pyRepr target ++ " is not a spawned child"))
  | none =>
    let t := a.handleReceived o m w
    match t.outcome with
    | .error e => ⟨[],.error e,t.agent,t.world⟩
    | .ok response => t.agent.respond recorded t.world response

def excuse (p : Polled W) (response : Response) : Polled W :=
  match p.agent.sends response with
  | .error e => { p with outcome := .error e }
  | .ok _ => { p with sent := p.sent ++ [response],outcome := .ok (some response) }

/-- `_dispatch`. -/
def dispatchReceived (a : Agent W) (o : Outside) (recorded : Except Raised Unit)
    (m : Received) (w : W) : Polled W :=
  let p := a.route o recorded m w
  match p.outcome with
  | .error (.rejected text) => excuse p (p.agent.error m.directive ("directive rejected: " ++ text))
  | _ => p

/-- `_handle_parent_message`. -/
def handleParent (C : Codec) (I : Integrity) (a : Agent W) (o : Outside)
    (recorded : Except Raised Unit) (frames : List ByteArray) (w : W) : Polled W :=
  match recv C I frames with
  | .error (.rejected text) =>
    excuse ⟨[],.ok none,a,w⟩ (Response.failure "malformed" a.identity
      ("malformed directive rejected: " ++ text))
  | .error (.escaped text) => ⟨[],.error (.escaped text),a,w⟩
  | .ok m => a.dispatchReceived o recorded m w

def handsOn (C : Codec) (I : Integrity) (a : Agent W) (frames : List ByteArray) : Bool :=
  match recv C I frames with
  | .ok m => a.forwards m.directive
  | .error _ => false

def expectedId (C : Codec) (I : Integrity) (frames : List ByteArray) : String :=
  match recv C I frames with
  | .ok m => m.correlationId
  | .error _ => "malformed"

/-- The step does not raise, and sends one response with the expected correlation id, unless the
directive is forwarded. -/
structure Answered (C : Codec) (I : Integrity) (a : Agent W) (frames : List ByteArray)
    (p : Polled W) : Prop where
  returns : ∃ r, p.outcome = .ok r
  answers : a.handsOn C I frames = false →
    ∃ response, p.sent = [response] ∧ response.correlationId = expectedId C I frames

end Agent

/-- A `ValueError` or a `KeyError`. -/
def Raised.isRejected : Raised → Bool
  | .rejected _ => true
  | .escaped _ => false

def PyValue.isJson : PyValue → Bool
  | .json _ => true
  | .object _ => false

def firstRaised : List (Except Raised Unit) → Option Raised
  | [] => none
  | .error e :: _ => some e
  | .ok _ :: rest => firstRaised rest

def Json.unhashable : Json → Bool
  | .list _ | .dict _ => true
  | _ => false

variable {response : Response}

namespace Agent
variable {W : Type}

def grantable (a : Agent W) (d : Directive) (name : String) : Except Raised Unit := do
  let names ← ((d.payload.get name).getD (.list [])).elements
  forEach (fun name => (a.catalogEntry name).map fun _ => ()) names

def envelopeGrantable (d : Directive) : Except Raised Unit :=
  match field d.payload "_envelope" with
  | .dict items => (ResourceEnvelope.fromPayload items).map fun _ => ()
  | _ => .ok ()

def grantsOf (a : Agent W) (o : Outside) (d : Directive) : List (Except Raised Unit) :=
  [((d.payload.get "rules").getD (.list [])).elements.map fun _ => (),envelopeGrantable d,
    a.grantable d "tasks",a.grantable d "verifiers",
    if grantsPath d "state" then o.state.map fun _ => () else .ok (),grantTrajectory o d]

/-- The first grant that cannot be made fails with a `ValueError` or a `KeyError`. -/
def ConfigureCopes (a : Agent W) (o : Outside) (recorded : Except Raised Unit) (d : Directive) :
    Prop :=
  match firstRaised (a.grantsOf o d) with
  | some e => e.isRejected = true
  | none => recorded = .ok ()

/-- The verifier raises nothing but a `ValueError` or a `KeyError`, and only JSON is verified. -/
def RunCopes (a : Agent W) (o : Outside) (recorded : Except Raised Unit) (d : Directive) (w : W) :
    Prop :=
  match a.results.get d.fingerprint with
  | some kept => validateResponse kept = .ok () → kept.value.isJson = true ∧ recorded = .ok ()
  | none =>
    match a.admitted o.late d with
    | .error _ => recorded = .ok ()
    | .ok (taskName,task,items) =>
      match task.call items w with
      | (.error _,_) => recorded = .ok ()
      | (.ok value,w₁) =>
        match a.verify value (a.verifierFor d) w₁ with
        | (.error e,_) => e.isRejected = true
        | (.ok verified,_) => (a.sourceOf taskName).isStr = true →
            (verified = true → value.isJson = true) ∧ recorded = .ok ()

/-- The identity of a child that is to be spawned is a text, and its endpoint can be bound, or
not for a reason or with a `ValueError` or a `KeyError`. -/
def SpawnCopes (a : Agent W) (o : Outside) (recorded : Except Raised Unit) (d : Directive) :
    Prop :=
  let identity := field d.payload "identity"
  if ¬ identity.truthy ∨ ¬ (field d.payload "endpoint").truthy ∨ (a.violation o.late d).isSome ∨
      a.hasChild identity then recorded = .ok ()
  else (¬ identity.unhashable) ∧
    if ¬ a.declares (field d.payload "kind") then recorded = .ok ()
    else match o.bound with
      | .error e => e.isRejected = true
      | .ok (some _) => recorded = .ok ()
      | .ok none => identity.isStr = true ∧ recorded = .ok ()

def undecodable (a : Agent W) (d : Directive) : Bool :=
  match a.stateStore,field d.payload "key" with
  | some store,.str key => decide (key ≠ "") && match store.get key with
      | .error .decode => true
      | _ => false
  | _,_ => false

def Copes (a : Agent W) (o : Outside) (recorded : Except Raised Unit) (m : Received) (w : W) :
    Prop :=
  match m.payload with
  | .dict _ =>
    match maybeDelegate m.directive with
    | some target => target ∈ a.children ∨ recorded = .ok ()
    | none =>
      match m.kind with
      | .configure => a.ConfigureCopes o recorded m.directive
      | .run => a.RunCopes o recorded m.directive w
      | .spawn => a.SpawnCopes o recorded m.directive
      | .stateGet => a.undecodable m.directive = false → recorded = .ok ()
      | .kill => False
      | _ => recorded = .ok ()
  | _ =>
    match m.kind with
    | .audit | .ping => recorded = .ok ()
    | .stateGet | .stateSet => a.stateStore.isNone = true ∧ recorded = .ok ()
    | _ => False

theorem sends_ok {a : Agent W} (halive : a.alive = true)
    (hvalid : validateResponse response = .ok ()) (hvalue : response.value.isJson = true) :
    a.sends response = .ok () := by
  unfold sends
  simp only [halive,hvalid]
  cases hjson : response.value with
  | json j => rfl
  | object n => simp [hjson,PyValue.isJson] at hvalue

/-- What an agent answers itself carries neither a confidence nor a model's record. -/
theorem valid_of (hid : response.correlationId ≠ "")
    (hresult : response.kind = .result → response.verified.truthy = true)
    (herror : response.kind = .error → response.verified.truthy = false)
    (hsource : response.source.isStr = true) (hconfidence : response.confidence = .null)
    (hmodel : response.modelRecord = .null) : validateResponse response = .ok () := by
  have hr : ¬ response.kind = .result ∨ response.verified.truthy = true := by
    by_cases hkind : response.kind = .result
    · exact .inr (hresult hkind)
    · exact .inl hkind
  have he : ¬ (response.kind = .error ∧ response.verified.truthy = true) :=
    fun h => Bool.false_ne_true ((herror h.1).symm.trans h.2)
  simp [validateResponse,require,hid,hr,he,hsource,hconfidence,hmodel]
  rfl

theorem plain_valid {correlationId node : String} {kind : ResponseKind} {verified : Bool}
    (hid : correlationId ≠ "") (hresult : kind = .result → verified = true)
    (herror : kind = .error → verified = false) :
    validateResponse (Response.plain correlationId kind verified node) = .ok () :=
  valid_of hid hresult herror rfl rfl rfl

theorem sends_error {a : Agent W} {d : Directive} (halive : a.alive = true)
    (hid : d.correlationId ≠ "") (message : String) : a.sends (a.error d message) = .ok () :=
  sends_ok halive (failure_valid a.identity message hid) rfl

def Fares (t : Turn W) (recorded : Except Raised Unit) : Prop :=
  match t.outcome with
  | .error e => e.isRejected = true
  | .ok response =>
    match t.agent.sends response with
    | .error e => e.isRejected = true
    | .ok _ => recorded = .ok ()

theorem fares_valid {t : Turn W} {recorded : Except Raised Unit}
    (hout : t.outcome = .ok response) (halive : t.agent.alive = true)
    (hvalid : validateResponse response = .ok ()) (hvalue : response.value.isJson = true) :
    Fares t recorded ↔ recorded = .ok () := by
  simp [Fares,hout,sends_ok halive hvalid hvalue]

theorem fares_invalid {t : Turn W} {recorded : Except Raised Unit}
    {reason : String} (hout : t.outcome = .ok response) (halive : t.agent.alive = true)
    (hinvalid : validateResponse response = .error reason) : Fares t recorded := by
  simp [Fares,hout,sends,halive,hinvalid,Raised.isRejected]

theorem fares_object {t : Turn W} {recorded : Except Raised Unit}
    (hout : t.outcome = .ok response) (halive : t.agent.alive = true)
    (hvalid : validateResponse response = .ok ()) (hvalue : response.value.isJson = false) :
    ¬ Fares t recorded := by
  cases hobject : response.value with
  | json j => simp [hobject,PyValue.isJson] at hvalue
  | object n => simp [Fares,hout,sends,halive,hvalid,hobject,Raised.isRejected]

theorem fares_error {t : Turn W} {recorded : Except Raised Unit} {e : Raised}
    (hout : t.outcome = .error e) : Fares t recorded ↔ e.isRejected = true := by
  simp [Fares,hout]

theorem elements_unit (a : Agent W) (d : Directive) (name : String) :
    (a.grantField d name).1 = a.grantable d name := by
  unfold grantField grantable
  cases ((d.payload.get name).getD (.list [])).elements with
  | error e => rfl
  | ok names =>
    simp only [bind,Except.bind]
    induction names generalizing a with
    | nil => rfl
    | cons n rest ih =>
      unfold grantNames forEach
      cases hentry : a.catalogEntry n with
      | error e => rfl
      | ok entry =>
        have hsame : ∀ m, (a.register entry).catalogEntry m = a.catalogEntry m := fun _ => rfl
        simpa [hsame,Except.map,bind,Except.bind] using ih (a.register entry)

theorem grantable_congr {a b : Agent W} (h : b.catalog = a.catalog) (d : Directive)
    (name : String) : b.grantable d name = a.grantable d name := by
  simp only [grantable,catalogEntry,h]

theorem envelope_unit (a : Agent W) (d : Directive) :
    (a.grantEnvelope d).map (fun _ => ()) = envelopeGrantable d := by
  unfold grantEnvelope envelopeGrantable
  cases field d.payload "_envelope" with
  | dict items => cases hpayload : ResourceEnvelope.fromPayload items <;> simp [hpayload,Except.map]
  | _ => rfl

theorem grantEnvelope_provisions {a b : Agent W} {d : Directive} (h : a.grantEnvelope d = .ok b) :
    b.catalog = a.catalog ∧ b.identity = a.identity := by
  unfold grantEnvelope at h
  split at h
  · split at h
    · cases h
    · cases h
      exact ⟨rfl,rfl⟩
  · cases h
    exact ⟨rfl,rfl⟩

theorem configure_outcome (a : Agent W) (o : Outside) (d : Directive) :
    (a.configure o d).1 = (firstRaised (a.grantsOf o d)).elim (.ok (a.ok d)) .error := by
  unfold configure grantsOf
  cases ((d.payload.get "rules").getD (.list [])).elements with
  | error e => rfl
  | ok rules =>
    have henvelope := envelope_unit a d
    cases henv : a.grantEnvelope d with
    | error e =>
      rw [henv] at henvelope
      simp [← henvelope,Except.map,firstRaised]
    | ok b =>
      rw [henv] at henvelope
      obtain ⟨hcatalog,hidentity⟩ := grantEnvelope_provisions henv
      have hverifier := grantVerifier_provisions b d
      have htasks := elements_unit (b.grantVerifier d) d "tasks"
      have hkept := hverifier.trans (grantField_provisions (b.grantVerifier d) d "tasks")
      rw [grantable_congr (hverifier.catalog.trans hcatalog)] at htasks
      cases hgrant : (b.grantVerifier d).grantField d "tasks" with
      | mk r c =>
        rw [hgrant] at htasks hkept
        cases r with
        | error e => simp [← henvelope,← htasks,Except.map,firstRaised,hgrant]
        | ok _ =>
          have hverifiers := elements_unit c d "verifiers"
          have hkept' := hkept.trans (grantField_provisions c d "verifiers")
          rw [grantable_congr (hkept.catalog.trans hcatalog)] at hverifiers
          cases hgrant' : c.grantField d "verifiers" with
          | mk r e =>
            rw [hgrant'] at hverifiers hkept'
            cases r with
            | error e => simp [← henvelope,← htasks,← hverifiers,Except.map,firstRaised,hgrant,hgrant']
            | ok _ =>
              have hstate : (e.grantState o d).map (fun _ => ()) =
                  if grantsPath d "state" then o.state.map fun _ => () else .ok () := by
                unfold grantState
                split
                · cases o.state <;> rfl
                · rfl
              cases hgranted : e.grantState o d with
              | error r =>
                rw [hgranted] at hstate
                rw [← henvelope,← htasks,← hverifiers,← hstate]
                simp [Except.map,firstRaised,hgrant,hgrant',hgranted]
              | ok f =>
                rw [hgranted] at hstate
                have hf : f.ok d = a.ok d := by
                  have hname : f.identity = a.identity :=
                    (grantState_provisions hgranted).identity.trans
                      (hkept'.identity.trans hidentity)
                  rw [ok,ok,hname]
                rw [← henvelope,← htasks,← hverifiers,← hstate]
                cases grantTrajectory o d with
                | error r => simp [Except.map,firstRaised,hgrant,hgrant',hgranted]
                | ok _ => simp [Except.map,firstRaised,hgrant,hgrant',hgranted,hf]

theorem configure_alive (a : Agent W) (o : Outside) (d : Directive) :
    (a.configure o d).2.alive = a.alive := by
  rw [(configure_provisions a o d).alive,guarded]
  cases granted d <;> rfl

theorem runTask_alive (a : Agent W) (late : Bool) (d : Directive) (w : W) :
    (a.runTask late d w).agent.alive = a.alive := by
  unfold runTask execute
  repeat' split
  all_goals rfl

theorem result_valid {a : Agent W} {d : Directive} (hid : d.correlationId ≠ "") (taskName : String)
    (value : PyValue) (verified : Bool) (hsource : (a.sourceOf taskName).isStr = true) :
    validateResponse (a.result d taskName value verified) = .ok () := by
  refine valid_of hid ?_ ?_ hsource rfl rfl
  · cases verified <;> simp [result,truthy]
  · cases verified <;> simp [result,truthy]

theorem result_invalid {a : Agent W} {d : Directive} (hid : d.correlationId ≠ "")
    (taskName : String) (value : PyValue) (verified : Bool)
    (hsource : (a.sourceOf taskName).isStr = false) :
    validateResponse (a.result d taskName value verified) =
      .error "response source must be a string" := by
  cases verified <;> simp [validateResponse,result,require,hid,hsource,truthy] <;> rfl

section
variable {a : Agent W} {d : Directive} (recorded : Except Raised Unit)
  (halive : a.alive = true) (hid : d.correlationId ≠ "")
include halive hid

theorem configure_fares (o : Outside) (w : W) :
    Fares ⟨(a.configure o d).1,(a.configure o d).2,w,false⟩ recorded ↔
      a.ConfigureCopes o recorded d := by
  have hout := configure_outcome a o d
  unfold ConfigureCopes
  cases hfirst : firstRaised (a.grantsOf o d) with
  | some e =>
    rw [hfirst] at hout
    exact fares_error hout
  | none =>
    rw [hfirst] at hout
    exact fares_valid hout ((configure_alive a o d).trans halive)
      (plain_valid hid (by simp) (by simp)) rfl

theorem bindChild_fares (o : Outside) (w : W) {identity : Json}
    (hkey : identity.unhashable = false) :
    Fares ⟨((a.counted true).bindChild o d identity).1,((a.counted true).bindChild o d identity).2,
        w,false⟩ recorded ↔ if ¬ a.declares (field d.payload "kind") then recorded = .ok ()
      else match o.bound with
        | .error e => e.isRejected = true
        | .ok (some _) => recorded = .ok ()
        | .ok none => identity.isStr = true ∧ recorded = .ok () := by
  have hcounted : (a.counted true).alive = true := halive
  have hfail : ∀ message, Fares ⟨.ok ((a.counted true).error d message),a.counted true,w,false⟩
      recorded ↔ recorded = .ok () :=
    fun message => fares_valid rfl hcounted (failure_valid _ message hid) rfl
  have hdeclares : (a.counted true).declares = a.declares := rfl
  unfold bindChild
  dsimp only
  rw [hdeclares]
  split
  · exact hfail _
  · cases o.bound with
    | error e => exact fares_error rfl
    | ok reason =>
      cases reason with
      | some reason => exact hfail reason
      | none =>
        cases identity with
        | str child =>
          have hspawned : Fares ⟨.ok ((a.counted true).ok d),
              { a.counted true with children := (a.counted true).children ++ [child] },w,false⟩
              recorded ↔ recorded = .ok () :=
            fares_valid rfl halive (plain_valid hid (by simp) (by simp)) rfl
          simpa [isStr,provision] using hspawned
        | _ => simp [Fares,provision,isStr,Raised.isRejected]

theorem spawn_fares (o : Outside) (w : W) :
    Fares ⟨(a.spawn o d).1,(a.spawn o d).2,w,false⟩ recorded ↔ a.SpawnCopes o recorded d := by
  have hfail : ∀ message, Fares ⟨.ok (a.error d message),a,w,false⟩ recorded ↔ recorded = .ok () :=
    fun message => fares_valid rfl halive (failure_valid _ message hid) rfl
  have hdone : Fares ⟨.ok (a.ok d),a,w,false⟩ recorded ↔ recorded = .ok () :=
    fares_valid rfl halive (plain_valid hid (by simp) (by simp)) rfl
  unfold spawn SpawnCopes
  dsimp only
  by_cases hmissing : ¬ (field d.payload "identity").truthy = true ∨
      ¬ (field d.payload "endpoint").truthy = true
  · rw [if_pos hmissing,if_pos (by tauto)]
    exact hfail _
  · rw [if_neg hmissing]
    cases hviolation : a.violation o.late d with
    | some reason =>
      rw [if_pos (by simp)]
      exact hfail reason
    | none =>
      cases hkey : (field d.payload "identity").unhashable with
      | true =>
        cases hidentity : field d.payload "identity" with
        | list xs => simp_all [Fares,Raised.isRejected,hasChild]
        | dict items => simp_all [Fares,Raised.isRejected,hasChild]
        | _ => simp [hidentity,Json.unhashable] at hkey
      | false =>
        have hbound := bindChild_fares recorded halive hid o w hkey
        dsimp only
        split
        · rename_i xs hidentity
          simp [hidentity,Json.unhashable] at hkey
        · rename_i items hidentity
          simp [hidentity,Json.unhashable] at hkey
        · cases hchild : a.hasChild (field d.payload "identity") with
          | true =>
            rw [if_pos rfl,if_pos (by simp)]
            exact hdone
          | false =>
            rw [if_neg Bool.false_ne_true,if_neg (by simpa using hmissing)]
            simpa [hkey] using hbound

omit hid in
theorem stateGet_fares (hid : d.correlationId ≠ "") (w : W) : Fares ⟨a.stateGet d,a,w,false⟩ recorded ↔
    (a.undecodable d = false → recorded = .ok ()) := by
  have hfail : ∀ message, Fares ⟨.ok (a.error d message),a,w,false⟩ recorded ↔ recorded = .ok () :=
    fun message => fares_valid rfl halive (failure_valid _ message hid) rfl
  unfold stateGet undecodable
  cases a.stateStore with
  | none => simpa using hfail "no durable state store configured"
  | some store =>
    cases field d.payload "key" with
    | str key =>
      dsimp only
      split
      · rename_i hempty
        simpa [hempty] using hfail "state_get requires a 'key'"
      · rename_i hkey
        cases hget : store.get key with
        | error e =>
          cases e with
          | decode => simp [Fares,hkey,Raised.isRejected]
          | _ => simpa using hfail _
        | ok value =>
          have hread : Fares ⟨.ok { Response.plain d.correlationId .result true a.identity with
              value := .json value },a,w,false⟩ recorded ↔ recorded = .ok () :=
            fares_valid rfl halive (valid_of hid (fun _ => rfl) (by simp [Response.plain]) rfl rfl rfl) rfl
          cases value with
          | null => simpa using hfail _
          | _ => simpa using hread
    | _ => simpa using hfail "state_get requires a 'key'"

theorem plain_fares (o : Outside) (w : W) (hkind : d.kind = .register ∨ d.kind = .resolve ∨
    d.kind = .stateSet ∨ d.kind = .audit ∨ d.kind = .ping) :
    Fares (a.handle o d w) recorded ↔ recorded = .ok () := by
  have hfail : ∀ message, Fares ⟨.ok (a.error d message),a,w,false⟩ recorded ↔ recorded = .ok () :=
    fun message => fares_valid rfl halive (failure_valid _ message hid) rfl
  have hdone : ∀ b : Agent W, b.alive = true →
      (Fares ⟨.ok (a.ok d),b,w,false⟩ recorded ↔ recorded = .ok ()) :=
    fun b hb => fares_valid rfl hb (plain_valid hid (by simp) (by simp)) rfl
  unfold handle
  rcases hkind with hkind | hkind | hkind | hkind | hkind
  · simp only [hkind,registerCapability]
    split
    · split
      · exact hfail _
      · exact hdone _ halive
    · exact hfail _
  · simp only [hkind,resolveCapability]
    split
    · split
      · exact hfail _
      · split
        · exact hfail _
        · rename_i entry _
          refine fares_valid rfl halive (valid_of hid ?_ ?_ rfl rfl rfl) rfl
          · cases entry.sourceUrl.truthy <;> simp [Response.plain,truthy]
          · cases entry.sourceUrl.truthy <;> simp [Response.plain,truthy]
    · exact hfail _
  · simp only [hkind,stateSet]
    split
    · exact hfail _
    · split
      · split
        · exact hfail _
        · split
          · exact hdone _ halive
          · split
            · exact hfail _
            · exact hdone _ halive
      · exact hfail _
  · simp only [hkind,audit]
    split
    · exact hfail _
    · exact fares_valid rfl halive (valid_of hid (fun _ => rfl) (by simp [Response.plain]) rfl rfl rfl) rfl
  · simp only [hkind]
    exact hdone _ halive

theorem run_fares (o : Outside) (w : W) :
    Fares (a.runTask o.late d w) recorded ↔ a.RunCopes o recorded d w := by
  unfold RunCopes
  cases hcached : a.results.get d.fingerprint with
  | some kept =>
    have hturn : a.runTask o.late d w = a.answer w kept := by simp [runTask,hcached]
    rw [hturn]
    cases hvalid : validateResponse kept with
    | error reason =>
      have hfares : Fares (a.answer w kept) recorded := fares_invalid rfl halive hvalid
      simpa [hvalid] using hfares
    | ok _ =>
      cases hvalue : kept.value.isJson with
      | true =>
        have hfares : Fares (a.answer w kept) recorded ↔ recorded = .ok () :=
          fares_valid rfl halive hvalid hvalue
        simpa [hvalid,hvalue] using hfares
      | false =>
        have hfares : ¬ Fares (a.answer w kept) recorded := fares_object rfl halive hvalid hvalue
        simpa [hvalid,hvalue] using hfares
  | none =>
    cases hentry : a.admitted o.late d with
    | error reason =>
      have hrefused : a.refusal o.late d = some reason := by simp [refusal,hcached,hentry]
      have hafter := (runTask_alive a o.late d w).trans halive
      cases a.runTask_handles o.late d w with
      | cached h => simp [hcached] at h
      | refused h hout =>
        exact fares_valid hout hafter (failure_valid _ _ hid) rfl
      | raised _ h => simp [hrefused] at h
      | returned _ h => simp [hrefused] at h
    | ok call =>
      obtain ⟨taskName,task,items⟩ := call
      obtain ⟨hrun,hargs⟩ := admitted_ok hcached hentry
      rw [hrun w]
      have hname : (a.counted false).verifierFor d = a.verifierFor d := rfl
      unfold execute
      rw [hargs]
      dsimp only
      cases hcall : task.call items w with
      | mk r w₁ =>
        cases r with
        | error e => exact fares_valid rfl halive (failure_valid _ _ hid) rfl
        | ok value =>
          dsimp only
          rw [verify_counted,hname]
          cases hverify : a.verify value (a.verifierFor d) w₁ with
          | mk r w₂ =>
            cases r with
            | error e => exact fares_error rfl
            | ok verified =>
              have hresult : (a.counted false).result d taskName value verified =
                  a.result d taskName value verified := rfl
              dsimp only
              rw [hresult]
              generalize hturn : (⟨.ok (a.result d taskName value verified),
                (a.counted false).keep d (a.result d taskName value verified),w₂,true⟩ : Turn W) = t
              have hout : t.outcome = .ok (a.result d taskName value verified) := by rw [← hturn]
              have hafter : t.agent.alive = true := by
                rw [← hturn]
                exact halive
              cases hsource : (a.sourceOf taskName).isStr with
              | false =>
                have hfares : Fares t recorded :=
                  fares_invalid hout hafter (result_invalid hid taskName value verified hsource)
                simpa using hfares
              | true =>
                have hvalid := result_valid hid taskName value verified hsource
                cases hvalue : (a.result d taskName value verified).value.isJson with
                | true =>
                  have hfares : Fares t recorded ↔ recorded = .ok () :=
                    fares_valid hout hafter hvalid hvalue
                  have hjson : verified = true → value.isJson = true := by
                    rintro rfl
                    exact hvalue
                  exact hfares.trans ⟨fun h _ => ⟨hjson,h⟩,fun h => (h rfl).2⟩
                | false =>
                  have hfares : ¬ Fares t recorded := fares_object hout hafter hvalid hvalue
                  cases verified with
                  | false => simp [result,PyValue.isJson] at hvalue
                  | true =>
                    have hobject : value.isJson = false := hvalue
                    simpa [hobject] using hfares

end
/-- A kept answer has the correlation id of its directive. -/
def KeepsIds (a : Agent W) : Prop :=
  ∀ f response, a.results.get f = some response → response.correlationId = f.correlationId

theorem keepsIds_congr {a b : Agent W} (h : a.KeepsIds) (hresults : b.results = a.results) :
    b.KeepsIds := by
  intro f response hf
  rw [hresults] at hf
  exact h f response hf

theorem runTask_keepsIds {a : Agent W} (h : a.KeepsIds) (late : Bool) (d : Directive) (w : W) :
    (a.runTask late d w).agent.KeepsIds ∧ ∀ response, (a.runTask late d w).outcome = .ok response →
        response.correlationId = d.correlationId := by
  have hanswers : ∀ {out : Except Raised Response}, a.Answers d out → ∀ response,
      out = .ok response → response.correlationId = d.correlationId := by
    intro out hout response heq
    cases hout with
    | escaped e => cases heq
    | raised taskName text =>
      cases heq
      rfl
    | returned taskName value verified =>
      cases heq
      rfl
  cases a.runTask_handles late d w with
  | @cached kept hcached hturn =>
    rw [hturn]
    refine ⟨h,?_⟩
    intro response heq
    cases heq
    exact h _ _ hcached
  | refused _ hout hresults =>
    refine ⟨keepsIds_congr h hresults,?_⟩
    intro response heq
    rw [hout] at heq
    cases heq
    rfl
  | raised _ _ hresults _ _ _ hout => exact ⟨keepsIds_congr h hresults,hanswers hout⟩
  | @returned kept _ _ _ hkept hresults _ _ _ hout =>
    refine ⟨?_,hanswers hout⟩
    intro f response hf
    rw [hresults,Dict.get_set] at hf
    split at hf
    · rename_i heq
      cases hf
      rw [← heq]
      exact hanswers hout _ hkept
    · exact h f response hf

theorem configure_keepsIds {a : Agent W} (h : a.KeepsIds) (o : Outside) (d : Directive) :
    (a.configure o d).2.KeepsIds := by
  apply keepsIds_congr h
  rw [(configure_provisions a o d).results,guarded]
  cases granted d <;> rfl

theorem handle_keepsIds {a : Agent W} (h : a.KeepsIds) (o : Outside) (d : Directive) (w : W) :
    (a.handle o d w).agent.KeepsIds := by
  unfold handle
  cases d.kind with
  | configure => exact configure_keepsIds h o d
  | run => exact (runTask_keepsIds h o.late d w).1
  | spawn =>
    apply keepsIds_congr h
    unfold spawn bindChild provision
    dsimp only
    repeat' split
    all_goals rfl
  | register =>
    apply keepsIds_congr h
    unfold registerCapability
    dsimp only
    repeat' split
    all_goals rfl
  | stateSet =>
    apply keepsIds_congr h
    unfold stateSet
    dsimp only
    repeat' split
    all_goals rfl
  | _ => exact h

theorem handle_id {a : Agent W} (h : a.KeepsIds) (o : Outside) (d : Directive) (w : W)
    (hout : (a.handle o d w).outcome = .ok response) :
    response.correlationId = d.correlationId := by
  unfold handle at hout
  cases hkind : d.kind with
  | run =>
    rw [hkind] at hout
    exact (runTask_keepsIds h o.late d w).2 response hout
  | configure =>
    rw [hkind] at hout
    have houtcome := configure_outcome a o d
    simp only [] at hout
    rw [hout] at houtcome
    cases hfirst : firstRaised (a.grantsOf o d) <;> simp [hfirst] at houtcome
    rw [houtcome]
    rfl
  | spawn =>
    simp only [hkind,spawn,bindChild,provision] at hout
    repeat' split at hout
    all_goals first | cases hout; done | (cases hout; rfl)
  | register =>
    simp only [hkind,registerCapability] at hout
    repeat' split at hout
    all_goals cases hout; rfl
  | resolve =>
    simp only [hkind,resolveCapability] at hout
    repeat' split at hout
    all_goals cases hout; rfl
  | stateSet =>
    simp only [hkind,stateSet] at hout
    repeat' split at hout
    all_goals cases hout; rfl
  | stateGet =>
    simp only [hkind,stateGet] at hout
    repeat' split at hout
    all_goals first | cases hout; done | (cases hout; rfl)
  | audit =>
    simp only [hkind,audit] at hout
    split at hout
    all_goals cases hout; rfl
  | ping =>
    rw [hkind] at hout
    cases hout
    rfl
  | kill =>
    rw [hkind] at hout
    cases hout
    rfl

end Agent

namespace Received

theorem directive_id (m : Received) : m.directive.correlationId = m.correlationId := by
  unfold directive
  cases m.payload <;> rfl

theorem directive_kind (m : Received) : m.directive.kind = m.kind := by
  unfold directive
  cases m.payload <;> rfl

theorem directive_id_ne (m : Received) : m.directive.correlationId ≠ "" := by
  rw [m.directive_id]
  exact m.id_ne

end Received

namespace Agent
variable {W : Type}

def SendsOne (id : String) (p : Polled W) : Prop :=
  (∃ r, p.outcome = .ok r) ∧ ∃ response, p.sent = [response] ∧ response.correlationId = id

theorem settle_sendsOne (a : Agent W) (m : Received) (o : Outside) (recorded : Except Raised Unit)
    (w : W) (t : Turn W) (halive : t.agent.alive = true)
    (hid : ∀ response, t.outcome = .ok response → response.correlationId = m.correlationId)
    (hroute : (∃ e, t.outcome = .error e ∧ a.route o recorded m w = ⟨[],.error e,t.agent,t.world⟩) ∨
      ∃ response, t.outcome = .ok response ∧
        a.route o recorded m w = t.agent.respond recorded t.world response) :
    SendsOne m.correlationId (a.dispatchReceived o recorded m w) ↔ Fares t recorded := by
  have hexcuse : ∀ message, t.agent.sends (t.agent.error m.directive message) = .ok () :=
    sends_error halive m.directive_id_ne
  have hname : ∀ message, (t.agent.error m.directive message).correlationId = m.correlationId :=
    fun _ => m.directive_id
  unfold dispatchReceived
  rcases hroute with ⟨e,hout,hroute⟩ | ⟨response,hout,hroute⟩
  · rw [hroute]
    cases e with
    | escaped text => simp [SendsOne,Fares,hout,Raised.isRejected]
    | rejected text => simp [SendsOne,Fares,hout,Raised.isRejected,excuse,hexcuse,hname]
  · rw [hroute]
    have hresponse := hid response hout
    unfold respond
    cases hsends : t.agent.sends response with
    | error e =>
      cases e with
      | escaped text => simp [SendsOne,Fares,hout,hsends,Raised.isRejected]
      | rejected text => simp [SendsOne,Fares,hout,hsends,Raised.isRejected,excuse,hexcuse,hname]
    | ok _ =>
      cases recorded with
      | error e =>
        cases e with
        | escaped text => simp [SendsOne,Fares,hout,hsends,Except.map]
        | rejected text => simp [SendsOne,Fares,hout,hsends,Except.map,excuse,hexcuse]
      | ok _ => simp [SendsOne,Fares,hout,hsends,Except.map,hresponse]

theorem handle_alive (a : Agent W) (o : Outside) (d : Directive) (w : W) (hkill : d.kind ≠ .kill) :
    (a.handle o d w).agent.alive = a.alive := by
  unfold handle
  cases hkind : d.kind with
  | configure => exact configure_alive a o d
  | run => exact runTask_alive a o.late d w
  | spawn =>
    unfold spawn bindChild provision
    dsimp only
    repeat' split
    all_goals rfl
  | register =>
    unfold registerCapability
    dsimp only
    repeat' split
    all_goals rfl
  | stateSet =>
    unfold stateSet
    dsimp only
    repeat' split
    all_goals rfl
  | kill => exact absurd hkind hkill
  | _ => rfl

theorem payload_of_route {m : Received} {target : String}
    (h : maybeDelegate m.directive = some target) : ∃ items, m.payload = .dict items := by
  cases hpayload : m.payload with
  | dict items => exact ⟨items,rfl⟩
  | _ =>
    have hempty : m.directive.payload = Dict.empty := by simp [Received.directive,hpayload]
    simp [maybeDelegate,hempty,field] at h

section
variable {a : Agent W} {m : Received} (recorded : Except Raised Unit) (halive : a.alive = true)
include halive

theorem bare_fares (o : Outside) (w : W) (hkill : m.kind ≠ .kill) :
    Fares (a.handleBare o m w) recorded ↔ ((m.kind = .audit ∨ m.kind = .ping) ∨
        (m.kind = .stateGet ∨ m.kind = .stateSet) ∧ a.stateStore.isNone = true) ∧
      recorded = .ok () := by
  have hid := m.directive_id_ne
  have hkind := m.directive_kind
  have hplain := plain_fares (d := m.directive) recorded halive hid o w
  rw [hkind] at hplain
  unfold handleBare
  cases hreceived : m.kind with
  | stateGet =>
    have hfares := stateGet_fares (d := m.directive) recorded halive hid w
    cases hstore : a.stateStore with
    | none =>
      have hread : a.undecodable m.directive = false := by simp [undecodable,hstore]
      simpa [handle,hkind,hreceived,hread] using hfares
    | some store => simp [Fares,Raised.isRejected]
  | stateSet =>
    cases hstore : a.stateStore with
    | none => simpa using hplain (by simp [hreceived])
    | some store => simp [Fares,Raised.isRejected]
  | audit => simpa using hplain (by simp [hreceived])
  | ping => simpa using hplain (by simp [hreceived])
  | kill => exact absurd hreceived hkill
  | _ => simp [Fares,Raised.isRejected]

theorem received_fares (o : Outside) (w : W) (hroute : maybeDelegate m.directive = none)
    (hkill : m.kind ≠ .kill) :
    Fares (a.handleReceived o m w) recorded ↔ a.Copes o recorded m w := by
  have hid := m.directive_id_ne
  have hkind := m.directive_kind
  have hplain := plain_fares (d := m.directive) recorded halive hid o w
  unfold handleReceived Copes
  cases hpayload : m.payload with
  | dict items =>
    dsimp only
    rw [hroute]
    dsimp only
    rw [hkind] at hplain
    cases hreceived : m.kind with
    | configure =>
      have hfares := configure_fares (d := m.directive) recorded halive hid o w
      simpa [handle,hkind,hreceived] using hfares
    | run =>
      have hfares := run_fares (d := m.directive) recorded halive hid o w
      simpa [handle,hkind,hreceived] using hfares
    | spawn =>
      have hfares := spawn_fares (d := m.directive) recorded halive hid o w
      simpa [handle,hkind,hreceived] using hfares
    | stateGet =>
      have hfares := stateGet_fares (d := m.directive) recorded halive hid w
      simpa [handle,hkind,hreceived] using hfares
    | kill => exact absurd hreceived hkill
    | _ => exact hplain (by simp [hreceived])
  | _ =>
    dsimp only
    rw [bare_fares recorded halive o w hkill]
    cases hreceived : m.kind <;> simp

end
theorem received_id {a : Agent W} (h : a.KeepsIds) {o : Outside} {m : Received} {w : W}
    (hout : (a.handleReceived o m w).outcome = .ok response) :
    response.correlationId = m.correlationId := by
  have hhandle : ∀ {r}, (a.handle o m.directive w).outcome = .ok r →
      r.correlationId = m.correlationId :=
    fun hr => (handle_id h o m.directive w hr).trans m.directive_id
  unfold handleReceived handleBare at hout
  dsimp only at hout
  repeat' split at hout
  all_goals first | exact hhandle hout | cases hout

theorem received_agent {a : Agent W} (o : Outside) (m : Received) (w : W) :
    (a.handleReceived o m w).agent = a ∨
      (a.handleReceived o m w).agent = (a.handle o m.directive w).agent := by
  unfold handleReceived handleBare
  dsimp only
  repeat' split
  all_goals first | exact .inr rfl | exact .inl rfl

theorem kill_raises (a : Agent W) {m : Received} (o : Outside) (recorded : Except Raised Unit)
    (w : W) (hkill : m.kind = .kill) (hroute : maybeDelegate m.directive = none) :
    (a.dispatchReceived o recorded m w).outcome =
      .error (.escaped ("Agent " ++ pyRepr a.identity ++ " is not initialised.")) := by
  have hturn : a.handleReceived o m w = ⟨.ok (a.ok m.directive),a.kill,w,false⟩ := by
    have hhandle : a.handle o m.directive w = ⟨.ok (a.ok m.directive),a.kill,w,false⟩ := by
      simp [handle,m.directive_kind,hkill]
    unfold handleReceived handleBare
    cases m.payload <;> simp [hkill,hhandle]
  simp [dispatchReceived,route,hroute,hturn,respond,sends,kill]

theorem dispatch_answered {a : Agent W} (hkept : a.KeepsIds) (halive : a.alive = true)
    (o : Outside) (recorded : Except Raised Unit) (m : Received) (w : W) :
    ((∃ r, (a.dispatchReceived o recorded m w).outcome = .ok r) ∧
      (a.forwards m.directive = false → ∃ response,
        (a.dispatchReceived o recorded m w).sent = [response] ∧
          response.correlationId = m.correlationId)) ↔ a.Copes o recorded m w := by
  cases hroute : maybeDelegate m.directive with
  | some target =>
    obtain ⟨items,hpayload⟩ := payload_of_route hroute
    by_cases hchild : target ∈ a.children
    · have hforwards : a.forwards m.directive = true := by simp [forwards,hroute,hchild]
      simp [dispatchReceived,route,Copes,hroute,hchild,hforwards,hpayload]
    · have hforwards : a.forwards m.directive = false := by simp [forwards,hroute,hchild]
      have hsettle := settle_sendsOne a m o recorded w (a.refuse w m.directive
        ("delegation target " ++ pyRepr target ++ " is not a spawned child")) halive
        (by rintro _ ⟨⟩; exact m.directive_id)
        (.inr ⟨_,rfl,by simp [route,hroute,hchild,refuse,answer]⟩)
      have hfares : Fares (a.refuse w m.directive ("delegation target " ++ pyRepr target ++
          " is not a spawned child")) recorded ↔ recorded = .ok () :=
        fares_valid rfl halive (failure_valid _ _ m.directive_id_ne) rfl
      simp only [hforwards,true_implies]
      refine hsettle.trans (hfares.trans ?_)
      simp [Copes,hpayload,hroute,hchild]
  | none =>
    have hforwards : a.forwards m.directive = false := by simp [forwards,hroute]
    simp only [hforwards,true_implies]
    have hlocal : (∃ e, (a.handleReceived o m w).outcome = .error e ∧ a.route o recorded m w =
          ⟨[],.error e,(a.handleReceived o m w).agent,(a.handleReceived o m w).world⟩) ∨
        ∃ response, (a.handleReceived o m w).outcome = .ok response ∧ a.route o recorded m w =
          (a.handleReceived o m w).agent.respond recorded (a.handleReceived o m w).world response := by
      cases hout : (a.handleReceived o m w).outcome with
      | error e => exact .inl ⟨e,rfl,by simp [route,hroute,hout]⟩
      | ok response => exact .inr ⟨response,rfl,by simp [route,hroute,hout]⟩
    by_cases hkill : m.kind = .kill
    · have hcopes : ¬ a.Copes o recorded m w := by
        unfold Copes
        cases m.payload <;> simp [hroute,hkill]
      have hraises := kill_raises a o recorded w hkill hroute
      simp [hcopes,hraises]
    · have hafter : (a.handleReceived o m w).agent.alive = true := by
        rcases received_agent o m w with hsame | hsame
        · exact (congrArg Agent.alive hsame).trans halive
        · rw [← m.directive_kind] at hkill
          exact (congrArg Agent.alive hsame).trans
            ((handle_alive a o m.directive w hkill).trans halive)
      exact (settle_sendsOne a m o recorded w _ hafter (fun _ => received_id hkept) hlocal).trans
        (received_fares recorded halive o w hroute hkill)

/-- An agent as it may come to be: from a new one by messages of its parent and of its
children, and by its parent's `configure_child`. -/
inductive Reached (C : Codec) (I : Integrity) : Agent W → Prop where
  | new (identity : String) (catalog : Option (Dict String (RegistryEntry W)))
      (childKinds : List String) : Reached C I (Agent.new identity catalog childKinds)
  | message {a : Agent W} (o : Outside) (recorded : Except Raised Unit) (frames : List ByteArray)
      (w : W) : Reached C I a → Reached C I (a.handleParent C I o recorded frames w).agent
  | child {a : Agent W} (channel : String) (m : ChildMessage) (w : W) :
      Reached C I a → Reached C I (a.drainChild I channel m w).agent
  | configured {a : Agent W} (o : Outside) (d : Directive) :
      Reached C I a → Reached C I (a.configure o d).2

theorem excuse_agent (p : Polled W) (response : Response) : (excuse p response).agent = p.agent := by
  unfold excuse
  cases p.agent.sends response <;> rfl

theorem respond_agent (a : Agent W) (recorded : Except Raised Unit) (w : W) (response : Response) :
    (a.respond recorded w response).agent = a := by
  unfold respond
  cases a.sends response <;> rfl

theorem handleParent_keepsIds {C : Codec} {I : Integrity} {a : Agent W} (h : a.KeepsIds)
    (o : Outside) (recorded : Except Raised Unit) (frames : List ByteArray) (w : W) :
    (a.handleParent C I o recorded frames w).agent.KeepsIds := by
  unfold handleParent
  cases recv C I frames with
  | error e =>
    cases e with
    | escaped text => exact h
    | rejected text =>
      dsimp only
      rw [excuse_agent]
      exact h
  | ok m =>
    have hroute : (a.route o recorded m w).agent.KeepsIds := by
      unfold route
      cases maybeDelegate m.directive with
      | some target =>
        dsimp only
        split
        · exact keepsIds_congr h rfl
        · rw [respond_agent]
          exact h
      | none =>
        have hreceived : (a.handleReceived o m w).agent.KeepsIds := by
          rcases received_agent o m w with hsame | hsame
          · rw [hsame]
            exact h
          · rw [hsame]
            exact handle_keepsIds h o m.directive w
        dsimp only
        cases (a.handleReceived o m w).outcome with
        | error e => exact hreceived
        | ok response =>
          dsimp only
          rw [respond_agent]
          exact hreceived
    show (a.dispatchReceived o recorded m w).agent.KeepsIds
    unfold dispatchReceived
    dsimp only
    split
    · rw [excuse_agent]
      exact hroute
    · exact hroute

theorem drainChild_results (I : Integrity) (a : Agent W) (channel : String) (m : ChildMessage)
    (w : W) : (a.drainChild I channel m w).agent.results = a.results := by
  unfold drainChild
  split
  · rfl
  · rfl
  · split
    · rfl
    · unfold relayVerified
      split
      · rfl
      · dsimp only
        split
        · rename_i r hsend
          rw [send_ok hsend]
          rfl
        · rfl

theorem Reached.keepsIds {C : Codec} {I : Integrity} {a : Agent W} (h : Reached C I a) :
    a.KeepsIds := by
  induction h with
  | new identity catalog childKinds =>
    intro f response hf
    simp [Agent.new] at hf
  | message o recorded frames w _ ih => exact handleParent_keepsIds ih o recorded frames w
  | child channel m w _ ih => exact keepsIds_congr ih (drainChild_results I _ channel m w)
  | configured o d _ ih => exact configure_keepsIds ih o d

/-- The message can be read, or not for a `ValueError`, and the agent copes with what it asks. -/
def Manages (C : Codec) (I : Integrity) (a : Agent W) (o : Outside) (recorded : Except Raised Unit)
    (frames : List ByteArray) (w : W) : Prop :=
  match recv C I frames with
  | .error e => e.isRejected = true
  | .ok m => a.Copes o recorded m w

/-- A message gets its one response, and nothing raises, exactly if the agent copes with it. -/
theorem answered_iff {C : Codec} {I : Integrity} {a : Agent W} (hreached : Reached C I a)
    (halive : a.alive = true) (o : Outside) (recorded : Except Raised Unit)
    (frames : List ByteArray) (w : W) :
    Answered C I a frames (a.handleParent C I o recorded frames w) ↔
      a.Manages C I o recorded frames w := by
  unfold Manages handleParent
  cases hrecv : recv C I frames with
  | error e =>
    cases e with
    | escaped text =>
      refine ⟨fun h => ?_,fun h => by cases h⟩
      obtain ⟨r,hr⟩ := h.returns
      cases hr
    | rejected text =>
      refine ⟨fun _ => rfl,fun _ => ?_⟩
      have hsends : a.sends (Response.failure "malformed" a.identity
          ("malformed directive rejected: " ++ text)) = .ok () :=
        sends_ok halive (failure_valid _ _ (by decide)) rfl
      dsimp only [excuse]
      rw [hsends]
      refine ⟨⟨_,rfl⟩,fun _ => ⟨_,rfl,?_⟩⟩
      simp [expectedId,hrecv,Response.failure,Response.plain]
  | ok m =>
    dsimp only
    rw [← dispatch_answered hreached.keepsIds halive o recorded m w]
    have hhands : a.handsOn C I frames = a.forwards m.directive := by simp [handsOn,hrecv]
    have hexpected : expectedId C I frames = m.correlationId := by simp [expectedId,hrecv]
    constructor
    · intro h
      refine ⟨h.returns,?_⟩
      rw [← hhands,← hexpected]
      exact h.answers
    · rintro ⟨hreturns,hanswers⟩
      rw [← hhands,← hexpected] at hanswers
      exact ⟨hreturns,hanswers⟩

end Agent
namespace Agent
variable {W : Type}

theorem send_eq (a : Agent W) (w : W) (response : Response) (effect : Response → Effect) :
    a.send w response effect = (a.sends response).map fun _ => ⟨effect response,a,w⟩ := by
  unfold send sends
  split
  · rfl
  · cases validateResponse response with
    | error reason => rfl
    | ok _ => cases response.value <;> rfl

inductive Reflects (p : Polled W) (r : Reaction W) : Prop where
  | answered (response : Response) : p.sent = [response] → p.outcome = .ok (some response) →
      r = ⟨.answered response,p.agent,p.world⟩ → Reflects p r
  | delegated (child : String) (d : Directive) (payload : Dict String Json) : p.sent = [] →
      p.outcome = .ok none → r = ⟨.delegated child d payload,p.agent,p.world⟩ → Reflects p r
  | raised (e : Raised) : p.sent = [] → p.outcome = .error e → r = ⟨.raised e,p.agent,p.world⟩ →
      Reflects p r

section
variable {I : Integrity} {a b : Agent W} {o : Outside} {m : Received} {w w' : W}

theorem reflects_error {e : Raised} (hroute : a.route o (.ok ()) m w = ⟨[],.error e,b,w'⟩)
    (hinner : a.dispatchInner .base I o m.directive w = .error (e,b,w')) :
    Reflects (a.dispatchReceived o (.ok ()) m w) (a.dispatch .base I o m.directive w) := by
  unfold dispatchReceived dispatch
  rw [hroute,hinner]
  cases e with
  | escaped text => exact .raised _ rfl rfl rfl
  | rejected text =>
    dsimp only [excuse]
    rw [send_eq]
    cases hsends : b.sends (b.error m.directive ("directive rejected: " ++ text)) with
    | error e => exact .raised e rfl rfl rfl
    | ok _ => exact .answered _ rfl rfl rfl

theorem reflects_response {response : Response}
    (hroute : a.route o (.ok ()) m w = b.respond (.ok ()) w' response)
    (hinner : a.dispatchInner .base I o m.directive w =
      (b.send w' response .answered).mapError fun e => (e,b,w')) :
    Reflects (a.dispatchReceived o (.ok ()) m w) (a.dispatch .base I o m.directive w) := by
  rw [respond] at hroute
  rw [send_eq] at hinner
  cases hsends : b.sends response with
  | error e =>
    rw [hsends] at hroute hinner
    exact reflects_error hroute hinner
  | ok _ =>
    rw [hsends] at hroute hinner
    unfold dispatchReceived dispatch
    rw [hroute,hinner]
    exact .answered response rfl rfl rfl

end

end Agent

namespace Poll

/-- UTF-8, and the texts that `dumps` writes. -/
def codec : Codec where
  decode bytes := expect (String.fromUTF8? bytes) (.rejected "invalid start byte")
  loads text := expect (Json.loads text) (.rejected "Expecting value")

def frames (correlationId kind payload : String) : List ByteArray :=
  [correlationId.toUTF8,"directive".toUTF8,kind.toUTF8,payload.toUTF8]

def root : Agent Unit := .new "root" none []

def quiet : Outside := ⟨false,.error (.escaped ""),.ok (),.ok none,none⟩

theorem answered_iff_ping :
    Agent.Answered codec Integrity.off root (frames "ping-1" "ping" "\x7b\x7d")
      (root.handleParent codec Integrity.off quiet (.ok ()) (frames "ping-1" "ping" "\x7b\x7d") ()) ↔
    root.Manages codec Integrity.off quiet (.ok ()) (frames "ping-1" "ping" "\x7b\x7d") () :=
  Agent.answered_iff (.new "root" none []) rfl quiet (.ok ()) _ ()

/-- A run directive whose payload is a list gets no answer, and an exception ends the step. -/
theorem list_payload_raises :
    Agent.Reached codec Integrity.off root ∧ root.alive = true ∧
    ¬ Agent.Answered codec Integrity.off root (frames "run-1" "run" "[]")
      (root.handleParent codec Integrity.off quiet (.ok ()) (frames "run-1" "run" "[]") ()) := by
  refine ⟨.new "root" none [],rfl,?_⟩
  intro h
  obtain ⟨r,hr⟩ := h.returns
  have hraises : (root.handleParent codec Integrity.off quiet (.ok ())
      (frames "run-1" "run" "[]") ()).outcome.toOption.isNone = true := by decide +kernel
  rw [hr] at hraises
  cases hraises

end Poll
end AgentCentric

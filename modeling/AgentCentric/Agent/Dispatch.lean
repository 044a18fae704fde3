import AgentCentric.Agent.Poll

namespace AgentCentric

namespace Agent
variable {W : Type}

def excused (a : Agent W) (d : Directive) : Raised → Effect
  | .escaped text => .raised (.escaped text)
  | .rejected text =>
    let response := a.error d ("directive rejected: " ++ text)
    match a.sends response with
    | .ok _ => .answered response
    | .error e => .raised e

def effectOf (a : Agent W) (d : Directive) : Except Raised Response → Effect
  | .error e => a.excused d e
  | .ok response =>
    match a.sends response with
    | .ok _ => .answered response
    | .error e => a.excused d e

theorem dispatch_of_ok {H : Handler W} {I : Integrity} {a b : Agent W} {o : Outside}
    {d : Directive} {w v : W} {response : Response}
    (h : a.dispatchInner H I o d w = (b.send v response .answered).mapError fun e => (e,b,v)) :
    a.dispatch H I o d w = ⟨b.effectOf d (.ok response),b,v⟩ := by
  unfold dispatch
  rw [h,send_eq]
  cases hsends : b.sends response with
  | ok _ => simp only [effectOf,hsends,Except.map,Except.mapError]
  | error e =>
    cases e with
    | escaped text => simp only [effectOf,hsends,Except.map,Except.mapError,excused]
    | rejected text =>
      simp only [effectOf,hsends,Except.map,Except.mapError,excused,send_eq]
      cases b.sends (b.error d ("directive rejected: " ++ text)) <;> rfl

theorem dispatch_of_error {H : Handler W} {I : Integrity} {a b : Agent W} {o : Outside}
    {d : Directive} {w v : W} {e : Raised} (h : a.dispatchInner H I o d w = .error (e,b,v)) :
    a.dispatch H I o d w = ⟨b.effectOf d (.error e),b,v⟩ := by
  unfold dispatch
  rw [h]
  cases e with
  | escaped text => simp only [effectOf,excused]
  | rejected text =>
    simp only [effectOf,excused,send_eq]
    cases b.sends (b.error d ("directive rejected: " ++ text)) <;> rfl

theorem dispatch_handled {H : Handler W} (I : Integrity) (a : Agent W) (o : Outside)
    {d : Directive} (w : W) (hroute : maybeDelegate d = none) :
    a.dispatch H I o d w = ⟨(H.handle a o d w).agent.effectOf d (H.handle a o d w).outcome,
      (H.handle a o d w).agent,(H.handle a o d w).world⟩ := by
  cases hout : (H.handle a o d w).outcome with
  | error e => exact dispatch_of_error (by simp only [dispatchInner,hroute,hout])
  | ok response => exact dispatch_of_ok (by simp only [dispatchInner,hroute,hout])

theorem dispatch_delegated {H : Handler W} (I : Integrity) {a : Agent W} (o : Outside)
    {d : Directive} (w : W) {target : String} (hroute : maybeDelegate d = some target)
    (hchild : target ∈ a.children) : a.dispatch H I o d w =
      ⟨.delegated target d (I.attach d.correlationId d.kind.text (d.payload.erase "child")),
        { a with delegated := a.delegated.set d.correlationId target },w⟩ := by
  simp only [dispatch,dispatchInner,hroute,if_pos hchild]

theorem dispatch_misrouted {H : Handler W} (I : Integrity) {a : Agent W} (o : Outside)
    {d : Directive} (w : W) {target : String} (hroute : maybeDelegate d = some target)
    (hchild : target ∉ a.children) : a.dispatch H I o d w = ⟨a.effectOf d (.ok (a.error d
      ("delegation target " ++ pyRepr target ++ " is not a spawned child"))),a,w⟩ :=
  dispatch_of_ok (by simp only [dispatchInner,hroute,if_neg hchild])

def unsent (a : Agent W) : Raised :=
  if a.alive then .rejected "response is missing a correlation id"
  else .escaped ("Agent " ++ pyRepr a.identity ++ " is not initialised.")

theorem sends_unsent {a : Agent W} {response : Response}
    (h : a.alive = false ∨ response.correlationId = "") : a.sends response = .error a.unsent := by
  cases halive : a.alive with
  | false => simp [sends,unsent,halive]
  | true =>
    have hid : response.correlationId = "" := by simpa [halive] using h
    have hinvalid : validateResponse response =
        .error "response is missing a correlation id" := by
      simp only [validateResponse,hid]
      rfl
    simp [sends,unsent,halive,hinvalid]

theorem excused_unsent {a : Agent W} {d : Directive} (h : a.alive = false ∨ d.correlationId = "")
    (text : String) : a.excused d (.rejected text) = .raised a.unsent := by
  have hsends : a.sends (a.error d ("directive rejected: " ++ text)) = .error a.unsent :=
    sends_unsent h
  simp only [excused,hsends]

theorem effectOf_unsent {a : Agent W} {d : Directive} (h : a.alive = false ∨ d.correlationId = "")
    {response : Response} (hid : response.correlationId = d.correlationId) :
    a.effectOf d (.ok response) = .raised a.unsent := by
  have hsends : a.sends response = .error a.unsent := sends_unsent (hid ▸ h)
  simp only [effectOf,hsends]
  cases halive : a.alive with
  | false => simp only [excused,unsent,halive,Bool.false_eq_true,if_false]
  | true =>
    have hunsent : a.unsent = .rejected "response is missing a correlation id" := by
      simp [unsent,halive]
    rw [hunsent,excused_unsent h,hunsent]

end Agent
end AgentCentric

import AgentCentric.Provider.Reconcile
import AgentCentric.Provider.Rollback

namespace AgentCentric.Provider

/-- The adapter hosts resources as the in-memory adapter does, no `apply` call fails, and the health
gate answers as it likes. -/
structure Applies {W : Type} (R : Runtime W) (hosted : W → Hosted) : Prop where
  observe : ∀ {c w r w'}, R.adapter c w = (.ok r,w') → r.ok = true → c.request = .observe →
    r.observed = (hosted w).observed ∧ hosted w' = hosted w
  apply : ∀ {c w r w' change}, R.adapter c w = (.ok r,w') → c.request = .apply change →
    r.ok = true ∧ hosted w' = (hosted w).perform change
  health : ∀ {c w r w'}, R.adapter c w = (.ok r,w') → c.request = .health →
    hosted w' = hosted w
  notifier : ∀ event plan w, hosted (R.notifier event plan w).2 = hosted w

theorem Applies.hosts {W : Type} {R : Runtime W} {hosted : W → Hosted} (h : Applies R hosted) :
    Hosts R hosted where
  observe := h.observe
  apply hcall _ hrequest := (h.apply hcall hrequest).2
  health hcall _ hrequest := h.health hcall hrequest
  notifier := h.notifier

def gateAnswer : Request × Bool → Option Bool
  | (.health,ok) => some ok
  | _ => none

def gateAnswers (calls : List (Request × Bool)) : List Bool := calls.filterMap gateAnswer

def exhausted : Nat → List Bool
  | 0 => []
  | 1 => [false]
  | attempts+2 => false :: true :: exhausted (attempts + 1)

def Answered {W : Type} (s s' : Scene W) (answers : List Bool) : Prop :=
  ∃ made, s'.calls = s.calls ++ made ∧ gateAnswers made = answers

variable {plan : ProviderPlan}

section
open Act AgentCentric.Provider.Runtime
variable {W : Type} {sha256 : List Char → Digest} {R : Runtime W} {s s' t : Scene W}

theorem Answered.refl (s : Scene W) : Answered s s [] := ⟨[],by simp,rfl⟩

theorem Answered.trans {answers answers' : List Bool} (h : Answered s t answers)
    (h' : Answered t s' answers') : Answered s s' (answers ++ answers') := by
  obtain ⟨made,hmade,rfl⟩ := h
  obtain ⟨made',hmade',rfl⟩ := h'
  exact ⟨made ++ made',by rw [hmade',hmade,List.append_assoc],List.filterMap_append⟩

theorem Answered.call {request : Request} {planHash : String} {r : ProviderResult}
    (h : R.call sha256 request planHash s = (.ok r,s')) :
    Answered s s' (gateAnswers [(request,r.ok)]) :=
  ⟨_,(call_ok h).2,rfl⟩

variable {hosted : W → Hosted}

theorem record_answered (hosted : W → Hosted) {e : Evidence} {u : Unit}
    (h : record sha256 e s = (.ok u,s')) : hosted s'.world = hosted s.world ∧ Answered s s' [] := by
  rw [record,write_ok_iff] at h
  subst h
  exact ⟨rfl,[],by simp,rfl⟩

variable (applies : Applies R hosted)
include applies

theorem health_answered {passed : Bool} (h : R.health sha256 plan s = (.ok passed,s')) :
    hosted s'.world = hosted s.world ∧ Answered s s' [passed] := by
  simp only [Runtime.health,bind_ok_iff,pure_ok_iff] at h
  obtain ⟨r,t,hcall,rfl,rfl⟩ := h
  exact ⟨applies.health (call_ok hcall).1 rfl,Answered.call hcall⟩

theorem plan_answered {desired : List ResourceSpec} (h : R.plan sha256 desired s = (.ok plan,s')) :
    hosted s'.world = hosted s.world ∧ Answered s s' [] := by
  simp only [Runtime.plan,Runtime.observe,bind_ok_iff,lift_ok_iff] at h
  obtain ⟨observed,t,⟨r,u,hcall,hr⟩,_,rfl⟩ := h
  by_cases hok : r.ok = true
  · rw [if_pos hok,pure_ok_iff] at hr
    obtain ⟨_,rfl⟩ := hr
    exact ⟨(applies.observe (call_ok hcall).1 hok rfl).2,Answered.call hcall⟩
  · rw [if_neg hok,raise_ok_iff] at hr
    exact hr.elim

theorem applySteps_answered {steps : List PlanStep} {applied : Bool}
    (h : R.applySteps sha256 plan steps s = (.ok applied,s')) :
    applied = true ∧ Answered s s' [] := by
  induction steps generalizing s with
  | nil =>
    simp only [applySteps,pure_ok_iff] at h
    obtain ⟨rfl,rfl⟩ := h
    exact ⟨rfl,.refl _⟩
  | cons step steps ih =>
    simp only [applySteps,bind_ok_iff,lift_ok_iff] at h
    obtain ⟨change,t,⟨_,rfl⟩,r,u,hcall,hrest⟩ := h
    have hok := (applies.apply (call_ok hcall).1 rfl).1
    rw [if_pos hok] at hrest
    obtain ⟨htrue,hanswered⟩ := ih hrest
    exact ⟨htrue,(Answered.call hcall).trans hanswered⟩

theorem applyHealthy_answered {desired : List ResourceSpec}
    {approved passed : Bool} (haims : Aims sha256 hosted desired s plan)
    (h : R.applyHealthy sha256 plan approved s = (.ok passed,s')) :
    (hosted s'.world).get = (Hosted.ofDesired sha256 desired).get ∧ Answered s s' [passed] := by
  simp only [Runtime.applyHealthy,Runtime.apply,bind_ok_iff,lift_ok_iff] at h
  obtain ⟨applied,t,⟨_,u,⟨_,rfl⟩,hsteps⟩,hhealth⟩ := h
  by_cases hconverged : plan.isConverged = true
  · rw [if_pos hconverged,pure_ok_iff] at hsteps
    obtain ⟨rfl,rfl⟩ := hsteps
    obtain ⟨hsame,hanswered⟩ := health_answered applies hhealth
    rw [isConverged_iff] at hconverged
    unfold Aims at haims
    rw [hconverged] at haims
    exact ⟨by rw [hsame]; exact haims.applyAll,hanswered⟩
  · rw [if_neg hconverged] at hsteps
    obtain ⟨rfl,hfirst⟩ := applySteps_answered applies hsteps
    obtain ⟨hget,_⟩ := applySteps_ok applies.hosts (mutatingSteps_mutating plan) hsteps
    obtain ⟨hsame,hanswered⟩ := health_answered applies hhealth
    exact ⟨by rw [hsame,hget,haims.applyAll],hfirst.trans hanswered⟩

theorem passes_answered {desired : List ResourceSpec}
    {approved passed : Bool} (haims : Aims sha256 hosted desired s plan)
    (h : R.passes sha256 plan approved s = (.ok passed,s')) :
    (hosted s'.world).get = (Hosted.ofDesired sha256 desired).get ∧ Answered s s' [passed] := by
  unfold Runtime.passes at h
  by_cases hconverged : plan.isConverged = true
  · rw [if_pos hconverged] at h
    obtain ⟨hsame,hanswered⟩ := health_answered applies h
    rw [isConverged_iff] at hconverged
    unfold Aims at haims
    rw [hconverged] at haims
    exact ⟨by rw [hsame]; exact haims.applyAll,hanswered⟩
  · rw [if_neg hconverged] at h
    exact applyHealthy_answered applies haims h

theorem notify_answered {event : NotificationEvent} (h : R.notify event plan s = (.ok (),s')) :
    hosted s'.world = hosted s.world ∧ Answered s s' [] := by
  obtain ⟨_,hcalls,_,hsame⟩ := notify_ok applies.hosts h
  exact ⟨hsame,[],by rw [hcalls,List.append_nil],rfl⟩

theorem rollback_answered {previous : List ResourceSpec} {rolledBack : Bool}
    (h : R.rollback sha256 previous s = (.ok rolledBack,s')) :
    (hosted s'.world).get = (Hosted.ofDesired sha256 previous).get ∧
      Answered s s' [rolledBack] := by
  simp only [Runtime.rollback,bind_ok_iff] at h
  obtain ⟨target,t,hplan,passed,u,happly,hrest⟩ := h
  have hplanned := plan_answered applies hplan
  obtain ⟨hget,hanswered⟩ :=
    applyHealthy_answered applies (plan_aims applies.hosts hplan) happly
  have hfirst := hplanned.2.trans hanswered
  cases passed with
  | false =>
    rw [if_neg Bool.false_ne_true,pure_ok_iff] at hrest
    obtain ⟨rfl,rfl⟩ := hrest
    exact ⟨hget,hfirst⟩
  | true =>
    simp only [if_true,bind_ok_iff,pure_ok_iff] at hrest
    obtain ⟨_,v,hrecord,_,x,hnotify,rfl,rfl⟩ := hrest
    obtain ⟨hsame,hrecorded⟩ := record_answered hosted hrecord
    obtain ⟨hsame',hnotified⟩ := notify_answered applies hnotify
    refine ⟨by rw [hsame',hsame,hget],?_⟩
    simpa using hfirst.trans (hrecorded.trans hnotified)

theorem escalate_answered {attempts : Nat} {verdict : Verdict}
    (h : R.escalate sha256 plan attempts s = (.ok verdict,s')) :
    hosted s'.world = hosted s.world ∧ Answered s s' [] := by
  simp only [Runtime.escalate,bind_ok_iff,pure_ok_iff] at h
  obtain ⟨_,t,hrecord,_,u,hnotify,_,rfl⟩ := h
  obtain ⟨hsame,hrecorded⟩ := record_answered hosted hrecord
  obtain ⟨hsame',hnotified⟩ := notify_answered applies hnotify
  exact ⟨hsame'.trans hsame,hrecorded.trans hnotified⟩

/-- Where the attempts are used up, the failed change is left applied; anywhere else the last
rollback is. -/
theorem settle_escalated {desired previous : List ResourceSpec} {approved : Bool}
    {rounds attempts : Nat} {plan plan' : ProviderPlan} {n : Nat}
    (hattempts : attempts < R.maxAttempts) (haims : Aims sha256 hosted desired s plan)
    (hlast : s.ledger.lastHealthyDesired = .ok (some previous))
    (h : R.settle sha256 desired approved rounds plan attempts s = (.ok (.escalated plan' n),s')) :
    ∃ answers, Answered s s' answers ∧ ((answers = exhausted (R.maxAttempts - attempts) ∧
          (hosted s'.world).get = (Hosted.ofDesired sha256 desired).get) ∨
        (answers ≠ exhausted (R.maxAttempts - attempts) ∧
          (hosted s'.world).get = (Hosted.ofDesired sha256 previous).get)) := by
  have hallows := allows_sameHealthy (W := W) sha256
  induction rounds generalizing s plan attempts with
  | zero => cases h
  | succ rounds ih =>
    simp only [settle,bind_ok_iff] at h
    obtain ⟨passed,t,hpasses,hrest⟩ := h
    obtain ⟨hget,hfirst⟩ := passes_answered applies haims hpasses
    have hsame : SameHealthy s t := by
      have hkeeps := keeps_passes sha256 R hallows plan approved s
      rwa [hpasses] at hkeeps
    cases passed with
    | true =>
      rw [if_pos rfl,pure_ok_iff] at hrest
      cases hrest.1
    | false =>
      simp only [Bool.false_eq_true,if_false,bind_ok_iff,read_ok_iff,lift_ok_iff] at hrest
      obtain ⟨t,t,⟨rfl,rfl⟩,found,t,⟨hfound,rfl⟩,hrest⟩ := hrest
      rw [lastHealthyDesired_congr hsame,hlast] at hfound
      cases hfound
      by_cases hmore : attempts + 1 < R.maxAttempts
      · have haction : reconcileAction false false (some previous).isSome (attempts + 1)
            R.maxAttempts = .rollback := by simp [reconcileAction,hmore]
        have hexhausted : exhausted (R.maxAttempts - attempts) =
            false :: true :: exhausted (R.maxAttempts - (attempts + 1)) := by
          obtain ⟨k,hk⟩ : ∃ k, R.maxAttempts - attempts = k + 2 :=
            ⟨R.maxAttempts - attempts - 2,by omega⟩
          have hk' : R.maxAttempts - (attempts + 1) = k + 1 := by omega
          rw [hk,hk',exhausted]
        rw [haction] at hrest
        simp only [bind_ok_iff] at hrest
        obtain ⟨rolledBack,u,hrollback,hagain⟩ := hrest
        obtain ⟨hback,hsecond⟩ := rollback_answered applies hrollback
        have hsame' : SameHealthy t u := by
          have hkeeps := keeps_rollback sha256 R hallows previous t
          rwa [hrollback] at hkeeps
        cases rolledBack with
        | false =>
          obtain ⟨hleft,hlast⟩ := escalate_answered applies hagain
          refine ⟨_,(hfirst.trans hsecond).trans hlast,.inr ⟨?_,?_⟩⟩
          · rw [hexhausted]
            simp
          · rw [hleft,hback]
        | true =>
          simp only [if_true,bind_ok_iff] at hagain
          obtain ⟨next,v,hplan,hsettle⟩ := hagain
          have hplanned := plan_answered applies hplan
          have hsame'' : SameHealthy u v := by
            have hkeeps := keeps_plan sha256 R hallows desired u
            rwa [hplan] at hkeeps
          obtain ⟨answers,hthird,hcases⟩ := ih hmore (plan_aims applies.hosts hplan)
            (by rw [lastHealthyDesired_congr hsame'',lastHealthyDesired_congr hsame',
              lastHealthyDesired_congr hsame,hlast]) hsettle
          refine ⟨_,((hfirst.trans hsecond).trans hplanned.2).trans hthird,?_⟩
          rw [hexhausted]
          simpa using hcases
      · have haction : reconcileAction false false (some previous).isSome (attempts + 1)
            R.maxAttempts = .escalate := by simp [reconcileAction,hmore]
        have hone : R.maxAttempts - attempts = 1 := by omega
        rw [haction] at hrest
        obtain ⟨hleft,hlast⟩ := escalate_answered applies hrest
        refine ⟨_,hfirst.trans hlast,.inl ⟨?_,?_⟩⟩
        · rw [hone]
          rfl
        · rw [hleft,hget]

/-- After an escalation the last healthy state is there exactly if the attempts were not used up, or
if it is what was desired. -/
theorem escalates_rolled_back_iff {desired previous : List ResourceSpec} {approved : Bool}
    {result : ReconcileResult} (hlast : s.ledger.lastHealthyDesired = .ok (some previous))
    (hrun : R.reconcile sha256 desired approved s = (.ok result,s'))
    (hescalate : result.action = .escalate) :
    (∀ key, (hosted s'.world).get key = (Hosted.ofDesired sha256 previous).get key) ↔
      (∀ key, (Hosted.ofDesired sha256 desired).get key =
        (Hosted.ofDesired sha256 previous).get key) ∨
      ∀ made, s'.calls = s.calls ++ made → gateAnswers made ≠ exhausted R.maxAttempts := by
  simp only [Runtime.reconcile,Runtime.drive,bind_ok_iff,read_ok_iff,pure_ok_iff] at hrun
  obtain ⟨_,v,⟨t,t,⟨rfl,rfl⟩,plan,u,hplan,verdict,v,hsettle,rfl,rfl⟩,hend⟩ := hrun
  cases verdict with
  | healthy plan' n =>
    simp only [bind_ok_iff,pure_ok_iff] at hend
    obtain ⟨_,_,_,rfl,_⟩ := hend
    cases hescalate
  | escalated plan' n =>
    simp only [pure_ok_iff] at hend
    obtain ⟨_,rfl⟩ := hend
    have hsame : SameHealthy t u := by
      have hkeeps := keeps_plan sha256 R (allows_sameHealthy (W := W) sha256) desired t
      rwa [hplan] at hkeeps
    obtain ⟨answers,hanswered,hcases⟩ := settle_escalated applies R.positive
      (plan_aims applies.hosts hplan) (by rw [lastHealthyDesired_congr hsame,hlast]) hsettle
    obtain ⟨made,hmade,hanswers⟩ := (plan_answered applies hplan).2.trans hanswered
    rw [List.nil_append] at hanswers
    have hall : (∀ made, s'.calls = t.calls ++ made →
        gateAnswers made ≠ exhausted R.maxAttempts) ↔ answers ≠ exhausted R.maxAttempts := by
      constructor
      · intro h
        rw [← hanswers]
        exact h made hmade
      · intro h made' hmade'
        rw [hmade] at hmade'
        rwa [← List.append_cancel_left hmade',hanswers]
    rw [hall]
    rw [Nat.sub_zero] at hcases
    rcases hcases with ⟨hexhausted,hget⟩ | ⟨hnot,hget⟩
    · simp [hexhausted,hget]
    · simp [hnot,hget]

end

theorem applies_poisoned (poison : ResourceKey) :
    Applies (Runtime.poisoned poison) InMemory.state where
  observe := by
    intro c w r w' hcall _ hrequest
    simp only [Runtime.poisoned,InMemory.poisoned,InMemory.call,hrequest,Request.op] at hcall
    cases hcall
    exact ⟨rfl,rfl⟩
  apply := by
    intro c w r w' change hcall hrequest
    simp only [Runtime.poisoned,InMemory.poisoned,InMemory.call,hrequest,Request.op] at hcall
    cases hcall
    exact ⟨rfl,rfl⟩
  health := by
    intro c w r w' hcall hrequest
    simp only [Runtime.poisoned,InMemory.poisoned,hrequest,Request.op] at hcall
    cases hcall
    rfl
  notifier _ _ _ := rfl

/-- The database that makes the health gate fail. -/
def poison : ResourceKey := ⟨"db","main",db_ne,main_ne⟩

def unpoisoned : Scene InMemory :=
  ((Runtime.poisoned poison).reconcile Digest.ofChars [] false
    (.new ⟨fun _ => false,true,Dict.empty⟩)).2

def desiredNothing : Except String (Option (List ResourceSpec)) → Bool
  | .ok (some []) => true
  | _ => false

theorem eq_of_desiredNothing {last : Except String (Option (List ResourceSpec))}
    (h : desiredNothing last = true) : last = .ok (some []) := by
  unfold desiredNothing at h
  split at h
  · rfl
  · cases h

theorem unpoisoned_last : unpoisoned.ledger.lastHealthyDesired = .ok (some []) :=
  eq_of_desiredNothing (by decide +kernel)

def returned (r : Except String ReconcileResult × Scene InMemory) : Option ReconcileAction :=
  match r.1 with
  | .ok result => some result.action
  | .error _ => none

theorem ok_of_returned {r : Except String ReconcileResult × Scene InMemory}
    {action : ReconcileAction} (h : returned r = some action) :
    ∃ result, r = (.ok result,r.2) ∧ result.action = action := by
  obtain ⟨result,s⟩ := r
  cases result with
  | ok result => exact ⟨result,rfl,Option.some.inj h⟩
  | error e => cases h

def poisonedCall : Except String ReconcileResult × Scene InMemory :=
  (Runtime.poisoned poison).reconcile Digest.ofChars (sized 1) false unpoisoned

theorem poisoned_escalates : returned poisonedCall = some .escalate := by decide +kernel

theorem escalates_rolled_back_iff_poisoned : ∃ result s',
    (Runtime.poisoned poison).reconcile Digest.ofChars (sized 1) false unpoisoned =
      (.ok result,s') ∧ result.action = .escalate ∧
    ((∀ key, s'.world.state.get key = (Hosted.ofDesired Digest.ofChars []).get key) ↔
      (∀ key, (Hosted.ofDesired Digest.ofChars (sized 1)).get key =
        (Hosted.ofDesired Digest.ofChars []).get key) ∨
      ∀ made, s'.calls = unpoisoned.calls ++ made → gateAnswers made ≠ exhausted 3) := by
  obtain ⟨result,hresult,haction⟩ := ok_of_returned poisoned_escalates
  exact ⟨result,poisonedCall.2,hresult,haction,
    escalates_rolled_back_iff (applies_poisoned poison) unpoisoned_last hresult haction⟩

/-- With three attempts, as is the default, the third one leaves the poisoned resource there. -/
theorem poisoned_stays :
    Applies (Runtime.poisoned poison) InMemory.state ∧
    unpoisoned.ledger.lastHealthyDesired = .ok (some []) ∧
    ¬ ∀ result s', (Runtime.poisoned poison).reconcile Digest.ofChars (sized 1) false unpoisoned =
        (.ok result,s') → result.action = .escalate →
      ∀ key, s'.world.state.get key = (Hosted.ofDesired Digest.ofChars []).get key := by
  refine ⟨applies_poisoned poison,unpoisoned_last,fun h => ?_⟩
  obtain ⟨result,hresult,haction⟩ := ok_of_returned poisoned_escalates
  have hstate := h result poisonedCall.2 hresult haction poison
  revert hstate
  decide +kernel

end AgentCentric.Provider

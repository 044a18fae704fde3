import AgentCentric.Provider.Convergence

namespace AgentCentric.Provider

/-- The adapter hosts resources: a call that succeeds does to them what the in-memory adapter
does. A call that fails or raises may do anything. The notifier leaves them alone. -/
structure Hosts {W : Type} (R : Runtime W) (hosted : W → Hosted) : Prop where
  observe : ∀ {c w r w'}, R.adapter c w = (.ok r,w') → r.ok = true → c.request = .observe →
    r.observed = (hosted w).observed ∧ hosted w' = hosted w
  apply : ∀ {c w r w' change}, R.adapter c w = (.ok r,w') → r.ok = true → c.request = .apply change →
    hosted w' = (hosted w).perform change
  health : ∀ {c w r w'}, R.adapter c w = (.ok r,w') → r.ok = true → c.request = .health →
    hosted w' = hosted w
  notifier : ∀ event plan w, hosted (R.notifier event plan w).2 = hosted w

theorem hosts_inMemory (id : String) (h : id ≠ "") :
    Hosts (Runtime.inMemory id h) InMemory.state where
  observe := by
    intro c w r w' hcall hok hrequest
    simp only [Runtime.inMemory,InMemory.call,hrequest] at hcall
    split at hcall <;> cases hcall
    · cases hok
    · exact ⟨rfl,rfl⟩
  apply := by
    intro c w r w' change hcall hok hrequest
    simp only [Runtime.inMemory,InMemory.call,hrequest] at hcall
    split at hcall <;> cases hcall
    · cases hok
    · rfl
  health := by
    intro c w r w' hcall hok hrequest
    simp only [Runtime.inMemory,InMemory.call,hrequest] at hcall
    split at hcall <;> cases hcall
    · cases hok
    · rfl
  notifier _ _ _ := rfl

/-- A run may have gone from `s` to `s'` without an end to it. -/
structure Unfinished {W : Type} (s s' : Scene W) : Prop where
  calls : s.calls <+: s'.calls
  records : ∃ es, s'.records = s.records ++ es ∧
    ∀ e ∈ es, e.action ≠ .converged ∧ e.action ≠ .escalated

theorem Unfinished.refl {W : Type} (s : Scene W) : Unfinished s s :=
  ⟨List.prefix_refl _,[],by simp,by simp⟩

instance {W : Type} : Std.Refl (Unfinished (W := W)) := ⟨Unfinished.refl⟩

theorem Unfinished.trans {W : Type} {s t u : Scene W} (first : Unfinished s t)
    (second : Unfinished t u) : Unfinished s u := by
  obtain ⟨es,hes,hno⟩ := first.records
  obtain ⟨fs,hfs,hno'⟩ := second.records
  refine ⟨first.calls.trans second.calls,es ++ fs,by rw [hfs,hes,List.append_assoc],?_⟩
  intro e he
  rcases List.mem_append.1 he with he | he
  · exact hno e he
  · exact hno' e he

instance {W : Type} : IsTrans (Scene W) Unfinished := ⟨fun _ _ _ => Unfinished.trans⟩

theorem allows_unfinished {W : Type} (sha256 : List Char → Digest) :
    Allows sha256 (Unfinished (W := W)) where
  outside _ s := ⟨List.prefix_refl _,[],by simp [AgentCentric.Provider.outside],by simp⟩
  called _ _ s := ⟨List.prefix_append _ _,[],by simp [Act.write],by simp⟩
  recorded e _ hconverged hescalated s := ⟨List.prefix_refl _,[e],rfl,by simp [hconverged,hescalated]⟩

theorem mutatingSteps_mutating (plan : ProviderPlan) :
    ∀ t ∈ plan.mutatingSteps, t.action.isMutating = true := fun _ ht => (List.mem_filter.1 ht).2

theorem isConverged_iff (plan : ProviderPlan) : plan.isConverged = true ↔ plan.mutatingSteps = [] := by
  rw [ProviderPlan.isConverged,List.isEmpty_iff]

variable {desired : List ResourceSpec} {plan : ProviderPlan} {approved : Bool}

section
open Act AgentCentric.Provider.Runtime
variable {W : Type} {sha256 : List Char → Digest} {R : Runtime W} {s s' : Scene W}

theorem call_ok {request : Request} {planHash : String} {r : ProviderResult}
    (h : R.call sha256 request planHash s = (.ok r,s')) :
    R.adapter ⟨R.id,request,R.id_ne⟩ s.world = (.ok r,s'.world) ∧
      s'.calls = s.calls ++ [(request,r.ok)] := by
  simp only [Runtime.call,bind_ok_iff,pure_ok_iff] at h
  obtain ⟨result,t,hadapter,_,u,hcalled,_,v,hrecord,rfl,rfl⟩ := h
  simp only [outside,Prod.mk.injEq] at hadapter
  obtain ⟨hresult,rfl⟩ := hadapter
  rw [write_ok_iff] at hcalled
  subst hcalled
  rw [record,write_ok_iff] at hrecord
  subst hrecord
  refine ⟨?_,rfl⟩
  rw [← hresult]

variable {hosted : W → Hosted} (hosts : Hosts R hosted)

def Aims (sha256 : List Char → Digest) (hosted : W → Hosted) (desired : List ResourceSpec)
    (s : Scene W) (plan : ProviderPlan) : Prop :=
  Edit.Leads (hosted s.world).get (Hosted.ofDesired sha256 desired).get
    (plan.mutatingSteps.map PlanStep.edit)

include hosts

theorem plan_aims
    (h : R.plan sha256 desired s = (.ok plan,s')) : Aims sha256 hosted desired s' plan := by
  simp only [Runtime.plan,Runtime.observe,bind_ok_iff,lift_ok_iff] at h
  obtain ⟨observed,t,⟨r,u,hcall,hr⟩,hplan,rfl⟩ := h
  by_cases hok : r.ok = true
  · rw [if_pos hok,pure_ok_iff] at hr
    obtain ⟨rfl,rfl⟩ := hr
    obtain ⟨hobserved,hsame⟩ := hosts.observe (call_ok hcall).1 hok rfl
    have hleads := plan_leads hplan
    rw [hobserved,funext (seed_observed _),← hsame] at hleads
    exact hleads
  · rw [if_neg hok,raise_ok_iff] at hr
    exact hr.elim

theorem health_ok (h : R.health sha256 plan s = (.ok true,s')) :
    hosted s'.world = hosted s.world ∧ s'.calls = s.calls ++ [(.health,true)] := by
  simp only [Runtime.health,bind_ok_iff,pure_ok_iff] at h
  obtain ⟨r,t,hcall,hok,rfl⟩ := h
  obtain ⟨hadapter,hcalls⟩ := call_ok hcall
  exact ⟨hosts.health hadapter hok.symm rfl,by rw [hcalls,← hok]⟩

def AllApplied (steps : List PlanStep) (calls : List (Request × Bool)) : Prop :=
  ∃ changes, steps.mapM PlanStep.toChange = .ok changes ∧
    calls = changes.map fun change => (Request.apply change,true)

theorem applySteps_ok {steps : List PlanStep} (hsteps : ∀ t ∈ steps, t.action.isMutating = true)
    (h : R.applySteps sha256 plan steps s = (.ok true,s')) :
    (hosted s'.world).get = Edit.applyAll (hosted s.world).get (steps.map PlanStep.edit) ∧
      ∃ calls, AllApplied steps calls ∧ s'.calls = s.calls ++ calls := by
  induction steps generalizing s with
  | nil =>
    simp only [applySteps,pure_ok_iff,true_and] at h
    subst h
    exact ⟨rfl,[],⟨[],rfl,rfl⟩,by simp⟩
  | cons step steps ih =>
    simp only [applySteps,bind_ok_iff,lift_ok_iff] at h
    obtain ⟨change,t,⟨hchange,rfl⟩,r,u,hcall,hrest⟩ := h
    by_cases hok : r.ok = true
    · rw [if_pos hok] at hrest
      obtain ⟨hadapter,hcalls⟩ := call_ok hcall
      obtain ⟨hget,calls,⟨changes,hchanges,rfl⟩,hcalls'⟩ :=
        ih (fun t ht => hsteps t (List.mem_cons_of_mem _ ht)) hrest
      obtain ⟨c,hc,hedit⟩ := PlanStep.toChange_ok (hsteps step List.mem_cons_self)
      rw [hchange] at hc
      cases hc
      refine ⟨?_,(Request.apply change,true) :: changes.map _,⟨change :: changes,?_,rfl⟩,?_⟩
      · rw [hget,hosts.apply hadapter hok rfl,Hosted.perform_get,List.map_cons,Edit.applyAll_cons,
          hedit]
      · rw [List.mapM_cons,hchange,hchanges]
        rfl
      · rw [hcalls',hcalls,hok,List.append_assoc]
        rfl
    · rw [if_neg hok,pure_ok_iff] at hrest
      cases hrest.1

/-- The health gate passes: every mutating step was applied, the last call asks for the health,
and what is hosted is what is desired. -/
theorem passes_ok
    (haims : Aims sha256 hosted desired s plan) (h : R.passes sha256 plan approved s = (.ok true,s')) :
    (hosted s'.world).get = (Hosted.ofDesired sha256 desired).get ∧
      ∃ calls, AllApplied plan.mutatingSteps calls ∧
        s'.calls = s.calls ++ calls ++ [(.health,true)] := by
  unfold Runtime.passes at h
  by_cases hconverged : plan.isConverged = true
  · rw [if_pos hconverged] at h
    obtain ⟨hsame,hcalls⟩ := health_ok hosts h
    rw [isConverged_iff] at hconverged
    unfold Aims at haims
    rw [hconverged] at haims ⊢
    refine ⟨?_,[],⟨[],rfl,rfl⟩,by rw [hcalls,List.append_nil]⟩
    rw [hsame]
    exact haims.applyAll
  · simp only [hconverged,Runtime.applyHealthy,Runtime.apply,bind_ok_iff,lift_ok_iff,if_false,
      Bool.false_eq_true] at h
    obtain ⟨applied,t,⟨_,u,⟨-,rfl⟩,hsteps⟩,hhealth⟩ := h
    cases applied with
    | false =>
      rw [if_neg Bool.false_ne_true,pure_ok_iff] at hhealth
      cases hhealth.1
    | true =>
      obtain ⟨hget,calls,happlied,hcalls⟩ :=
        applySteps_ok hosts (mutatingSteps_mutating plan) hsteps
      obtain ⟨hsame,hcalls'⟩ := health_ok hosts hhealth
      exact ⟨by rw [hsame,hget,haims.applyAll],calls,happlied,by rw [hcalls',hcalls]⟩

/-- What the loop leaves behind: a healthy plan, or one that was given up. -/
def Settled (sha256 : List Char → Digest) (R : Runtime W) (hosted : W → Hosted)
    (desired : List ResourceSpec) (s s' : Scene W) : Verdict → Prop
  | .healthy plan attempts => attempts ≤ R.maxAttempts ∧ Unfinished s s' ∧
      (hosted s'.world).get = (Hosted.ofDesired sha256 desired).get ∧
      ∃ before calls, s.calls <+: before ∧ AllApplied plan.mutatingSteps calls ∧
        s'.calls = before ++ calls ++ [(.health,true)]
  | .escalated plan attempts => attempts ≤ R.maxAttempts ∧ ∃ t, Unfinished s t ∧
      R.notify .escalated plan
        (record sha256 (R.transition sha256 .escalated false plan none) t).2 = (.ok (),s')

omit hosts in
theorem Settled.after {t : Scene W} {verdict : Verdict}
    (first : Unfinished s t) (h : Settled sha256 R hosted desired t s' verdict) :
    Settled sha256 R hosted desired s s' verdict := by
  cases verdict with
  | healthy plan attempts =>
    obtain ⟨hattempts,hrest,hget,before,calls,hbefore,hcalls⟩ := h
    exact ⟨hattempts,first.trans hrest,hget,before,calls,first.calls.trans hbefore,hcalls⟩
  | escalated plan attempts =>
    obtain ⟨hattempts,u,hrest,hnotify⟩ := h
    exact ⟨hattempts,u,first.trans hrest,hnotify⟩

omit hosts in
theorem escalate_ok {attempts : Nat} {verdict : Verdict} (hattempts : attempts ≤ R.maxAttempts)
    (h : R.escalate sha256 plan attempts s = (.ok verdict,s')) :
    Settled sha256 R hosted desired s s' verdict := by
  simp only [Runtime.escalate,bind_ok_iff,pure_ok_iff] at h
  obtain ⟨_,t,hrecord,_,u,hnotify,rfl,rfl⟩ := h
  refine ⟨hattempts,s,.refl s,?_⟩
  rw [record,write_ok_iff] at hrecord
  subst hrecord
  exact hnotify

omit hosts in
theorem unfinished_of_ok {α : Type} {m : Step W α} (hm : Keeps Unfinished m) {a : α}
    (h : m s = (.ok a,s')) : Unfinished s s' := by
  have hs := hm s
  rwa [h] at hs

omit hosts in
theorem reconcileAction_rollback {available : Bool} {attempts maxAttempts : Nat}
    (h : reconcileAction false false available attempts maxAttempts = .rollback) :
    attempts < maxAttempts := by
  unfold reconcileAction at h
  simp only [Bool.false_eq_true,if_false] at h
  split at h
  · rename_i hcond
    exact hcond.2
  · cases h

theorem settle_ok {rounds attempts : Nat} {verdict : Verdict} (hattempts : attempts < R.maxAttempts)
    (haims : Aims sha256 hosted desired s plan)
    (h : R.settle sha256 desired approved rounds plan attempts s = (.ok verdict,s')) :
    Settled sha256 R hosted desired s s' verdict := by
  have hallows := allows_unfinished (W := W) sha256
  induction rounds generalizing s plan attempts with
  | zero => cases h
  | succ rounds ih =>
    simp only [settle,bind_ok_iff] at h
    obtain ⟨passed,t,hpasses,hrest⟩ := h
    have hfirst := unfinished_of_ok (keeps_passes sha256 R hallows plan approved) hpasses
    cases passed with
    | true =>
      rw [if_pos rfl,pure_ok_iff] at hrest
      obtain ⟨rfl,rfl⟩ := hrest
      obtain ⟨hget,calls,happlied,hcalls⟩ := passes_ok hosts haims hpasses
      exact ⟨Nat.le_of_lt hattempts,hfirst,hget,s.calls,calls,List.prefix_refl _,happlied,hcalls⟩
    | false =>
      simp only [Bool.false_eq_true,if_false,bind_ok_iff,read_ok_iff,lift_ok_iff] at hrest
      obtain ⟨t,t,⟨rfl,rfl⟩,previous,t,⟨-,rfl⟩,hrest⟩ := hrest
      apply Settled.after hfirst
      have hgive : R.escalate sha256 plan (attempts + 1) t = (.ok verdict,s') →
          Settled sha256 R hosted desired t s' verdict := escalate_ok (Nat.succ_le_of_lt hattempts)
      cases previous with
      | none =>
        cases haction : reconcileAction false false (none : Option (List ResourceSpec)).isSome
            (attempts + 1) R.maxAttempts <;> (rw [haction] at hrest; exact hgive hrest)
      | some previous =>
        cases haction : reconcileAction false false (some previous).isSome (attempts + 1)
            R.maxAttempts with
        | rollback =>
          rw [haction] at hrest
          simp only [bind_ok_iff] at hrest
          obtain ⟨rolledBack,u,hrollback,hagain⟩ := hrest
          apply Settled.after (unfinished_of_ok (keeps_rollback sha256 R hallows previous) hrollback)
          cases rolledBack with
          | false => exact escalate_ok (Nat.succ_le_of_lt hattempts) hagain
          | true =>
            simp only [if_true,bind_ok_iff] at hagain
            obtain ⟨plan',v,hplan,hsettle⟩ := hagain
            apply Settled.after (unfinished_of_ok (keeps_plan sha256 R hallows desired) hplan)
            exact ih (reconcileAction_rollback haction) (plan_aims hosts hplan) hsettle
        | converged | apply | escalate =>
          rw [haction] at hrest
          exact hgive hrest

omit hosts in
theorem settle_more (more : Nat) {rounds attempts : Nat}
    (plan : ProviderPlan) (h : attempts < R.maxAttempts) (hrounds : R.maxAttempts ≤ attempts + rounds) :
    R.settle sha256 desired approved (rounds + more) plan attempts =
      R.settle sha256 desired approved rounds plan attempts := by
  induction rounds generalizing plan attempts with
  | zero => omega
  | succ rounds ih =>
    rw [Nat.add_right_comm]
    simp only [settle]
    apply bind_congr
    intro passed
    cases passed with
    | true => rfl
    | false =>
      simp only [Bool.false_eq_true,if_false]
      apply bind_congr
      intro t
      apply bind_congr
      intro previous
      cases previous with
      | none =>
        cases reconcileAction false false (none : Option (List ResourceSpec)).isSome (attempts + 1)
          R.maxAttempts <;> rfl
      | some previous =>
        cases haction : reconcileAction false false (some previous).isSome (attempts + 1)
            R.maxAttempts with
        | rollback =>
          apply bind_congr
          intro rolledBack
          cases rolledBack with
          | false => rfl
          | true =>
            simp only [if_true]
            apply bind_congr
            intro plan'
            exact ih plan' (reconcileAction_rollback haction) (by omega)
        | converged | apply | escalate => rfl

theorem notify_ok {event : NotificationEvent} (h : R.notify event plan s = (.ok (),s')) :
    s'.ledger = s.ledger ∧ s'.calls = s.calls ∧ s'.records = s.records ∧
      hosted s'.world = hosted s.world := by
  have hout : outside (R.notifier event plan) s = (.ok (),s') → s'.ledger = s.ledger ∧
      s'.calls = s.calls ∧ s'.records = s.records ∧ hosted s'.world = hosted s.world := by
    intro hs
    simp only [outside,Prod.mk.injEq] at hs
    obtain ⟨-,rfl⟩ := hs
    exact ⟨rfl,rfl,rfl,hosts.notifier event plan s.world⟩
  unfold Runtime.notify at h
  cases hbinding : R.binding with
  | none =>
    rw [hbinding] at h
    exact hout h
  | some events =>
    rw [hbinding] at h
    by_cases hbound : event ∈ events
    · simp only [hbound,if_true] at h
      exact hout h
    · simp only [hbound,if_false,raise_ok_iff] at h

omit hosts in
theorem keeps_start (desired : List ResourceSpec) : Keeps Unfinished (R.plan sha256 desired) :=
  keeps_plan sha256 R (allows_unfinished sha256) desired

def ending (sha256 : List Char → Digest) (R : Runtime W) (result : ReconcileResult) : Evidence :=
  if result.action = .converged then R.transition sha256 .converged true result.plan none
  else R.transition sha256 .escalated false result.plan none

def isEnding (e : Evidence) : Bool := e.action = .converged ∨ e.action = .escalated

/-- What a run leaves behind that does not raise. -/
structure Ended (sha256 : List Char → Digest) (R : Runtime W) (hosted : W → Hosted)
    (desired : List ResourceSpec) (s s' : Scene W) (result : ReconcileResult) : Prop where
  attempts : result.attempts ≤ R.maxAttempts
  /-- The last calls apply the mutating steps of the plan and ask for the health, and succeed. -/
  passed : result.action = .converged → ∃ before calls, s.calls <+: before ∧
    AllApplied result.plan.mutatingSteps calls ∧ s'.calls = before ++ calls ++ [(.health,true)]
  reached : result.action = .converged →
    ∀ key, (hosted s'.world).get key = (Hosted.ofDesired sha256 desired).get key
  /-- Of the records of the run one is an ending, that of its action and plan. -/
  ending : (result.action = .converged ∨ result.action = .escalate) ∧
    ∃ es, s'.records = s.records ++ es ∧ es.filter isEnding = [ending sha256 R result] ∧
      s'.ledger.holds ((AgentCentric.Provider.ending sha256 R result).fingerprint sha256) = true

omit hosts in
theorem filter_isEnding {t : Scene W} (h : Unfinished s t) (es : List Evidence) {e : Evidence}
    (hes : es.filter isEnding = [e]) :
    ∃ fs, t.records ++ es = s.records ++ fs ∧ fs.filter isEnding = [e] := by
  obtain ⟨ds,hds,hno⟩ := h.records
  refine ⟨ds ++ es,by rw [hds,List.append_assoc],?_⟩
  have hnil : ds.filter isEnding = [] := by
    rw [List.filter_eq_nil_iff]
    intro d hd
    simp [isEnding,hno d hd]
  rw [List.filter_append,hnil,hes,List.nil_append]

theorem reconcile_ok {result : ReconcileResult}
    (h : R.reconcile sha256 desired approved s = (.ok result,s')) :
    Ended sha256 R hosted desired s s' result := by
  simp only [Runtime.reconcile,Runtime.drive,bind_ok_iff,read_ok_iff,pure_ok_iff] at h
  obtain ⟨_,v,⟨t,t,⟨rfl,rfl⟩,plan,u,hplan,verdict,v,hsettle,rfl,rfl⟩,hend⟩ := h
  have hsettled : Settled sha256 R hosted desired t v verdict :=
    (settle_ok hosts R.positive (plan_aims hosts hplan) hsettle).after
      (unfinished_of_ok (keeps_start desired) hplan)
  cases verdict with
  | healthy plan' n =>
    obtain ⟨hattempts,hfirst,hget,before,calls,hbefore,happlied,hcalls⟩ := hsettled
    simp only [Runtime.finishConverged,bind_ok_iff,pure_ok_iff] at hend
    obtain ⟨_,_,⟨_,x,hhealthy,_,y,hconverged,hnotify⟩,rfl,rfl⟩ := hend
    rw [record,write_ok_iff] at hhealthy hconverged
    subst hhealthy hconverged
    obtain ⟨hledger,hcalls',hrecords,hsame⟩ := notify_ok hosts hnotify
    refine ⟨hattempts,fun _ => ⟨before,calls,hbefore,happlied,hcalls'.trans hcalls⟩,?_,.inl rfl,?_⟩
    · intro _ key
      rw [hsame]
      exact congrFun hget key
    · obtain ⟨fs,hfs,hfilter⟩ := filter_isEnding hfirst
        [R.transition sha256 .healthy true plan' (some desired),
          R.transition sha256 .converged true plan' none] rfl
      refine ⟨fs,?_,hfilter,?_⟩
      · rw [hrecords,← hfs]
        simp
      · rw [hledger]
        exact Ledger.holds_append _ _ _
  | escalated plan' n =>
    obtain ⟨hattempts,x,hfirst,hnotify⟩ := hsettled
    simp only [pure_ok_iff] at hend
    obtain ⟨rfl,rfl⟩ := hend
    obtain ⟨hledger,hcalls',hrecords,hsame⟩ := notify_ok hosts hnotify
    refine ⟨hattempts,(nomatch ·),(nomatch ·),.inr rfl,?_⟩
    obtain ⟨fs,hfs,hfilter⟩ := filter_isEnding hfirst
      [R.transition sha256 .escalated false plan' none] rfl
    refine ⟨fs,hrecords.trans hfs,hfilter,?_⟩
    rw [hledger]
    exact Ledger.holds_append _ _ _

/-- `reconcile` terminates: its loop goes on as long as it likes, but needs no more rounds than
`max_attempts`. What it leaves behind is told by `Ended`. -/
theorem reconcile_ends (sha256 : List Char → Digest) (desired : List ResourceSpec) (approved : Bool)
    (s : Scene W) :
    (∀ rounds, R.maxAttempts ≤ rounds → ∀ plan t,
      R.settle sha256 desired approved rounds plan 0 t =
        R.settle sha256 desired approved R.maxAttempts plan 0 t) ∧
    ∀ result s', R.reconcile sha256 desired approved s = (.ok result,s') →
      Ended sha256 R hosted desired s s' result := by
  refine ⟨?_,fun result s' h => reconcile_ok hosts h⟩
  intro rounds hrounds plan t
  obtain ⟨more,rfl⟩ := Nat.exists_eq_add_of_le hrounds
  rw [settle_more more plan R.positive (by omega)]

end

/-- With the in-memory adapter, from nothing to one resource. -/
theorem reconcile_ends_inMemory :
    let R := Runtime.inMemory "local" (by decide)
    let desired : List ResourceSpec := [⟨"db","main",[("size",.int 1)],by decide,by decide⟩]
    let s : Scene InMemory := .new ⟨fun _ => false,true,Dict.empty⟩
    (∀ rounds, R.maxAttempts ≤ rounds → ∀ plan t,
      R.settle Digest.ofChars desired false rounds plan 0 t =
        R.settle Digest.ofChars desired false R.maxAttempts plan 0 t) ∧
    ∀ result s', R.reconcile Digest.ofChars desired false s = (.ok result,s') →
      Ended Digest.ofChars R InMemory.state desired s s' result :=
  reconcile_ends (hosts_inMemory "local" (by decide)) Digest.ofChars _ false _

end AgentCentric.Provider

import AgentCentric.Provider.Escalation

namespace AgentCentric.Provider

def Runtime.NeedsApproval {W : Type} (R : Runtime W) (c : Change) : Prop :=
  c.action = .delete ∨ R.target = .cloud

variable {plan : ProviderPlan}

section
open Act AgentCentric.Provider.Runtime
variable {W : Type} {sha256 : List Char → Digest} {R : Runtime W}

/-- The loop of `reconcile` is about to try the plan, after `attempts` that failed. -/
inductive Heads (sha256 : List Char → Digest) (R : Runtime W) (desired : List ResourceSpec)
    (approved : Bool) (s₀ : Scene W) : Nat → ProviderPlan → Scene W → Prop where
  | first {plan : ProviderPlan} {s : Scene W} (h : R.plan sha256 desired s₀ = (.ok plan,s)) :
      Heads sha256 R desired approved s₀ 0 plan s
  | next {attempts : Nat} {plan plan' : ProviderPlan} {s t u v : Scene W}
      {previous : List ResourceSpec} (h : Heads sha256 R desired approved s₀ attempts plan s)
      (hfailed : R.passes sha256 plan approved s = (.ok false,t))
      (hlast : t.ledger.lastHealthyDesired = .ok (some previous))
      (hmore : attempts + 1 < R.maxAttempts)
      (hback : R.rollback sha256 previous t = (.ok true,u))
      (hplan : R.plan sha256 desired u = (.ok plan',v)) :
      Heads sha256 R desired approved s₀ (attempts + 1) plan' v

/-- The loop rolls back to `previous` in `t`, as an attempt failed that was not the last one. -/
def RollsBack (sha256 : List Char → Digest) (R : Runtime W) (desired : List ResourceSpec)
    (approved : Bool) (s₀ : Scene W) (previous : List ResourceSpec) (t : Scene W) : Prop :=
  ∃ attempts plan s, Heads sha256 R desired approved s₀ attempts plan s ∧
    R.passes sha256 plan approved s = (.ok false,t) ∧
    t.ledger.lastHealthyDesired = .ok (some previous) ∧ attempts + 1 < R.maxAttempts

/-- A rollback makes the `i`-th call. -/
def RollbackCalls (sha256 : List Char → Digest) (R : Runtime W) (desired : List ResourceSpec)
    (approved : Bool) (s₀ s' : Scene W) (i : Nat) : Prop :=
  ∃ previous t, RollsBack sha256 R desired approved s₀ previous t ∧ t.calls.length ≤ i ∧
    i < (R.rollback sha256 previous t).2.calls.length ∧
    (R.rollback sha256 previous t).2.calls <+: s'.calls

/-- No call between the two states applies a change that needs approval. -/
structure Unattended (R : Runtime W) (s s' : Scene W) : Prop where
  calls : s.calls <+: s'.calls
  safe : ∀ i c ok, s.calls.length ≤ i → s'.calls[i]? = some (.apply c,ok) → ¬ R.NeedsApproval c

/-- What needs approval between the two states is done by a rollback. -/
structure Accounted (sha256 : List Char → Digest) (R : Runtime W) (desired : List ResourceSpec)
    (approved : Bool) (s₀ s s' : Scene W) : Prop where
  calls : s.calls <+: s'.calls
  safe : ∀ i c ok, s.calls.length ≤ i → s'.calls[i]? = some (.apply c,ok) → R.NeedsApproval c →
    RollbackCalls sha256 R desired approved s₀ s' i

theorem Unattended.of_calls {s s' : Scene W} (h : s'.calls = s.calls) : Unattended R s s' where
  calls := h ▸ List.prefix_rfl
  safe i c ok hi hc := by
    rw [h,List.getElem?_eq_none hi] at hc
    cases hc

theorem Unattended.refl (s : Scene W) : Unattended R s s := .of_calls rfl

theorem getElem?_of_initial {α : Type} {xs ys : List α} (h : xs <+: ys) {i : Nat}
    (hi : i < xs.length) : ys[i]? = xs[i]? := by
  obtain ⟨zs,rfl⟩ := h
  exact List.getElem?_append_left hi

theorem Unattended.trans {s t u : Scene W} (first : Unattended R s t)
    (second : Unattended R t u) : Unattended R s u where
  calls := first.calls.trans second.calls
  safe i c ok hi hc := by
    by_cases hlt : i < t.calls.length
    · rw [getElem?_of_initial second.calls hlt] at hc
      exact first.safe i c ok hi hc
    · exact second.safe i c ok (by omega) hc

instance : Std.Refl (Unattended R) := ⟨Unattended.refl⟩

instance : IsTrans (Scene W) (Unattended R) := ⟨fun _ _ _ => Unattended.trans⟩

section
variable {desired : List ResourceSpec} {approved : Bool} {s₀ : Scene W}

theorem Unattended.accounted {s s' : Scene W} (h : Unattended R s s') :
    Accounted sha256 R desired approved s₀ s s' where
  calls := h.calls
  safe i c ok hi hc hneeds := absurd hneeds (h.safe i c ok hi hc)

theorem Accounted.trans {s t u : Scene W} (first : Accounted sha256 R desired approved s₀ s t)
    (second : Accounted sha256 R desired approved s₀ t u) :
    Accounted sha256 R desired approved s₀ s u where
  calls := first.calls.trans second.calls
  safe i c ok hi hc hneeds := by
    by_cases hlt : i < t.calls.length
    · rw [getElem?_of_initial second.calls hlt] at hc
      obtain ⟨previous,v,hback,hle,hlt',hinitial⟩ := first.safe i c ok hi hc hneeds
      exact ⟨previous,v,hback,hle,hlt',hinitial.trans second.calls⟩
    · exact second.safe i c ok (by omega) hc hneeds

instance : Std.Refl (Accounted sha256 R desired approved s₀) :=
  ⟨fun s => (Unattended.refl s).accounted⟩

instance : IsTrans (Scene W) (Accounted sha256 R desired approved s₀) :=
  ⟨fun _ _ _ => Accounted.trans⟩

end

theorem unattended_call {request : Request} (planHash : String)
    (h : ∀ c, request = .apply c → ¬ R.NeedsApproval c) :
    Keeps (Unattended R) (R.call sha256 request planHash) := by
  apply keeps_bind
  · exact fun s => .of_calls rfl
  intro result
  apply keeps_bind
  · intro s
    refine ⟨List.prefix_append _ _,fun i c ok hi hc => ?_⟩
    simp only [write] at hc
    rw [List.getElem?_append_right hi] at hc
    obtain ⟨_,heq⟩ := List.getElem?_eq_some_iff.1 hc
    simp only [List.getElem_singleton,Prod.mk.injEq] at heq
    exact h c heq.1
  intro _
  apply keeps_bind
  · exact fun s => .of_calls rfl
  intro _
  exact keeps_pure _

theorem unattended_observe : Keeps (Unattended R) (R.observe sha256) := by
  apply keeps_bind (unattended_call _ (by simp))
  intro result
  cases result.ok
  · exact keeps_raise _
  · exact keeps_pure _

theorem unattended_plan (desired : List ResourceSpec) :
    Keeps (Unattended R) (R.plan sha256 desired) :=
  keeps_bind unattended_observe fun _ => keeps_lift _

theorem unattended_health (plan : ProviderPlan) : Keeps (Unattended R) (R.health sha256 plan) :=
  keeps_bind (unattended_call _ (by simp)) fun _ => keeps_pure _

theorem unattended_record (e : Evidence) :
    Keeps (Unattended R) (Runtime.record (W := W) sha256 e) :=
  fun _ => .of_calls rfl

theorem unattended_notify (event : NotificationEvent) (plan : ProviderPlan) :
    Keeps (Unattended R) (R.notify event plan) := by
  unfold notify
  cases R.binding with
  | none => exact fun s => .of_calls rfl
  | some events =>
    by_cases hbound : event ∈ events
    · simp only [hbound,if_true]
      exact fun s => .of_calls rfl
    · simp only [hbound,if_false]
      exact keeps_raise _

def Planned (sha256 : List Char → Digest) (R : Runtime W) (plan : ProviderPlan) : Prop :=
  ∃ desired observed, planProvider sha256 R.id desired observed R.target = .ok plan

theorem planned_of_ok {desired : List ResourceSpec} {s s' : Scene W}
    (h : R.plan sha256 desired s = (.ok plan,s')) : Planned sha256 R plan := by
  simp only [Runtime.plan,bind_ok_iff,lift_ok_iff] at h
  obtain ⟨observed,t,_,hplan,_⟩ := h
  exact ⟨desired,observed,hplan⟩

theorem desiredStep_approval (cloud : Bool) (current : Option ObservedResource) (r : ResourceSpec)
    (h : (desiredStep sha256 cloud current r).action.isMutating = true) :
    (desiredStep sha256 cloud current r).requiresApproval = cloud := by
  unfold desiredStep at h ⊢
  cases current with
  | none => rfl
  | some observed =>
    by_cases hsame : observed.resourceHash = r.hash sha256
    · simp [hsame,PlanStep.noop,PlanAction.isMutating] at h
    · simp [hsame,PlanStep.change]

theorem Planned.cloud (h : Planned sha256 R plan)
    (hcloud : R.target = .cloud) {step : PlanStep} (hstep : step ∈ plan.mutatingSteps) :
    step.requiresApproval = true := by
  obtain ⟨desired,observed,hplan⟩ := h
  obtain ⟨-,D,O,hD,hO,rfl⟩ := planProvider_ok.1 hplan
  have hmem := (mutatingSteps_perm _ _).mem_iff.1 hstep
  obtain ⟨hmem,hmutating⟩ := List.mem_filter.1 hmem
  simp only [planSteps,hcloud,decide_true,List.mem_append,List.mem_map] at hmem
  rcases hmem with ⟨r,_,rfl⟩ | ⟨o,_,rfl⟩
  · exact desiredStep_approval true _ r hmutating
  · rfl

theorem unattended_of_appliable (hplanned : Planned sha256 R plan)
    {expectedHash : Digest} {u : Unit}
    (h : assertPlanAppliable sha256 plan expectedHash false = .ok u) {step : PlanStep}
    (hstep : step ∈ plan.mutatingSteps) {c : Change} (hc : step.toChange = .ok c) :
    ¬ R.NeedsApproval c := by
  have haction : c.action = step.action := by
    unfold PlanStep.toChange at hc
    split at hc
    · cases hc
      rfl
    · cases hc
  have happroval : step.requiresApproval = false := by
    obtain ⟨_,_,hall⟩ := AgentCentric.bind_ok.1 h
    have hrequire := forEach_ok.1 hall step (List.mem_filter.1 hstep).1
    simpa using hrequire
  rintro (hdelete | hcloud)
  · rw [haction] at hdelete
    rw [step.approval hdelete] at happroval
    cases happroval
  · rw [hplanned.cloud hcloud hstep] at happroval
    cases happroval

theorem unattended_applySteps {steps : List PlanStep}
    (h : ∀ step ∈ steps, ∀ c, step.toChange = .ok c → ¬ R.NeedsApproval c) :
    Keeps (Unattended R) (R.applySteps sha256 plan steps) := by
  induction steps with
  | nil => exact keeps_pure _
  | cons step rest ih =>
    intro s
    unfold applySteps
    refine moves_bind (Std.Refl.refl s) fun change t hchange => ?_
    obtain ⟨hchange,_⟩ := lift_ok_iff.1 hchange
    have hsafe : ∀ c, Request.apply change = .apply c → ¬ R.NeedsApproval c := by
      intro c heq
      cases heq
      exact h step List.mem_cons_self change hchange
    refine keeps_bind (unattended_call _ hsafe) (fun result => ?_) t
    cases result.ok
    · exact keeps_pure _
    · exact ih fun step' hstep => h step' (List.mem_cons_of_mem step hstep)

theorem unattended_apply (hplanned : Planned sha256 R plan)
    (expectedHash : Digest) : Keeps (Unattended R) (R.apply sha256 plan expectedHash false) := by
  intro s
  unfold Runtime.apply
  refine moves_bind (Std.Refl.refl s) fun u t happliable => ?_
  obtain ⟨happliable,_⟩ := lift_ok_iff.1 happliable
  cases plan.isConverged
  · exact unattended_applySteps (fun step hstep c hc =>
      unattended_of_appliable hplanned happliable hstep hc) t
  · exact Std.Refl.refl t

theorem unattended_passes (hplanned : Planned sha256 R plan) :
    Keeps (Unattended R) (R.passes sha256 plan false) := by
  unfold passes
  cases plan.isConverged
  · apply keeps_bind (unattended_apply hplanned _)
    intro applied
    cases applied
    · exact keeps_pure _
    · exact unattended_health plan
  · exact unattended_health plan

section
variable {desired : List ResourceSpec} {s₀ : Scene W}

theorem accounted_rollback {previous : List ResourceSpec} {t : Scene W}
    (h : RollsBack sha256 R desired false s₀ previous t) :
    Accounted sha256 R desired false s₀ t (R.rollback sha256 previous t).2 where
  calls := (keeps_rollback sha256 R (allows_unfinished sha256) previous t).calls
  safe _ _ _ hi hc _ :=
    ⟨previous,t,h,hi,(List.getElem?_eq_some_iff.1 hc).1,List.prefix_rfl⟩

theorem accounted_escalate (plan : ProviderPlan) (attempts : Nat) :
    Keeps (Accounted sha256 R desired false s₀) (R.escalate sha256 plan attempts) := by
  apply keeps_bind
  · exact fun s => (unattended_record _ s).accounted
  intro _
  apply keeps_bind
  · exact fun s => (unattended_notify _ _ s).accounted
  intro _
  exact keeps_pure _

theorem accounted_settle {rounds attempts : Nat} {s : Scene W}
    (hhead : Heads sha256 R desired false s₀ attempts plan s) (hplanned : Planned sha256 R plan) :
    Accounted sha256 R desired false s₀ s
      (R.settle sha256 desired false rounds plan attempts s).2 := by
  induction rounds generalizing attempts plan s with
  | zero => exact Std.Refl.refl s
  | succ rounds ih =>
    refine moves_bind (unattended_passes hplanned s).accounted fun passed t hpasses => ?_
    cases passed with
    | true => exact Std.Refl.refl t
    | false =>
      refine moves_bind (Std.Refl.refl t) fun t' u hread => ?_
      obtain ⟨rfl,rfl⟩ := read_ok_iff.1 hread
      refine moves_bind (Std.Refl.refl u) fun found v hfound => ?_
      obtain ⟨hfound,rfl⟩ := lift_ok_iff.1 hfound
      cases found with
      | none =>
        cases reconcileAction false false (none : Option (List ResourceSpec)).isSome (attempts + 1)
          R.maxAttempts <;> exact accounted_escalate plan _ v
      | some previous =>
        cases haction : reconcileAction false false (some previous).isSome (attempts + 1)
            R.maxAttempts with
        | rollback =>
          have hmore := reconcileAction_rollback haction
          refine moves_bind (accounted_rollback ⟨attempts,plan,s,hhead,hpasses,hfound,hmore⟩)
            fun rolledBack w hback => ?_
          cases rolledBack with
          | false => exact accounted_escalate plan _ w
          | true =>
            refine moves_bind (unattended_plan desired w).accounted fun plan' x hplan => ?_
            exact ih (.next hhead hpasses hfound hmore hback hplan) (planned_of_ok hplan)
        | converged | apply | escalate => exact accounted_escalate plan _ v

theorem accounted_finish (plan : ProviderPlan) (hadHistory : Bool) :
    Keeps (Accounted sha256 R desired false s₀)
      (R.finishConverged sha256 desired plan hadHistory) := by
  apply keeps_bind
  · exact fun s => (unattended_record _ s).accounted
  intro _
  apply keeps_bind
  · exact fun s => (unattended_record _ s).accounted
  intro _
  exact fun s => (unattended_notify _ _ s).accounted

theorem accounted_reconcile (sha256 : List Char → Digest) (R : Runtime W)
    (desired : List ResourceSpec) (s : Scene W) :
    Accounted sha256 R desired false s s (R.reconcile sha256 desired false s).2 := by
  refine moves_bind ?_ fun driven t _ => ?_
  · refine moves_bind (Std.Refl.refl s) fun s' t hread => ?_
    obtain ⟨rfl,rfl⟩ := read_ok_iff.1 hread
    refine moves_bind (unattended_plan desired t).accounted fun plan u hplan => ?_
    refine moves_bind (accounted_settle (.first hplan) (planned_of_ok hplan)) fun verdict v _ => ?_
    exact Std.Refl.refl v
  · obtain ⟨hadHistory,verdict⟩ := driven
    cases verdict with
    | healthy plan attempts =>
      exact keeps_bind (accounted_finish plan hadHistory) (fun _ => keeps_pure _) t
    | escalated plan attempts => exact Std.Refl.refl t

theorem Heads.sameHealthy {attempts : Nat} {s : Scene W}
    (h : Heads sha256 R desired false s₀ attempts plan s) : SameHealthy s₀ s := by
  have hallows := allows_sameHealthy (W := W) sha256
  induction h with
  | first hplan =>
    have hkeeps := keeps_plan sha256 R hallows desired s₀
    rwa [hplan] at hkeeps
  | @next attempts plan plan' s t u v previous _ hfailed _ _ hback hplan ih =>
    have hfirst := keeps_passes sha256 R hallows plan false s
    have hsecond := keeps_rollback sha256 R hallows previous t
    have hthird := keeps_plan sha256 R hallows desired u
    rw [hfailed] at hfirst
    rw [hback] at hsecond
    rw [hplan] at hthird
    exact hthird.trans (hsecond.trans (hfirst.trans ih))

theorem RollsBack.last {previous : List ResourceSpec} {t : Scene W}
    (h : RollsBack sha256 R desired false s₀ previous t) :
    s₀.ledger.lastHealthyDesired = .ok (some previous) := by
  obtain ⟨attempts,plan,s,hhead,hfailed,hlast,_⟩ := h
  have hsame : SameHealthy s t := by
    have hkeeps := keeps_passes sha256 R (allows_sameHealthy sha256) plan false s
    rwa [hfailed] at hkeeps
  rw [← hlast,lastHealthyDesired_congr hsame,lastHealthyDesired_congr hhead.sameHealthy]

/-- Without approval, what needs it is done by a rollback only: after an attempt that failed and was
not the last one, towards the state that the ledger named as healthy before the call. -/
theorem applied_by_rollback (sha256 : List Char → Digest) (R : Runtime W)
    (desired : List ResourceSpec) (s : Scene W) {i : Nat} {c : Change} {ok : Bool}
    (hi : s.calls.length ≤ i)
    (hcall : (R.reconcile sha256 desired false s).2.calls[i]? = some (.apply c,ok))
    (hneeds : R.NeedsApproval c) :
    ∃ previous t, s.ledger.lastHealthyDesired = .ok (some previous) ∧
      RollsBack sha256 R desired false s previous t ∧ t.calls.length ≤ i ∧
      i < (R.rollback sha256 previous t).2.calls.length ∧
      (R.rollback sha256 previous t).2.calls <+: (R.reconcile sha256 desired false s).2.calls := by
  obtain ⟨previous,t,hback,hle,hlt,hinitial⟩ :=
    (accounted_reconcile sha256 R desired s).safe i c ok hi hcall hneeds
  exact ⟨previous,t,hback.last,hback,hle,hlt,hinitial⟩

end

end

def deletesAt (calls : List (Request × Bool)) (i : Nat) : Bool :=
  match calls[i]? with
  | some (.apply c,_) => c.action = .delete
  | _ => false

theorem delete_of_deletesAt {calls : List (Request × Bool)} {i : Nat}
    (h : deletesAt calls i = true) :
    ∃ c ok, calls[i]? = some (.apply c,ok) ∧ c.action = .delete := by
  unfold deletesAt at h
  split at h
  · rename_i c ok hcall
    exact ⟨c,ok,hcall,of_decide_eq_true h⟩
  · cases h

theorem poisoned_deleted : unpoisoned.calls.length ≤ 6 ∧ ∃ c ok,
    ((Runtime.poisoned poison).reconcile Digest.ofChars (sized 1) false unpoisoned).2.calls[6]? =
      some (.apply c,ok) ∧ c.action = .delete := by
  have hdeletes : unpoisoned.calls.length ≤ 6 ∧ deletesAt poisonedCall.2.calls 6 = true := by
    decide +kernel
  obtain ⟨c,ok,hcall,hdelete⟩ := delete_of_deletesAt hdeletes.2
  unfold poisonedCall at hcall
  exact ⟨hdeletes.1,c,ok,hcall,hdelete⟩

theorem applied_by_rollback_poisoned : ∃ c ok previous t,
    ((Runtime.poisoned poison).reconcile Digest.ofChars (sized 1) false unpoisoned).2.calls[6]? =
      some (.apply c,ok) ∧ c.action = .delete ∧
    unpoisoned.ledger.lastHealthyDesired = .ok (some previous) ∧
    RollsBack Digest.ofChars (Runtime.poisoned poison) (sized 1) false unpoisoned previous t ∧
    t.calls.length ≤ 6 ∧
    6 < ((Runtime.poisoned poison).rollback Digest.ofChars previous t).2.calls.length ∧
    ((Runtime.poisoned poison).rollback Digest.ofChars previous t).2.calls <+:
      ((Runtime.poisoned poison).reconcile Digest.ofChars (sized 1) false unpoisoned).2.calls := by
  obtain ⟨hlength,c,ok,hcall,hdelete⟩ := poisoned_deleted
  obtain ⟨previous,t,hrest⟩ := applied_by_rollback Digest.ofChars (Runtime.poisoned poison)
    (sized 1) unpoisoned hlength hcall (.inl hdelete)
  exact ⟨c,ok,previous,t,hcall,hdelete,hrest⟩

/-- The rollback of an unapproved call deletes the resource. -/
theorem deletes_unapproved :
    ¬ ∀ i c ok, unpoisoned.calls.length ≤ i →
      ((Runtime.poisoned poison).reconcile Digest.ofChars (sized 1) false unpoisoned).2.calls[i]? =
        some (.apply c,ok) → ¬ (Runtime.poisoned poison).NeedsApproval c := by
  intro h
  obtain ⟨hlength,c,ok,hcall,hdelete⟩ := poisoned_deleted
  exact h 6 c ok hlength hcall (.inl hdelete)

end AgentCentric.Provider

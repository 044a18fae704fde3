import AgentCentric.Manager.Limit

namespace AgentCentric.Manager
open Proc (act alone_bind alone_caught)
open Machine (Reaches)

section
variable {W S : Type}

/-- No two readings of the clock are further apart than the limits of the task. -/
structure Generous (host : Host W S) (envelope : ResourceEnvelope) : Prop where
  overall : ∀ w w', exceeds (host.minus (host.monotonic w).1 (host.monotonic w').1)
    envelope.timeoutSeconds = false
  step : ∀ limit ∈ envelope.maxStepSeconds, ∀ w w',
    exceeds (host.minus (host.monotonic w).1 (host.monotonic w').1) limit = false

inductive Opened (host : Host W S) (registry : Registry) (task : TaskSpecification) (seq : Nat)
    (w : W) : Trail → Decimal → S → Run W → Prop where
  | intro {selector : Selector} {manifest : AgentComponentManifest} {start : Decimal}
      {s₁ s₂ s₃ s : Run W} {session : S} (hwork : task.work = .single selector)
      (hfound : registry.resolve selector = some manifest)
      (hclock : clock host (Run.start w) = (.ok start,s₁))
      (hbegun : storeBegin host s₁ = (.ok none,s₂))
      (haccepted : evaluateTaskPolicy host
        ⟨task.taskId,manifest.name,task.taskId ++ "#" ++ toString seq⟩ task s₂ = (.ok none,s₃))
      (hsession : (openSession host registry (singleExecution host task
        ⟨task.taskId,manifest.name,task.taskId ++ "#" ++ toString seq⟩ start)).alone s₃ =
          (.ok (.inr session),s)) :
      Opened host registry task seq w
        ⟨task.taskId,manifest.name,task.taskId ++ "#" ++ toString seq⟩ start session s

def policySteps (task : TaskSpecification) : Nat := if task.policy.isSome then 1 else 0

def agentSteps (task : TaskSpecification) (steps : List (StepRecord Value)) :
    List (StepRecord Value) :=
  (beforeCancelled steps).drop (policySteps task)

variable {host : Host W S} {registry : Registry} {task : TaskSpecification} {seq : Nat} {w : W}

theorem beforeCancelled_length (steps : List (StepRecord Value)) :
    (beforeCancelled steps).length ≤ steps.length :=
  (List.takeWhile_prefix _).length_le

/-- A run that ended before its agent had a session. -/
def Unopened (task : TaskSpecification) (result : Except Raised Outcome) (t : Run W) : Prop :=
  (beforeCancelled t.steps).length ≤ policySteps task ∧ ¬ StepLimited result

theorem Unrelated.unopened {task : TaskSpecification} {s : Run W}
    {result : Except Raised Outcome × Run W} (h : Unrelated s result)
    (hs : (beforeCancelled s.steps).length ≤ policySteps task) : Unopened task result.1 result.2 :=
  ⟨by rw [h.1]; exact hs,h.2⟩

theorem unopened_error {task : TaskSpecification} {t : Run W} (e : Raised)
    (ht : (beforeCancelled t.steps).length ≤ policySteps task) : Unopened task (.error e) t := by
  refine ⟨ht,?_⟩
  rintro ⟨outcome,houtcome,_⟩
  cases houtcome

def PolicyEnds (task : TaskSpecification) : Except Raised (Option Outcome) → Run W → Prop
  | .error e, t => Unopened task (.error e) t
  | .ok (some outcome), t => Unopened task (.ok outcome) t
  | .ok none, t => Fit t ∧ t.steps.length = policySteps task

theorem fit_start (w : W) : Fit (Run.start w) := ⟨rfl,rfl,by simp [Run.start]⟩

theorem failure_ends (host : Host W S) (trail : Trail) {reason : FailureReason}
    (hreason : reason ≠ .stepLimit) (message : String) {s : Run W}
    (hs : (beforeCancelled s.steps).length ≤ policySteps task) : PolicyEnds task
      ((do
        let outcome ← recordFailure host .caller trail reason message
        pure (some outcome) : Do W (Option Outcome)) s).1
      ((do
        let outcome ← recordFailure host .caller trail reason message
        pure (some outcome) : Do W (Option Outcome)) s).2 := by
  have hunopened := (recordFailure_unrelated host .caller trail hreason message s).unopened hs
  rw [Act.bind_apply]
  generalize recordFailure host .caller trail reason message s = r at hunopened
  obtain ⟨result,t⟩ := r
  cases result with
  | error e => exact hunopened
  | ok outcome => exact hunopened

theorem evaluateTaskPolicy_ends (host : Host W S) (trail : Trail) (task : TaskSpecification)
    (w : W) : PolicyEnds task (evaluateTaskPolicy host trail task (Run.start w)).1
      (evaluateTaskPolicy host trail task (Run.start w)).2 := by
  unfold evaluateTaskPolicy
  cases hpolicy : task.policy with
  | none => exact ⟨fit_start w,by simp [policySteps,hpolicy,Run.start]⟩
  | some policy =>
    have hone : policySteps task = 1 := by simp [policySteps,hpolicy]
    cases hviolation : task.violation policy with
    | some message =>
      simp only [hviolation]
      rcases appendStep_cases host .caller (policyRejected message) (Run.start w) with
        ⟨w',_,hrun⟩ | ⟨result,t,_,hrun,hne,hsteps⟩
      · have hends : PolicyEnds task _ _ := failure_ends host trail
          (show FailureReason.policyViolation ≠ .stepLimit by simp) message
          (s := { Run.start w with
            world := w'
            steps := [numbered 0 (policyRejected message)]
            log := [.step (numbered 0 (policyRejected message))] })
          (by rw [hone]; exact beforeCancelled_length _)
        rw [Act.bind_apply] at hends ⊢
        rw [policyViolation,Act.bind_ok hrun]
        exact hends
      · have hlength : (beforeCancelled t.steps).length ≤ policySteps task := by
          rw [hone,hsteps]
          exact beforeCancelled_length _
        cases result with
        | error e =>
          rw [Act.bind_apply,policyViolation,Act.bind_error hrun]
          exact unopened_error e hlength
        | ok refused =>
          cases refused with
          | none => exact absurd rfl hne
          | some text =>
            have hends := failure_ends host trail (show FailureReason.internal ≠ .stepLimit by simp)
              "Failed to persist policy rejection step." hlength
            rw [Act.bind_apply] at hends ⊢
            rw [policyViolation,Act.bind_ok hrun]
            exact hends
    | none =>
      simp only [hviolation]
      rcases appendStep_cases host .caller (policyAccepted (task.constraints policy))
          (Run.start w) with ⟨w',_,hrun⟩ | ⟨result,t,_,hrun,hne,hsteps⟩
      · rw [Act.bind_ok hrun]
        exact ⟨(fit_start w).stored w' (by simp [policyAccepted]),by rw [hone]; rfl⟩
      · have hlength : (beforeCancelled t.steps).length ≤ policySteps task := by
          rw [hone,hsteps]
          exact beforeCancelled_length _
        cases result with
        | error e =>
          rw [Act.bind_error hrun]
          exact unopened_error e hlength
        | ok refused =>
          rw [Act.bind_ok hrun]
          cases refused with
          | none => exact absurd rfl hne
          | some text => exact failure_ends host trail (by simp) _ hlength

def SessionEnds (task : TaskSpecification) : Except Raised (Outcome ⊕ S) → Run W → Prop
  | .error e, t => Unopened task (.error e) t
  | .ok (.inl outcome), t => Unopened task (.ok outcome) t
  | .ok (.inr _), t => Fit t ∧ t.steps.length = policySteps task

theorem noSession_ends (host : Host W S) (place : Place) (trail : Trail) {reason : FailureReason}
    (hreason : reason ≠ .stepLimit) (message : String) {s : Run W}
    (hs : (beforeCancelled s.steps).length ≤ policySteps task) : @SessionEnds W S task
      ((do
        let failure ← act (recordFailure host place trail reason message)
        pure (.inl failure) : Task W (Outcome ⊕ S)).alone s).1
      ((do
        let failure ← act (recordFailure host place trail reason message)
        pure (.inl failure) : Task W (Outcome ⊕ S)).alone s).2 := by
  have hunopened := (recordFailure_unrelated host place trail hreason message s).unopened hs
  rw [alone_bind,Act.bind_apply,show (act (recordFailure host place trail reason message) :
    Task W Outcome).alone s = recordFailure host place trail reason message s from rfl]
  generalize recordFailure host place trail reason message s = r at hunopened
  obtain ⟨result,t⟩ := r
  cases result with
  | error e => exact hunopened
  | ok outcome => exact hunopened

theorem openSession_ends (host : Host W S) (registry : Registry) (task : TaskSpecification)
    (trail : Trail) (start : Decimal) {s : Run W} (hs : Fit s)
    (hlength : s.steps.length = policySteps task) : SessionEnds task
      ((openSession host registry (singleExecution host task trail start)).alone s).1
      ((openSession host registry (singleExecution host task trail start)).alone s).2 := by
  have hle : (beforeCancelled s.steps).length ≤ policySteps task :=
    Nat.le_trans (beforeCancelled_length _) (by omega)
  let x := singleExecution host task trail start
  have hcaught : ∀ m : Task W (Outcome ⊕ S), SessionEnds task (m.alone s).1 (m.alone s).2 →
      SessionEnds task
        ((exceptOrdinary m fun text => do
          let failure ← act (recordFailure host x.outer x.trail .internal
            ("Failed to start agent: " ++ text))
          pure (.inl failure)).alone s).1
        ((exceptOrdinary m fun text => do
          let failure ← act (recordFailure host x.outer x.trail .internal
            ("Failed to start agent: " ++ text))
          pure (.inl failure)).alone s).2 := by
    intro m hm
    rw [exceptOrdinary,alone_caught,Act.caught]
    generalize m.alone s = r at hm
    obtain ⟨result,t⟩ := r
    cases result with
    | ok opened => exact hm
    | error e =>
      by_cases hordinary : e.ordinary = true
      · simp only [hordinary,if_true]
        exact noSession_ends host _ _ (by simp) _ hm.1
      · simp only [hordinary]
        exact hm
  refine hcaught _ ?_
  rw [show (singleExecution host task trail start).trail.agentName = trail.agentName from rfl]
  cases registry.getByName trail.agentName with
  | none => exact noSession_ends host _ _ (by simp) _ hle
  | some manifest =>
    let m : Task W (Outcome ⊕ S) := do
      let session ← act (startSession host (singleExecution host task trail start) manifest)
      pure (.inr session)
    show SessionEnds task (m.alone s).1 (m.alone s).2
    rw [alone_bind]
    obtain ⟨w,⟨session,hrun⟩ | ⟨e,hrun⟩⟩ :=
      startSession_cases host (singleExecution host task trail start) manifest s
    · rw [Act.bind_ok (show (act (startSession host (singleExecution host task trail start)
        manifest) : Task W S).alone s = _ from hrun)]
      exact ⟨hs.same rfl rfl,hlength⟩
    · rw [Act.bind_error (show (act (startSession host (singleExecution host task trail start)
        manifest) : Task W S).alone s = _ from hrun)]
      exact unopened_error e hle

theorem unopened_ok {t : Run W} {outcome : Outcome}
    (ht : (beforeCancelled t.steps).length ≤ policySteps task)
    (hreason : outcome.decision.reason ≠ some .stepLimit) : Unopened task (.ok outcome) t := by
  refine ⟨ht,?_⟩
  rintro ⟨found,hfound,hlimit⟩
  cases hfound
  exact hreason hlimit

theorem unknown_unopened (host : Host W S) (task : TaskSpecification) (trajectoryId : String)
    (w : W) : Unopened task (runUnknownAgent host task trajectoryId (Run.start w)).1
      (runUnknownAgent host task trajectoryId (Run.start w)).2 := by
  have hnone : ∀ u : Run W, u.steps = [] → (beforeCancelled u.steps).length ≤ policySteps task := by
    intro u hu
    rw [hu]
    exact Nat.zero_le _
  unfold runUnknownAgent
  obtain ⟨w',⟨refused,hrun⟩ | ⟨e,hrun⟩⟩ := storeBegin_cases host (Run.start w)
  · rw [Act.bind_ok hrun]
    cases refused with
    | some text => exact unopened_ok (hnone _ rfl) (by simp [buildInternalFailure,Decision.reason])
    | none =>
      obtain ⟨w'',⟨_,hstore⟩ | ⟨text,hstore⟩ | ⟨e,hstore⟩⟩ := storeOutcome_cases host .caller
        ⟨task.taskId,task.work.agentName,trajectoryId⟩
        (Decision.failure .unknownAgent (unknownMessage task)).stored
        { Run.start w with world := w' }
      all_goals simp only []
      · rw [Act.bind_ok hstore]
        exact unopened_ok (hnone _ rfl) (by simp [Decision.reason])
      · rw [Act.bind_ok hstore]
        exact unopened_ok (hnone _ rfl) (by simp [buildInternalFailure,Decision.reason])
      · rw [Act.bind_error hstore]
        exact unopened_error e (hnone _ rfl)
  · rw [Act.bind_error hrun]
    exact unopened_error e (hnone _ rfl)

def afterSession (host : Host W S) (task : TaskSpecification) (trail : Trail) (start : Decimal) :
    Except Raised (Outcome ⊕ S) × Run W → Except Raised Outcome × Run W
  | (.ok (.inr session),s) => conclusion host task trail start session s
  | (.ok (.inl outcome),s) => (.ok outcome,s)
  | (.error e,s) => (.error e,s)

theorem runAgent_session (host : Host W S) (registry : Registry) (task : TaskSpecification)
    (trail : Trail) (start : Decimal) (t : Run W) :
    (do
      let ended ← runAgent host registry (singleExecution host task trail start)
      certify host trail ended : Do W Outcome) t = afterSession host task trail start
      ((openSession host registry (singleExecution host task trail start)).alone t) := by
  let x := singleExecution host task trail start
  rw [Act.bind_apply]
  unfold runAgent executeAgent
  rw [alone_bind,Act.bind_apply]
  generalize (openSession host registry x).alone t = r
  obtain ⟨result,u⟩ := r
  cases result with
  | error e => rfl
  | ok opened =>
    cases opened with
    | inl failure => rfl
    | inr session =>
      simp only [afterSession,conclusion,alone_bind,Act.bind_apply]
      generalize (drive host x session).alone u = r
      obtain ⟨result,v⟩ := r
      cases result with
      | error e => rfl
      | ok ended =>
        cases ended with
        | failed failure => rfl
        | finished output => rfl

theorem run_cases (host : Host W S) (registry : Registry) {task : TaskSpecification}
    {selector : Selector} (hwork : task.work = .single selector) (seq : Nat) (w : W) :
    (∃ trail start session s, Opened host registry task seq w trail start session s ∧
      Fit s ∧ s.steps.length = policySteps task ∧ (∃ w', start = (host.monotonic w').1) ∧
      run host registry task seq (Run.start w) = conclusion host task trail start session s) ∨
    ((∀ trail start session s, ¬ Opened host registry task seq w trail start session s) ∧
      Unopened task (run host registry task seq (Run.start w)).1
        (run host registry task seq (Run.start w)).2) := by
  have hrunning : run host registry task seq (Run.start w) =
      runSingle host registry task selector (task.taskId ++ "#" ++ toString seq)
        (Run.start w) := by
    simp only [run,hwork]
  rw [hrunning]
  unfold runSingle
  cases hfound : registry.resolve selector with
  | none =>
    refine .inr ⟨fun trail start session s hopened => ?_,unknown_unopened host task _ w⟩
    obtain ⟨hwork',hfound',_,_,_,_⟩ := hopened
    cases hwork.symm.trans hwork'
    cases hfound.symm.trans hfound'
  | some manifest =>
    have hclock : clock host (Run.start w) =
        (.ok (host.monotonic w).1,Run.start (host.monotonic w).2) := rfl
    simp only []
    rw [Act.bind_ok hclock,governed]
    obtain ⟨w',⟨refused,hbegun⟩ | ⟨e,hbegun⟩⟩ :=
      storeBegin_cases host (Run.start (host.monotonic w).2)
    · have hends := evaluateTaskPolicy_ends host
        ⟨task.taskId,manifest.name,task.taskId ++ "#" ++ toString seq⟩ task w'
      rw [Act.bind_ok hbegun]
      cases refused with
      | some text =>
        refine .inr ⟨fun trail start session s hopened => ?_,
          unopened_ok (Nat.zero_le _) (by simp [buildInternalFailure,Decision.reason])⟩
        obtain ⟨hwork',hfound',hclock',hbegun',_,_⟩ := hopened
        cases hwork.symm.trans hwork'
        cases hfound.symm.trans hfound'
        cases hclock.symm.trans hclock'
        cases hbegun.symm.trans hbegun'
      | none =>
        have hrest := runAgent_session host registry task
          ⟨task.taskId,manifest.name,task.taskId ++ "#" ++ toString seq⟩ (host.monotonic w).1
        simp only []
        rw [Act.bind_apply]
        change PolicyEnds task (evaluateTaskPolicy host _ task { Run.start (host.monotonic w).2 with
          world := w' }).1 (evaluateTaskPolicy host _ task { Run.start (host.monotonic w).2 with
          world := w' }).2 at hends
        cases haccepted : evaluateTaskPolicy host
            ⟨task.taskId,manifest.name,task.taskId ++ "#" ++ toString seq⟩ task
            { Run.start (host.monotonic w).2 with world := w' } with
        | mk result t =>
          rw [haccepted] at hends
          have hnever : result ≠ .ok none → ∀ trail start session s,
              ¬ Opened host registry task seq w trail start session s := by
            rintro hresult trail start session s ⟨hwork',hfound',hclock',hbegun',haccepted',_⟩
            cases hwork.symm.trans hwork'
            cases hfound.symm.trans hfound'
            cases hclock.symm.trans hclock'
            cases hbegun.symm.trans hbegun'
            cases haccepted.symm.trans haccepted'
            exact hresult rfl
          cases result with
          | error e => exact .inr ⟨hnever (by simp),hends⟩
          | ok found =>
            cases found with
            | some outcome => exact .inr ⟨hnever (by simp),hends⟩
            | none =>
              obtain ⟨hfit,hlength⟩ := hends
              have hsession := openSession_ends host registry task
                ⟨task.taskId,manifest.name,task.taskId ++ "#" ++ toString seq⟩
                (host.monotonic w).1 hfit hlength
              simp only []
              rw [hrest t]
              cases hopen : (openSession host registry (singleExecution host task
                  ⟨task.taskId,manifest.name,task.taskId ++ "#" ++ toString seq⟩
                  (host.monotonic w).1)).alone t with
              | mk opened s =>
                rw [hopen] at hsession
                have hunheld : (∀ session, opened ≠ .ok (.inr session)) →
                    ∀ trail start session s,
                      ¬ Opened host registry task seq w trail start session s := by
                  rintro hopened trail start session s
                    ⟨hwork',hfound',hclock',hbegun',haccepted',hsession'⟩
                  cases hwork.symm.trans hwork'
                  cases hfound.symm.trans hfound'
                  cases hclock.symm.trans hclock'
                  cases hbegun.symm.trans hbegun'
                  cases haccepted.symm.trans haccepted'
                  cases hopen.symm.trans hsession'
                  exact hopened _ rfl
                cases opened with
                | error e => exact .inr ⟨hunheld (by simp),hsession⟩
                | ok held =>
                  cases held with
                  | inl outcome => exact .inr ⟨hunheld (by simp),hsession⟩
                  | inr session =>
                    exact .inl ⟨_,_,session,s,⟨hwork,hfound,hclock,hbegun,haccepted,hopen⟩,
                      hsession.1,hsession.2,⟨w,rfl⟩,rfl⟩
    · rw [Act.bind_error hbegun]
      refine .inr ⟨fun trail start session s hopened => ?_,unopened_error e (Nat.zero_le _)⟩
      obtain ⟨hwork',hfound',hclock',hbegun',_,_⟩ := hopened
      cases hwork.symm.trans hwork'
      cases hfound.symm.trans hfound'
      cases hclock.symm.trans hclock'
      cases hbegun.symm.trans hbegun'

theorem Opened.unique {trail trail' : Trail} {start start' : Decimal} {session session' : S}
    {s s' : Run W} (h : Opened host registry task seq w trail start session s)
    (h' : Opened host registry task seq w trail' start' session' s') :
    trail = trail' ∧ start = start' ∧ session = session' ∧ s = s' := by
  obtain ⟨hwork,hfound,hclock,hbegun,haccepted,hsession⟩ := h
  obtain ⟨hwork',hfound',hclock',hbegun',haccepted',hsession'⟩ := h'
  cases hwork.symm.trans hwork'
  cases hfound.symm.trans hfound'
  cases hclock.symm.trans hclock'
  cases hbegun.symm.trans hbegun'
  cases haccepted.symm.trans haccepted'
  cases hsession.symm.trans hsession'
  exact ⟨rfl,rfl,rfl,rfl⟩

/-- Left alone, the agent of the task takes more agent and tool steps than `max_steps`. -/
def TaskNeedsMore (host : Host W S) (registry : Registry) (task : TaskSpecification) (seq : Nat)
    (w : W) : Prop :=
  ∃ trail start session s, Opened host registry task seq w trail start session s ∧
    NeedsMore host (singleExecution host task trail start) session ⟨0,none,s⟩
      task.envelope.maxSteps

theorem unhurried_of_generous (h : Generous host task.envelope) (trail : Trail) {start : Decimal}
    (hstart : ∃ w', start = (host.monotonic w').1) :
    Unhurried host (singleExecution host task trail start) := by
  obtain ⟨w',rfl⟩ := hstart
  exact ⟨rfl,rfl,fun w => h.overall w w',h.step⟩

/-- A run fails for its budget where its agent needs more steps, and no more are recorded, if and
only if the agent meets the budget where it is used up. -/
theorem run_step_limit_iff (host : Host W S) (registry : Registry) {task : TaskSpecification}
    {selector : Selector} (hwork : task.work = .single selector)
    (hclock : Generous host task.envelope) (seq : Nat) (w : W) :
    ((StepLimited (run host registry task seq (Run.start w)).1 ↔
        TaskNeedsMore host registry task seq w) ∧
      (agentSteps task (run host registry task seq (Run.start w)).2.steps).length ≤
        task.envelope.maxSteps) ↔
    ∀ trail start session s, Opened host registry task seq w trail start session s →
      MeetsBudget host (singleExecution host task trail start) session ⟨0,none,s⟩
        task.envelope.maxSteps := by
  rcases run_cases host registry hwork seq w with
    ⟨trail,start,session,s,hopened,hfit,hlength,hstart,hrun⟩ | ⟨hnever,hcount,hunlimited⟩
  · have hunhurried := unhurried_of_generous hclock trail hstart
    have hcounted : Counted s.steps.length (⟨0,none,s⟩ : Head W) := ⟨hfit,rfl⟩
    obtain ⟨hsteps,hlimited⟩ := conclusion_limited host task trail start session s
    have hneeds : TaskNeedsMore host registry task seq w ↔
        NeedsMore host (singleExecution host task trail start) session ⟨0,none,s⟩
          task.envelope.maxSteps := by
      constructor
      · rintro ⟨trail',start',session',s',hopened',hmore⟩
        obtain ⟨rfl,rfl,rfl,rfl⟩ := hopened.unique hopened'
        exact hmore
      · intro hmore
        exact ⟨trail,start,session,s,hopened,hmore⟩
    have hcount : (agentSteps task (run host registry task seq (Run.start w)).2.steps).length ≤
        task.envelope.maxSteps ↔
        (beforeCancelled (loopFrom host (singleExecution host task trail start) session
          task.envelope.maxSteps ⟨0,none,s⟩).2.steps).length ≤
            s.steps.length + task.envelope.maxSteps := by
      rw [agentSteps,List.length_drop,hrun,hsteps,hlength]
      omega
    rw [hcount,hneeds,hrun,hlimited,
      loop_meetsBudget_iff hunhurried hcounted task.envelope.steps_pos]
    constructor
    · intro hmeets trail' start' session' s' hopened'
      obtain ⟨rfl,rfl,rfl,rfl⟩ := hopened.unique hopened'
      exact hmeets
    · intro hall
      exact hall trail start session s hopened
  · refine iff_of_true ⟨iff_of_false hunlimited ?_,?_⟩ fun trail start session s hopened => ?_
    · rintro ⟨trail,start,session,s,hopened,_⟩
      exact hnever trail start session s hopened
    · rw [agentSteps,List.length_drop]
      omega
    · exact absurd hopened (hnever trail start session s)

end

/-- An agent that goes on and on. -/
theorem run_step_limit_steps :
    (StepLimited (run (sameHost (.step "work" .none)) (.ofNames ["echo"]) oneAgent 0
        (Run.start ())).1 ↔
      TaskNeedsMore (sameHost (.step "work" .none)) (.ofNames ["echo"]) oneAgent 0 ()) ∧
    (agentSteps oneAgent (run (sameHost (.step "work" .none)) (.ofNames ["echo"]) oneAgent 0
      (Run.start ())).2.steps).length ≤ 100 := by
  have hclock : Generous (sameHost (.step "work" .none)) oneAgent.envelope := by
    refine ⟨fun _ _ => ?_,by simp [oneAgent,TaskSpecification.plain,defaultEnvelope]⟩
    show exceeds zeroSeconds oneAgent.envelope.timeoutSeconds = false
    decide +kernel
  refine (@run_step_limit_iff Unit String (sameHost (.step "work" .none)) (.ofNames ["echo"])
    oneAgent (.agentName "echo") rfl hclock 0 ()).2
    fun trail start session s _ => ⟨fun q _ _ => ?_,fun q _ _ => ?_⟩
  · show 1 ≠ 2
    omega
  · show true = true ↔ 0 < 1
    simp

def oneStep : ResourceEnvelope :=
  ⟨defaultEnvelope.timeoutSeconds,1,none,defaultEnvelope.timeout_pos,Nat.one_pos,
    defaultEnvelope.step_pos⟩

def onceHost : Host Bool String where
  monotonic w := (zeroSeconds,w)
  minus _ _ := zeroSeconds
  session manifest _ _ _ _ w := (.ok manifest.name,w)
  nextStep _ _ w := (.item (if w then .result .none else .step "work" .none),true)
  cancel _ _ w := w
  close _ w := w
  forced _ _ := false
  describes _ := true
  execute _ _ w := (.output .none,w)
  verify _ _ _ := .ok ⟨true,""⟩
  begin w := (.stored,w)
  append _ w := (.stored,w)
  record _ w := (.stored,w)
  picks _ := []

def oneStepTask : TaskSpecification := { oneAgent with envelope := oneStep }

def oneStepStart : Run Bool :=
  { Run.start false with trace := [.started ⟨0,none⟩ "echo" .none []] }

def oneStepTrail : Trail := ⟨"t","echo","t#0"⟩

def oneStepExecution : Execution := singleExecution onceHost oneStepTask oneStepTrail zeroSeconds

def oneStepTaken : Head Bool :=
  ⟨1,none,{ oneStepStart with
    world := true
    steps := [⟨0,.completed,"work",.none,.none,none,zeroSeconds⟩]
    log := [.step ⟨0,.completed,"work",.none,.none,none,zeroSeconds⟩]
    trace := [.started ⟨0,none⟩ "echo" .none [],.boundary ⟨0,none⟩ false,.stepped ⟨0,none⟩] }⟩

theorem oneStep_opened : Opened onceHost (.ofNames ["echo"]) oneStepTask 0 false oneStepTrail
    zeroSeconds "echo" oneStepStart := by
  refine @Opened.intro Bool String onceHost (.ofNames ["echo"]) oneStepTask 0 false
    (.agentName "echo") ⟨"echo","agents:echo",[]⟩ zeroSeconds (Run.start false) (Run.start false)
    (Run.start false) oneStepStart "echo" rfl ?_ rfl rfl rfl ?_
  · rfl
  · rfl

theorem oneStep_generous : Generous onceHost oneStepTask.envelope := by
  refine ⟨fun _ _ => ?_,by simp [oneStepTask,oneStep]⟩
  show exceeds zeroSeconds oneStep.timeoutSeconds = false
  decide +kernel

theorem oneStep_unhurried : Unhurried onceHost oneStepExecution :=
  unhurried_of_generous oneStep_generous oneStepTrail ⟨false,rfl⟩

theorem oneStep_next :
    leftAlone onceHost oneStepExecution "echo" ⟨0,none,oneStepStart⟩ = .next oneStepTaken := by
  have hpass : (pass onceHost oneStepExecution "echo" 0 none).alone oneStepStart =
      (.ok (.went 1 none),oneStepTaken.state) := by
    rw [pass,alone_bind,Act.bind_ok (checks_run oneStep_unhurried oneStepStart)]
    rfl
  rw [leftAlone,hpass]
  rfl

theorem once_spends (q : Head Bool) : q.spends onceHost oneStepExecution "echo" ≠ 2 := by
  obtain ⟨taken,sent,s⟩ := q
  simp only [Head.spends,Head.answer,onceHost]
  cases s.world with
  | true => simp
  | false => simp

def reasonOf : Except Raised Outcome → Option FailureReason
  | .ok outcome => outcome.decision.reason
  | .error _ => none

theorem stepLimited_of_reason {result : Except Raised Outcome}
    (h : reasonOf result = some .stepLimit) : StepLimited result := by
  cases result with
  | ok outcome => exact ⟨outcome,rfl,h⟩
  | error e => cases h

/-- One step is all that the agent takes, and all that it may take. -/
theorem used_up_fails : ¬ ((StepLimited (run onceHost (.ofNames ["echo"]) oneStepTask 0
        (Run.start false)).1 ↔ TaskNeedsMore onceHost (.ofNames ["echo"]) oneStepTask 0 false) ∧
      (agentSteps oneStepTask (run onceHost (.ofNames ["echo"]) oneStepTask 0
        (Run.start false)).2.steps).length ≤ oneStepTask.envelope.maxSteps) := by
  rintro ⟨hlimited,_⟩
  obtain ⟨trail,start,session,s,hopened,hmore⟩ := hlimited.1 (stepLimited_of_reason
    (by decide +kernel))
  obtain ⟨rfl,rfl,rfl,rfl⟩ := oneStep_opened.unique hopened
  have hcounted : Counted oneStepStart.steps.length (⟨0,none,oneStepStart⟩ : Head Bool) :=
    ⟨(fit_start false).same rfl rfl,rfl⟩
  have hneeds := (needsMore_iff oneStep_unhurried hcounted (.single oneStep_next) rfl
    fun q _ _ => once_spends q).1 hmore
  cases hneeds

/-- A request and its result, where one step is allowed. -/
example : (agentSteps oneStepTask (run (sameHost (.request "tool" [])) (.ofNames ["echo"])
    { oneStepTask with grantedTools := ["tool"] } 0 (Run.start ())).2.steps).length = 2 := by
  decide +kernel

end AgentCentric.Manager

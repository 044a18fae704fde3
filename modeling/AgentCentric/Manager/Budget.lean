import AgentCentric.Library.Lockstep
import AgentCentric.Library.Machine
import AgentCentric.Manager.Audit

namespace AgentCentric.Manager
open Proc (act bind_assoc alone_bind alone_caught)
open Machine (Reaches Halts)

def Decision.reason : Decision → Option FailureReason
  | .verified _ => none
  | .failure reason _ => some reason

def Failed.reason : (stageWorker : Bool) → Failed stageWorker → Option FailureReason
  | false, outcome => outcome.decision.reason
  | true, failure => some (StageFailure.reason failure)

def LoopEnd.reason {stageWorker : Bool} : LoopEnd stageWorker → Option FailureReason
  | .finished _ => none
  | .failed failure => Failed.reason stageWorker failure

/-- The agent is about to be asked, after it took some steps. -/
structure Head (W : Type) where
  taken : Nat
  sent : Option ToolResult
  state : Run W

/-- One pass ended the loop, or it goes on after that many steps. -/
inductive Passed (stageWorker : Bool) where
  | ended : LoopEnd stageWorker → Passed stageWorker
  | went : Nat → Option ToolResult → Passed stageWorker

variable {reason : FailureReason} {k : Nat}

section
variable {W S : Type} (host : Host W S)

def passItem (x : Execution) (session : S) (stageStep : Nat) :
    Item → Decimal → Task W (Passed x.stageWorker)
  | .step description detail, elapsed => do
    let index ← act stepCount
    let outcome ← persistStep host x index description detail elapsed
    match outcome with
    | some outcome => pure (.ended (.failed (unpersisted outcome x.stageWorker)))
    | none => pure (.went 1 none)
  | .request name args, _ => do
    let delivery ← mediateTool host x name args
    match delivery with
    | none => do
      let failure ← fail host x x.inner session .internal
        "Tool mediation could not be durably recorded."
      pure (.ended (.failed failure))
    | some delivery => pure (.went delivery.consumed (some delivery.toolResult))
  | _, _ => do
    let failure ← fail host x x.inner session .agentError
      ("Agent yielded an unsupported value at step " ++ toString stageStep ++ ".")
    pure (.ended (.failed failure))

def passNext (x : Execution) (session : S) (stageStep : Nat) (stepStart : Decimal) :
    NextStep → Task W (Passed x.stageWorker)
  | .raised r => act (raising x.inner r)
  | .subprocessTimeout text => do
    let ended ← cancelled host x session .timeout
      ("Agent subprocess did not respond within the envelope timeout: " ++ text)
    pure (.ended ended)
  | .agentExecution text => do
    let failure ← fail host x x.inner session .agentError ("Agent execution failed: " ++ text)
    pure (.ended (.failed failure))
  | .item (.result output) => pure (.ended (.finished output))
  | .item item => do
    let elapsed ← act (elapsedSince host stepStart)
    match overStepBudget x elapsed with
    | some limit => do
      let ended ← cancelled host x session .timeout ("Step " ++ toString stageStep ++
        " exceeded per-step budget of " ++ Value.seconds limit ++ "s.")
      pure (.ended ended)
    | none => passItem host x session stageStep item elapsed

def pass (x : Execution) (session : S) (stageStep : Nat) (sent : Option ToolResult) :
    Task W (Passed x.stageWorker) := do
  let stop ← firstOf (checks host x)
  match stop with
  | some stop => do
    let ended ← cancelled host x session stop.reason stop.message
    pure (.ended ended)
  | none => do
    let stepStart ← act (clock host)
    let next ← act (takeStep host x session sent)
    passNext host x session stageStep stepStart next

def leftAlone (x : Execution) (session : S) (p : Head W) :
    Machine.Outcome (Head W) (Except Raised (LoopEnd x.stageWorker)) :=
  match (pass host x session p.taken p.sent).alone p.state with
  | (.ok (.went n sent),t) => .next ⟨p.taken + n,sent,t⟩
  | (.ok (.ended ended),t) => .halt (.ok ended) { p with state := t }
  | (.error e,t) => .halt (.error e) { p with state := t }

def resume {stageWorker : Bool} (one two : Option ToolResult → Task W (LoopEnd stageWorker)) :
    Passed stageWorker → Task W (LoopEnd stageWorker)
  | .ended ended => pure ended
  | .went n sent => if n = 1 then one sent else two sent

section
variable {x : Execution} {session : S} {stageStep : Nat} {sent : Option ToolResult}
  {one two : Option ToolResult → Task W (LoopEnd x.stageWorker)}

theorem handleItem_eq (item : Item) (elapsed : Decimal) :
    handleItem host x session stageStep one two item elapsed =
      passItem host x session stageStep item elapsed >>= resume one two := by
  cases item with
  | step description detail =>
    simp only [handleItem,passItem,bind_assoc]
    refine congrArg _ (funext fun index => congrArg _ (funext fun outcome => ?_))
    cases outcome with
    | some outcome => rfl
    | none => rfl
  | request name args =>
    simp only [handleItem,passItem,bind_assoc]
    refine congrArg _ (funext fun delivery => ?_)
    cases delivery with
    | none =>
      simp only [bind_assoc]
      rfl
    | some delivery => rfl
  | result output =>
    simp only [handleItem,passItem,bind_assoc]
    rfl
  | unsupported =>
    simp only [handleItem,passItem,bind_assoc]
    rfl

theorem turn_pass : turn host x session stageStep sent one two =
      pass host x session stageStep sent >>= resume one two := by
  simp only [turn,pass,bind_assoc]
  refine congrArg _ (funext fun stop => ?_)
  cases stop with
  | some stop =>
    simp only [cancelled,bind_assoc]
    rfl
  | none =>
    simp only [bind_assoc]
    refine congrArg _ (funext fun stepStart => congrArg _ (funext fun next => ?_))
    have hitem : ∀ item : Item, (do
        let elapsed ← act (elapsedSince host stepStart)
        match overStepBudget x elapsed with
        | some limit =>
          cancelled host x session .timeout ("Step " ++ toString stageStep ++
            " exceeded per-step budget of " ++ Value.seconds limit ++ "s.")
        | none => handleItem host x session stageStep one two item elapsed) =
        (do
        let elapsed ← act (elapsedSince host stepStart)
        match overStepBudget x elapsed with
        | some limit => do
          let ended ← cancelled host x session .timeout ("Step " ++ toString stageStep ++
            " exceeded per-step budget of " ++ Value.seconds limit ++ "s.")
          pure (.ended ended)
        | none => passItem host x session stageStep item elapsed) >>= resume one two := by
      intro item
      rw [bind_assoc]
      refine congrArg _ (funext fun elapsed => ?_)
      cases overStepBudget x elapsed with
      | some limit =>
        simp only [cancelled,bind_assoc]
        rfl
      | none => exact handleItem_eq host item elapsed
    cases next with
    | raised r => rfl
    | subprocessTimeout text =>
      simp only [passNext,cancelled,bind_assoc]
      rfl
    | agentExecution text =>
      simp only [passNext,bind_assoc]
      rfl
    | item item =>
      cases item with
      | result output => rfl
      | step description detail => exact hitem _
      | request name args => exact hitem _
      | unsupported => exact hitem _

end

def loopFrom (x : Execution) (session : S) (budget : Nat) (p : Head W) :
    Except Raised (LoopEnd x.stageWorker) × Run W :=
  (loop host x session (budget - p.taken) p.taken p.sent).alone p.state

section
variable {host} {x : Execution} {session : S} {budget : Nat} {p q : Head W}

theorem loopFrom_eq (hp : p.taken < budget) : loopFrom host x session budget p =
    ((pass host x session p.taken p.sent).alone >>= fun passed =>
      (resume (loop host x session (budget - (p.taken + 1)) (p.taken + 1))
        (loop host x session (budget - (p.taken + 2)) (p.taken + 2)) passed).alone) p.state := by
  have hloop : loop host x session (budget - p.taken) p.taken p.sent =
      turn host x session p.taken p.sent
        (loop host x session (budget - (p.taken + 1)) (p.taken + 1))
        (loop host x session (budget - (p.taken + 2)) (p.taken + 2)) := by
    obtain ⟨left,hleft⟩ : ∃ left, budget - p.taken = left + 1 :=
      ⟨budget - p.taken - 1,by omega⟩
    have hone : budget - (p.taken + 1) = left := by omega
    have htwo : budget - (p.taken + 2) = left - 1 := by omega
    rw [hleft,hone,htwo]
    cases left with
    | zero => rfl
    | succ left => rfl
  rw [loopFrom,hloop,turn_pass,alone_bind]

end

def beforeCancelled (steps : List (StepRecord Value)) : List (StepRecord Value) :=
  steps.takeWhile fun step => step.status ≠ .cancelled

/-- Nothing was cancelled yet, and no outcome is recorded. -/
structure Fit (s : Run W) : Prop where
  ordered : indexError 0 s.steps = none
  free : s.log.any (·.isOutcome) = false
  going : ∀ step ∈ s.steps, step.status ≠ .cancelled

theorem beforeCancelled_append (steps : List (StepRecord Value))
    {extra : List (StepRecord Value)} (hextra : ∀ step ∈ extra, step.status = .cancelled) :
    beforeCancelled (steps ++ extra) = beforeCancelled steps := by
  induction steps with
  | nil =>
    cases extra with
    | nil => rfl
    | cons step extra => simp [beforeCancelled,hextra step (by simp)]
  | cons step steps ih =>
    simp only [beforeCancelled] at ih ⊢
    rw [List.cons_append,List.takeWhile_cons,List.takeWhile_cons,ih]

theorem beforeCancelled_going {steps : List (StepRecord Value)}
    (hgoing : ∀ step ∈ steps, step.status ≠ .cancelled) : beforeCancelled steps = steps := by
  rw [beforeCancelled,List.takeWhile_eq_self_iff]
  intro step hstep
  simp [hgoing step hstep]

def numbered (index : Nat) (record : StepRecord Value) : StepRecord Value :=
  { record with stepIndex := index }

theorem appendStep_cases (place : Place) (record : StepRecord Value) (s : Run W) :
    (∃ w, host.append (numbered s.steps.length record) s.world = (.stored,w) ∧
      appendStep host place record s = (.ok none,{ s with
        world := w
        steps := s.steps ++ [numbered s.steps.length record]
        log := s.log ++ [.step (numbered s.steps.length record)] })) ∨
    ∃ result t, (∀ w, host.append (numbered s.steps.length record) s.world ≠
        (.stored,w)) ∧ appendStep host place record s = (result,t) ∧ result ≠ .ok none ∧
      t.steps = s.steps ++ [numbered s.steps.length record] := by
  cases h : host.append (numbered s.steps.length record) s.world with
  | mk taking w =>
    cases taking with
    | stored =>
      refine .inl ⟨w,rfl,?_⟩
      rw [numbered] at h
      simp only [appendStep,storeAppend,ask,numbered,Act.read,Act.write,Act.bind_apply,
        Act.pure_apply,h]
    | refused text =>
      refine .inr ⟨.ok (some text),{ s with
        world := w
        steps := s.steps ++ [numbered s.steps.length record] }.note .lost,
        by simp,?_,by simp,rfl⟩
      rw [numbered] at h
      simp only [appendStep,storeAppend,ask,note,numbered,Act.read,Act.write,Act.bind_apply,
        Act.pure_apply,h]
    | raised e =>
      refine .inr ⟨.error e,({ s with
        world := w
        steps := s.steps ++ [numbered s.steps.length record] }.note .lost).note
          (.raised place e),by simp,?_,by simp,rfl⟩
      rw [numbered] at h
      simp only [appendStep,storeAppend,ask,note,raising,numbered,Act.read,Act.write,Act.raise,
        Act.bind_apply,h]

/-- Nothing but time passes where an agent is not slow, is alone, and no worker. -/
structure Unhurried (host : Host W S) (x : Execution) : Prop where
  stageWorker : x.stageWorker = false
  composition : x.composition = none
  overall : ∀ w, exceeds (host.minus (host.monotonic w).1 x.stageStart)
    x.envelope.timeoutSeconds = false
  step : ∀ limit ∈ x.envelope.maxStepSeconds, ∀ w w',
    exceeds (host.minus (host.monotonic w).1 (host.monotonic w').1) limit = false

section
variable {host} {x : Execution}

def checked (host : Host W S) (x : Execution) (s : Run W) : Run W :=
  { s.note (.boundary x.seat false) with world := (host.monotonic s.world).2 }

theorem firstOf_none {ε σ α : Type} {check : Proc ε σ (Option α)}
    {checks : List (Proc ε σ (Option α))} {s t : σ} (h : check.alone s = (.ok none,t)) :
    (firstOf (check :: checks)).alone s = (firstOf checks).alone t := by
  rw [firstOf,alone_bind,Act.bind_ok h]

theorem checks_run (h : Unhurried host x) (s : Run W) :
    (firstOf (checks host x)).alone s = (.ok none,checked host x s) := by
  have hcancel : (checkCancelled x).alone s = (.ok none,s.note (.boundary x.seat false)) := by
    rw [checkCancelled,alone_bind,Act.bind_ok (show (act (readCancelEvent x) :
      Task W Bool).alone s = _ from readCancelEvent_run x s)]
    simp only [h.stageWorker,Bool.false_and]
    rfl
  have hcomposition : ∀ t : Run W, (checkCompositionTimeout host x).alone t = (.ok none,t) := by
    intro t
    simp only [checkCompositionTimeout,h.composition]
    rfl
  have hsteps : ∀ t : Run W, (checkCompositionSteps x).alone t = (.ok none,t) := by
    intro t
    simp only [checkCompositionSteps,h.composition]
    rfl
  have hstage : (checkStageTimeout host x).alone (s.note (.boundary x.seat false)) =
      (.ok none,checked host x s) := by
    rw [checkStageTimeout,alone_bind,Act.bind_ok (show (act (elapsedSince host x.stageStart) :
      Task W Decimal).alone (s.note (.boundary x.seat false)) = _ from rfl)]
    rw [if_neg (by simp [h.overall])]
    rfl
  rw [checks,firstOf_none hcancel,firstOf_none (hcomposition _),firstOf_none hstage,
    firstOf_none (hsteps _)]
  rfl

def OnlyCancelled (s t : Run W) : Prop :=
  ∃ extra, t.steps = s.steps ++ extra ∧ ∀ step ∈ extra, step.status = .cancelled

theorem OnlyCancelled.of_eq {s t : Run W} (h : t.steps = s.steps) : OnlyCancelled s t :=
  ⟨[],by rw [h,List.append_nil],by simp⟩

theorem OnlyCancelled.trans {s t u : Run W} (h : OnlyCancelled s t) (h' : OnlyCancelled t u) :
    OnlyCancelled s u := by
  obtain ⟨extra,hsteps,hextra⟩ := h
  obtain ⟨more,hsteps',hmore⟩ := h'
  refine ⟨extra ++ more,by rw [hsteps',hsteps,List.append_assoc],fun step hstep => ?_⟩
  rcases List.mem_append.1 hstep with hstep | hstep
  · exact hextra step hstep
  · exact hmore step hstep

theorem OnlyCancelled.same {s t : Run W} (h : OnlyCancelled s t) :
    beforeCancelled t.steps = beforeCancelled s.steps := by
  obtain ⟨extra,hsteps,hextra⟩ := h
  rw [hsteps,beforeCancelled_append _ hextra]

theorem OnlyCancelled.beforeCancelled {s t : Run W} (h : OnlyCancelled s t)
    (hgoing : ∀ step ∈ s.steps, step.status ≠ .cancelled) : beforeCancelled t.steps = s.steps := by
  rw [h.same,beforeCancelled_going hgoing]

def FailsWith (reason : FailureReason) {stageWorker : Bool} (s : Run W)
    (result : Except Raised (Failed stageWorker) × Run W) : Prop :=
  OnlyCancelled s result.2 ∧ ∀ failure, result.1 = .ok failure →
    Failed.reason stageWorker failure = some reason ∨
      Failed.reason stageWorker failure = some .internal

theorem FailsWith.internal {stageWorker : Bool} {s : Run W}
    {result : Except Raised (Failed stageWorker) × Run W}
    (h : FailsWith .internal s result) : FailsWith reason s result :=
  ⟨h.1,fun failure hfailure => .inr ((h.2 failure hfailure).elim id id)⟩

theorem FailsWith.after {stageWorker : Bool} {s t : Run W}
    {result : Except Raised (Failed stageWorker) × Run W} (h : FailsWith reason t result)
    (hst : OnlyCancelled s t) : FailsWith reason s result :=
  ⟨hst.trans h.1,h.2⟩

theorem deferred_failsWith (host : Host W S) (place : Place) (trail : Trail)
    (reason : FailureReason) (message : String) (stageWorker : Bool) (s : Run W) :
    FailsWith reason s
      (deferredOrRecordedFailure host place trail reason message stageWorker s) := by
  cases stageWorker with
  | true =>
    refine ⟨.of_eq rfl,fun failure hfailure => ?_⟩
    cases hfailure
    exact .inl rfl
  | false =>
    have hspec := recordFailure_spec host place trail reason message s
    show @FailsWith W reason false s (recordFailure host place trail reason message s)
    generalize recordFailure host place trail reason message s = r at hspec ⊢
    obtain ⟨result,t⟩ := r
    cases hspec with
    | stored w hfree h =>
      refine ⟨.of_eq rfl,fun failure hfailure => ?_⟩
      cases hfailure
      exact .inl rfl
    | refused w text =>
      refine ⟨.of_eq rfl,fun failure hfailure => ?_⟩
      cases hfailure
      exact .inr rfl
    | raised w e => exact ⟨.of_eq rfl,fun failure hfailure => by cases hfailure⟩
    | disordered w text h => exact ⟨.of_eq rfl,fun failure hfailure => by cases hfailure⟩

theorem fail_failsWith (host : Host W S) (x : Execution) (place : Place) (session : S)
    (reason : FailureReason) (message : String) (s : Run W) :
    FailsWith reason s ((fail host x place session reason message).alone s) :=
  (deferred_failsWith host place x.trail reason message x.stageWorker
    { s with world := host.close session s.world }).after (.of_eq rfl)

theorem cancelling_failsWith (host : Host W S) (x : Execution) (reason : FailureReason)
    (description error message : String) {rest : Task W (Failed x.stageWorker)} (s : Run W)
    (hrest : ∀ t, FailsWith reason t (rest.alone t)) :
    FailsWith reason s ((do
      let refused ← act (appendStep host x.inner (cancellation description error))
      if refused.isSome then
        act (deferredOrRecordedFailure host x.inner x.trail .internal message x.stageWorker)
      else rest : Task W (Failed x.stageWorker)).alone s) := by
  rw [alone_bind]
  rcases appendStep_cases host x.inner (cancellation description error) s with
    ⟨w,_,hrun⟩ | ⟨result,t,_,hrun,hne,hsteps⟩
  · rw [Act.bind_ok (show (act (appendStep host x.inner (cancellation description error)) :
      Task W _).alone s = _ from hrun)]
    exact (hrest _).after ⟨[_],rfl,by simp [numbered,cancellation]⟩
  · have hst : OnlyCancelled s t := ⟨[_],hsteps,by simp [numbered,cancellation]⟩
    cases result with
    | error e =>
      rw [Act.bind_error (show (act (appendStep host x.inner (cancellation description error)) :
        Task W _).alone s = _ from hrun)]
      exact ⟨hst,fun failure hfailure => by cases hfailure⟩
    | ok refused =>
      rw [Act.bind_ok (show (act (appendStep host x.inner (cancellation description error)) :
        Task W _).alone s = _ from hrun)]
      cases refused with
      | none => exact absurd rfl hne
      | some text =>
        exact (deferred_failsWith host x.inner x.trail .internal message x.stageWorker
          t).internal.after hst

theorem cancel_failsWith (host : Host W S) (x : Execution) (session : S) (reason : FailureReason)
    (message : String) (s : Run W) :
    FailsWith reason s ((cancel host x session reason message).alone s) := by
  refine cancelling_failsWith host x reason _ _ _ s fun t => ?_
  refine FailsWith.after (t := { t with
    world := host.close session (host.cancel session message t.world) }) ?_ (.of_eq rfl)
  show FailsWith reason _ (Proc.alone (if _ then _ else _) _)
  split
  · exact cancelling_failsWith host x reason _ _ _ _ fun u => fail_failsWith host x _ session _ _ u
  · exact fail_failsWith host x _ session _ _ _

def toolSteps (host : Host W S) (x : Execution) (name : String) (args : List (String × Value))
    (index : Nat) (w : W) : Nat :=
  if name ∉ x.tools then 1
  else
    match host.append (numbered index (toolRecord .completed name "request" (toolInput name args)
      .none none)) w with
    | (.stored,w) =>
      match (host.execute name args w).1 with
      | .raised _ => 1
      | _ => 2
    | _ => 1

def Head.answer (p : Head W) (host : Host W S) (session : S) : NextStep × W :=
  host.nextStep session p.sent (host.monotonic (host.monotonic p.state.world).2).2

def Head.spends (p : Head W) (host : Host W S) (x : Execution) (session : S) : Nat :=
  match p.answer host session with
  | (.item (.step _ _),_) => 1
  | (.item (.request name args),w) =>
    toolSteps host x name args p.state.steps.length (host.monotonic w).2
  | _ => 0

/-- Agent and tool steps were recorded. -/
structure Took (k : Nat) (s t : Run W) : Prop where
  length : t.steps.length = s.steps.length + k
  going : ∀ step ∈ t.steps, step.status ≠ .cancelled

theorem Took.none {s t : Run W} (hs : Fit s) (h : t.steps = s.steps) : Took 0 s t :=
  ⟨by rw [h]; rfl,by rw [h]; exact hs.going⟩

theorem Took.more {s t u : Run W} (h : Took k s t) {record : StepRecord Value}
    (hstatus : record.status ≠ .cancelled) {index : Nat}
    (hsteps : u.steps = t.steps ++ [numbered index record]) : Took (k + 1) s u := by
  refine ⟨?_,fun step hstep => ?_⟩
  · rw [hsteps,List.length_append,h.length]
    simp only [List.length_singleton]
    omega
  · rw [hsteps] at hstep
    rcases List.mem_append.1 hstep with hstep | hstep
    · exact h.going step hstep
    · rw [List.mem_singleton.1 hstep]
      exact hstatus

theorem Fit.same {s t : Run W} (hs : Fit s) (hsteps : t.steps = s.steps) (hlog : t.log = s.log) :
    Fit t :=
  ⟨by rw [hsteps]; exact hs.ordered,by rw [hlog]; exact hs.free,by rw [hsteps]; exact hs.going⟩

theorem Fit.stored {s : Run W} (hs : Fit s) (w : W) {record : StepRecord Value}
    (hstatus : record.status ≠ .cancelled) : Fit { s with
      world := w
      steps := s.steps ++ [numbered s.steps.length record]
      log := s.log ++ [.step (numbered s.steps.length record)] } := by
  refine ⟨indexError_append hs.ordered (by simp [numbered]),?_,fun step hstep => ?_⟩
  · simp only [List.any_append,hs.free,Bool.false_or]
    rfl
  · rcases List.mem_append.1 hstep with hstep | hstep
    · exact hs.going step hstep
    · rw [List.mem_singleton.1 hstep]
      exact hstatus

theorem recording {β : Type} {P : Except Raised (Option β) × Run W → Prop}
    {rest : Task W (Option β)} {record : StepRecord Value} (hstatus : record.status ≠ .cancelled)
    {r s : Run W} (hs : Fit s) (htook : Took k r s)
    (hgoes : ∀ t, host.append (numbered s.steps.length record) s.world = (.stored,t.world) →
      Fit t → Took (k + 1) r t → P (rest.alone t))
    (hends : ∀ result t, (∀ w, host.append (numbered s.steps.length record) s.world ≠
      (.stored,w)) → Took (k + 1) r t → (∀ b, result ≠ .ok (some b)) → P (result,t)) :
    P ((do
      let refused ← act (appendStep host x.inner record)
      if refused.isSome then pure none else rest : Task W (Option β)).alone s) := by
  rw [alone_bind]
  rcases appendStep_cases host x.inner record s with
    ⟨w,hstored,hrun⟩ | ⟨result,t,hstored,hrun,hne,hsteps⟩
  · rw [Act.bind_ok (show (act (appendStep host x.inner record) :
      Task W _).alone s = _ from hrun)]
    exact hgoes _ hstored (hs.stored w hstatus) (htook.more hstatus rfl)
  · have htook' : Took (k + 1) r t := htook.more hstatus hsteps
    cases result with
    | error e =>
      rw [Act.bind_error (show (act (appendStep host x.inner record) :
        Task W _).alone s = _ from hrun)]
      exact hends _ t hstored htook' (by simp)
    | ok refused =>
      rw [Act.bind_ok (show (act (appendStep host x.inner record) :
        Task W _).alone s = _ from hrun)]
      cases refused with
      | none => exact absurd rfl hne
      | some text => exact hends (.ok none) t hstored htook' (by simp)

/-- What comes of a tool request, where it took `k` steps. -/
structure Mediated (k : Nat) (s : Run W) (result : Except Raised (Option ToolDelivery) × Run W) :
    Prop where
  took : Took k s result.2
  delivered : ∀ delivery, result.1 = .ok (some delivery) →
    delivery.consumed = k ∧ (k = 1 ∨ k = 2) ∧ Fit result.2

theorem mediateTool_mediated (name : String) (args : List (String × Value)) {s : Run W}
    (hs : Fit s) : Mediated (toolSteps host x name args s.steps.length s.world) s
      ((mediateTool host x name args).alone s) := by
  have hnone : Took 0 s s := .none hs rfl
  unfold mediateTool
  by_cases hname : name ∈ x.tools
  · rw [if_neg (not_not_intro hname)]
    refine recording (by simp [toolRecord]) hs hnone (fun t hstored ht htook => ?_)
      fun result t hstored htook hresult => ?_
    · have hsteps : toolSteps host x name args s.steps.length s.world =
          match (host.execute name args t.world).1 with
          | .raised _ => 1
          | _ => 2 := by
        simp only [toolSteps,hname,not_true,if_false,hstored]
      rw [hsteps,alone_bind]
      cases hexecuted : host.execute name args t.world with
      | mk executed w =>
        have hfit : Fit { t.note (.executed x.seat name) with world := w } := ht.same rfl rfl
        have htook' : Took 1 s { t.note (.executed x.seat name) with world := w } :=
          ⟨htook.length,htook.going⟩
        have hrun : (act (executeTool host x name args) : Task W _).alone t =
            (.ok executed,{ t.note (.executed x.seat name) with world := w }) := by
          show executeTool host x name args t = _
          simp only [executeTool,note,ask,Act.write,Act.bind_apply,Run.note,hexecuted]
        rw [Act.bind_ok hrun]
        cases executed with
        | raised r =>
          exact ⟨⟨htook.length,htook.going⟩,fun delivery hdelivery => by cases hdelivery⟩
        | toolExecution text =>
          refine recording (by simp [toolRecord]) hfit htook' (fun u _ hu htwo => ?_)
            fun result u _ htwo hresult => ?_
          · exact ⟨htwo,fun delivery hdelivery => by
              cases hdelivery
              exact ⟨rfl,.inr rfl,hu⟩⟩
          · exact ⟨htwo,fun delivery hdelivery => absurd hdelivery (hresult delivery)⟩
        | output output =>
          refine recording (by simp [toolRecord]) hfit htook' (fun u _ hu htwo => ?_)
            fun result u _ htwo hresult => ?_
          · exact ⟨htwo,fun delivery hdelivery => by
              cases hdelivery
              exact ⟨rfl,.inr rfl,hu⟩⟩
          · exact ⟨htwo,fun delivery hdelivery => absurd hdelivery (hresult delivery)⟩
    · have hsteps : toolSteps host x name args s.steps.length s.world = 1 := by
        simp only [toolSteps,hname,not_true,if_false]
      rw [hsteps]
      exact ⟨htook,fun delivery hdelivery => absurd hdelivery (hresult delivery)⟩
  · have hsteps : toolSteps host x name args s.steps.length s.world = 1 := by
      simp only [toolSteps,hname,not_false_iff,if_true]
    rw [if_pos hname,hsteps]
    refine recording (by simp [toolRecord]) hs hnone (fun t _ ht htook => ?_)
      fun result t _ htook hresult => ?_
    · exact ⟨htook,fun delivery hdelivery => by
        cases hdelivery
        exact ⟨rfl,.inl rfl,ht⟩⟩
    · exact ⟨htook,fun delivery hdelivery => absurd hdelivery (hresult delivery)⟩

/-- What comes of a pass, where it took `k` steps. -/
structure Spent {stageWorker : Bool} (k : Nat) (s : Run W)
    (result : Except Raised (Passed stageWorker) × Run W) : Prop where
  steps : (beforeCancelled result.2.steps).length = s.steps.length + k
  went : ∀ n sent, result.1 = .ok (.went n sent) →
    n = k ∧ (k = 1 ∨ k = 2) ∧ Fit result.2 ∧ Took k s result.2
  ended : ∀ ended, result.1 = .ok (.ended ended) → ended.reason ≠ some .stepLimit

theorem Took.before {s t : Run W} (h : Took k s t) :
    (beforeCancelled t.steps).length = s.steps.length + k := by
  rw [beforeCancelled_going h.going,h.length]

theorem Took.raises {stageWorker : Bool} {s t : Run W} (h : Took k s t) (e : Raised) :
    Spent k s ((.error e,t) : Except Raised (Passed stageWorker) × Run W) :=
  ⟨h.before,(fun _ _ heq => by cases heq),(fun _ heq => by cases heq)⟩

theorem Took.fails {s t : Run W} (h : Took k s t)
    (hreason : reason ≠ .stepLimit) {m : Task W (Failed x.stageWorker)}
    (hfails : FailsWith reason t (m.alone t)) :
    Spent k s ((do
      let failure ← m
      pure (.ended (.failed failure)) : Task W (Passed x.stageWorker)).alone t) := by
  rw [alone_bind,Act.bind_apply]
  obtain ⟨honly,hfailure⟩ := hfails
  generalize m.alone t = r at honly hfailure
  obtain ⟨result,u⟩ := r
  have hsteps : (beforeCancelled u.steps).length = s.steps.length + k := by
    rw [honly.beforeCancelled h.going,h.length]
  cases result with
  | error e => exact ⟨hsteps,(fun _ _ heq => by cases heq),(fun _ heq => by cases heq)⟩
  | ok failure =>
    refine ⟨hsteps,(fun _ _ heq => by cases heq),fun ended hended => ?_⟩
    cases hended
    intro hlimit
    rcases hfailure failure rfl with hwhy | hwhy
    · exact hreason (Option.some.inj (hwhy.symm.trans hlimit))
    · cases hwhy.symm.trans hlimit

theorem Took.cancels {s t : Run W} (h : Took k s t) (session : S)
    (hreason : reason ≠ .stepLimit) (message : String) :
    Spent k s ((do
      let ended ← cancelled host x session reason message
      pure (.ended ended) : Task W (Passed x.stageWorker)).alone t) := by
  rw [cancelled,bind_assoc]
  exact h.fails hreason (cancel_failsWith host x session reason message t)

theorem unpersisted_failsWith (host : Host W S) (x : Execution) (message : String) (s : Run W) :
    FailsWith .internal s ((do
      let outcome ← act (recordFailure host x.inner x.trail .internal message)
      pure (unpersisted outcome x.stageWorker) : Task W (Failed x.stageWorker)).alone s) := by
  have hrecord := deferred_failsWith host x.inner x.trail .internal message false s
  change @FailsWith W .internal false s
    (recordFailure host x.inner x.trail .internal message s) at hrecord
  rw [alone_bind,Act.bind_apply,show (act (recordFailure host x.inner x.trail .internal message) :
    Task W Outcome).alone s = recordFailure host x.inner x.trail .internal message s from rfl]
  generalize recordFailure host x.inner x.trail .internal message s = r at hrecord
  obtain ⟨result,t⟩ := r
  cases result with
  | error e => exact ⟨hrecord.1,fun failure hfailure => by cases hfailure⟩
  | ok outcome =>
    refine ⟨hrecord.1,fun failure hfailure => ?_⟩
    cases hfailure
    have hreason := hrecord.2 outcome rfl
    cases x.stageWorker with
    | false => exact hreason
    | true => exact .inl rfl

theorem step_spent (session : S) (stageStep : Nat) (description : String) (detail : Value)
    (elapsed : Decimal) {s t : Run W} (ht : Took 0 s t) (hfit : Fit t) :
    Spent 1 s ((passItem host x session stageStep (.step description detail) elapsed).alone t) := by
  have hstatus : (⟨(t.steps.length : Nat),.completed,description,.none,detail,none,elapsed⟩ :
      StepRecord Value).status ≠ .cancelled := by simp
  simp only [passItem,persistStep,bind_assoc]
  rw [alone_bind,Act.bind_ok (show (act stepCount : Task W Nat).alone t = (.ok t.steps.length,t)
    from rfl),alone_bind]
  rcases appendStep_cases host x.inner
      ⟨(t.steps.length : Nat),.completed,description,.none,detail,none,elapsed⟩ t with
    ⟨w,_,hrun⟩ | ⟨result,u,_,hrun,hne,hsteps⟩
  · rw [Act.bind_ok (show (act (appendStep host x.inner _) : Task W _).alone t = _ from hrun)]
    have htook := ht.more hstatus (u := { t with
      world := w
      steps := t.steps ++ [numbered t.steps.length
        ⟨(t.steps.length : Nat),.completed,description,.none,detail,none,elapsed⟩]
      log := t.log ++ [.step (numbered t.steps.length
        ⟨(t.steps.length : Nat),.completed,description,.none,detail,none,elapsed⟩)] }) rfl
    refine ⟨htook.before,fun n sent hwent => ?_,fun ended hended => by cases hended⟩
    cases hwent
    exact ⟨rfl,.inl rfl,hfit.stored w hstatus,htook⟩
  · have htook : Took 1 s u := ht.more hstatus hsteps
    cases result with
    | error e =>
      rw [Act.bind_error (show (act (appendStep host x.inner _) : Task W _).alone t = _ from hrun)]
      exact htook.raises e
    | ok refused =>
      rw [Act.bind_ok (show (act (appendStep host x.inner _) : Task W _).alone t = _ from hrun)]
      cases refused with
      | none => exact absurd rfl hne
      | some text =>
        have hspent := htook.fails (by simp) (unpersisted_failsWith host x
          ("Failed to persist step " ++ toString t.steps.length ++ ".") u)
        rw [bind_assoc] at hspent
        simp only [Option.isSome_some,if_true,bind_assoc]
        exact hspent

theorem item_spent (session : S) (stageStep : Nat) (item : Item) (elapsed : Decimal)
    {s t : Run W} (ht : Took 0 s t) (hfit : Fit t) :
    Spent (match item with
      | .step _ _ => 1
      | .request name args => toolSteps host x name args t.steps.length t.world
      | _ => 0) s ((passItem host x session stageStep item elapsed).alone t) := by
  have hagent : FailureReason.agentError ≠ .stepLimit := by simp
  cases item with
  | step description detail => exact step_spent session stageStep description detail elapsed ht hfit
  | request name args =>
    have hmediated : Mediated (toolSteps host x name args t.steps.length t.world) t
        ((mediateTool host x name args).alone t) := mediateTool_mediated name args hfit
    have hlength : t.steps.length = s.steps.length := ht.length
    rw [passItem,alone_bind,Act.bind_apply]
    generalize (mediateTool host x name args).alone t = r at hmediated ⊢
    obtain ⟨result,u⟩ := r
    have htook : Took (toolSteps host x name args t.steps.length t.world) s u :=
      ⟨by rw [← hlength]; exact hmediated.took.length,hmediated.took.going⟩
    cases result with
    | error e => exact htook.raises e
    | ok delivery =>
      cases delivery with
      | none => exact htook.fails (by simp) (fail_failsWith host x _ session .internal _ u)
      | some delivery =>
        obtain ⟨hconsumed,hk,hu⟩ := hmediated.delivered delivery rfl
        refine ⟨htook.before,fun n sent hwent => ?_,fun ended hended => by cases hended⟩
        cases hwent
        exact ⟨hconsumed,hk,hu,htook⟩
  | result output => exact ht.fails hagent (fail_failsWith host x _ session _ _ t)
  | unsupported => exact ht.fails hagent (fail_failsWith host x _ session _ _ t)

theorem overStepBudget_none (h : Unhurried host x) (w w' : W) :
    overStepBudget x (host.minus (host.monotonic w).1 (host.monotonic w').1) = none := by
  unfold overStepBudget
  split
  · rfl
  · rename_i limit hlimit
    rw [if_neg (by simp [h.step limit hlimit w w'])]

theorem pass_spent (h : Unhurried host x) (session : S) (p : Head W) (hs : Fit p.state) :
    Spent (p.spends host x session) p.state
      ((pass host x session p.taken p.sent).alone p.state) := by
  obtain ⟨stageStep,sent,s⟩ := p
  simp only [Head.spends,Head.answer]
  rw [pass,alone_bind,Act.bind_ok (checks_run h s),alone_bind,
    Act.bind_ok (show (act (clock host) : Task W Decimal).alone (checked host x s) =
      (.ok (host.monotonic (host.monotonic s.world).2).1,{ checked host x s with
        world := (host.monotonic (host.monotonic s.world).2).2 }) from rfl),alone_bind]
  cases hnext : host.nextStep session sent (host.monotonic (host.monotonic s.world).2).2 with
  | mk next w =>
    have htake : (act (takeStep host x session sent) : Task W NextStep).alone
        { checked host x s with world := (host.monotonic (host.monotonic s.world).2).2 } =
        (.ok next,{ (checked host x s).note (.stepped x.seat) with world := w }) := by
      show takeStep host x session sent _ = _
      simp only [takeStep,note,ask,Act.write,Act.bind_apply,Run.note,hnext]
    rw [Act.bind_ok htake]
    have hfit : Fit { (checked host x s).note (.stepped x.seat) with world := w } :=
      hs.same rfl rfl
    have hnone : Took 0 s { (checked host x s).note (.stepped x.seat) with world := w } :=
      .none hs rfl
    have hagent : FailureReason.agentError ≠ .stepLimit := by simp
    cases next with
    | raised r =>
      have hraised : Took 0 s ({ (checked host x s).note (.stepped x.seat) with
        world := w }.note (.raised x.inner r)) := .none hs rfl
      exact hraised.raises r
    | subprocessTimeout text => exact hnone.cancels session (by simp) _
    | agentExecution text => exact hnone.fails hagent (fail_failsWith host x _ session _ _ _)
    | item item =>
      have hitem : ∀ item : Item, Spent (match item with
          | .step _ _ => 1
          | .request name args => toolSteps host x name args s.steps.length (host.monotonic w).2
          | _ => 0) s ((do
            let elapsed ← act (elapsedSince host (host.monotonic (host.monotonic s.world).2).1)
            match overStepBudget x elapsed with
            | some limit => do
              let ended ← cancelled host x session .timeout ("Step " ++ toString stageStep ++
                " exceeded per-step budget of " ++ Value.seconds limit ++ "s.")
              pure (.ended ended)
            | none => passItem host x session stageStep item elapsed :
              Task W (Passed x.stageWorker)).alone
            { (checked host x s).note (.stepped x.seat) with world := w }) := by
        intro item
        rw [alone_bind,Act.bind_ok (show (act (elapsedSince host
          (host.monotonic (host.monotonic s.world).2).1) : Task W Decimal).alone
            { (checked host x s).note (.stepped x.seat) with world := w } =
          (.ok (host.minus (host.monotonic w).1 (host.monotonic (host.monotonic s.world).2).1),
            { (checked host x s).note (.stepped x.seat) with
              world := (host.monotonic w).2 }) from rfl)]
        simp only [overStepBudget_none h]
        have htime : Fit { (checked host x s).note (.stepped x.seat) with
          world := (host.monotonic w).2 } := hs.same rfl rfl
        have htook : Took 0 s { (checked host x s).note (.stepped x.seat) with
          world := (host.monotonic w).2 } := .none hs rfl
        exact item_spent session stageStep item _ htook htime
      cases item with
      | result output =>
        refine ⟨hnone.before,(fun _ _ heq => by cases heq),fun ended hended => ?_⟩
        cases hended
        simp [LoopEnd.reason]
      | step description detail => exact hitem (.step description detail)
      | request name args => exact hitem (.request name args)
      | unsupported => exact hitem .unsupported

end
end
end AgentCentric.Manager

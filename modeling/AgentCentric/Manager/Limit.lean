import AgentCentric.Manager.Budget

namespace AgentCentric.Manager
open Proc (act alone_bind alone_caught)
open Machine (Grows Halts Reaches Steps)

section
variable {W S : Type} {host : Host W S} {x : Execution} {session : S} {budget : Nat}
  {p q : Head W}

theorem toolSteps_le (host : Host W S) (x : Execution) (name : String)
    (args : List (String × Value)) (index : Nat) (w : W) :
    toolSteps host x name args index w ≤ 2 := by
  unfold toolSteps
  split
  · omega
  · split
    · split
      · omega
      · omega
    · omega

theorem spends_le (p : Head W) (host : Host W S) (x : Execution) (session : S) :
    p.spends host x session ≤ 2 := by
  unfold Head.spends
  split
  · omega
  · exact toolSteps_le host x _ _ _ _
  · omega

/-- The agent is asked again, after the steps that its item took. -/
structure GoesOn (host : Host W S) (x : Execution) (session : S) (p q : Head W) : Prop where
  taken : q.taken = p.taken + p.spends host x session
  spends : p.spends host x session = 1 ∨ p.spends host x session = 2
  fit : Fit q.state
  took : Took (p.spends host x session) p.state q.state

theorem goesOn_of_next (h : Unhurried host x) (hp : Fit p.state)
    (hstep : leftAlone host x session p = .next q) : GoesOn host x session p q := by
  have hspent := pass_spent h session p hp
  unfold leftAlone at hstep
  generalize (pass host x session p.taken p.sent).alone p.state = r at hstep hspent
  obtain ⟨result,t⟩ := r
  cases result with
  | error e => cases hstep
  | ok passed =>
    cases passed with
    | ended ended => cases hstep
    | went n sent =>
      cases hstep
      obtain ⟨rfl,hspends,hfit,htook⟩ := hspent.went n sent rfl
      exact ⟨rfl,hspends,hfit,htook⟩

theorem loopFrom_next (h : Unhurried host x) (hp : Fit p.state) (hbudget : p.taken < budget)
    (hstep : leftAlone host x session p = .next q) :
    loopFrom host x session budget p = loopFrom host x session budget q := by
  have hspent := pass_spent h session p hp
  rw [loopFrom_eq hbudget,Act.bind_apply]
  unfold leftAlone at hstep
  generalize (pass host x session p.taken p.sent).alone p.state = r at hstep hspent
  obtain ⟨result,t⟩ := r
  cases result with
  | error e => cases hstep
  | ok passed =>
    cases passed with
    | ended ended => cases hstep
    | went n sent =>
      cases hstep
      obtain ⟨rfl,hspends | hspends,_,_⟩ := hspent.went n sent rfl
      · simp only [resume,hspends,if_true]
        rfl
      · simp only [resume,hspends,loopFrom]
        rfl

/-- The last pass of an agent, and the end of the loop where it is made. -/
structure ComesToEnd (host : Host W S) (x : Execution) (session : S) (p : Head W)
    (result : Except Raised (LoopEnd x.stageWorker)) (t : Run W) : Prop where
  steps : (beforeCancelled t.steps).length = p.state.steps.length + p.spends host x session
  reason : ∀ ended, result = .ok ended → ended.reason ≠ some .stepLimit

theorem comesToEnd_of_halt (h : Unhurried host x) (hp : Fit p.state)
    {result : Except Raised (LoopEnd x.stageWorker)}
    (hstep : leftAlone host x session p = .halt result q) :
    ComesToEnd host x session p result q.state := by
  have hspent := pass_spent h session p hp
  unfold leftAlone at hstep
  generalize (pass host x session p.taken p.sent).alone p.state = r at hstep hspent
  obtain ⟨outcome,t⟩ := r
  cases outcome with
  | error e =>
    cases hstep
    exact ⟨hspent.steps,fun ended hended => by cases hended⟩
  | ok passed =>
    cases passed with
    | ended ended =>
      cases hstep
      refine ⟨hspent.steps,fun ended hended => ?_⟩
      cases hended
      exact hspent.ended _ rfl
    | went n sent => cases hstep

theorem loopFrom_halt (hbudget : p.taken < budget) {result : Except Raised (LoopEnd x.stageWorker)}
    (hstep : leftAlone host x session p = .halt result q) :
    loopFrom host x session budget p = (result,q.state) := by
  rw [loopFrom_eq hbudget,Act.bind_apply]
  unfold leftAlone at hstep
  generalize (pass host x session p.taken p.sent).alone p.state = r at hstep
  obtain ⟨outcome,t⟩ := r
  cases outcome with
  | error e =>
    cases hstep
    rfl
  | ok passed =>
    cases passed with
    | ended ended =>
      cases hstep
      rfl
    | went n sent => cases hstep

/-- The steps in memory are the ones before the agent started and those it took. -/
def Counted (base : Nat) (p : Head W) : Prop :=
  Fit p.state ∧ p.state.steps.length = base + p.taken

theorem grows_leftAlone (h : Unhurried host x) (session : S) (base : Nat) :
    Grows (leftAlone host x session) (Counted base) Head.taken := by
  intro p q hp hstep
  have hgoes := goesOn_of_next h hp.1 hstep
  have htaken := hgoes.taken
  have hlength := hgoes.took.length
  have hbase := hp.2
  refine ⟨⟨hgoes.fit,by omega⟩,?_⟩
  rcases hgoes.spends with hone | htwo
  · omega
  · omega

def limitMessage (x : Execution) : String :=
  "Agent exceeded step limit of " ++ toString x.envelope.maxSteps ++ "."

def Host.stores (host : Host W S) (record : StepRecord Value) (w : W) : Option W :=
  match host.append record w with
  | (.stored,w) => some w
  | _ => none

def Taking.isStored : Taking → Bool
  | .stored => true
  | _ => false

def recordsLimit (host : Host W S) (x : Execution) (session : S) (w : W) : Bool :=
  (host.record (Decision.failure .stepLimit (limitMessage x)).stored
    (host.close session w)).1.isStored

def Head.cancels (p : Head W) (host : Host W S) (x : Execution) (session : S) : Bool :=
  let cancelled := numbered p.state.steps.length
    (cancellation "agent cancelled" (limitMessage x))
  (host.stores cancelled (host.monotonic p.state.world).2).any fun w =>
    let told := host.close session (host.cancel session (limitMessage x) w)
    if host.forced session told then
      (host.stores (numbered (p.state.steps.length + 1) (cancellation "agent forcibly terminated"
        "child ignored cooperative cancellation; killed as last resort")) told).any
          (recordsLimit host x session)
    else recordsLimit host x session told

/-- It fails because the budget was used up. -/
def Limited {stageWorker : Bool} (result : Except Raised (Failed stageWorker)) : Prop :=
  ∃ failure, result = .ok failure ∧ Failed.reason stageWorker failure = some .stepLimit

theorem not_limited_of_internal {stageWorker : Bool} {s : Run W}
    {result : Except Raised (Failed stageWorker) × Run W} (h : FailsWith .internal s result) :
    ¬ Limited result.1 := by
  rintro ⟨failure,hresult,hreason⟩
  rcases h.2 failure hresult with hinternal | hinternal
  · cases hinternal.symm.trans hreason
  · cases hinternal.symm.trans hreason

def Recordable (s : Run W) : Prop :=
  indexError 0 s.steps = none ∧ s.log.any (·.isOutcome) = false

theorem Recordable.stored {s : Run W} (hs : Recordable s) (w : W) (record : StepRecord Value) :
    Recordable { s with
      world := w
      steps := s.steps ++ [numbered s.steps.length record]
      log := s.log ++ [.step (numbered s.steps.length record)] } := by
  refine ⟨indexError_append hs.1 (by simp [numbered]),?_⟩
  simp only [List.any_append,hs.2,Bool.false_or]
  rfl

theorem recordFailure_limited (host : Host W S) {s : Run W} (hs : Recordable s) (place : Place)
    (trail : Trail) (message : String) :
    @Limited false (recordFailure host place trail .stepLimit message s).1 ↔
    (host.record (Decision.failure .stepLimit message).stored s.world).1.isStored = true := by
  obtain ⟨hordered,hfree⟩ := hs
  cases h : host.record (Decision.failure .stepLimit message).stored s.world with
  | mk taking w =>
    cases taking with
    | stored =>
      have hrun : storeOutcome host place trail (Decision.failure .stepLimit message).stored s =
          (.ok none,{ s with
            world := w
            log := s.log ++ [.outcome (Decision.failure .stepLimit message).stored] }) := by
        simp only [storeOutcome,ask,Act.read,Act.write,Act.bind_apply,hfree,Bool.false_eq_true,
          if_false,h,Act.pure_apply]
      rw [recordFailure,Act.bind_ok hrun]
      have hseal := sealSteps_none (s := { s with
        world := w
        log := s.log ++ [.outcome (Decision.failure .stepLimit message).stored] }) place hordered
      refine ⟨fun _ => rfl,fun _ => ⟨_,congrArg Prod.fst (Act.bind_ok hseal),rfl⟩⟩
    | refused text =>
      have hrun : storeOutcome host place trail (Decision.failure .stepLimit message).stored s =
          (.ok (some text),{ s with world := w }) := by
        simp only [storeOutcome,ask,Act.read,Act.bind_apply,hfree,Bool.false_eq_true,if_false,h,
          Act.pure_apply]
      rw [recordFailure,Act.bind_ok hrun]
      constructor
      · rintro ⟨failure,hfailure,hreason⟩
        cases hfailure
        cases hreason
      · intro hstored
        cases hstored
    | raised e =>
      have hrun : storeOutcome host place trail (Decision.failure .stepLimit message).stored s =
          (.error e,{ s with world := w }.note (.raised place e)) := by
        simp only [storeOutcome,ask,note,raising,Act.read,Act.write,Act.raise,Act.bind_apply,hfree,
          Bool.false_eq_true,if_false,h]
      rw [recordFailure,Act.bind_error hrun]
      constructor
      · rintro ⟨failure,hfailure,_⟩
        cases hfailure
      · intro hstored
        cases hstored

theorem fail_limited (host : Host W S) {x : Execution} (hx : x.stageWorker = false) {s : Run W}
    (hs : Recordable s) (place : Place) (session : S) (message : String) :
    Limited ((fail host x place session .stepLimit message).alone s).1 ↔
    (host.record (Decision.failure .stepLimit message).stored
      (host.close session s.world)).1.isStored = true := by
  have hclosed : Recordable { s with world := host.close session s.world } := hs
  have hdeferred : ∀ stageWorker : Bool, stageWorker = false →
      (Limited (deferredOrRecordedFailure host place x.trail .stepLimit message stageWorker
        { s with world := host.close session s.world }).1 ↔
      (host.record (Decision.failure .stepLimit message).stored
        (host.close session s.world)).1.isStored = true) := by
    rintro _ rfl
    exact recordFailure_limited host hclosed place x.trail message
  exact hdeferred x.stageWorker hx

theorem cancelling_limited (host : Host W S) (x : Execution) (description error message : String)
    {rest : Task W (Failed x.stageWorker)} (s : Run W) {b : W → Bool}
    (hrest : ∀ w, Limited (rest.alone { s with
      world := w
      steps := s.steps ++ [numbered s.steps.length (cancellation description error)]
      log := s.log ++ [.step (numbered s.steps.length (cancellation description error))] }).1 ↔
        b w = true) :
    Limited ((do
      let refused ← act (appendStep host x.inner (cancellation description error))
      if refused.isSome then
        act (deferredOrRecordedFailure host x.inner x.trail .internal message x.stageWorker)
      else rest : Task W (Failed x.stageWorker)).alone s).1 ↔
    (host.stores (numbered s.steps.length (cancellation description error)) s.world).any b =
      true := by
  rw [alone_bind,Host.stores]
  rcases appendStep_cases host x.inner (cancellation description error) s with
    ⟨w,hstored,hrun⟩ | ⟨result,t,hstored,hrun,hne,_⟩
  · rw [Act.bind_ok (show (act (appendStep host x.inner (cancellation description error)) :
      Task W _).alone s = _ from hrun),hstored]
    exact hrest w
  · have hnone : (match host.append (numbered s.steps.length (cancellation description error))
        s.world with
      | (.stored,w) => some w
      | _ => none) = none := by
      split
      · rename_i w hw
        exact absurd hw (hstored w)
      · rfl
    rw [hnone]
    refine ⟨fun hlimited => absurd hlimited ?_,fun hnever => by cases hnever⟩
    cases result with
    | error e =>
      rw [Act.bind_error (show (act (appendStep host x.inner (cancellation description error)) :
        Task W _).alone s = _ from hrun)]
      rintro ⟨failure,hfailure,_⟩
      cases hfailure
    | ok refused =>
      rw [Act.bind_ok (show (act (appendStep host x.inner (cancellation description error)) :
        Task W _).alone s = _ from hrun)]
      cases refused with
      | none => exact absurd rfl hne
      | some text =>
        exact not_limited_of_internal
          (deferred_failsWith host x.inner x.trail .internal message x.stageWorker t)

theorem cancel_limited (host : Host W S) {x : Execution} (hx : x.stageWorker = false)
    (session : S) (p : Head W) (hp : Fit p.state) :
    Limited ((cancel host x session .stepLimit (limitMessage x)).alone
      (checked host x p.state)).1 ↔ p.cancels host x session = true := by
  have hrecordable : Recordable (checked host x p.state) := ⟨hp.ordered,hp.free⟩
  refine cancelling_limited host x _ _ _ (checked host x p.state) fun w => ?_
  have hcancelled := hrecordable.stored w (cancellation "agent cancelled" (limitMessage x))
  let told := host.close session (host.cancel session (limitMessage x) w)
  let s : Run W := { checked host x p.state with
    world := told
    steps := p.state.steps ++ [numbered p.state.steps.length
      (cancellation "agent cancelled" (limitMessage x))]
    log := p.state.log ++ [.step (numbered p.state.steps.length
      (cancellation "agent cancelled" (limitMessage x)))] }
  have hs : Recordable s := hcancelled
  show Limited (Proc.alone (if host.forced session told = true then _ else _) s).1 ↔
    (if host.forced session told = true then _ else _) = true
  by_cases hforced : host.forced session told = true
  · rw [if_pos hforced,if_pos hforced]
    have hlength : s.steps.length = p.state.steps.length + 1 := by
      simp [s]
    rw [← hlength]
    exact cancelling_limited host x _ _ _ s fun w =>
      fail_limited host hx (hs.stored w _) _ session _
  · rw [if_neg hforced,if_neg hforced]
    exact fail_limited host hx hs _ session _

def LoopLimited {stageWorker : Bool} (result : Except Raised (LoopEnd stageWorker)) : Prop :=
  ∃ ended, result = .ok ended ∧ ended.reason = some .stepLimit

theorem lastTurn_run (h : Unhurried host x) (session : S) (s : Run W) :
    (lastTurn host x session).alone s =
      (cancelled host x session .stepLimit (limitMessage x)).alone (checked host x s) := by
  rw [lastTurn,alone_bind,Act.bind_ok (checks_run h s)]
  rfl

theorem loopFrom_last (h : Unhurried host x) (session : S) (hp : Fit p.state)
    (hbudget : budget ≤ p.taken) :
    beforeCancelled (loopFrom host x session budget p).2.steps = p.state.steps ∧
    (LoopLimited (loopFrom host x session budget p).1 ↔ p.cancels host x session = true) := by
  have hloop : loopFrom host x session budget p =
      (cancelled host x session .stepLimit (limitMessage x)).alone (checked host x p.state) := by
    rw [loopFrom,Nat.sub_eq_zero_of_le hbudget,loop,lastTurn_run h]
  rw [hloop,cancelled,alone_bind,Act.bind_apply,← cancel_limited host h.stageWorker session p hp]
  have hfails := cancel_failsWith host x session .stepLimit (limitMessage x)
    (checked host x p.state)
  generalize (cancel host x session .stepLimit (limitMessage x)).alone (checked host x p.state) = r
    at hfails
  obtain ⟨result,t⟩ := r
  have hsteps : beforeCancelled t.steps = p.state.steps := hfails.1.beforeCancelled hp.going
  cases result with
  | error e =>
    refine ⟨hsteps,?_⟩
    constructor
    · rintro ⟨ended,hended,_⟩
      cases hended
    · rintro ⟨failure,hfailure,_⟩
      cases hfailure
  | ok failure =>
    refine ⟨hsteps,?_⟩
    constructor
    · rintro ⟨ended,hended,hreason⟩
      cases hended
      exact ⟨failure,rfl,hreason⟩
    · rintro ⟨found,hfound,hreason⟩
      cases hfound
      exact ⟨.failed failure,rfl,hreason⟩

/-- Left alone, the agent takes more agent and tool steps than that. -/
def NeedsMore (host : Host W S) (x : Execution) (session : S) (p : Head W) (budget : Nat) : Prop :=
  ∃ q, Reaches (leftAlone host x session) p q ∧ budget < q.taken + q.spends host x session

/-- Where the agent has used its budget up it has a step more to take, if a cancellation can be
recorded, and only then; and with one step left it makes no request that takes two. -/
structure MeetsBudget (host : Host W S) (x : Execution) (session : S) (p : Head W) (budget : Nat) :
    Prop where
  single : ∀ q, Reaches (leftAlone host x session) p q → q.taken + 1 = budget →
    q.spends host x session ≠ 2
  last : ∀ q, Reaches (leftAlone host x session) p q → q.taken = budget →
    (q.cancels host x session = true ↔ 0 < q.spends host x session)

section
variable {start : Head W} (h : Unhurried host x) (hstart : Counted start.state.steps.length start)
include h hstart

theorem loopFrom_reaches (hreach : Reaches (leftAlone host x session) start p)
    (hp : p.taken ≤ budget) :
    loopFrom host x session budget start = loopFrom host x session budget p := by
  have hgrows := grows_leftAlone h session start.state.steps.length
  induction hreach with
  | refl => rfl
  | tail hreach hstep ih =>
    rename_i q r
    have hq := hgrows.keeps hreach hstart
    have hlt := (hgrows q r hq hstep).2
    rw [ih (by omega),loopFrom_next h hq.1 (by omega) hstep]

/-- What the agent needs is seen where its budget is used up. -/
theorem needsMore_iff (hreach : Reaches (leftAlone host x session) start p) (hp : p.taken = budget)
    (hsingle : ∀ q, Reaches (leftAlone host x session) start q → q.taken + 1 = budget →
      q.spends host x session ≠ 2) :
    NeedsMore host x session start budget ↔ 0 < p.spends host x session := by
  have hgrows := grows_leftAlone h session start.state.steps.length
  constructor
  · rintro ⟨q,hq,hmore⟩
    have hle := spends_le q host x session
    rcases Nat.lt_trichotomy q.taken p.taken with hlt | heq | hlt
    · have htwo := hsingle q hq (by omega)
      omega
    · rw [← hgrows.unique hstart hq hreach heq]
      omega
    · obtain ⟨r,hnext,_⟩ := hgrows.next_of_lt hstart hreach hq hlt
      have hgoes := goesOn_of_next h (hgrows.keeps hreach hstart).1 hnext
      rcases hgoes.spends with hone | htwo
      · omega
      · omega
  · intro hpos
    exact ⟨p,hreach,by omega⟩

theorem over_of_single (hreach : Reaches (leftAlone host x session) start p)
    (hp : p.taken + 1 = budget) (htwo : p.spends host x session = 2) :
    start.state.steps.length + budget <
      (beforeCancelled (loopFrom host x session budget start).2.steps).length := by
  have hgrows := grows_leftAlone h session start.state.steps.length
  have hcounted := hgrows.keeps hreach hstart
  have hlength := hcounted.2
  rw [loopFrom_reaches h hstart hreach (by omega)]
  cases hstep : leftAlone host x session p with
  | next q =>
    have hgoes := goesOn_of_next h hcounted.1 hstep
    have hq := hgrows p q hcounted hstep
    have htaken := hgoes.taken
    rw [loopFrom_next h hcounted.1 (by omega) hstep,
      (loopFrom_last h session hq.1.1 (by omega)).1,hq.1.2]
    omega
  | halt result q =>
    have hend := comesToEnd_of_halt h hcounted.1 hstep
    rw [loopFrom_halt (by omega) hstep,hend.steps]
    omega

theorem not_needsMore_of_halt {result : Except Raised (LoopEnd x.stageWorker)}
    (hreach : Reaches (leftAlone host x session) start p) (hp : p.taken < budget)
    (hstep : leftAlone host x session p = .halt result q)
    (hsingle : ∀ q, Reaches (leftAlone host x session) start q → q.taken + 1 = budget →
      q.spends host x session ≠ 2) : ¬ NeedsMore host x session start budget := by
  have hgrows := grows_leftAlone h session start.state.steps.length
  rintro ⟨r,hr,hmore⟩
  have hle := spends_le r host x session
  have hover : r.taken + 1 = budget → False := fun hlast => hsingle r hr hlast (by omega)
  rcases hr.total hreach with hrp | hpr
  · rcases hrp.first with rfl | ⟨c,hc,hrest⟩
    · exact hover (by omega)
    · have hcounted := hgrows.keeps hr hstart
      have htaken := (goesOn_of_next h hcounted.1 hc).taken
      have hc' := hgrows.taken_le hrest (hgrows r c hcounted hc).1
      omega
  · rw [hpr.of_halts hstep] at hp
    exact hover (by omega)

theorem loop_meetsBudget_iff (hbudget : 0 < budget) :
    ((LoopLimited (loopFrom host x session budget start).1 ↔
        NeedsMore host x session start budget) ∧
      (beforeCancelled (loopFrom host x session budget start).2.steps).length ≤
        start.state.steps.length + budget) ↔ MeetsBudget host x session start budget := by
  have hgrows := grows_leftAlone h session start.state.steps.length
  constructor
  · rintro ⟨hlimited,hcount⟩
    have hsingle : ∀ q, Reaches (leftAlone host x session) start q → q.taken + 1 = budget →
        q.spends host x session ≠ 2 := by
      intro q hq hlast htwo
      have hover := over_of_single h hstart hq hlast htwo
      omega
    refine ⟨hsingle,fun q hq hlast => ?_⟩
    rw [← needsMore_iff h hstart hq hlast hsingle,← hlimited,
      loopFrom_reaches h hstart hq (by omega)]
    exact (loopFrom_last h session (hgrows.keeps hq hstart).1 (by omega)).2.symm
  · rintro ⟨hsingle,hlast⟩
    have hzero : start.taken < budget := by
      have hcounted := hstart.2
      omega
    rcases hgrows.uses_up_or_halts hstart hzero with
      ⟨p,q,hreach,hp,hnext,hused⟩ | ⟨p,result,q,⟨hreach,hhalt⟩,hp⟩
    · have hcounted := hgrows.keeps hreach hstart
      have hgoes := goesOn_of_next h hcounted.1 hnext
      have hq : Reaches (leftAlone host x session) start q := hreach.tail hnext
      have htaken : q.taken = budget := by
        have hspent := hgoes.taken
        rcases hgoes.spends with hone | htwo
        · omega
        · have hne : p.taken + 1 ≠ budget := fun heq => hsingle p hreach heq htwo
          omega
      have hqcounted := hgrows.keeps hq hstart
      have hend := loopFrom_last h session hqcounted.1 hused
      rw [loopFrom_reaches h hstart hq (by omega),needsMore_iff h hstart hq htaken hsingle,
        hend.1,hqcounted.2]
      exact ⟨hend.2.trans (hlast q hq htaken),by omega⟩
    · have hcounted := hgrows.keeps hreach hstart
      have hend := comesToEnd_of_halt h hcounted.1 hhalt
      have hlength := hcounted.2
      rw [loopFrom_reaches h hstart hreach (by omega),loopFrom_halt hp hhalt,hend.steps]
      refine ⟨⟨?_,?_⟩,?_⟩
      · rintro ⟨ended,hended,hreason⟩
        exact absurd hreason (hend.reason ended hended)
      · intro hmore
        exact absurd hmore (not_needsMore_of_halt h hstart hreach hp hhalt hsingle)
      · have hle := spends_le p host x session
        by_cases heq : p.taken + 1 = budget
        · have hne := hsingle p hreach heq
          omega
        · omega

end

/-- The run fails because the budget was used up. -/
def StepLimited (result : Except Raised Outcome) : Prop :=
  ∃ outcome, result = .ok outcome ∧ outcome.decision.reason = some .stepLimit

/-- No agent or tool step was recorded, and the run does not fail for its budget. -/
def Unrelated (s : Run W) (result : Except Raised Outcome × Run W) : Prop :=
  beforeCancelled result.2.steps = beforeCancelled s.steps ∧ ¬ StepLimited result.1

theorem unrelated_of_records {place : Place} {trail : Trail} {decision : Decision} {s : Run W}
    {result : Except Raised Outcome × Run W} (hreason : decision.reason ≠ some .stepLimit)
    (h : Records place trail decision s result.1 result.2) : Unrelated s result := by
  obtain ⟨result,t⟩ := result
  cases h with
  | stored w hfree h =>
    refine ⟨rfl,?_⟩
    rintro ⟨outcome,houtcome,hlimit⟩
    cases houtcome
    exact hreason hlimit
  | refused w message =>
    refine ⟨rfl,?_⟩
    rintro ⟨outcome,houtcome,hlimit⟩
    cases houtcome
    cases hlimit
  | raised w e =>
    refine ⟨rfl,?_⟩
    rintro ⟨outcome,houtcome,_⟩
    cases houtcome
  | disordered w message h =>
    refine ⟨rfl,?_⟩
    rintro ⟨outcome,houtcome,_⟩
    cases houtcome

theorem recordFailure_unrelated (host : Host W S) (place : Place) (trail : Trail)
    {reason : FailureReason} (hreason : reason ≠ .stepLimit) (message : String) (s : Run W) :
    Unrelated s (recordFailure host place trail reason message s) :=
  unrelated_of_records (by simpa [Decision.reason] using hreason)
    (recordFailure_spec host place trail reason message s)

theorem recordSuccess_unrelated (host : Host W S) (trail : Trail) (output : Value) (s : Run W) :
    Unrelated s (recordSuccess host trail output s) := by
  have hspec := recordSuccess_spec host trail output s
  generalize recordSuccess host trail output s = r at hspec ⊢
  obtain ⟨result,t⟩ := r
  cases hspec with
  | recorded h => exact unrelated_of_records (by simp [Decision.reason]) h
  | failed w message h =>
    exact unrelated_of_records (s := { s with world := w }) (by simp [Decision.reason]) h

theorem failed_unlimited {reason : FailureReason} (hreason : reason ≠ .stepLimit)
    {m : Task W (Failed x.stageWorker)} {s : Run W} (hfails : FailsWith reason s (m.alone s)) :
    beforeCancelled ((do
      let failure ← m
      pure (.failed failure) : Task W (LoopEnd x.stageWorker)).alone s).2.steps =
        beforeCancelled s.steps ∧
    ¬ LoopLimited ((do
      let failure ← m
      pure (.failed failure) : Task W (LoopEnd x.stageWorker)).alone s).1 := by
  rw [alone_bind,Act.bind_apply]
  generalize m.alone s = r at hfails
  obtain ⟨result,t⟩ := r
  cases result with
  | error e =>
    refine ⟨hfails.1.same,?_⟩
    rintro ⟨ended,hended,_⟩
    cases hended
  | ok failure =>
    refine ⟨hfails.1.same,?_⟩
    rintro ⟨ended,hended,hlimit⟩
    cases hended
    rcases hfails.2 failure rfl with hwhy | hwhy
    · exact hreason (Option.some.inj (hwhy.symm.trans hlimit))
    · cases hwhy.symm.trans hlimit

theorem drive_limited (host : Host W S) (x : Execution) (session : S) (s : Run W) :
    beforeCancelled ((drive host x session).alone s).2.steps = beforeCancelled
      (loopFrom host x session x.envelope.maxSteps ⟨0,none,s⟩).2.steps ∧
    (LoopLimited ((drive host x session).alone s).1 ↔
      LoopLimited (loopFrom host x session x.envelope.maxSteps ⟨0,none,s⟩).1) := by
  rw [drive,exceptOrdinary,alone_caught,Act.caught,show
    (loop host x session x.envelope.maxSteps 0 none).alone s =
      loopFrom host x session x.envelope.maxSteps ⟨0,none,s⟩ from rfl]
  generalize loopFrom host x session x.envelope.maxSteps ⟨0,none,s⟩ = r
  obtain ⟨result,t⟩ := r
  cases result with
  | ok ended => exact ⟨rfl,Iff.rfl⟩
  | error e =>
    have hraised : ¬ LoopLimited (.error e : Except Raised (LoopEnd x.stageWorker)) := by
      rintro ⟨ended,hended,_⟩
      cases hended
    by_cases hordinary : e.ordinary = true
    · simp only [hordinary,if_true]
      obtain ⟨hsteps,hlimited⟩ := failed_unlimited (by simp)
        (fail_failsWith host x x.outer session .agentError
          ("Agent raised an exception: " ++ e.text) t)
      exact ⟨hsteps,iff_of_false hlimited hraised⟩
    · simp only [hordinary]
      exact ⟨rfl,Iff.rfl⟩

def conclusion (host : Host W S) (task : TaskSpecification) (trail : Trail) (start : Decimal)
    (session : S) : Do W Outcome := do
  let ended ← (drive host (singleExecution host task trail start) session).alone
  match ended with
  | .failed failure => certify host trail (some failure,.none)
  | .finished output => do
    let ended ← (gate host (singleExecution host task trail start) session output).alone
    certify host trail ended

theorem gate_unlimited (host : Host W S) (x : Execution) (session : S) (output : Value)
    (s : Run W) :
    beforeCancelled ((gate host x session output).alone s).2.steps = beforeCancelled s.steps ∧
    ∀ failure v, ((gate host x session output).alone s).1 = .ok (some failure,v) →
      Failed.reason x.stageWorker failure ≠ some .stepLimit := by
  rw [gate,alone_bind,Act.bind_apply]
  rcases verifyOutput_cases host x output s with ⟨verification,hrun⟩ | ⟨e,_,hrun⟩
  · rw [show (act (verifyOutput host x output) : Task W VerificationResult).alone s = _ from hrun]
    by_cases hpassed : verification.passed = true
    · simp only [hpassed,if_true]
      refine ⟨rfl,fun failure v hfailure => ?_⟩
      cases hfailure
    · simp only [hpassed,Bool.false_eq_true,if_false]
      have hfails := fail_failsWith host x x.outer session .verificationFailed
        verification.message s
      rw [alone_bind,Act.bind_apply]
      generalize (fail host x x.outer session .verificationFailed
        verification.message).alone s = r at hfails
      obtain ⟨result,t⟩ := r
      cases result with
      | error e =>
        refine ⟨hfails.1.same,fun failure v hfailure => ?_⟩
        cases hfailure
      | ok failed =>
        refine ⟨hfails.1.same,fun failure v hfailure => ?_⟩
        cases hfailure
        intro hlimit
        rcases hfails.2 failed rfl with hwhy | hwhy
        · cases hwhy.symm.trans hlimit
        · cases hwhy.symm.trans hlimit
  · rw [show (act (verifyOutput host x output) : Task W VerificationResult).alone s = _ from hrun]
    refine ⟨rfl,fun failure v hfailure => ?_⟩
    cases hfailure

theorem conclusion_limited (host : Host W S) (task : TaskSpecification) (trail : Trail)
    (start : Decimal) (session : S) (s : Run W) :
    beforeCancelled (conclusion host task trail start session s).2.steps = beforeCancelled
      (loopFrom host (singleExecution host task trail start) session task.envelope.maxSteps
        ⟨0,none,s⟩).2.steps ∧ (StepLimited (conclusion host task trail start session s).1 ↔
      LoopLimited (loopFrom host (singleExecution host task trail start) session
        task.envelope.maxSteps ⟨0,none,s⟩).1) := by
  obtain ⟨hsteps,hlimited⟩ := drive_limited host (singleExecution host task trail start) session s
  rw [show (singleExecution host task trail start).envelope = task.envelope from rfl]
    at hsteps hlimited
  rw [conclusion,Act.bind_apply,← hsteps,← hlimited]
  generalize (drive host (singleExecution host task trail start) session).alone s = r
  obtain ⟨result,t⟩ := r
  cases result with
  | error e =>
    refine ⟨rfl,iff_of_false ?_ ?_⟩
    · rintro ⟨outcome,houtcome,_⟩
      cases houtcome
    · rintro ⟨ended,hended,_⟩
      cases hended
  | ok ended =>
    cases ended with
    | failed failure =>
      refine ⟨rfl,?_⟩
      constructor
      · rintro ⟨outcome,houtcome,hlimit⟩
        cases houtcome
        exact ⟨.failed failure,rfl,hlimit⟩
      · rintro ⟨ended,hended,hlimit⟩
        cases hended
        exact ⟨failure,rfl,hlimit⟩
    | finished output =>
      have hfinished : ¬ LoopLimited (.ok (.finished output) : Except Raised (LoopEnd false)) := by
        rintro ⟨ended,hended,hlimit⟩
        cases hended
        cases hlimit
      obtain ⟨hgate,hunlimited⟩ := gate_unlimited host (singleExecution host task trail start)
        session output t
      simp only [Act.bind_apply]
      generalize (gate host (singleExecution host task trail start) session output).alone t = r
        at hgate hunlimited
      obtain ⟨result,u⟩ := r
      cases result with
      | error e =>
        refine ⟨hgate,iff_of_false ?_ hfinished⟩
        rintro ⟨outcome,houtcome,_⟩
        cases houtcome
      | ok passed =>
        obtain ⟨found,value⟩ := passed
        cases found with
        | some failure =>
          refine ⟨hgate,iff_of_false ?_ hfinished⟩
          rintro ⟨outcome,houtcome,hlimit⟩
          cases houtcome
          exact hunlimited failure value rfl hlimit
        | none =>
          obtain ⟨hsteps,hnot⟩ := recordSuccess_unrelated host trail value u
          exact ⟨hsteps.trans hgate,iff_of_false hnot hfinished⟩

end

end AgentCentric.Manager

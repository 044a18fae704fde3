import AgentCentric.Manager.Actions

namespace AgentCentric.Manager
open Act (Ends Guarded)
open Thread (Stable)
open Proc

/-- An exception inside the `try`: the handler goes on from `K`, unless `except Exception` passes
over it. -/
def Inner {W : Type} (K : Run W → Prop) (E : Raised → Run W → Prop) (e : Raised) (s : Run W) :
    Prop :=
  (e.ordinary = true → K s) ∧ (e.ordinary = false → E e s)

theorem inner_same {W : Type} {K : Run W → Prop} {e : Raised} {s : Run W} (h : K s) :
    Inner K (fun _ => K) e s :=
  ⟨fun _ => h,fun _ => h⟩

/-- `I` holds while the agent goes on, `K` from where it is stopped, `L` after a step was lost. The
results are in `Q`, and what is raised in `E`. -/
structure Rules {W S : Type} (host : Host W S) (registry : Registry) (x : Execution)
    (R G : Run W → Run W → Prop) (I K L : Run W → Prop) (E : Raised → Run W → Prop)
    (Q : Option (Failed x.stageWorker) × Value → Run W → Prop) : Prop where
  going : ∀ s, I s → K s
  lost : ∀ s, L s → K s
  stable : Stable R I ∧ Stable R K ∧ Stable R L
  stable_raised : ∀ e, Stable R (E e)
  stable_result : ∀ r, Stable R (Q r)
  world : ∀ s w, (I s → G s { s with world := w } ∧ I { s with world := w }) ∧
    (K s → G s { s with world := w } ∧ K { s with world := w })
  session : ∀ manifest, registry.getByName x.trail.agentName = some manifest →
    Guarded G I (startSession host x manifest) (Ends (fun _ => I) (Inner K E))
  boundary : Guarded G I (readCancelEvent x) (Ends (fun b s => if b = true then K s else I s)
    fun _ _ => False)
  stepped : ∀ session sent, Guarded G I (takeStep host x session sent)
    (Ends (fun _ => I) fun _ _ => False)
  executed : ∀ name args, name ∈ x.tools → Guarded G I (executeTool host x name args)
    (Ends (fun _ => I) fun _ _ => False)
  raised : ∀ e s, I s → G s (s.note (.raised x.inner e)) ∧
    Inner K E e (s.note (.raised x.inner e))
  appended : ∀ record, Guarded G I (appendStep host x.inner record)
    (Ends (fun refused s => if refused.isSome = true then L s else I s) (Inner K E))
  stopped : ∀ record, Guarded G K (appendStep host x.inner record)
    (Ends (fun _ => K) (Inner K E))
  deferred : ∀ reason message, Guarded G K
    (deferredOrRecordedFailure host x.inner x.trail reason message x.stageWorker)
    (Ends (fun failure => Q (some failure,.none)) (Inner K E))
  recorded : ∀ reason message, Guarded G K
    (deferredOrRecordedFailure host x.outer x.trail reason message x.stageWorker)
    (Ends (fun failure => Q (some failure,.none)) E)
  persisted : ∀ message, Guarded G L (recordFailure host x.inner x.trail .internal message)
    (Ends (fun outcome => Q (some (unpersisted outcome x.stageWorker),.none)) (Inner K E))
  verified : ∀ output, Guarded G I (verifyOutput host x output) (Ends (fun _ => I) E)
  succeeded : ∀ s output, I s → Q (none,output) s

section
variable {W S : Type} {host : Host W S} {registry : Registry} {x : Execution}
  {R G : Run W → Run W → Prop} {I K L : Run W → Prop} {E : Raised → Run W → Prop}
  {Q : Option (Failed x.stageWorker) × Value → Run W → Prop}

def LoopPost (I : Run W → Prop) (Q : Option (Failed x.stageWorker) × Value → Run W → Prop) :
    LoopEnd x.stageWorker → Run W → Prop
  | .finished _, s => I s
  | .failed failure, s => Q (some failure,.none) s

def CheckPost (I K : Run W → Prop) (found : Option StageFailure) (s : Run W) : Prop :=
  if found.isSome = true then K s else I s

theorem stable_ite {b : Bool} (hK : Stable R K) (hI : Stable R I) :
    Stable R fun s => if b = true then K s else I s := by
  cases b with
  | true => exact hK
  | false => exact hI

theorem holds_firstOf {E' : Raised → Run W → Prop} {list : List (Task W (Option StageFailure))}
    (h : ∀ check ∈ list, Holds R G I check (Ends (CheckPost I K) E')) :
    Holds R G I (firstOf list) (Ends (CheckPost I K) E') := by
  induction list with
  | nil => exact holds_pure fun s hs => hs
  | cons check list ih =>
    refine holds_bind (h check (by simp)) fun found => ?_
    cases found with
    | some stop => exact holds_pure fun s hs => hs
    | none => exact ih fun c hc => h c (List.mem_cons_of_mem _ hc)

namespace Rules

theorem holds_quiet (h : Rules host registry x R G I K L E Q) {α : Type} {m : Do W α}
    (hm : Quiet m) {E' : Raised → Run W → Prop} :
    Holds R G I (act m) (Ends (fun _ => I) E') := by
  have hguarded : Guarded G I m (Ends (fun _ => I) fun _ _ => False) := by
    intro s hs
    obtain ⟨a,w,hrun⟩ := hm s
    rw [hrun]
    exact (h.world s w).1 hs
  refine holds_weaken (holds_act hguarded (fun _ => h.stable.1) fun _ _ _ _ hs => hs)
    (fun s hs => hs) fun r s hr => ?_
  exact hr.imp (fun _ h => h) fun _ h => h.elim

theorem holds_quiet_stopped (h : Rules host registry x R G I K L E Q) {α : Type} {m : Do W α}
    (hm : Quiet m) {E' : Raised → Run W → Prop} :
    Holds R G K (act m) (Ends (fun _ => K) E') := by
  have hguarded : Guarded G K m (Ends (fun _ => K) fun _ _ => False) := by
    intro s hs
    obtain ⟨a,w,hrun⟩ := hm s
    rw [hrun]
    exact (h.world s w).2 hs
  refine holds_weaken (holds_act hguarded (fun _ => h.stable.2.1) fun _ _ _ _ hs => hs)
    (fun s hs => hs) fun r s hr => ?_
  exact hr.imp (fun _ h => h) fun _ h => h.elim

theorem stable_inner (h : Rules host registry x R G I K L E Q) (e : Raised) :
    Stable R (Inner K E e) := by
  intro s t hst hs
  exact ⟨fun he => h.stable.2.1 s t hst (hs.1 he),fun he => h.stable_raised e s t hst (hs.2 he)⟩

theorem holds_deferred (h : Rules host registry x R G I K L E Q) (reason : FailureReason)
    (message : String) : Holds R G K
      (act (deferredOrRecordedFailure host x.inner x.trail reason message x.stageWorker))
      (Ends (fun failure => Q (some failure,.none)) (Inner K E)) :=
  holds_act (h.deferred reason message) (fun _ => h.stable_result _) h.stable_inner

theorem holds_recorded (h : Rules host registry x R G I K L E Q) (reason : FailureReason)
    (message : String) : Holds R G K
      (act (deferredOrRecordedFailure host x.outer x.trail reason message x.stageWorker))
      (Ends (fun failure => Q (some failure,.none)) E) :=
  holds_act (h.recorded reason message) (fun _ => h.stable_result _) h.stable_raised

theorem holds_fail (h : Rules host registry x R G I K L E Q) (session : S)
    (reason : FailureReason) (message : String) :
    Holds R G K (fail host x x.inner session reason message)
      (Ends (fun failure => Q (some failure,.none)) (Inner K E)) :=
  holds_bind (h.holds_quiet_stopped (quiet_close session)) fun _ => h.holds_deferred reason message

theorem holds_fail_outer (h : Rules host registry x R G I K L E Q) (session : S)
    (reason : FailureReason) (message : String) :
    Holds R G K (fail host x x.outer session reason message)
      (Ends (fun failure => Q (some failure,.none)) E) :=
  holds_bind (h.holds_quiet_stopped (quiet_close session)) fun _ => h.holds_recorded reason message

theorem holds_stopped (h : Rules host registry x R G I K L E Q) (record : StepRecord Value) :
    Holds R G K (act (appendStep host x.inner record)) (Ends (fun _ => K) (Inner K E)) :=
  holds_act (h.stopped record) (fun _ => h.stable.2.1) h.stable_inner

theorem holds_cancel (h : Rules host registry x R G I K L E Q) (session : S)
    (reason : FailureReason) (message : String) : Holds R G K (cancel host x session reason message)
      (Ends (fun failure => Q (some failure,.none)) (Inner K E)) := by
  refine holds_bind (h.holds_stopped _) fun refused => ?_
  refine holds_ite (fun _ => h.holds_deferred _ _) fun _ => ?_
  refine holds_bind (h.holds_quiet_stopped (quiet_sendCancelled session message)) fun _ => ?_
  refine holds_bind (h.holds_quiet_stopped (quiet_close session)) fun _ => ?_
  refine holds_bind (h.holds_quiet_stopped (quiet_wasForced session)) fun forced => ?_
  refine holds_ite (fun _ => ?_) fun _ => h.holds_fail session reason message
  refine holds_bind (h.holds_stopped _) fun refused => ?_
  exact holds_ite (fun _ => h.holds_deferred _ _) fun _ => h.holds_fail session reason message

theorem holds_cancelled (h : Rules host registry x R G I K L E Q) (session : S)
    (reason : FailureReason) (message : String) :
    Holds R G K (cancelled host x session reason message) (Ends (LoopPost I Q) (Inner K E)) :=
  holds_bind (h.holds_cancel session reason message) fun _ => holds_pure fun _ hs => hs

theorem holds_failed (h : Rules host registry x R G I K L E Q) (session : S)
    (reason : FailureReason) (message : String) :
    Holds R G K (do
      let failure ← fail host x x.inner session reason message
      pure (LoopEnd.failed failure)) (Ends (LoopPost I Q) (Inner K E)) :=
  holds_bind (h.holds_fail session reason message) fun _ => holds_pure fun _ hs => hs

theorem holds_limit (h : Rules host registry x R G I K L E Q) {α : Type} {m : Do W α}
    (hm : Quiet m) (past : α → Bool) (stop : α → StageFailure) :
    Holds R G I (do
      let a ← act m
      if past a = true then pure (some (stop a)) else pure none)
      (Ends (CheckPost I K) (Inner K E)) := by
  refine holds_bind (h.holds_quiet hm) fun a => ?_
  exact holds_ite (fun _ => holds_pure fun s hs => h.going s hs) fun _ => holds_pure fun s hs => hs

theorem holds_checks (h : Rules host registry x R G I K L E Q) :
    Holds R G I (firstOf (checks host x)) (Ends (CheckPost I K) (Inner K E)) := by
  refine holds_firstOf fun check hcheck => ?_
  simp only [checks,List.mem_cons,List.not_mem_nil,or_false] at hcheck
  obtain rfl | rfl | rfl | rfl := hcheck
  · refine holds_bind (Q := fun b s => if b = true then K s else I s) ?_ fun isSet => ?_
    · refine holds_weaken (holds_act h.boundary (fun b => stable_ite h.stable.2.1 h.stable.1)
        fun _ _ _ _ hs => hs) (fun s hs => hs) fun r s hr => ?_
      exact hr.imp (fun _ h => h) fun _ h => h.elim
    · cases isSet with
      | true => exact holds_pure fun s hs => hs
      | false => exact holds_pure fun s hs => hs
  · unfold checkCompositionTimeout
    cases x.composition with
    | none => exact holds_pure fun s hs => hs
    | some composition =>
      exact h.holds_limit (quiet_elapsedSince _) (fun d => exceeds d _) fun _ => _
  · exact h.holds_limit (quiet_elapsedSince _) (fun d => exceeds d _) fun _ => _
  · unfold checkCompositionSteps
    cases x.composition with
    | none => exact holds_pure fun s hs => hs
    | some composition =>
      refine holds_bind (h.holds_quiet quiet_stepCount) fun count => ?_
      exact holds_ite (fun _ => holds_pure fun s hs => h.going s hs) fun _ =>
        holds_pure fun s hs => hs

theorem holds_appended (h : Rules host registry x R G I K L E Q) (record : StepRecord Value) :
    Holds R G I (act (appendStep host x.inner record))
      (Ends (fun refused s => if refused.isSome = true then L s else I s) (Inner K E)) :=
  holds_act (h.appended record) (fun _ => stable_ite h.stable.2.2 h.stable.1) h.stable_inner

theorem holds_refused (h : Rules host registry x R G I K L E Q) {α : Type}
    {record : StepRecord Value} {m n : Task W α} {Post : Except Raised α → Run W → Prop}
    {P : α → Run W → Prop} (hpost : Post = Ends P (Inner K E)) (hm : Holds R G L m Post)
    (hn : Holds R G I n Post) : Holds R G I (do
      let refused ← act (appendStep host x.inner record)
      if refused.isSome = true then m else n) Post := by
  subst hpost
  refine holds_bind (h.holds_appended record) fun refused => ?_
  refine holds_ite (fun hrefused => ?_) fun hrefused => ?_
  · exact holds_weaken hm (fun s hs => by rwa [if_pos hrefused] at hs) fun _ _ hr => hr
  · exact holds_weaken hn (fun s hs => by rwa [if_neg hrefused] at hs) fun _ _ hr => hr

/-- What is known of a delivery: after a lost step there is none. -/
def DeliveryPost (I K : Run W → Prop) (delivery : Option ToolDelivery) (s : Run W) : Prop :=
  if delivery.isSome = true then I s else K s

theorem holds_mediateTool (h : Rules host registry x R G I K L E Q) (name : String)
    (args : List (String × Value)) :
    Holds R G I (mediateTool host x name args) (Ends (DeliveryPost I K) (Inner K E)) := by
  refine holds_ite (fun _ => ?_) fun hgranted => ?_
  · exact h.holds_refused rfl (holds_pure fun s hs => h.lost s hs) (holds_pure fun s hs => hs)
  · refine h.holds_refused rfl (holds_pure fun s hs => h.lost s hs) ?_
    refine holds_bind (Q := fun _ => I) ?_ fun executed => ?_
    · refine holds_weaken (holds_act (h.executed name args (not_not.1 hgranted))
        (fun _ => h.stable.1) fun _ _ _ _ hs => hs) (fun s hs => hs) fun r s hr => ?_
      exact hr.imp (fun _ h => h) fun _ h => h.elim
    · cases executed with
      | raised e =>
        refine holds_act (fun s hs => ?_) (fun _ => stable_ite h.stable.1 h.stable.2.1)
          h.stable_inner
        exact h.raised e s hs
      | toolExecution text =>
        exact h.holds_refused rfl (holds_pure fun s hs => h.lost s hs)
          (holds_pure fun s hs => hs)
      | output output =>
        exact h.holds_refused rfl (holds_pure fun s hs => h.lost s hs)
          (holds_pure fun s hs => hs)

theorem holds_handleItem (h : Rules host registry x R G I K L E Q) (session : S) (stageStep : Nat)
    {one two : Option ToolResult → Task W (LoopEnd x.stageWorker)} (item : Item)
    (elapsed : Decimal) (hone : ∀ sent, Holds R G I (one sent) (Ends (LoopPost I Q) (Inner K E)))
    (htwo : ∀ sent, Holds R G I (two sent) (Ends (LoopPost I Q) (Inner K E))) :
    Holds R G I (handleItem host x session stageStep one two item elapsed)
      (Ends (LoopPost I Q) (Inner K E)) := by
  have hunsupported := holds_weaken (h.holds_failed session .agentError
    ("Agent yielded an unsupported value at step " ++ toString stageStep ++ ".")) h.going
    fun _ _ hr => hr
  cases item with
  | result output => exact hunsupported
  | unsupported => exact hunsupported
  | step description detail =>
    refine holds_bind (h.holds_quiet quiet_stepCount) fun index => ?_
    refine holds_bind (Q := fun found s => if found.isSome = true then
      LoopPost I Q (.failed (unpersisted (found.getD ⟨"","",.verified .none,[],none⟩)
        x.stageWorker)) s else I s) ?_ fun found => ?_
    · refine h.holds_refused rfl ?_ (holds_pure fun s hs => hs)
      refine holds_bind (holds_act (h.persisted _) (fun _ => h.stable_result _) h.stable_inner)
        fun outcome => ?_
      exact holds_pure fun s hs => hs
    · cases found with
      | some outcome => exact holds_pure fun s hs => hs
      | none => exact hone none
  | request name args =>
    refine holds_bind (h.holds_mediateTool name args) fun delivery => ?_
    cases delivery with
    | none => exact h.holds_failed session .internal _
    | some delivery => exact holds_ite (fun _ => hone _) fun _ => htwo _

theorem holds_turn (h : Rules host registry x R G I K L E Q) (session : S) (stageStep : Nat)
    (sent : Option ToolResult) {one two : Option ToolResult → Task W (LoopEnd x.stageWorker)}
    (hone : ∀ sent, Holds R G I (one sent) (Ends (LoopPost I Q) (Inner K E)))
    (htwo : ∀ sent, Holds R G I (two sent) (Ends (LoopPost I Q) (Inner K E))) :
    Holds R G I (turn host x session stageStep sent one two) (Ends (LoopPost I Q) (Inner K E)) := by
  refine holds_bind h.holds_checks fun stop => ?_
  cases stop with
  | some stop => exact h.holds_cancelled session stop.reason stop.message
  | none =>
    refine holds_bind (h.holds_quiet quiet_clock) fun stepStart => ?_
    refine holds_bind (Q := fun _ => I) ?_ fun next => ?_
    · refine holds_weaken (holds_act (h.stepped session sent) (fun _ => h.stable.1)
        fun _ _ _ _ hs => hs) (fun s hs => hs) fun r s hr => ?_
      exact hr.imp (fun _ h => h) fun _ h => h.elim
    · have hgoing : ∀ {m : Task W (LoopEnd x.stageWorker)},
          Holds R G K m (Ends (LoopPost I Q) (Inner K E)) →
          Holds R G I m (Ends (LoopPost I Q) (Inner K E)) :=
        fun hm => holds_weaken hm h.going fun _ _ hr => hr
      cases next with
      | raised e =>
        refine holds_act (fun s hs => h.raised e s hs) (fun r => ?_) h.stable_inner
        cases r with
        | finished output => exact h.stable.1
        | failed failure => exact h.stable_result _
      | subprocessTimeout text => exact hgoing (h.holds_cancelled session .timeout _)
      | agentExecution text => exact hgoing (h.holds_failed session .agentError _)
      | item item =>
        cases item with
        | result output => exact holds_pure fun s hs => hs
        | _ =>
          refine holds_bind (h.holds_quiet (quiet_elapsedSince stepStart)) fun elapsed => ?_
          cases overStepBudget x elapsed with
          | some limit => exact hgoing (h.holds_cancelled session .timeout _)
          | none => exact h.holds_handleItem session stageStep _ elapsed hone htwo

theorem holds_lastTurn (h : Rules host registry x R G I K L E Q) (session : S) :
    Holds R G I (lastTurn host x session) (Ends (LoopPost I Q) (Inner K E)) := by
  refine holds_bind h.holds_checks fun stop => ?_
  cases stop with
  | some stop => exact h.holds_cancelled session stop.reason stop.message
  | none =>
    exact holds_weaken (h.holds_cancelled session .stepLimit _) h.going fun _ _ hr => hr

theorem holds_loop (h : Rules host registry x R G I K L E Q) (session : S) (left : Nat) :
    ∀ stageStep sent, Holds R G I (loop host x session left stageStep sent)
      (Ends (LoopPost I Q) (Inner K E)) := by
  induction left using Nat.twoStepInduction with
  | zero => exact fun _ _ => h.holds_lastTurn session
  | one =>
    exact fun n sent => h.holds_turn session n sent (fun _ => h.holds_lastTurn session)
      fun _ => h.holds_lastTurn session
  | more left ih ih' =>
    exact fun n sent => h.holds_turn session n sent (fun sent => ih' (n + 1) sent)
      fun sent => ih (n + 2) sent

theorem holds_exceptOrdinary {α : Type} {P : Run W → Prop} {A : α → Run W → Prop}
    {m : Task W α} {handler : String → Task W α} (hm : Holds R G P m (Ends A (Inner K E)))
    (hh : ∀ text, Holds R G K (handler text) (Ends A E)) :
    Holds R G P (exceptOrdinary m handler) (Ends A E) := by
  refine holds_caught hm fun e => ?_
  refine holds_ite (fun hordinary => ?_) fun hodd => ?_
  · exact holds_weaken (hh e.text) (fun s hs => hs.1 hordinary) fun _ _ hr => hr
  · exact holds_raise fun s hs => hs.2 (by simpa using hodd)

def OpenPost (I : Run W → Prop) (Q : Option (Failed x.stageWorker) × Value → Run W → Prop) :
    Failed x.stageWorker ⊕ S → Run W → Prop
  | .inl failure, s => Q (some failure,.none) s
  | .inr _, s => I s

theorem holds_openSession (h : Rules host registry x R G I K L E Q) :
    Holds R G I (openSession host registry x) (Ends (OpenPost I Q) E) := by
  refine holds_exceptOrdinary (K := K) ?_ fun text => ?_
  · cases hfound : registry.getByName x.trail.agentName with
    | none =>
      refine holds_bind (holds_weaken (h.holds_deferred .unknownAgent _) h.going
        fun _ _ hr => hr) fun failure => ?_
      exact holds_pure fun s hs => hs
    | some manifest =>
      refine holds_bind (holds_act (h.session manifest hfound) (fun _ => h.stable.1)
        h.stable_inner) fun session => ?_
      exact holds_pure fun s hs => hs
  · refine holds_bind (h.holds_recorded .internal _) fun failure => ?_
    exact holds_pure fun s hs => hs

theorem holds_drive (h : Rules host registry x R G I K L E Q) (session : S) :
    Holds R G I (drive host x session) (Ends (LoopPost I Q) E) := by
  refine holds_exceptOrdinary (K := K) (h.holds_loop session _ 0 none) fun text => ?_
  refine holds_bind (h.holds_fail_outer session .agentError _) fun failure => ?_
  exact holds_pure fun s hs => hs

theorem holds_gate (h : Rules host registry x R G I K L E Q) (session : S) (output : Value) :
    Holds R G I (gate host x session output) (Ends Q E) := by
  refine holds_bind (holds_act (h.verified output) (fun _ => h.stable.1) h.stable_raised)
    fun verification => ?_
  refine holds_ite (fun _ => ?_) fun _ => ?_
  · refine holds_bind (h.holds_quiet (quiet_close session)) fun _ => ?_
    exact holds_pure fun s hs => h.succeeded s output hs
  · refine holds_bind (holds_weaken (h.holds_fail_outer session .verificationFailed _) h.going
      fun _ _ hr => hr) fun failure => ?_
    exact holds_pure fun s hs => hs

/-- An agent is driven as the rules say, whatever others do along `R`. -/
theorem holds_executeAgent (h : Rules host registry x R G I K L E Q) :
    Holds R G I (executeAgent host registry x) (Ends Q E) := by
  refine holds_bind h.holds_openSession fun opened => ?_
  cases opened with
  | inl failure => exact holds_pure fun s hs => hs
  | inr session =>
    refine holds_bind (h.holds_drive session) fun ended => ?_
    cases ended with
    | failed failure => exact holds_pure fun s hs => hs
    | finished output => exact h.holds_gate session output

end Rules

end

end AgentCentric.Manager

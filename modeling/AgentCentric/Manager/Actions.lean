import AgentCentric.Manager.Manage

namespace AgentCentric.Manager

def Quiet {W α : Type} (m : Do W α) : Prop := ∀ s, ∃ a w, m s = (.ok a,{ s with world := w })

/-- A step was appended in memory, and the store took it or did not. -/
inductive Appends {W : Type} (place : Place) (s : Run W) :
    Except Raised (Option String) → Run W → Prop where
  | stored (w : W) (r : StepRecord Value) (h : r.stepIndex = s.steps.length) :
      Appends place s (.ok none)
        { s with world := w, steps := s.steps ++ [r], log := s.log ++ [.step r] }
  | refused (w : W) (r : StepRecord Value) (text : String) (h : r.stepIndex = s.steps.length) :
      Appends place s (.ok (some text))
        ({ s with world := w, steps := s.steps ++ [r] }.note .lost)
  | raised (w : W) (r : StepRecord Value) (e : Raised) (h : r.stepIndex = s.steps.length) :
      Appends place s (.error e)
        (({ s with world := w, steps := s.steps ++ [r] }.note .lost).note (.raised place e))

inductive Records {W : Type} (place : Place) (trail : Trail) (decision : Decision) (s : Run W) :
    Except Raised Outcome → Run W → Prop where
  | stored (w : W) (hfree : s.log.any (·.isOutcome) = false) (h : indexError 0 s.steps = none) :
      Records place trail decision s
        (.ok ⟨trail.taskId,trail.agentName,decision,s.steps,some trail.trajectoryId⟩)
        { s with world := w, log := s.log ++ [.outcome decision.stored] }
  | refused (w : W) (message : String) :
      Records place trail decision s (.ok (buildInternalFailure trail message))
        { s with world := w }
  | raised (w : W) (e : Raised) :
      Records place trail decision s (.error e) ({ s with world := w }.note (.raised place e))
  | disordered (w : W) (message : String) (h : indexError 0 s.steps = some message) :
      Records place trail decision s (.error ⟨true,message⟩)
        ({ s with world := w, log := s.log ++ [LogEntry.outcome decision.stored] }.note
          (.raised place ⟨true,message⟩))

inductive Certifies {W : Type} (trail : Trail) (output : Value) (s : Run W) :
    Except Raised Outcome → Run W → Prop where
  | recorded {result : Except Raised Outcome} {t : Run W}
      (h : Records .caller trail (.verified output) s result t) : Certifies trail output s result t
  | failed (w : W) (message : String) {result : Except Raised Outcome} {t : Run W}
      (h : Records .caller trail (.failure .internal message) { s with world := w } result t) :
      Certifies trail output s result t

section
variable {W S : Type} {host : Host W S}

theorem quiet_ask {α : Type} (call : W → α × W) : Quiet (ask call) :=
  fun s => ⟨(call s.world).1,(call s.world).2,rfl⟩

theorem Quiet.bind {α β : Type} {m : Do W α} {f : α → Do W β} (hm : Quiet m)
    (hf : ∀ a, Quiet (f a)) : Quiet (m >>= f) := by
  intro s
  obtain ⟨a,w,h⟩ := hm s
  obtain ⟨b,w',h'⟩ := hf a { s with world := w }
  exact ⟨b,w',(Act.bind_ok h).trans h'⟩

theorem quiet_pure {α : Type} (a : α) : Quiet (pure a : Do W α) :=
  fun s => ⟨a,s.world,rfl⟩

theorem quiet_clock : Quiet (clock host) := quiet_ask host.monotonic

theorem quiet_elapsedSince (start : Decimal) : Quiet (elapsedSince host start) :=
  quiet_clock.bind fun now => quiet_pure (host.minus now start)

theorem quiet_stepCount : Quiet (stepCount : Do W Nat) := fun s => ⟨s.steps.length,s.world,rfl⟩

theorem quiet_close (session : S) : Quiet (close host session) :=
  fun s => ⟨(),host.close session s.world,rfl⟩

theorem quiet_sendCancelled (session : S) (message : String) :
    Quiet (sendCancelled host session message) :=
  fun s => ⟨(),host.cancel session message s.world,rfl⟩

theorem quiet_wasForced (session : S) : Quiet (wasForced host session) :=
  fun s => ⟨host.forced session s.world,s.world,rfl⟩

theorem quiet_stageAccount (i : Nat) (agent : String) (start : Decimal) (startedSteps : Nat) :
    Quiet (stageAccount host i agent start startedSteps) :=
  (quiet_elapsedSince start).bind fun _ => quiet_stepCount.bind fun _ => quiet_pure _

theorem quiet_joinBranches (rows : List (Branch × Except Raised WorkerEnd)) (i : Nat)
    (failure : Option StageFailure) : Quiet (joinBranches host i failure rows) := by
  induction rows generalizing i failure with
  | nil => exact quiet_pure _
  | cons row rows ih =>
    refine (quiet_elapsedSince row.1.start).bind fun elapsed => ?_
    cases workerEnd row.2 with
    | mk found output =>
      cases found with
      | none => exact (ih (i + 1) failure).bind fun _ => quiet_pure _
      | some found => exact (ih (i + 1) (failure <|> some found)).bind fun _ => quiet_pure _

theorem appendStep_spec (host : Host W S) (place : Place) (record : StepRecord Value) (s : Run W) :
    Appends place s (appendStep host place record s).1 (appendStep host place record s).2 := by
  cases h : host.append { record with stepIndex := s.steps.length } s.world with
  | mk taking w =>
    cases taking with
    | stored =>
      have hrun : appendStep host place record s = (.ok none,{ s with
          world := w
          steps := s.steps ++ [{ record with stepIndex := s.steps.length }]
          log := s.log ++ [.step { record with stepIndex := s.steps.length }] }) := by
        simp only [appendStep,storeAppend,ask,Act.read,Act.write,Act.bind_apply,Act.pure_apply,h]
      rw [hrun]
      exact .stored w _ rfl
    | refused text =>
      have hrun : appendStep host place record s = (.ok (some text),{ s with
          world := w
          steps := s.steps ++ [{ record with stepIndex := s.steps.length }] }.note .lost) := by
        simp only [appendStep,storeAppend,ask,note,Act.read,Act.write,Act.bind_apply,
          Act.pure_apply,h]
      rw [hrun]
      exact .refused w _ text rfl
    | raised e =>
      have hrun : appendStep host place record s = (.error e,({ s with
          world := w
          steps := s.steps ++ [{ record with stepIndex := s.steps.length }] }.note .lost).note
            (.raised place e)) := by
        simp only [appendStep,storeAppend,ask,note,raising,Act.read,Act.write,Act.raise,
          Act.bind_apply,h]
      rw [hrun]
      exact .raised w _ e rfl

/-- A step that the store did not take is noted. -/
theorem lost_of_appends {place : Place} {s t : Run W} {result : Except Raised (Option String)}
    (h : Appends place s result t) (hresult : result ≠ .ok none) : .lost ∈ t.trace := by
  cases h with
  | stored w r h => exact absurd rfl hresult
  | refused w r text h => simp [Run.note]
  | raised w r e h => simp [Run.note]

theorem sealSteps_none {s : Run W} (place : Place) (h : indexError 0 s.steps = none) :
    sealSteps place s = (.ok s.steps,s) := by
  simp only [sealSteps,Act.read,Act.bind_apply,h,Act.pure_apply]

theorem sealSteps_some {s : Run W} {message : String} (place : Place)
    (h : indexError 0 s.steps = some message) :
    sealSteps place s = (.error ⟨true,message⟩,s.note (.raised place ⟨true,message⟩)) := by
  simp only [sealSteps,Act.read,Act.bind_apply,h,raising,note,Act.write,Act.raise]

theorem storeOutcome_cases (host : Host W S) (place : Place) (trail : Trail)
    (outcome : StoredOutcome Value) (s : Run W) : ∃ w,
    (s.log.any (·.isOutcome) = false ∧ storeOutcome host place trail outcome s =
      (.ok none,{ s with world := w, log := s.log ++ [.outcome outcome] })) ∨
    (∃ text, storeOutcome host place trail outcome s = (.ok (some text),{ s with world := w })) ∨
    ∃ e, storeOutcome host place trail outcome s =
      (.error e,{ s with world := w }.note (.raised place e)) := by
  cases hany : s.log.any (·.isOutcome) with
  | true =>
    refine ⟨s.world,.inr (.inl ⟨"Outcome for trajectory " ++ pyRepr trail.trajectoryId ++
      " already recorded.",?_⟩)⟩
    simp only [storeOutcome,Act.read,Act.bind_apply,hany,if_true,Act.pure_apply]
  | false =>
    cases h : host.record outcome s.world with
    | mk taking w =>
      refine ⟨w,?_⟩
      cases taking with
      | stored =>
        refine .inl ⟨rfl,?_⟩
        simp only [storeOutcome,ask,Act.read,Act.write,Act.bind_apply,hany,Bool.false_eq_true,
          if_false,h,Act.pure_apply]
      | refused text =>
        refine .inr (.inl ⟨text,?_⟩)
        simp only [storeOutcome,ask,Act.read,Act.bind_apply,hany,Bool.false_eq_true,if_false,h,
          Act.pure_apply]
      | raised e =>
        refine .inr (.inr ⟨e,?_⟩)
        simp only [storeOutcome,ask,note,raising,Act.read,Act.write,Act.raise,Act.bind_apply,hany,
          Bool.false_eq_true,if_false,h]

theorem recordFailure_spec (host : Host W S) (place : Place) (trail : Trail)
    (reason : FailureReason) (message : String) (s : Run W) :
    Records place trail (.failure reason message) s
      (recordFailure host place trail reason message s).1
      (recordFailure host place trail reason message s).2 := by
  obtain ⟨w,⟨hfree,h⟩ | ⟨text,h⟩ | ⟨e,h⟩⟩ := storeOutcome_cases host place trail
    (Decision.failure reason message).stored s
  · cases hindex : indexError 0 s.steps with
    | none =>
      have hrun : recordFailure host place trail reason message s =
          (.ok ⟨trail.taskId,trail.agentName,.failure reason message,s.steps,
            some trail.trajectoryId⟩,{ s with
              world := w
              log := s.log ++ [.outcome (Decision.failure reason message).stored] }) := by
        rw [recordFailure,Act.bind_ok h]
        exact Act.bind_ok (sealSteps_none place hindex)
      rw [hrun]
      exact .stored w hfree hindex
    | some found =>
      have hrun : recordFailure host place trail reason message s =
          (.error ⟨true,found⟩,{ s with
            world := w
            log := s.log ++ [LogEntry.outcome (Decision.failure reason message).stored] }.note
              (.raised place ⟨true,found⟩)) := by
        rw [recordFailure,Act.bind_ok h]
        exact Act.bind_error (sealSteps_some place hindex)
      rw [hrun]
      exact .disordered w found hindex
  · have hrun : recordFailure host place trail reason message s =
        (.ok (buildInternalFailure trail
          ("Failed to persist failure outcome (" ++ reason.value ++ "): " ++ text)),
          { s with world := w }) := by
      rw [recordFailure,Act.bind_ok h]
      rfl
    rw [hrun]
    exact .refused w _
  · rw [recordFailure,Act.bind_error h]
    exact .raised w e

theorem recordSuccess_spec (host : Host W S) (trail : Trail) (output : Value) (s : Run W) :
    Certifies trail output s (recordSuccess host trail output s).1
      (recordSuccess host trail output s).2 := by
  obtain ⟨w,⟨hfree,h⟩ | ⟨text,h⟩ | ⟨e,h⟩⟩ := storeOutcome_cases host .caller trail
    (Decision.verified output).stored s
  · cases hindex : indexError 0 s.steps with
    | none =>
      have hrun : recordSuccess host trail output s =
          (.ok ⟨trail.taskId,trail.agentName,.verified output,s.steps,
            some trail.trajectoryId⟩,{ s with
              world := w
              log := s.log ++ [.outcome (Decision.verified output).stored] }) := by
        rw [recordSuccess,Act.bind_ok h]
        exact Act.bind_ok (sealSteps_none .caller hindex)
      rw [hrun]
      exact .recorded (.stored w hfree hindex)
    | some found =>
      have hrun : recordSuccess host trail output s = (.error ⟨true,found⟩,{ s with
            world := w
            log := s.log ++ [LogEntry.outcome (Decision.verified output).stored] }.note
              (.raised .caller ⟨true,found⟩)) := by
        rw [recordSuccess,Act.bind_ok h]
        exact Act.bind_error (sealSteps_some .caller hindex)
      rw [hrun]
      exact .recorded (.disordered w found hindex)
  · have hrun : recordSuccess host trail output s = recordFailure host .caller trail .internal
        ("Failed to persist verified outcome: " ++ text) { s with world := w } := by
      rw [recordSuccess,Act.bind_ok h]
    rw [hrun]
    exact .failed w _ (recordFailure_spec _ _ _ _ _ _)
  · have hrun : recordSuccess host trail output s =
        (.error e,{ s with world := w }.note (.raised .caller e)) := by
      rw [recordSuccess,Act.bind_error h]
    rw [hrun]
    exact .recorded (.raised w e)

theorem raising_run {α : Type} (place : Place) (e : Raised) (s : Run W) :
    (raising place e : Do W α) s = (.error e,s.note (.raised place e)) := rfl

theorem storeBegin_cases (host : Host W S) (s : Run W) : ∃ w,
    (∃ refused, storeBegin host s = (.ok refused,{ s with world := w })) ∨
    ∃ e, storeBegin host s = (.error e,{ s with world := w }.note (.raised .caller e)) := by
  cases h : host.begin s.world with
  | mk taking w =>
    refine ⟨w,?_⟩
    cases taking with
    | stored =>
      refine .inl ⟨none,?_⟩
      simp only [storeBegin,ask,Act.bind_apply,h,Act.pure_apply]
    | refused text =>
      refine .inl ⟨some text,?_⟩
      simp only [storeBegin,ask,Act.bind_apply,h,Act.pure_apply]
    | raised e =>
      refine .inr ⟨e,?_⟩
      simp only [storeBegin,ask,Act.bind_apply,h,raising_run]

theorem startSession_cases (host : Host W S) (x : Execution) (manifest : AgentComponentManifest)
    (s : Run W) : ∃ w, (∃ session, startSession host x manifest s = (.ok session,
      { s.note (.started x.seat manifest.name x.payload x.tools) with world := w })) ∨
    ∃ e, startSession host x manifest s = (.error e,
      { s.note (.started x.seat manifest.name x.payload x.tools) with world := w }.note
        (.raised x.inner e)) := by
  cases h : host.session manifest x.payload x.envelope.maxSteps x.tools
      x.envelope.timeoutSeconds s.world with
  | mk result w =>
    refine ⟨w,?_⟩
    cases result with
    | ok session =>
      refine .inl ⟨session,?_⟩
      simp only [startSession,note,ask,Act.write,Act.bind_apply,Run.note,h,Act.pure_apply]
    | error e =>
      refine .inr ⟨e,?_⟩
      simp only [startSession,note,ask,raising,Act.write,Act.raise,Act.bind_apply,Run.note,h]

theorem takeStep_run (host : Host W S) (x : Execution) (session : S) (sent : Option ToolResult)
    (s : Run W) : ∃ next w, takeStep host x session sent s =
      (.ok next,{ s.note (.stepped x.seat) with world := w }) :=
  ⟨_,_,rfl⟩

theorem executeTool_run (host : Host W S) (x : Execution) (name : String)
    (args : List (String × Value)) (s : Run W) : ∃ executed w, executeTool host x name args s =
      (.ok executed,{ s.note (.executed x.seat name) with world := w }) :=
  ⟨_,_,rfl⟩

theorem readCancelEvent_run (x : Execution) (s : Run W) : readCancelEvent x s =
    (.ok (x.stageWorker && s.cancelled),
      s.note (.boundary x.seat (x.stageWorker && s.cancelled))) :=
  rfl

theorem verifyOutput_cases (host : Host W S) (x : Execution) (output : Value) (s : Run W) :
    (∃ verification, verifyOutput host x output s = (.ok verification,s)) ∨
    ∃ e, host.verify x.trail.agentName x.payload output = .error e ∧
      verifyOutput host x output s = (.error e,s.note (.raised x.outer e)) := by
  cases h : host.verify x.trail.agentName x.payload output with
  | ok verification =>
    refine .inl ⟨verification,?_⟩
    simp only [verifyOutput,h,Act.pure_apply]
  | error e =>
    refine .inr ⟨e,rfl,?_⟩
    simp only [verifyOutput,h,raising_run]

@[simp] theorem Run.note_trace (s : Run W) (e : Event) : (s.note e).trace = s.trace ++ [e] := rfl

@[simp] theorem Run.note_steps (s : Run W) (e : Event) : (s.note e).steps = s.steps := rfl

@[simp] theorem Run.note_log (s : Run W) (e : Event) : (s.note e).log = s.log := rfl

@[simp] theorem Run.note_cancelled (s : Run W) (e : Event) :
    (s.note e).cancelled = s.cancelled := rfl

end

end AgentCentric.Manager

import AgentCentric.Manager.Beside

namespace AgentCentric.Manager
open Proc (act)

section
variable {W S σ : Type} {env : Host W S} {agents : Agents σ} {E F : W → W → Prop}
  {T : Option σ → Child σ → List Json → Prop}

theorem session_waiting (manifest : AgentComponentManifest) {payload : Value} (budget : Nat)
    (tools : List String) {gen : σ} (p : Piped W σ) (hpayload : payload.isJson = true)
    (hstart : agents.start manifest.entryPoint payload budget tools = .ok gen) :
    Piped.session agents manifest payload budget tools p = (.ok (),⟨p.world,.waiting gen,[]⟩) := by
  obtain ⟨j,hj,hback⟩ := Value.wire_isJson payload hpayload
  have hlist := toolNames_map tools
  have hchild : Child.startup agents (startMessage manifest.entryPoint j budget tools) =
      ([],.waiting gen) := by
    simp [Child.startup,startMessage,wordAt,got,Dict.lookup,natOf,hback,hlist,hstart]
  rw [Piped.session,hj]
  simp only [hchild]

theorem nextStep_waiting (sent : Option ToolResult) (w : W) (gen : σ)
    (hsent : (sentOf sent).isJson = true) : Piped.nextStep agents sent ⟨w,.waiting gen,[]⟩ =
      Piped.read ⟨w,(Child.answer (agents.resume gen (sentOf sent))).2,
        (Child.answer (agents.resume gen (sentOf sent))).1⟩ := by
  obtain ⟨items,hitems,hback⟩ := decodeSent_encodeSent (sentOf sent) hsent
  have hreceive : (Child.waiting gen).receive agents (message "send" "value" (.dict items)) =
      Child.answer (agents.resume gen (sentOf sent)) := by
    simp [Child.receive,hback]
  rw [Piped.nextStep,hitems]
  simp only [Piped.write,hreceive,List.nil_append]

/-- What the Manager's own process and a child make of the same. -/
inductive NextAlike : NextStep → NextStep → Prop where
  | same (next : NextStep) : NextAlike next next
  | failed (text text' : String) : NextAlike (.agentExecution text) (.agentExecution text')
  | unsupported (text : String) : NextAlike (.item .unsupported) (.agentExecution text)

def NextStep.goesOn : NextStep → Bool
  | .item (.step _ _) => true
  | .item (.request _ _) => true
  | _ => false

theorem read_error (text : String) (w : W) (child : Child σ) :
    Piped.read ⟨w,child,[errorMessage text]⟩ = (.agentExecution text,⟨w,child,[]⟩) := by
  simp [Piped.read,Piped.readMessage,errorMessage,message,wordAt,got,Dict.lookup]

theorem read_answer (r : Resumption σ) (w : W) (hordinary : r.ordinary = true)
    (hresult : r.yieldsResult = false) :
    ∃ next child stdout, Piped.read ⟨w,(Child.answer r).2,(Child.answer r).1⟩ =
        (next,⟨w,child,stdout⟩) ∧ NextAlike (inProcessStep r).1 next ∧
      ((inProcessStep r).1.goesOn = true → Tied (inProcessStep r).2 child stdout) := by
  cases r with
  | step description detail gen =>
    obtain ⟨items,hitems,hback⟩ := decodeYield_encodeStep description detail
    refine ⟨.item (.step description detail.1),.waiting gen,[],?_,.same _,
      fun _ => ⟨gen,rfl,rfl,rfl⟩⟩
    simp [Child.answer,Child.writes,hitems,Piped.read,Piped.readMessage,hback]
  | request name args gen =>
    obtain ⟨items,hitems,hback⟩ := decodeYield_encodeRequest name args
    refine ⟨.item (.request name args.1),.waiting gen,[],?_,.same _,
      fun _ => ⟨gen,rfl,rfl,rfl⟩⟩
    simp [Child.answer,Child.writes,hitems,Piped.read,Piped.readMessage,hback]
  | yieldedResult output gen => exact absurd hresult (by simp [Resumption.yieldsResult])
  | yieldedOther gen =>
    exact ⟨_,.exited,[],read_error _ w .exited,.unsupported _,
      fun h => by simp [inProcessStep,NextStep.goesOn] at h⟩
  | returned output =>
    obtain ⟨j,hj,hback⟩ := Value.wire_isJson output.1 output.2
    refine ⟨.item (.result output.1),.exited,[],?_,.same _,
      fun h => by simp [inProcessStep,NextStep.goesOn] at h⟩
    have hcontent : output.1.wire.map (fun output => Json.dict [("output",output)]) =
        .ok (.dict [("output",j)]) := by
      rw [hj]
      rfl
    have hgot : got (.dict [("output",j)]) "output" = j := by simp [got,Dict.lookup]
    simp [Child.answer,Child.writes,hcontent,Piped.read,Piped.readMessage,hgot,hback]
  | returnedOther =>
    exact ⟨_,.exited,[],read_error _ w .exited,.failed _ _,
      fun h => by simp [inProcessStep,NextStep.goesOn] at h⟩
  | raised r =>
    have hr : r.ordinary = true := hordinary
    refine ⟨.agentExecution r.text,.exited,[],?_,?_,?_⟩
    · rw [Child.answer,if_pos hr]
      exact read_error r.text w .exited
    · rw [inProcessStep,if_pos hr]
      exact .failed _ _
    · rw [inProcessStep,if_pos hr]
      intro h
      simp [NextStep.goesOn] at h

theorem resume_exchanges (gen : σ) (sent : Sent) (h : Hosted W σ) (e : Exchange σ)
    (he : e ∈ h.exchanges) : e ∈ (h.resume agents gen sent).2.exchanges :=
  List.mem_append_left _ he

theorem nextStep_exchanges (sent : Option ToolResult) (h : Hosted W σ) (e : Exchange σ)
    (he : e ∈ h.exchanges) : e ∈ (h.nextStep agents sent).2.exchanges := by
  unfold Hosted.nextStep
  cases h.gen with
  | none => exact he
  | some gen => exact resume_exchanges gen (sentOf sent) h e he

theorem clean_resumed (sent : Option ToolResult) (r : Resumption σ) :
    (Exchange.resumed (sentOf sent) r).clean =
      ((sentOf sent).isJson && r.ordinary && !r.yieldsResult) := by
  cases sent <;> rfl

theorem sim_nextStep (sent : Option ToolResult) : Sim F (Beside E Tied)
      (fun next next' s t => NextAlike next next' ∧ Beside E Loose s t ∧
        (next.goesOn = true → Beside E Tied s t)) (ask ((inProcess env agents).nextStep () sent))
      (ask ((subprocess env agents).nextStep () sent)) := by
  refine ⟨fun s hs => hs.mono fun e he => nextStep_exchanges sent s.world e he,fun s t hst => ?_⟩
  obtain ⟨gen,hgen,hchild,hstdout⟩ := hst.tie
  have hstep : s.world.nextStep agents sent = s.world.resume agents gen (sentOf sent) := by
    rw [Hosted.nextStep,hgen]
  by_cases hclean : (Exchange.resumed (sentOf sent) (agents.resume gen (sentOf sent))).clean = true
  · rw [clean_resumed] at hclean
    simp only [Bool.and_eq_true,Bool.not_eq_true'] at hclean
    obtain ⟨⟨hsent,hordinary⟩,hresult⟩ := hclean
    have hpiped : t.world = ⟨t.world.world,.waiting gen,[]⟩ := by
      rw [← hchild,← hstdout]
    obtain ⟨next,child,stdout,hread,halike,htied⟩ := read_answer _ t.world.world hordinary hresult
    have hanswer : Piped.nextStep agents sent t.world = (next,⟨t.world.world,child,stdout⟩) := by
      rw [hpiped,nextStep_waiting sent t.world.world gen hsent,hread]
    refine .inr ?_
    show NextAlike (s.world.nextStep agents sent).1 (Piped.nextStep agents sent t.world).1 ∧
      Beside E Loose { s with world := (s.world.nextStep agents sent).2 }
        { t with world := (Piped.nextStep agents sent t.world).2 } ∧
      ((s.world.nextStep agents sent).1.goesOn = true →
        Beside E Tied { s with world := (s.world.nextStep agents sent).2 }
          { t with world := (Piped.nextStep agents sent t.world).2 })
    rw [hstep,hanswer]
    refine ⟨halike,⟨hst.world,trivial,hst.alike.steps,hst.alike.log,hst.alike.cancelled⟩,
      fun hon => ?_⟩
    exact ⟨hst.world,htied hon,hst.alike.steps,hst.alike.log,hst.alike.cancelled⟩
  · refine .inl ⟨.resumed (sentOf sent) (agents.resume gen (sentOf sent)),?_,by simpa using hclean⟩
    show _ ∈ (s.world.nextStep agents sent).2.exchanges
    rw [hstep]
    exact List.mem_append_right _ (List.mem_singleton_self _)

theorem sim_takeStep (x : Execution) (sent : Option ToolResult) : Sim F (Beside E Tied)
      (fun next next' s t => NextAlike next next' ∧ Beside E Loose s t ∧
        (next.goesOn = true → Beside E Tied s t))
      (takeStep (inProcess env agents) x () sent) (takeStep (subprocess env agents) x () sent) :=
  Act.alongside_bind_eq (sim_note _ _) fun _ => sim_nextStep sent

theorem sim_session (x : Execution) (manifest : AgentComponentManifest)
    (hpayload : x.payload.isJson = true) :
    Sim F (Beside E Loose) (fun a b s t => (a = .ok () ∧ b = .ok ()) ∧ Beside E Tied s t)
      (ask ((inProcess env agents).session manifest x.payload x.envelope.maxSteps x.tools
        x.envelope.timeoutSeconds))
      (ask ((subprocess env agents).session manifest x.payload x.envelope.maxSteps x.tools
        x.envelope.timeoutSeconds)) := by
  cases hstart : agents.start manifest.entryPoint x.payload x.envelope.maxSteps x.tools with
  | error r =>
    have hrun : ∀ h : Hosted W σ, (Hosted.session agents manifest x.payload x.envelope.maxSteps
        x.tools h).2.exchanges = h.exchanges ++ [.started (.error r)] := by
      intro h
      rw [Hosted.session,hstart]
    constructor
    · intro s hs
      refine hs.mono fun e he => ?_
      show e ∈ (Hosted.session agents manifest x.payload x.envelope.maxSteps x.tools
        s.world).2.exchanges
      rw [hrun]
      exact List.mem_append_left _ he
    · intro s t hst
      refine .inl ⟨.started (.error r),?_,rfl⟩
      show _ ∈ (Hosted.session agents manifest x.payload x.envelope.maxSteps x.tools
        s.world).2.exchanges
      rw [hrun]
      exact List.mem_append_right _ (List.mem_singleton_self _)
  | ok gen =>
    have hrun : ∀ h : Hosted W σ, Hosted.session agents manifest x.payload x.envelope.maxSteps
        x.tools h = (.ok (),⟨h.world,some gen,h.exchanges ++ [.started (.ok ())]⟩) := by
      intro h
      rw [Hosted.session,hstart]
    constructor
    · intro s hs
      refine hs.mono fun e he => ?_
      show e ∈ (Hosted.session agents manifest x.payload x.envelope.maxSteps x.tools
        s.world).2.exchanges
      rw [hrun]
      exact List.mem_append_left _ he
    · intro s t hst
      refine .inr ?_
      show ((Hosted.session agents manifest x.payload x.envelope.maxSteps x.tools s.world).1 = _ ∧
        (Piped.session agents manifest x.payload x.envelope.maxSteps x.tools t.world).1 = _) ∧
        Beside E Tied
          { s with world := (Hosted.session agents manifest x.payload x.envelope.maxSteps x.tools
            s.world).2 }
          { t with world := (Piped.session agents manifest x.payload x.envelope.maxSteps x.tools
            t.world).2 }
      rw [hrun,session_waiting manifest x.envelope.maxSteps x.tools t.world hpayload hstart]
      exact ⟨⟨rfl,rfl⟩,hst.world,⟨gen,rfl,rfl,rfl⟩,hst.alike.steps,hst.alike.log,
        hst.alike.cancelled⟩

theorem sim_startSession (x : Execution) (manifest : AgentComponentManifest)
    (hpayload : x.payload.isJson = true) : Sim F (Beside E Loose) (Gives Eq (Beside E Tied))
      (startSession (inProcess env agents) x manifest)
      (startSession (subprocess env agents) x manifest) := by
  refine Act.alongside_bind_eq (sim_note _ _) fun _ => ?_
  refine Act.alongside_bind (sim_session x manifest hpayload) (fun a => ?_) fun a b => ?_
  · cases a with
    | ok _ => exact fun s hs => hs
    | error r => exact fun s hs => hs.mono fun _ he => he
  · refine ⟨?_,fun s t h => ?_⟩
    · cases a with
      | ok _ => exact fun s hs => hs
      | error r => exact fun s hs => hs.mono fun _ he => he
    · obtain ⟨⟨rfl,rfl⟩,hst⟩ := h
      exact .inr ⟨rfl,hst⟩

theorem sim_close {G : W → W → Prop} :
    Sim F (Beside G Loose) (Gives Eq (Beside G Loose)) (close (inProcess env agents) ())
      (close (subprocess env agents) ()) := by
  refine Act.alongside_write (fun s hs => hs.mono fun e he => ?_) fun s t h => ⟨rfl,?_⟩
  · show e ∈ (Hosted.close agents s.world).exchanges
    unfold Hosted.close
    cases s.world.gen with
    | none => exact he
    | some gen => exact List.mem_append_left _ he
  · refine ⟨?_,trivial,h.alike.steps,h.alike.log,h.alike.cancelled⟩
    show G (Hosted.close agents s.world).world t.world.world
    unfold Hosted.close
    cases s.world.gen <;> exact h.world

theorem sim_sendCancelled (message : String) : Sim F (Beside E Loose) (Gives Eq (Beside E Loose))
      (sendCancelled (inProcess env agents) () message)
      (sendCancelled (subprocess env agents) () message) := by
  refine Act.alongside_write (fun s hs => hs.mono fun e he => ?_) fun s t h => ⟨rfl,?_⟩
  · show e ∈ (Hosted.cancel agents message s.world).exchanges
    unfold Hosted.cancel
    cases s.world.gen with
    | none => exact he
    | some gen => exact resume_exchanges gen (.cancelled message) s.world e he
  · refine ⟨?_,trivial,h.alike.steps,h.alike.log,h.alike.cancelled⟩
    have hworld : (Hosted.cancel agents message s.world).world = s.world.world := by
      unfold Hosted.cancel
      cases s.world.gen <;> rfl
    show E (Hosted.cancel agents message s.world).world (Piped.cancel agents message t.world).world
    rw [hworld]
    exact h.world

theorem sim_wasForced :
    Sim F (Beside E T) (Gives Eq (Beside E T)) (wasForced (inProcess env agents) ())
      (wasForced (subprocess env agents) ()) :=
  sim_read fun _ _ _ => Act.alongside_pure fun _ _ h => ⟨rfl,h⟩

section
variable (x : Execution)

abbrev SameFailure (stageWorker : Bool) (a b : Failed stageWorker) : Prop :=
  a.wordless stageWorker = b.wordless stageWorker

theorem sim_deferred (hE : Impartial env E F) (place : Place) (trail : Trail)
    (reason : FailureReason) (message message' : String) (stageWorker : Bool) :
    Sim F (Beside F Loose) (Gives (SameFailure stageWorker) (Beside F Loose))
      (deferredOrRecordedFailure (inProcess env agents) place trail reason message stageWorker)
      (deferredOrRecordedFailure (subprocess env agents) place trail reason message'
        stageWorker) := by
  cases stageWorker with
  | false => exact sim_recordFailure hE place trail reason message message'
  | true => exact Act.alongside_pure fun _ _ h => ⟨rfl,h⟩

theorem sim_fail (hE : Impartial env E F) (place : Place) (reason : FailureReason)
    (message message' : String) :
    SimTask F (Beside F Loose) (Gives (SameFailure x.stageWorker) (Beside F Loose))
      (fail (inProcess env agents) x place () reason message)
      (fail (subprocess env agents) x place () reason message') :=
  Proc.alongside_bind_eq (Proc.alongside_act sim_close) fun _ =>
    Proc.alongside_act (sim_deferred hE place x.trail reason message message' x.stageWorker)

theorem sim_late {α β : Type} {Q : α → β → Run (Hosted W σ) → Run (Piped W σ) → Prop}
    {m : Task (Hosted W σ) α} {n : Task (Piped W σ) β} (hE : Impartial env E F)
    (h : SimTask F (Beside F Loose) Q m n) : SimTask F (Beside E T) Q m n :=
  Proc.alongside_weaken h (fun _ _ h => h.late hE.late) fun _ _ _ _ h => h

theorem sim_cancel (hE : Impartial env E F) (reason : FailureReason) (message : String) :
    SimTask F (Beside E T) (Gives (SameFailure x.stageWorker) (Beside F Loose))
      (cancel (inProcess env agents) x () reason message)
      (cancel (subprocess env agents) x () reason message) := by
  refine Proc.alongside_weaken ?_ (fun _ _ h => h.loose) fun _ _ _ _ h => h
  refine Proc.alongside_bind_eq (Proc.alongside_act (sim_appendStep hE x.inner _)) fun refused => ?_
  cases refused with
  | some text => exact sim_late hE (Proc.alongside_act (sim_deferred hE x.inner x.trail _ _ _ _))
  | none =>
    refine Proc.alongside_bind_eq (Proc.alongside_act (sim_sendCancelled message)) fun _ =>
      Proc.alongside_bind_eq (Proc.alongside_act sim_close) fun _ =>
        Proc.alongside_bind_eq (Proc.alongside_act sim_wasForced) fun forced => ?_
    cases forced with
    | false => exact sim_late hE (sim_fail x hE x.inner reason message message)
    | true =>
      refine Proc.alongside_bind_eq (Proc.alongside_act (sim_appendStep hE x.inner _))
        fun refused => ?_
      cases refused with
      | some text =>
        exact sim_late hE (Proc.alongside_act (sim_deferred hE x.inner x.trail _ _ _ _))
      | none => exact sim_late hE (sim_fail x hE x.inner reason message message)

theorem sim_cancelled (hE : Impartial env E F) (reason : FailureReason) (message : String) :
    SimTask F (Beside E T)
      (Gives (fun a b : LoopEnd x.stageWorker => a.wordless = b.wordless) (Beside F Loose))
      (cancelled (inProcess env agents) x () reason message)
      (cancelled (subprocess env agents) x () reason message) :=
  Proc.alongside_bind_of (sim_cancel x hE reason message) (fun a => ⟨a,rfl⟩)
    fun _ _ hsame => Proc.alongside_pure fun _ _ h => ⟨congrArg LoopEnd.failed hsame,h⟩

theorem sim_failed (hE : Impartial env E F) (place : Place) (reason : FailureReason)
    (message message' : String) : SimTask F (Beside F Loose)
      (Gives (fun a b : LoopEnd x.stageWorker => a.wordless = b.wordless) (Beside F Loose))
      (fail (inProcess env agents) x place () reason message >>= fun failure =>
        pure (.failed failure))
      (fail (subprocess env agents) x place () reason message' >>= fun failure =>
        pure (.failed failure)) :=
  Proc.alongside_bind_of (sim_fail x hE place reason message message') (fun a => ⟨a,rfl⟩)
    fun _ _ hsame => Proc.alongside_pure fun _ _ h => ⟨congrArg LoopEnd.failed hsame,h⟩

theorem sim_readCancelEvent :
    Sim F (Beside E T) (Gives Eq (Beside E T)) (readCancelEvent x : Do (Hosted W σ) Bool)
      (readCancelEvent x : Do (Piped W σ) Bool) := by
  refine sim_read fun s t hst => ?_
  rw [hst.cancelled]
  exact Act.alongside_bind_eq (sim_note _ _) fun _ => Act.alongside_pure fun _ _ h => ⟨rfl,h⟩

theorem sim_found {α : Type} {c : Prop} [Decidable c] (a : α) :
    SimTask F (Beside E T) (Gives Eq (Beside E T))
      (if c then pure (some a) else pure none : Task (Hosted W σ) (Option α))
      (if c then pure (some a) else pure none : Task (Piped W σ) (Option α)) := by
  split <;> exact Proc.alongside_pure fun _ _ h => ⟨rfl,h⟩

theorem sim_firstOf {α : Type} (checks : List (Task (Hosted W σ) (Option α)))
    (checks' : List (Task (Piped W σ) (Option α)))
    (h : List.Forall₂ (fun m n => SimTask F (Beside E T) (Gives Eq (Beside E T)) m n) checks
      checks') :
    SimTask F (Beside E T) (Gives Eq (Beside E T)) (firstOf checks) (firstOf checks') := by
  induction h with
  | nil => exact Proc.alongside_pure fun _ _ h => ⟨rfl,h⟩
  | cons hcheck _ ih =>
    refine Proc.alongside_bind_eq hcheck fun found => ?_
    cases found with
    | none => exact ih
    | some a => exact Proc.alongside_pure fun _ _ h => ⟨rfl,h⟩

theorem sim_checks (hE : Impartial env E F) :
    SimTask F (Beside E T) (Gives Eq (Beside E T)) (firstOf (checks (inProcess env agents) x))
      (firstOf (checks (subprocess env agents) x)) := by
  refine sim_firstOf _ _ (.cons ?_ (.cons ?_ (.cons ?_ (.cons ?_ .nil))))
  · exact Proc.alongside_bind_eq (Proc.alongside_act (sim_readCancelEvent x)) fun _ => sim_found _
  · unfold checkCompositionTimeout
    cases x.composition with
    | none => exact Proc.alongside_pure fun _ _ h => ⟨rfl,h⟩
    | some composition =>
      exact Proc.alongside_bind_eq (Proc.alongside_act (sim_elapsedSince hE composition.start))
        fun _ => sim_found _
  · exact Proc.alongside_bind_eq (Proc.alongside_act (sim_elapsedSince hE x.stageStart))
      fun _ => sim_found _
  · unfold checkCompositionSteps
    cases x.composition with
    | none => exact Proc.alongside_pure fun _ _ h => ⟨rfl,h⟩
    | some composition =>
      exact Proc.alongside_bind_eq (Proc.alongside_act sim_stepCount) fun _ => sim_found _

abbrev Persisted (E F : W → W → Prop) (a b : Option Outcome) (s : Run (Hosted W σ))
    (t : Run (Piped W σ)) : Prop :=
  a = b ∧ a = none ∧ Beside E Tied s t ∨
    ∃ o o', a = some o ∧ b = some o' ∧ o.wordless = o'.wordless ∧ Beside F Loose s t

theorem sim_persistStep (hE : Impartial env E F) (index : Nat) (description : String)
    (detail : Value) (elapsed : Decimal) : SimTask F (Beside E Tied) (Persisted E F)
      (persistStep (inProcess env agents) x index description detail elapsed)
      (persistStep (subprocess env agents) x index description detail elapsed) := by
  refine Proc.alongside_bind_eq (Proc.alongside_act (sim_appendStep hE x.inner _)) fun refused => ?_
  cases refused with
  | none => exact Proc.alongside_pure fun _ _ h => .inl ⟨rfl,rfl,h⟩
  | some text =>
    refine sim_late hE (Proc.alongside_bind_of
      (Proc.alongside_act (sim_recordFailure hE x.inner x.trail .internal _ _)) (fun a => ⟨a,rfl⟩)
      fun o o' hsame => Proc.alongside_pure fun _ _ h => .inr ⟨o,o',rfl,rfl,hsame,h⟩)

theorem unpersisted_wordless {o o' : Outcome} (h : o.wordless = o'.wordless) (stageWorker : Bool) :
    SameFailure stageWorker (unpersisted o stageWorker) (unpersisted o' stageWorker) := by
  cases stageWorker with
  | false => exact h
  | true => rfl

theorem sim_executeTool (hE : Impartial env E F) (name : String) (args : List (String × Value)) :
    Sim F (Beside E T) (Gives Eq (Beside E T)) (executeTool (inProcess env agents) x name args)
      (executeTool (subprocess env agents) x name args) :=
  Act.alongside_bind_eq (sim_note _ _) fun _ => sim_ask (hE.execute name args)

theorem sim_delivered (hE : Impartial env E F) (record : StepRecord Value)
    (delivery : ToolDelivery) : SimTask F (Beside E T) (Gives Eq (Beside E T))
      (act (appendStep (inProcess env agents) x.inner record) >>= fun refused =>
        if refused.isSome then pure none else pure (some delivery))
      (act (appendStep (subprocess env agents) x.inner record) >>= fun refused =>
        if refused.isSome then pure none else pure (some delivery)) := by
  refine Proc.alongside_bind_eq (Proc.alongside_act (sim_appendStep hE x.inner _)) fun refused => ?_
  cases refused with
  | none => exact Proc.alongside_pure fun _ _ h => ⟨rfl,h⟩
  | some text => exact Proc.alongside_pure fun _ _ h => ⟨rfl,h⟩

theorem sim_mediateTool (hE : Impartial env E F) (name : String) (args : List (String × Value)) :
    SimTask F (Beside E T) (Gives Eq (Beside E T)) (mediateTool (inProcess env agents) x name args)
      (mediateTool (subprocess env agents) x name args) := by
  unfold mediateTool
  by_cases hgranted : name ∉ x.tools
  · rw [if_pos hgranted,if_pos hgranted]
    exact sim_delivered x hE _ _
  · rw [if_neg hgranted,if_neg hgranted]
    refine Proc.alongside_bind_eq (Proc.alongside_act (sim_appendStep hE x.inner _))
      fun refused => ?_
    cases refused with
    | some text => exact Proc.alongside_pure fun _ _ h => ⟨rfl,h⟩
    | none =>
      refine Proc.alongside_bind_eq (Proc.alongside_act (sim_executeTool x hE name args))
        fun executed => ?_
      cases executed with
      | raised r => exact sim_late hE (Proc.alongside_act (sim_raising x.inner x.inner rfl))
      | toolExecution text => exact sim_delivered x hE _ _
      | output output => exact sim_delivered x hE _ _

abbrev EndsAlike (F : W → W → Prop) (x : Execution) (a b : LoopEnd x.stageWorker)
    (s : Run (Hosted W σ)) (t : Run (Piped W σ)) : Prop :=
  a.wordless = b.wordless ∧ Beside F Loose s t

theorem sim_handleItem (hE : Impartial env E F) (stageStep : Nat)
    {one two : Option ToolResult → Task (Hosted W σ) (LoopEnd x.stageWorker)}
    {one' two' : Option ToolResult → Task (Piped W σ) (LoopEnd x.stageWorker)}
    (hone : ∀ sent, SimTask F (Beside E Tied) (EndsAlike F x) (one sent) (one' sent))
    (htwo : ∀ sent, SimTask F (Beside E Tied) (EndsAlike F x) (two sent) (two' sent)) (item : Item)
    (elapsed : Decimal) : SimTask F (fun s t => Beside E Loose s t ∧
        ((NextStep.item item).goesOn = true → Beside E Tied s t)) (EndsAlike F x)
      (handleItem (inProcess env agents) x () stageStep one two item elapsed)
      (handleItem (subprocess env agents) x () stageStep one' two' item elapsed) := by
  cases item with
  | result output =>
    exact Proc.alongside_weaken (sim_failed x hE x.inner .agentError _ _)
      (fun _ _ h => h.1.late hE.late) fun _ _ _ _ h => h
  | unsupported =>
    exact Proc.alongside_weaken (sim_failed x hE x.inner .agentError _ _)
      (fun _ _ h => h.1.late hE.late) fun _ _ _ _ h => h
  | step description detail =>
    refine Proc.alongside_weaken ?_ (fun _ _ h => h.2 rfl) fun _ _ _ _ h => h
    refine Proc.alongside_bind_eq (Proc.alongside_act sim_stepCount) fun index => ?_
    refine Proc.alongside_bind (sim_persistStep x hE index description detail elapsed)
      (fun a => ?_) fun a b => ⟨?_,fun s t h => ?_⟩
    · cases a with
      | none => exact (hone none).off
      | some outcome => exact fun s hs => hs
    · cases a with
      | none => exact (hone none).off
      | some outcome => exact fun s hs => hs
    · rcases h with ⟨rfl,rfl,h⟩ | ⟨o,o',rfl,rfl,hsame,h⟩
      · exact (hone none).meets s t h
      · exact .inr ⟨congrArg LoopEnd.failed (unpersisted_wordless hsame x.stageWorker),h⟩
  | request name args =>
    refine Proc.alongside_weaken ?_ (fun _ _ h => h.2 rfl) fun _ _ _ _ h => h
    refine Proc.alongside_bind_eq (sim_mediateTool x hE name args) fun delivery => ?_
    cases delivery with
    | none => exact sim_late hE (sim_failed x hE x.inner .internal _ _)
    | some delivery =>
      by_cases hconsumed : delivery.consumed = 1
      · simp only [hconsumed,if_true]
        exact hone _
      · simp only [hconsumed,if_false]
        exact htwo _

def afterStep {V R : Type} (host : Host V R) (session : R) (stageStep : Nat) (stepStart : Decimal)
    (one two : Option ToolResult → Task V (LoopEnd x.stageWorker)) :
    NextStep → Task V (LoopEnd x.stageWorker)
  | .raised r => act (raising x.inner r)
  | .subprocessTimeout text =>
    cancelled host x session .timeout
      ("Agent subprocess did not respond within the envelope timeout: " ++ text)
  | .agentExecution text => do
    let failure ← fail host x x.inner session .agentError ("Agent execution failed: " ++ text)
    pure (.failed failure)
  | .item (.result output) => pure (.finished output)
  | .item item => do
    let elapsed ← act (elapsedSince host stepStart)
    match overStepBudget x elapsed with
    | some limit =>
      cancelled host x session .timeout ("Step " ++ toString stageStep ++
        " exceeded per-step budget of " ++ Value.seconds limit ++ "s.")
    | none => handleItem host x session stageStep one two item elapsed

theorem turn_eq {V R : Type} (host : Host V R) (session : R) (stageStep : Nat)
    (sent : Option ToolResult) (one two : Option ToolResult → Task V (LoopEnd x.stageWorker)) :
    turn host x session stageStep sent one two = (do
      let stop ← firstOf (checks host x)
      match stop with
      | some stop => cancelled host x session stop.reason stop.message
      | none => do
        let stepStart ← act (clock host)
        let next ← act (takeStep host x session sent)
        afterStep x host session stageStep stepStart one two next) := rfl

def InTime (env : Host W S) (x : Execution) : Prop :=
  ∀ now start, overStepBudget x (env.minus now start) = none

variable (agents) in
theorem sim_afterStep_same (hE : Impartial env E F) (stageStep : Nat) (stepStart : Decimal)
    {one two : Option ToolResult → Task (Hosted W σ) (LoopEnd x.stageWorker)}
    {one' two' : Option ToolResult → Task (Piped W σ) (LoopEnd x.stageWorker)}
    (hone : ∀ sent, SimTask F (Beside E Tied) (EndsAlike F x) (one sent) (one' sent))
    (htwo : ∀ sent, SimTask F (Beside E Tied) (EndsAlike F x) (two sent) (two' sent)) (next : NextStep) :
    SimTask F (fun s t => Beside E Loose s t ∧ (next.goesOn = true → Beside E Tied s t)) (EndsAlike F x)
      (afterStep x (inProcess env agents) () stageStep stepStart one two next)
      (afterStep x (subprocess env agents) () stageStep stepStart one' two' next) := by
  cases next with
  | raised r =>
    exact Proc.alongside_weaken (Proc.alongside_act (sim_raising x.inner x.inner rfl))
      (fun _ _ h => h.1.late hE.late) fun _ _ _ _ h => h
  | subprocessTimeout text =>
    exact Proc.alongside_weaken (sim_cancelled x hE .timeout _) (fun _ _ h => h.1)
      fun _ _ _ _ h => h
  | agentExecution text =>
    exact Proc.alongside_weaken (sim_failed x hE x.inner .agentError _ _)
      (fun _ _ h => h.1.late hE.late) fun _ _ _ _ h => h
  | item item =>
    have htimed : ∀ item : Item, SimTask F
        (fun s t => Beside E Loose s t ∧
          ((NextStep.item item).goesOn = true → Beside E Tied s t)) (EndsAlike F x)
        (act (elapsedSince (inProcess env agents) stepStart) >>= fun elapsed =>
          match overStepBudget x elapsed with
          | some limit => cancelled (inProcess env agents) x () .timeout ("Step " ++
            toString stageStep ++ " exceeded per-step budget of " ++ Value.seconds limit ++ "s.")
          | none => handleItem (inProcess env agents) x () stageStep one two item elapsed)
        (act (elapsedSince (subprocess env agents) stepStart) >>= fun elapsed =>
          match overStepBudget x elapsed with
          | some limit => cancelled (subprocess env agents) x () .timeout ("Step " ++
            toString stageStep ++ " exceeded per-step budget of " ++ Value.seconds limit ++ "s.")
          | none => handleItem (subprocess env agents) x () stageStep one' two' item elapsed) := by
      intro item
      have hrest : ∀ elapsed, SimTask F
          (fun s t => Beside E Loose s t ∧
            ((NextStep.item item).goesOn = true → Beside E Tied s t)) (EndsAlike F x)
          (match overStepBudget x elapsed with
          | some limit => cancelled (inProcess env agents) x () .timeout ("Step " ++
            toString stageStep ++ " exceeded per-step budget of " ++ Value.seconds limit ++ "s.")
          | none => handleItem (inProcess env agents) x () stageStep one two item elapsed)
          (match overStepBudget x elapsed with
          | some limit => cancelled (subprocess env agents) x () .timeout ("Step " ++
            toString stageStep ++ " exceeded per-step budget of " ++ Value.seconds limit ++ "s.")
          | none => handleItem (subprocess env agents) x () stageStep one' two' item elapsed) := by
        intro elapsed
        cases overStepBudget x elapsed with
        | none => exact sim_handleItem x hE stageStep hone htwo item elapsed
        | some limit =>
          exact Proc.alongside_weaken (sim_cancelled x hE .timeout _) (fun _ _ h => h.1)
            fun _ _ _ _ h => h
      by_cases hon : (NextStep.item item).goesOn = true
      · refine Proc.alongside_weaken ?_ (fun _ _ h => h.2 hon) fun _ _ _ _ h => h
        exact Proc.alongside_bind_eq (Proc.alongside_act (sim_elapsedSince hE stepStart))
          fun elapsed => Proc.alongside_weaken (hrest elapsed) (fun _ _ h => ⟨h.loose,fun _ => h⟩)
            fun _ _ _ _ h => h
      · refine Proc.alongside_weaken ?_ (fun _ _ h => h.1) fun _ _ _ _ h => h
        exact Proc.alongside_bind_eq (Proc.alongside_act (sim_elapsedSince hE stepStart))
          fun elapsed => Proc.alongside_weaken (hrest elapsed)
            (fun _ _ h => ⟨h,fun hon' => absurd hon' hon⟩) fun _ _ _ _ h => h
    cases item with
    | result output => exact Proc.alongside_pure fun _ _ h => ⟨rfl,h.1.late hE.late⟩
    | unsupported => exact htimed .unsupported
    | step description detail => exact htimed (.step description detail)
    | request name args => exact htimed (.request name args)

/-- Only the Manager's own process looks at the clock before it finds that what was yielded is of no
use. -/
theorem sim_afterStep_unsupported (hE : Impartial env E F) (htime : InTime env x)
    (stageStep : Nat) (stepStart : Decimal) (text : String)
    (one two : Option ToolResult → Task (Hosted W σ) (LoopEnd x.stageWorker))
    (one' two' : Option ToolResult → Task (Piped W σ) (LoopEnd x.stageWorker)) :
    SimTask F (Beside E Loose) (EndsAlike F x)
      (afterStep x (inProcess env agents) () stageStep stepStart one two (.item .unsupported))
      (afterStep x (subprocess env agents) () stageStep stepStart one' two'
        (.agentExecution text)) := by
  have hfail : ∀ elapsed, SimTask F (Beside F Loose) (EndsAlike F x)
      (handleItem (inProcess env agents) x () stageStep one two .unsupported elapsed)
      (fail (subprocess env agents) x x.inner () .agentError
        ("Agent execution failed: " ++ text) >>= fun failure => pure (.failed failure)) :=
    fun elapsed => sim_failed x hE x.inner .agentError _ _
  refine sim_late hE (Proc.alongside_ahead (fun s hs => hs.mono fun _ he => he)
    (fun elapsed => ?_) fun s t hst => ?_)
  · cases overStepBudget x elapsed with
    | none => exact (hfail elapsed).off
    | some limit => exact (sim_cancelled (T := Loose) x hE .timeout _).off
  · refine ⟨env.minus (env.monotonic s.world.world).1 stepStart,_,rfl,
      ⟨hE.idle _ _ hst.world,trivial,hst.alike.steps,hst.alike.log,hst.alike.cancelled⟩,?_⟩
    rw [htime]
    exact hfail _

theorem sim_turn (hE : Impartial env E F) (htime : InTime env x) (stageStep : Nat)
    (sent : Option ToolResult)
    {one two : Option ToolResult → Task (Hosted W σ) (LoopEnd x.stageWorker)}
    {one' two' : Option ToolResult → Task (Piped W σ) (LoopEnd x.stageWorker)}
    (hone : ∀ sent, SimTask F (Beside E Tied) (EndsAlike F x) (one sent) (one' sent))
    (htwo : ∀ sent, SimTask F (Beside E Tied) (EndsAlike F x) (two sent) (two' sent)) :
    SimTask F (Beside E Tied) (EndsAlike F x) (turn (inProcess env agents) x () stageStep sent one two)
      (turn (subprocess env agents) x () stageStep sent one' two') := by
  rw [turn_eq,turn_eq]
  refine Proc.alongside_bind_eq (sim_checks x hE) fun stop => ?_
  cases stop with
  | some stop => exact sim_cancelled x hE stop.reason stop.message
  | none =>
    refine Proc.alongside_bind_eq (Proc.alongside_act (sim_clock hE)) fun stepStart => ?_
    have hsame := sim_afterStep_same agents x hE stageStep stepStart hone htwo
    refine Proc.alongside_bind (Proc.alongside_act (sim_takeStep x sent))
      (fun next => (hsame next).off) fun next next' => ⟨(hsame next).off,fun s t h => ?_⟩
    obtain ⟨halike,hst⟩ := h
    cases halike with
    | same _ => exact (hsame next).meets s t hst
    | failed text text' =>
      exact (sim_late hE (T := Loose)
        (sim_failed x hE x.inner .agentError _ _)).meets s t hst.1
    | unsupported text =>
      exact (sim_afterStep_unsupported x hE htime stageStep stepStart text one two one'
        two').meets s t hst.1

theorem sim_lastTurn (hE : Impartial env E F) :
    SimTask F (Beside E T) (EndsAlike F x) (lastTurn (inProcess env agents) x ())
      (lastTurn (subprocess env agents) x ()) := by
  refine Proc.alongside_bind_eq (sim_checks x hE) fun stop => ?_
  cases stop with
  | some stop => exact sim_cancelled x hE stop.reason stop.message
  | none => exact sim_cancelled x hE .stepLimit _

theorem sim_loop (hE : Impartial env E F) (htime : InTime env x) (left : Nat) :
    ∀ stageStep sent, SimTask F (Beside E Tied) (EndsAlike F x)
      (loop (inProcess env agents) x () left stageStep sent)
      (loop (subprocess env agents) x () left stageStep sent) := by
  induction left using Nat.twoStepInduction with
  | zero => exact fun _ _ => sim_lastTurn x hE
  | one =>
    exact fun n sent => sim_turn x hE htime n sent (fun _ => sim_lastTurn x hE)
      fun _ => sim_lastTurn x hE
  | more left ih ih' =>
    exact fun n sent => sim_turn x hE htime n sent (fun sent => ih' (n + 1) sent)
      fun sent => ih (n + 2) sent

theorem sim_exceptOrdinary {α β : Type} {R : Run (Hosted W σ) → Run (Piped W σ) → Prop}
    {Q : α → β → Run (Hosted W σ) → Run (Piped W σ) → Prop} {m : Task (Hosted W σ) α}
    {n : Task (Piped W σ) β} {handler : String → Task (Hosted W σ) α}
    {handler' : String → Task (Piped W σ) β} (hm : SimTask F R Q m n)
    (hh : ∀ text text', SimTask F (Beside F Loose) Q (handler text) (handler' text')) :
    SimTask F R Q (exceptOrdinary m handler) (exceptOrdinary n handler') := by
  have hoff : ∀ (e : Raised) s, Strays s → Strays ((if e.ordinary then handler e.text
      else Proc.raise e : Task (Hosted W σ) α).alone s).2 := by
    intro e
    split
    · exact (hh e.text "").off
    · exact fun s hs => hs
  refine Proc.alongside_caught hm hoff fun e f => ⟨hoff e,fun s t h => ?_⟩
  obtain ⟨hsame,hst⟩ := h
  have hordinary : e.wordless.ordinary = f.wordless.ordinary := congrArg Raised.ordinary hsame
  change e.ordinary = f.ordinary at hordinary
  by_cases he : e.ordinary = true
  · rw [if_pos he,if_pos (hordinary ▸ he)]
    exact (hh e.text f.text).meets s t hst
  · rw [if_neg he,if_neg (hordinary ▸ he)]
    exact .inr ⟨hsame,hst⟩

abbrev Opens (E F : W → W → Prop) (x : Execution) (a b : Failed x.stageWorker ⊕ Unit)
    (s : Run (Hosted W σ)) (t : Run (Piped W σ)) : Prop :=
  a = .inr () ∧ b = .inr () ∧ Beside E Tied s t ∨
    ∃ f f', a = .inl f ∧ b = .inl f' ∧ SameFailure x.stageWorker f f' ∧ Beside F Loose s t

theorem sim_failedOpen (hE : Impartial env E F) (place : Place) (reason : FailureReason)
    (message message' : String) : SimTask F (Beside F Loose) (Opens E F x)
      (act (deferredOrRecordedFailure (inProcess env agents) place x.trail reason message
        x.stageWorker) >>= fun failure => pure (.inl failure))
      (act (deferredOrRecordedFailure (subprocess env agents) place x.trail reason message'
        x.stageWorker) >>= fun failure => pure (.inl failure)) :=
  Proc.alongside_bind_of (Proc.alongside_act (sim_deferred hE place x.trail reason message message'
    x.stageWorker)) (fun a => ⟨a,rfl⟩) fun f f' hsame =>
      Proc.alongside_pure fun _ _ h => .inr ⟨f,f',rfl,rfl,hsame,h⟩

theorem sim_openSession (hE : Impartial env E F) (registry : Registry)
    (hpayload : x.payload.isJson = true) :
    SimTask F (Beside E Loose) (Opens E F x) (openSession (inProcess env agents) registry x)
      (openSession (subprocess env agents) registry x) := by
  refine sim_exceptOrdinary ?_ fun text text' => sim_failedOpen x hE x.outer .internal _ _
  cases registry.getByName x.trail.agentName with
  | none => exact sim_late hE (sim_failedOpen x hE x.inner .unknownAgent _ _)
  | some manifest =>
    exact Proc.alongside_bind_eq (Proc.alongside_act (sim_startSession x manifest hpayload))
      fun _ => Proc.alongside_pure fun _ _ h => .inl ⟨rfl,rfl,h⟩

theorem sim_drive (hE : Impartial env E F) (htime : InTime env x) :
    SimTask F (Beside E Tied) (EndsAlike F x) (drive (inProcess env agents) x ())
      (drive (subprocess env agents) x ()) :=
  sim_exceptOrdinary (sim_loop x hE htime _ 0 none) fun _ _ =>
    sim_failed x hE x.outer .agentError _ _

abbrev SameResult (stageWorker : Bool) (a b : Option (Failed stageWorker) × Value) : Prop :=
  a.1.map (·.wordless stageWorker) = b.1.map (·.wordless stageWorker) ∧ a.2 = b.2

theorem sim_verifyOutput (output : Value) : Sim F (Beside F Loose) (Gives Eq (Beside F Loose))
      (verifyOutput (inProcess env agents) x output)
      (verifyOutput (subprocess env agents) x output) := by
  unfold verifyOutput
  simp only [inProcess,subprocess]
  cases env.verify x.trail.agentName x.payload output with
  | ok verification => exact Act.alongside_pure fun _ _ h => ⟨rfl,h⟩
  | error r => exact sim_raising x.outer x.outer rfl

theorem sim_gate (hE : Impartial env E F) (output : Value) :
    SimTask F (Beside F Loose) (Gives (SameResult x.stageWorker) (Beside F Loose))
      (gate (inProcess env agents) x () output) (gate (subprocess env agents) x () output) := by
  refine Proc.alongside_bind_eq (Proc.alongside_act (sim_verifyOutput x output))
    fun verification => ?_
  by_cases hpassed : verification.passed = true
  · rw [if_pos hpassed,if_pos hpassed]
    exact Proc.alongside_bind_eq (Proc.alongside_act sim_close) fun _ =>
      Proc.alongside_pure fun _ _ h => ⟨⟨rfl,rfl⟩,h⟩
  · rw [if_neg hpassed,if_neg hpassed]
    refine Proc.alongside_bind_of (sim_fail x hE x.outer .verificationFailed _ _)
      (fun a => ⟨a,rfl⟩) fun f f' hsame => Proc.alongside_pure fun _ _ h => ⟨⟨?_,rfl⟩,h⟩
    exact congrArg some hsame

variable (agents) in
theorem sim_driven (hE : Impartial env E F) (htime : InTime env x) :
    SimTask F (Beside E Tied) (Gives (SameResult x.stageWorker) (Beside F Loose))
      (drive (inProcess env agents) x () >>= fun ended =>
        match ended with
        | .failed failure => pure (some failure,.none)
        | .finished output => gate (inProcess env agents) x () output)
      (drive (subprocess env agents) x () >>= fun ended =>
        match ended with
        | .failed failure => pure (some failure,.none)
        | .finished output => gate (subprocess env agents) x () output) := by
  refine Proc.alongside_bind_of (sim_drive x hE htime) (fun a => ⟨a,rfl⟩)
    fun ended ended' hsame => ?_
  cases ended with
  | failed failure =>
    cases ended' with
    | failed failure' =>
      exact Proc.alongside_pure fun _ _ h =>
        ⟨⟨congrArg some (LoopEnd.failed.inj hsame),rfl⟩,h⟩
    | finished output => cases hsame
  | finished output =>
    cases ended' with
    | failed failure => cases hsame
    | finished output' =>
      obtain rfl : output = output' := LoopEnd.finished.inj hsame
      exact sim_gate x hE output

variable (agents) in
theorem sim_executeAgent (hE : Impartial env E F) (htime : InTime env x) (registry : Registry)
    (hpayload : x.payload.isJson = true) :
    SimTask F (Beside E Loose) (Gives (SameResult x.stageWorker) (Beside F Loose))
      (executeAgent (inProcess env agents) registry x)
      (executeAgent (subprocess env agents) registry x) := by
  have hdriven := sim_driven agents x hE htime
  refine Proc.alongside_bind (sim_openSession x hE registry hpayload) (fun a => ?_)
    fun a b => ⟨?_,fun s t h => ?_⟩
  · cases a with
    | inl failure => exact fun s hs => hs
    | inr session => exact hdriven.off
  · cases a with
    | inl failure => exact fun s hs => hs
    | inr session => exact hdriven.off
  · rcases h with ⟨rfl,rfl,h⟩ | ⟨f,f',rfl,rfl,hsame,h⟩
    · exact hdriven.meets s t h
    · exact .inr ⟨⟨congrArg some hsame,rfl⟩,h⟩

end

abbrev SameOutcome (a b : Outcome) : Prop := a.wordless = b.wordless

theorem sim_lateDo {α β : Type} {Q : α → β → Run (Hosted W σ) → Run (Piped W σ) → Prop}
    {m : Do (Hosted W σ) α} {n : Do (Piped W σ) β} (hE : Impartial env E F)
    (h : Sim F (Beside F Loose) Q m n) : Sim F (Beside E T) Q m n :=
  Act.alongside_weaken h (fun _ _ h => h.late hE.late) fun _ _ _ _ h => h

theorem sim_policyViolation (hE : Impartial env E F) (trail : Trail) (message : String) :
    Sim F (Beside E T) (Gives SameOutcome (Beside F Loose))
      (policyViolation (inProcess env agents) trail message)
      (policyViolation (subprocess env agents) trail message) := by
  refine Act.alongside_bind_eq (sim_appendStep hE .caller _) fun refused => ?_
  cases refused with
  | none => exact sim_lateDo hE (sim_recordFailure hE .caller trail .policyViolation _ _)
  | some text => exact sim_lateDo hE (sim_recordFailure hE .caller trail .internal _ _)

theorem sim_runUnknownAgent (hE : Impartial env E F) (task : TaskSpecification)
    (trajectoryId : String) : Sim F (Beside E T) (Gives SameOutcome (Beside F Loose))
      (runUnknownAgent (inProcess env agents) task trajectoryId)
      (runUnknownAgent (subprocess env agents) task trajectoryId) := by
  refine Act.alongside_bind_eq (sim_storeBegin hE) fun refused => ?_
  cases refused with
  | some text => exact Act.alongside_pure fun _ _ h => ⟨rfl,h.late hE.late⟩
  | none =>
    refine sim_lateDo hE (Act.alongside_bind_of (sim_storeOutcome hE .caller _ rfl)
      (fun a => ⟨a,rfl⟩) fun refused refused' hsame => ?_)
    cases refused with
    | none =>
      cases refused' with
      | none => exact Act.alongside_pure fun _ _ h => ⟨rfl,h⟩
      | some text => cases hsame
    | some text =>
      cases refused' with
      | none => cases hsame
      | some text' => exact Act.alongside_pure fun _ _ h => ⟨rfl,h⟩

abbrev Evaluated (E F : W → W → Prop) (a b : Option Outcome) (s : Run (Hosted W σ))
    (t : Run (Piped W σ)) : Prop :=
  a = none ∧ b = none ∧ Beside E Loose s t ∨
    ∃ o o', a = some o ∧ b = some o' ∧ SameOutcome o o' ∧ Beside F Loose s t

theorem sim_evaluateTaskPolicy (hE : Impartial env E F) (trail : Trail) (task : TaskSpecification) :
    Sim F (Beside E Loose) (Evaluated E F) (evaluateTaskPolicy (inProcess env agents) trail task)
      (evaluateTaskPolicy (subprocess env agents) trail task) := by
  unfold evaluateTaskPolicy
  cases task.policy with
  | none => exact Act.alongside_pure fun _ _ h => .inl ⟨rfl,rfl,h⟩
  | some policy =>
    cases hviolation : task.violation policy with
    | some message =>
      simp only [hviolation]
      exact Act.alongside_bind_of (sim_policyViolation hE trail message) (fun a => ⟨a,rfl⟩)
        fun o o' hsame => Act.alongside_pure fun _ _ h => .inr ⟨o,o',rfl,rfl,hsame,h⟩
    | none =>
      simp only [hviolation]
      refine Act.alongside_bind_eq (sim_appendStep hE .caller _) fun refused => ?_
      cases refused with
      | none => exact Act.alongside_pure fun _ _ h => .inl ⟨rfl,rfl,h⟩
      | some text =>
        exact Act.alongside_bind_of
          (sim_lateDo hE (sim_recordFailure hE .caller trail .internal _ _)) (fun a => ⟨a,rfl⟩)
          fun o o' hsame => Act.alongside_pure fun _ _ h => .inr ⟨o,o',rfl,rfl,hsame,h⟩

theorem sim_governed (hE : Impartial env E F) (trail : Trail) (task : TaskSpecification)
    {work : Do (Hosted W σ) Outcome} {work' : Do (Piped W σ) Outcome}
    (hwork : Sim F (Beside E Loose) (Gives SameOutcome (Beside F Loose)) work work') :
    Sim F (Beside E Loose) (Gives SameOutcome (Beside F Loose))
      (governed (inProcess env agents) trail task work)
      (governed (subprocess env agents) trail task work') := by
  refine Act.alongside_bind_eq (sim_storeBegin hE) fun refused => ?_
  cases refused with
  | some text => exact Act.alongside_pure fun _ _ h => ⟨rfl,h.late hE.late⟩
  | none =>
    refine Act.alongside_bind (sim_evaluateTaskPolicy hE trail task) (fun a => ?_)
      fun a b => ⟨?_,fun s t h => ?_⟩
    · cases a with
      | none => exact hwork.off
      | some outcome => exact fun s hs => hs
    · cases a with
      | none => exact hwork.off
      | some outcome => exact fun s hs => hs
    · rcases h with ⟨rfl,rfl,h⟩ | ⟨o,o',rfl,rfl,hsame,h⟩
      · exact hwork.meets s t h
      · exact .inr ⟨hsame,h⟩

theorem sim_certify (hE : Impartial env E F) (trail : Trail) {a b : Option Outcome × Value}
    (hsame : SameResult false a b) : Sim F (Beside F Loose) (Gives SameOutcome (Beside F Loose))
      (certify (inProcess env agents) trail a) (certify (subprocess env agents) trail b) := by
  obtain ⟨a,output⟩ := a
  obtain ⟨b,output'⟩ := b
  obtain ⟨hfailure,rfl⟩ := hsame
  cases a with
  | none =>
    cases b with
    | none => exact sim_recordSuccess hE trail output
    | some outcome => cases hfailure
  | some outcome =>
    cases b with
    | none => cases hfailure
    | some outcome' =>
      exact Act.alongside_pure fun _ _ h => ⟨Option.some.inj hfailure,h⟩

variable (agents) in
theorem sim_runSingle (hE : Impartial env E F) (registry : Registry) (task : TaskSpecification)
    (selector : Selector) (trajectoryId : String) (hpayload : task.payload.isJson = true)
    (htime : ∀ now start limit, task.envelope.maxStepSeconds = some limit →
      exceeds (env.minus now start) limit = false) :
    Sim F (Beside E Loose) (Gives SameOutcome (Beside F Loose))
      (runSingle (inProcess env agents) registry task selector trajectoryId)
      (runSingle (subprocess env agents) registry task selector trajectoryId) := by
  unfold runSingle
  cases registry.resolve selector with
  | none => exact sim_runUnknownAgent hE task trajectoryId
  | some manifest =>
    refine Act.alongside_bind_eq (sim_clock hE) fun start => ?_
    refine sim_governed hE _ task ?_
    have hin : InTime env (singleExecution (inProcess env agents) task
        ⟨task.taskId,manifest.name,trajectoryId⟩ start) := by
      intro now begun
      unfold overStepBudget
      cases hlimit : task.envelope.maxStepSeconds with
      | none => simp only [singleExecution,hlimit]
      | some limit =>
        simp only [singleExecution,hlimit,htime now begun limit hlimit,Bool.false_eq_true,if_false]
    have hdriven := sim_executeAgent agents (singleExecution (inProcess env agents) task
      ⟨task.taskId,manifest.name,trajectoryId⟩ start) hE hin registry hpayload
    exact Act.alongside_bind_of hdriven (fun a => ⟨a,rfl,rfl⟩) fun a b hsame =>
      sim_certify hE _ hsame

def hostedRun (env : Host W S) (agents : Agents σ) (registry : Registry)
    (task : TaskSpecification) (seq : Nat) (w : W) : Except Raised Outcome × Run (Hosted W σ) :=
  run (inProcess env agents) registry task seq (Run.start ⟨w,none,[]⟩)

def pipedRun (env : Host W S) (agents : Agents σ) (registry : Registry)
    (task : TaskSpecification) (seq : Nat) (w : W) : Except Raised Outcome × Run (Piped W σ) :=
  run (subprocess env agents) registry task seq (Run.start ⟨w,.exited,[]⟩)

/-- The same steps, in memory and in the store, and the same verified output or failure reason. -/
def SameRun (env : Host W S) (agents : Agents σ) (registry : Registry) (task : TaskSpecification)
    (seq : Nat) (w : W) : Prop :=
  answerWordless (hostedRun env agents registry task seq w).1 =
      answerWordless (pipedRun env agents registry task seq w).1 ∧
    (hostedRun env agents registry task seq w).2.steps =
      (pipedRun env agents registry task seq w).2.steps ∧
    (hostedRun env agents registry task seq w).2.log.map (·.wordless) =
      (pipedRun env agents registry task seq w).2.log.map (·.wordless)

/-- Where the exchanges with the agent are clean, it does not matter where the agent runs. -/
theorem backends_agree (hE : Impartial env E F) (registry : Registry) (task : TaskSpecification)
    (selector : Selector) (seq : Nat) (w : W) (hw : E w w) (hwork : task.work = .single selector)
    (hpayload : task.payload.isJson = true)
    (htime : ∀ now start limit, task.envelope.maxStepSeconds = some limit →
      exceeds (env.minus now start) limit = false)
    (hclean : ∀ e ∈ (hostedRun env agents registry task seq w).2.world.exchanges,
      e.clean = true) :
    SameRun env agents registry task seq w := by
  have hsim := sim_runSingle agents hE registry task selector
    (task.taskId ++ "#" ++ toString seq) hpayload htime
  have hhosted : hostedRun env agents registry task seq w =
      runSingle (inProcess env agents) registry task selector (task.taskId ++ "#" ++ toString seq)
        (Run.start ⟨w,none,[]⟩) := by
    simp only [hostedRun,run,hwork]
  have hpiped : pipedRun env agents registry task seq w =
      runSingle (subprocess env agents) registry task selector
        (task.taskId ++ "#" ++ toString seq) (Run.start ⟨w,.exited,[]⟩) := by
    simp only [pipedRun,run,hwork]
  have hstart : Beside E Loose (Run.start (⟨w,none,[]⟩ : Hosted W σ))
      (Run.start (⟨w,.exited,[]⟩ : Piped W σ)) := ⟨hw,trivial,rfl,rfl,rfl⟩
  have hmeets := hsim.meets _ _ hstart
  rw [← hhosted,← hpiped] at hmeets
  rcases hmeets with ⟨e,he,hdirty⟩ | hmet
  · exact absurd (hclean e he) (by simp [hdirty])
  unfold SameRun
  cases hr : hostedRun env agents registry task seq w with
  | mk r s =>
    cases hq : pipedRun env agents registry task seq w with
    | mk q t =>
      rw [hr,hq] at hmet
      cases r with
      | ok o =>
        cases q with
        | ok o' => exact ⟨congrArg Except.ok hmet.1,hmet.2.alike.steps,hmet.2.alike.log⟩
        | error f => exact hmet.elim
      | error e =>
        cases q with
        | ok o' => exact hmet.elim
        | error f => exact ⟨congrArg Except.error hmet.1,hmet.2.alike.steps,hmet.2.alike.log⟩

end

def plainHost : Host Unit String := Host.plain (fun _ => .unsupported) fun _ _ _ => .ok ⟨true,""⟩

def politeAgents : Agents Nat where
  start _ _ _ _ := .ok 0
  resume gen _ :=
    if gen = 0 then .step "thinking" ⟨.dict [("n",.int 1)],rfl⟩ 1
    else if gen = 1 then .request "clock" ⟨[],rfl⟩ 2
    else .returned ⟨.str "done",rfl⟩
  close _ := none

theorem backends_agree_polite :
    SameRun plainHost politeAgents (Registry.ofNames ["a"])
      (TaskSpecification.plain (.single (.agentName "a")) .none) 1 () :=
  backends_agree (E := fun _ _ => True) (F := fun _ _ => True)
    ⟨fun _ _ _ => ⟨rfl,trivial⟩,fun _ _ _ _ _ => ⟨rfl,trivial⟩,fun _ _ _ => ⟨rfl,trivial⟩,
      fun _ _ _ _ => ⟨rfl,trivial⟩,fun _ _ _ => trivial,fun _ _ _ => trivial,
      fun _ _ _ _ _ _ => ⟨rfl,trivial⟩⟩
    _ _ (.agentName "a") 1 () trivial rfl rfl (fun _ _ _ h => by cases h) (by decide +kernel)

def yieldingAgents : Agents Unit where
  start _ _ _ _ := .ok ()
  resume _ _ := .yieldedResult ⟨.str "done",rfl⟩ ()
  close _ := none

def failureReason : Except Raised Outcome → Option FailureReason
  | .ok outcome =>
    match outcome.decision with
    | .verified _ => none
    | .failure reason _ => some reason
  | .error _ => none

theorem yielded_result_differs :
    ¬ SameRun plainHost yieldingAgents (Registry.ofNames ["a"])
      (TaskSpecification.plain (.single (.agentName "a")) .none) 1 () := by
  intro h
  have hsame := congrArg failureReason h.1
  revert hsame
  decide +kernel

end AgentCentric.Manager

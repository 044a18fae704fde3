import AgentCentric.Manager.Audit

namespace AgentCentric.Manager
open Act (Ends Guarded Triple triple_bind triple_pure triple_weaken)
open Thread (Stable)

def Event.isFatal : Event → Bool
  | .raised .caller _ => true
  | .raised .handler r => !r.ordinary
  | _ => false

/-- What the store and the gate raise. -/
def Host.Throws {W S : Type} (host : Host W S) (r : Raised) : Prop :=
  (∃ w, (host.begin w).1 = .raised r) ∨ (∃ record w, (host.append record w).1 = .raised r) ∨
    (∃ outcome w, (host.record outcome w).1 = .raised r) ∨
    ∃ name payload output, host.verify name payload output = .error r

/-- The steps are in order, and nothing was raised that was not handled. -/
structure Clean {W : Type} (s : Run W) : Prop where
  ordered : indexError 0 s.steps = none
  calm : ∀ e ∈ s.trace, e.isFatal = false

/-- Something was raised that is not handled, by the store or the gate if no handler was around. -/
structure Broken {W S : Type} (host : Host W S) (s : Run W) : Prop where
  fatal : ∃ e ∈ s.trace, e.isFatal = true
  thrown : ∀ r, .raised .caller r ∈ s.trace → host.Throws r

def Until {W α : Type} (T : Raised → Prop) (place : Place) : Except Raised α → Run W → Prop :=
  Ends (fun _ => Clean) fun e t => T e ∧ ∃ s, Clean s ∧ t = s.note (.raised place e)

section
variable {W S : Type} {host : Host W S}

theorem Clean.world {s : Run W} (h : Clean s) (w : W) : Clean { s with world := w } :=
  ⟨h.ordered,h.calm⟩

theorem Clean.note {s : Run W} (h : Clean s) {e : Event} (he : e.isFatal = false) :
    Clean (s.note e) := by
  refine ⟨h.ordered,fun e' he' => ?_⟩
  rcases List.mem_append.1 he' with hold | hnew
  · exact h.calm e' hold
  · rw [List.mem_singleton.1 hnew]
    exact he

theorem Clean.appended {s : Run W} (h : Clean s) (w : W) {r : StepRecord Value}
    (hr : r.stepIndex = s.steps.length) : Clean { s with world := w, steps := s.steps ++ [r] } :=
  ⟨indexError_append h.ordered (by rw [hr]; omega),h.calm⟩

theorem Clean.broken {s : Run W} (h : Clean s) {place : Place} {e : Raised}
    (hfatal : (Event.raised place e).isFatal = true) (hthrows : place = .caller → host.Throws e) :
    Broken host (s.note (.raised place e)) := by
  refine ⟨⟨_,List.mem_append_right _ (List.mem_singleton_self _),hfatal⟩,fun r hr => ?_⟩
  rcases List.mem_append.1 hr with hold | hnew
  · have hcalm := h.calm _ hold
    cases hcalm
  · cases List.mem_singleton.1 hnew
    exact hthrows rfl

theorem appendStep_until (host : Host W S) (place : Place) (record : StepRecord Value)
    {s : Run W} (hs : Clean s) : Until host.Throws place (appendStep host place record s).1
      (appendStep host place record s).2 := by
  cases h : host.append { record with stepIndex := s.steps.length } s.world with
  | mk taking w =>
    have hclean := hs.appended w (r := { record with stepIndex := s.steps.length }) rfl
    cases taking with
    | stored =>
      simp only [appendStep,storeAppend,ask,Act.read,Act.write,Act.bind_apply,Act.pure_apply,h]
      exact ⟨hclean.ordered,hclean.calm⟩
    | refused text =>
      simp only [appendStep,storeAppend,ask,note,Act.read,Act.write,Act.bind_apply,
        Act.pure_apply,h]
      exact hclean.note rfl
    | raised e =>
      simp only [appendStep,storeAppend,ask,note,raising,Act.read,Act.write,Act.raise,
        Act.bind_apply,h]
      exact ⟨.inr (.inl ⟨_,_,by rw [h]⟩),_,hclean.note rfl,rfl⟩

theorem storeOutcome_until (host : Host W S) (place : Place) (trail : Trail)
    (outcome : StoredOutcome Value) {s : Run W} (hs : Clean s) :
    Until host.Throws place (storeOutcome host place trail outcome s).1
      (storeOutcome host place trail outcome s).2 := by
  cases hany : s.log.any (·.isOutcome) with
  | true =>
    simp only [storeOutcome,Act.read,Act.bind_apply,hany,if_true,Act.pure_apply]
    exact hs
  | false =>
    cases h : host.record outcome s.world with
    | mk taking w =>
      cases taking with
      | stored =>
        simp only [storeOutcome,ask,Act.read,Act.write,Act.bind_apply,hany,Bool.false_eq_true,
          if_false,h,Act.pure_apply]
        exact ⟨hs.ordered,hs.calm⟩
      | refused text =>
        simp only [storeOutcome,ask,Act.read,Act.bind_apply,hany,Bool.false_eq_true,if_false,h,
          Act.pure_apply]
        exact hs.world w
      | raised e =>
        simp only [storeOutcome,ask,note,raising,Act.read,Act.write,Act.raise,Act.bind_apply,hany,
          Bool.false_eq_true,if_false,h]
        exact ⟨.inr (.inr (.inl ⟨_,_,by rw [h]⟩)),_,hs.world w,rfl⟩

theorem triple_storeOutcome (host : Host W S) (place : Place) (trail : Trail)
    (outcome : StoredOutcome Value) :
    Triple Clean (storeOutcome host place trail outcome) (Until host.Throws place) :=
  fun _ hs => storeOutcome_until host place trail outcome hs

theorem sealSteps_until (host : Host W S) (place : Place) :
    Triple Clean (sealSteps place : Do W (List (StepRecord Value))) (Until host.Throws place) := by
  intro s hs
  rw [sealSteps_none place hs.ordered]
  exact hs

theorem recordFailure_until (host : Host W S) (place : Place) (trail : Trail)
    (reason : FailureReason) (message : String) :
    Triple Clean (recordFailure host place trail reason message) (Until host.Throws place) := by
  refine triple_bind (triple_storeOutcome host place trail _) fun refused => ?_
  cases refused with
  | some text => exact triple_pure fun s hs => hs
  | none => exact triple_bind (sealSteps_until host place) fun steps => triple_pure fun s hs => hs

theorem recordSuccess_until (host : Host W S) (trail : Trail) (output : Value) :
    Triple Clean (recordSuccess host trail output) (Until host.Throws .caller) := by
  refine triple_bind (triple_storeOutcome host .caller trail _) fun refused => ?_
  cases refused with
  | some text => exact recordFailure_until host .caller trail _ _
  | none => exact triple_bind (sealSteps_until host .caller) fun steps => triple_pure fun s hs => hs

theorem storeBegin_until (host : Host W S) :
    Triple Clean (storeBegin host) (Until host.Throws .caller) := by
  intro s hs
  cases h : host.begin s.world with
  | mk taking w =>
    cases taking with
    | stored =>
      simp only [storeBegin,ask,Act.bind_apply,h,Act.pure_apply]
      exact hs.world w
    | refused text =>
      simp only [storeBegin,ask,Act.bind_apply,h,Act.pure_apply]
      exact hs.world w
    | raised e =>
      simp only [storeBegin,ask,Act.bind_apply,h,raising_run]
      exact ⟨.inl ⟨_,by rw [h]⟩,_,hs.world w,rfl⟩

/-- What an exception leaves that goes on from an agent. That of a worker is kept in its future. -/
def Thrown (host : Host W S) : (stageWorker : Bool) → Raised → Run W → Prop
  | false => fun _ => Broken host
  | true => fun _ => Clean

theorem inner_of_raise {x : Execution} {e : Raised} {s : Run W} (hs : Clean s) :
    Inner Clean (Thrown host x.stageWorker) e (s.note (.raised x.inner e)) := by
  cases hworker : x.stageWorker with
  | true =>
    have hinner : x.inner = .worker := by simp [Execution.inner,hworker]
    rw [hinner]
    exact inner_same (hs.note rfl)
  | false =>
    have hinner : x.inner = .handler := by simp [Execution.inner,hworker]
    rw [hinner]
    refine ⟨fun hordinary => hs.note (by simp [Event.isFatal,hordinary]),fun hodd => ?_⟩
    exact hs.broken (by simp [Event.isFatal,hodd]) fun hcaller => by cases hcaller

theorem thrown_of_raise {x : Execution} {e : Raised} {s : Run W} (hs : Clean s)
    (hthrows : host.Throws e) : Thrown host x.stageWorker e (s.note (.raised x.outer e)) := by
  cases hworker : x.stageWorker with
  | true =>
    have houter : x.outer = .worker := by simp [Execution.outer,hworker]
    rw [houter]
    exact hs.note rfl
  | false =>
    have houter : x.outer = .caller := by simp [Execution.outer,hworker]
    rw [houter]
    exact hs.broken rfl fun _ => hthrows

theorem Until.worker {α : Type} {T : Raised → Prop} {result : Except Raised α} {t : Run W}
    (h : Until T .worker result t) : Clean t := by
  cases result with
  | ok a => exact h
  | error e =>
    obtain ⟨_,s,hs,rfl⟩ := h
    exact hs.note rfl

theorem inner_worker {x : Execution} (h : x.stageWorker = true) : x.inner = .worker := by
  simp [Execution.inner,h]

theorem outer_worker {x : Execution} (h : x.stageWorker = true) : x.outer = .worker := by
  simp [Execution.outer,h]

section
variable {R G : Run W → Run W → Prop} {x : Execution}
  (hG : ∀ s t, (x.stageWorker = true → Clean t) → G s t)
include hG

theorem guarded_inner_of_until {α : Type} {T : Raised → Prop} {m : Do W α}
    (h : Triple Clean m (Until T x.inner)) :
    Guarded G Clean m (Ends (fun _ => Clean) (Inner Clean (Thrown host x.stageWorker))) := by
  intro s hs
  have huntil := h s hs
  refine ⟨hG _ _ fun hworker => ?_,huntil.imp (fun _ hclean => hclean) ?_⟩
  · rw [inner_worker hworker] at huntil
    exact huntil.worker
  · rintro e ⟨_,u,hu,heq⟩
    rw [heq]
    exact inner_of_raise hu

theorem guarded_outer_of_until {α : Type} {m : Do W α}
    (h : Triple Clean m (Until host.Throws x.outer)) :
    Guarded G Clean m (Ends (fun _ => Clean) (Thrown host x.stageWorker)) := by
  intro s hs
  have huntil := h s hs
  refine ⟨hG _ _ fun hworker => ?_,huntil.imp (fun _ hclean => hclean) ?_⟩
  · rw [outer_worker hworker] at huntil
    exact huntil.worker
  · rintro e ⟨hthrows,u,hu,heq⟩
    rw [heq]
    exact thrown_of_raise hu hthrows

end

theorem deferred_until (host : Host W S) (place : Place) (trail : Trail) (reason : FailureReason)
    (message : String) (stageWorker : Bool) :
    Triple Clean (deferredOrRecordedFailure host place trail reason message stageWorker)
      (Until host.Throws place) := by
  cases stageWorker with
  | false => exact recordFailure_until host place trail reason message
  | true => exact fun s hs => hs

theorem session_until (host : Host W S) (x : Execution) (manifest : AgentComponentManifest) :
    Triple Clean (startSession host x manifest) (Until (fun _ => True) x.inner) := by
  intro s hs
  have hnoted := hs.note (e := .started x.seat manifest.name x.payload x.tools) rfl
  obtain ⟨w,⟨session,hrun⟩ | ⟨e,hrun⟩⟩ := startSession_cases host x manifest s
  · rw [hrun]
    exact hnoted.world w
  · rw [hrun]
    exact ⟨trivial,_,hnoted.world w,rfl⟩

theorem verify_until (host : Host W S) (x : Execution) (output : Value) :
    Triple Clean (verifyOutput host x output) (Until host.Throws x.outer) := by
  intro s hs
  obtain ⟨verification,hrun⟩ | ⟨e,hverify,hrun⟩ := verifyOutput_cases host x output s
  · rw [hrun]
    exact hs
  · rw [hrun]
    exact ⟨.inr (.inr (.inr ⟨_,_,_,hverify⟩)),s,hs,rfl⟩

theorem rules_clean (host : Host W S) (registry : Registry) (x : Execution)
    {R G : Run W → Run W → Prop} (hR : Stable R Clean)
    (hthrown : ∀ e, Stable R (Thrown host x.stageWorker e))
    (hG : ∀ s t, (x.stageWorker = true → Clean t) → G s t) :
    Rules host registry x R G Clean Clean Clean (Thrown host x.stageWorker) fun _ => Clean where
  going _ hs := hs
  lost _ hs := hs
  stable := ⟨hR,hR,hR⟩
  stable_raised := hthrown
  stable_result _ := hR
  world s w := ⟨fun hs => ⟨hG _ _ fun _ => hs.world w,hs.world w⟩,
    fun hs => ⟨hG _ _ fun _ => hs.world w,hs.world w⟩⟩
  session manifest _ := guarded_inner_of_until hG (session_until host x manifest)
  boundary := by
    intro s hs
    rw [readCancelEvent_run]
    have hnoted := hs.note (e := .boundary x.seat (x.stageWorker && s.cancelled)) rfl
    exact ⟨hG _ _ fun _ => hnoted,by simpa using hnoted⟩
  stepped session sent := by
    intro s hs
    obtain ⟨next,w,hrun⟩ := takeStep_run host x session sent s
    rw [hrun]
    have hnoted := (hs.note (e := .stepped x.seat) rfl).world w
    exact ⟨hG _ _ fun _ => hnoted,hnoted⟩
  executed name args _ := by
    intro s hs
    obtain ⟨executed,w,hrun⟩ := executeTool_run host x name args s
    rw [hrun]
    have hnoted := (hs.note (e := .executed x.seat name) rfl).world w
    exact ⟨hG _ _ fun _ => hnoted,hnoted⟩
  raised e s hs := by
    refine ⟨hG _ _ fun hworker => ?_,inner_of_raise hs⟩
    rw [inner_worker hworker]
    exact hs.note rfl
  appended record := by
    have hguarded : Guarded G Clean (appendStep host x.inner record)
        (Ends (fun _ => Clean) (Inner Clean (Thrown host x.stageWorker))) :=
      guarded_inner_of_until hG fun _ hs => appendStep_until host x.inner record hs
    simpa using hguarded
  stopped record := guarded_inner_of_until hG fun _ hs => appendStep_until host x.inner record hs
  deferred reason message :=
    guarded_inner_of_until hG (deferred_until host x.inner x.trail reason message _)
  recorded reason message :=
    guarded_outer_of_until hG (deferred_until host x.outer x.trail reason message _)
  persisted message :=
    guarded_inner_of_until hG (recordFailure_until host x.inner x.trail .internal message)
  verified output := guarded_outer_of_until hG (verify_until host x output)
  succeeded _ _ hs := hs

theorem Until.caller {α : Type} {result : Except Raised α} {t : Run W}
    (h : Until host.Throws .caller result t) :
    Ends (fun _ => Clean) (fun _ => Broken host) result t := by
  refine h.imp (fun _ hclean => hclean) ?_
  rintro e ⟨hthrows,s,hs,rfl⟩
  exact hs.broken rfl fun _ => hthrows

theorem triple_of_until {α : Type} {m : Do W α} (h : Triple Clean m (Until host.Throws .caller)) :
    Triple Clean m (Ends (fun _ => Clean) fun _ => Broken host) :=
  fun s hs => (h s hs).caller

theorem unknown_until (host : Host W S) (task : TaskSpecification) (trajectoryId : String) :
    Triple Clean (runUnknownAgent host task trajectoryId) (Until host.Throws .caller) := by
  refine triple_bind (storeBegin_until host) fun refused => ?_
  cases refused with
  | some text => exact triple_pure fun s hs => hs
  | none =>
    refine triple_bind (triple_storeOutcome host .caller _ _) fun refused => ?_
    cases refused with
    | some text => exact triple_pure fun s hs => hs
    | none => exact triple_pure fun s hs => hs

theorem runAgent_clean (host : Host W S) (registry : Registry) {x : Execution}
    (hx : x.stageWorker = false) : Triple Clean (runAgent host registry x)
      (Ends (fun _ => Clean) fun _ => Broken host) := by
  have hrules : Rules host registry x Eq (fun _ _ => True) Clean Clean Clean
      (Thrown host x.stageWorker) fun _ => Clean :=
    rules_clean host registry x (Thread.stable_eq _) (fun _ => Thread.stable_eq _)
      fun _ _ _ => trivial
  refine triple_weaken (Proc.holds_alone hrules.holds_executeAgent) (fun _ hs => hs) ?_
  refine fun r s hr => hr.imp (fun _ hclean => hclean) fun e he => ?_
  rw [hx] at he
  exact he

theorem worker_clean (host : Host W S) (registry : Registry) (g : Group) (i : Nat)
    (branch : Branch) : Proc.Holds (fun s t => Clean s → Clean t) (fun s t => Clean s → Clean t)
      Clean (executeAgent host registry (branchExecution host g i branch))
      (Ends (fun _ => Clean) fun _ => Clean) := by
  have hstable : Stable (fun s t : Run W => Clean s → Clean t) Clean := fun _ _ hst hs => hst hs
  have hrules : Rules host registry (branchExecution host g i branch)
      (fun s t => Clean s → Clean t) (fun s t => Clean s → Clean t) Clean Clean Clean
      (Thrown host true) fun _ => Clean :=
    rules_clean host registry _ hstable (fun _ => hstable) fun _ _ h _ => h rfl
  exact hrules.holds_executeAgent

theorem clean_collect (g : Group) (i : Nat) (result : Except Raised WorkerEnd) (s : Run W)
    (hs : Clean s) : Clean (collect g i result s) := by
  cases result with
  | error e =>
    have hnoted := hs.note (e := .taken (g.seat i) .raised) rfl
    exact ⟨hnoted.ordered,hnoted.calm⟩
  | ok ended =>
    obtain ⟨found,output⟩ := ended
    cases found with
    | none => exact hs.note rfl
    | some failure => exact hs.note rfl

theorem run_clean (host : Host W S) (registry : Registry) (task : TaskSpecification)
    (trajectoryId : String) : RunRules host registry task trajectoryId Clean Clean
      (fun _ => Clean) (fun _ => Clean) (fun _ => Clean) fun _ => Broken host where
  upkeep := {
    world := fun _ w hs => hs.world w
    appended := fun record => triple_of_until fun _ hs => appendStep_until host .caller record hs }
  sealing := {
    begun := triple_of_until (storeBegin_until host)
    unbegun := fun _ _ _ hs => hs
    failed := fun trail reason message _ =>
      triple_of_until (recordFailure_until host .caller trail reason message)
    certified := fun trail output _ => triple_of_until (recordSuccess_until host trail output) }
  starts _ hs := hs
  unknown := triple_of_until (unknown_until host task trajectoryId)
  single selector manifest start hwork hfound haccepted :=
    triple_weaken (runAgent_clean host registry rfl) (fun _ hs => hs) fun _ _ hr =>
      agentPost_same hr
  stage spec p i start payload hp htrail hspec hfound haccepted :=
    triple_weaken (runAgent_clean host registry rfl) (fun _ hs => hs) fun _ _ hr =>
      agentPost_same hr
  workers g branches hg htrail hspecs hfound haccepted :=
    workers_keep (fun _ _ hst hs => hst hs) registry g branches
      (fun i branch _ => worker_clean host registry g i branch) (clean_collect g)
  produced i parts s hs := hs.note rfl
  handed i s hs := hs.note rfl
  ended _ _ hs := hs
  stopped _ i s hs := hs.note rfl
  stopped_world _ _ w hs := hs.world w
  summary outcome record := by
    have htriple : Triple Clean (appendStep host .caller record)
        (Ends (fun _ => Clean) fun _ => Broken host) :=
      triple_of_until fun _ hs => appendStep_until host .caller record hs
    simpa using htriple

end

/-- `value[2]`. -/
def third : Value → Except Raised Value
  | .list items =>
    match items[2]? with
    | some item => .ok item
    | none => .error ⟨true,"list index out of range"⟩
  | .tuple items =>
    match items[2]? with
    | some item => .ok item
    | none => .error ⟨true,"tuple index out of range"⟩
  | .str s =>
    match s.toList[2]? with
    | some c => .ok (.str (String.ofList [c]))
    | none => .error ⟨true,"string index out of range"⟩
  | .dict _ => .error ⟨true,"2"⟩
  | value => .error ⟨true,pyRepr value.typeName ++ " object is not subscriptable"⟩

/-- `output == text`. -/
def equalsText : Value → String → Bool
  | .str s,text => s = text
  | _,_ => false

/-- `str` is the built-in one. -/
def joinSummary (str : Value → String) (stages : List Value) (output : Value) :
    Except Raised VerificationResult := do
  let parts ← stages.mapM third
  if equalsText output ("|".intercalate (parts.map str)) then
    pure ⟨true,"Output matches the expected join summary."⟩
  else pure ⟨false,"Output does not match the expected join summary."⟩

def verifyJoinConsumerOutput (str : Value → String) (payload output : Value) :
    Except Raised VerificationResult :=
  match payload with
  | .dict items =>
    match Dict.lookup items "stages" with
    | none => .ok ⟨false,"Payload is not a join mapping."⟩
    | some (.list stages) => joinSummary str stages output
    | some (.tuple stages) => joinSummary str stages output
    | some _ => .ok ⟨false,"Payload['stages'] is not a list."⟩
  | _ => .ok ⟨false,"Payload is not a join mapping."⟩

/-- What the verifiers raise depends on the agent that they are registered for. -/
abbrev VerifierRegistry : Type :=
  Dict String (Value → Value → Except Raised VerificationResult)

def VerifierRegistry.verify (verifiers : VerifierRegistry) (agentName : String)
    (payload output : Value) : Except Raised VerificationResult :=
  match verifiers.get agentName with
  | none => .ok ⟨false,"No verifier registered for agent " ++ pyRepr agentName ++ "."⟩
  | some verifier => verifier payload output

def joinVerifiers : VerifierRegistry :=
  Dict.empty.set "join_consumer" (verifyJoinConsumerOutput Value.typeName)

def joinTask : TaskSpecification :=
  .plain (.single (.agentName "join_consumer")) (.dict [("stages",.list [.int 1])])

def returns : Except Raised Outcome → Bool
  | .ok _ => true
  | .error _ => false

end AgentCentric.Manager

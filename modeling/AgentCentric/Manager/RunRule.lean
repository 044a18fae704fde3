import AgentCentric.Manager.Rule

namespace AgentCentric.Manager
open Act (Ends Triple triple_bind triple_pure triple_ite triple_weaken)

/-- `I` is kept by what the Manager does itself, and `E` holds where it raises. -/
structure Upkeep {W S : Type} (host : Host W S) (I : Run W → Prop) (E : Raised → Run W → Prop) :
    Prop where
  world : ∀ s w, I s → I { s with world := w }
  appended : ∀ record, Triple I (appendStep host .caller record) (Ends (fun _ => I) E)

/-- From `I` a run is sealed in `Out`, under its id. -/
structure Sealing {W S : Type} (host : Host W S) (trajectoryId : String) (I : Run W → Prop)
    (Out : Outcome → Run W → Prop) (E : Raised → Run W → Prop) : Prop where
  begun : Triple I (storeBegin host) (Ends (fun _ => I) E)
  unbegun : ∀ trail message s, I s → Out (buildInternalFailure trail message) s
  failed : ∀ trail reason message, trail.trajectoryId = trajectoryId →
    Triple I (recordFailure host .caller trail reason message) (Ends Out E)
  certified : ∀ trail output, trail.trajectoryId = trajectoryId →
    Triple I (recordSuccess host trail output) (Ends Out E)

/-- The branches of a group whose agents were found, from branch `i` on. -/
def Found (registry : Registry) (stages : List StageSpec) (branches : List Branch) : Prop :=
  List.Forall₂ (fun stage branch => branch.spec = stage ∧
    ∃ manifest, registry.resolve stage.selector = some manifest ∧ branch.agent = manifest.name)
    stages branches

theorem Found.branch {registry : Registry} {stages : List StageSpec} {branches : List Branch}
    (h : Found registry stages branches) {i : Nat} {branch : Branch}
    (hbranch : branches[i]? = some branch) : ∃ stage, stages[i]? = some stage ∧
      branch.spec = stage ∧ ∃ manifest, registry.resolve stage.selector = some manifest ∧
        branch.agent = manifest.name := by
  induction h generalizing i with
  | nil => simp at hbranch
  | cons hhead htail ih =>
    cases i with
    | zero =>
      simp only [List.getElem?_cons_zero,Option.some.injEq] at hbranch ⊢
      subst hbranch
      exact ⟨_,rfl,hhead⟩
    | succ i =>
      simp only [List.getElem?_cons_succ] at hbranch ⊢
      exact ih hbranch

variable {trail : Trail}

section
variable {W S : Type} {host : Host W S} {registry : Registry} {I : Run W → Prop}
  {Out : Outcome → Run W → Prop} {E : Raised → Run W → Prop} {trajectoryId : String}

namespace Upkeep

theorem quiet (h : Upkeep host I E) {α : Type} {m : Do W α} (hm : Quiet m) :
    Triple I m (Ends (fun _ => I) E) := by
  intro s hs
  obtain ⟨a,w,hrun⟩ := hm s
  rw [hrun]
  exact h.world s w hs

/-- What is done next depends on whether the step was taken. -/
theorem refused (h : Upkeep host I E) {α : Type} {record : StepRecord Value} {m n : Do W α}
    {A : α → Run W → Prop} (hm : Triple I m (Ends A E)) (hn : Triple I n (Ends A E)) :
    Triple I (do
      let refused ← appendStep host .caller record
      if refused.isSome = true then m else n) (Ends A E) :=
  triple_bind (h.appended record) fun _ => triple_ite (fun _ => hm) fun _ => hn

theorem persistStageSummary (h : Upkeep host I E) (accounts : List Value) :
    Triple I (persistStageSummary host accounts) (Ends (fun _ => I) E) :=
  triple_bind (h.quiet quiet_stepCount) fun _ => triple_bind (h.appended _) fun _ =>
    triple_pure fun _ hs => hs

def BegunPost (registry : Registry) (I : Run W → Prop) (stages : List StageSpec)
    (result : Except StageFailure (List Branch)) (s : Run W) : Prop :=
  I s ∧ ∀ branches, result = .ok branches → Found registry stages branches

theorem beginBranches (h : Upkeep host I E) (g : Group) (stages : List StageSpec) (i : Nat) :
    Triple I (beginBranches host registry g i stages) (Ends (BegunPost registry I stages) E) := by
  induction stages generalizing i with
  | nil =>
    refine triple_pure fun s hs => ⟨hs,fun branches heq => ?_⟩
    cases heq
    exact .nil
  | cons stage rest ih =>
    unfold Manager.beginBranches
    cases hfound : registry.resolve stage.selector with
    | none =>
      refine triple_pure fun s hs => ⟨hs,fun branches heq => ?_⟩
      cases heq
    | some manifest =>
      refine h.refused (triple_pure fun s hs => ⟨hs,fun branches heq => by cases heq⟩) ?_
      refine triple_bind (h.quiet quiet_clock) fun start => ?_
      refine triple_bind (ih (i + 1)) fun more => triple_pure fun s hs => ⟨hs.1,?_⟩
      intro branches heq
      cases more with
      | error failure => cases heq
      | ok found =>
        cases heq
        exact .cons ⟨rfl,manifest,hfound,rfl⟩ (hs.2 found rfl)

theorem group (h : Upkeep host I E) (g : Group)
    (hworkers : ∀ branches, Found registry g.parallel.stages branches →
      Triple I (runWorkers host registry g branches) (Ends (fun _ => I) E)) :
    Triple I (runParallelGroup host registry g) (Ends (fun _ => I) E) := by
  refine h.refused (triple_pure fun _ hs => hs) ?_
  refine triple_bind (h.beginBranches g _ 0) fun begun => ?_
  cases begun with
  | error failure => exact triple_pure fun _ hs => hs.1
  | ok branches =>
    intro s hs
    refine (triple_bind (hworkers branches (hs.2 branches rfl)) fun results => ?_) s hs.1
    refine triple_bind (h.quiet (quiet_joinBranches _ 0 none)) fun join => ?_
    refine triple_bind (h.quiet (quiet_elapsedSince _)) fun elapsed => ?_
    refine h.refused (triple_pure fun _ hs => hs) ?_
    cases join.failure with
    | some failure => exact triple_pure fun _ hs => hs
    | none => exact triple_pure fun _ hs => hs

end Upkeep

namespace Sealing

theorem policyViolation (h : Sealing host trajectoryId I Out E) (hup : Upkeep host I E)
    (htrail : trail.trajectoryId = trajectoryId) (message : String) :
    Triple I (policyViolation host trail message) (Ends Out E) :=
  hup.refused (h.failed _ _ _ htrail) (h.failed _ _ _ htrail)

def MaybePost (I : Run W → Prop) (Out : Outcome → Run W → Prop) (found : Option Outcome)
    (s : Run W) : Prop :=
  match found with
  | some outcome => Out outcome s
  | none => I s

theorem sealed (h : Sealing host trajectoryId I Out E)
    (htrail : trail.trajectoryId = trajectoryId) (reason : FailureReason) (message : String) :
    Triple I (do
      let outcome ← recordFailure host .caller trail reason message
      pure (some outcome)) (Ends (MaybePost I Out) E) :=
  triple_bind (h.failed trail reason message htrail) fun _ => triple_pure fun _ hs => hs

theorem evaluateTaskPolicy (h : Sealing host trajectoryId I Out E) (hup : Upkeep host I E)
    (htrail : trail.trajectoryId = trajectoryId) (task : TaskSpecification) :
    Triple I (evaluateTaskPolicy host trail task) (Ends (fun found s => MaybePost I Out found s ∧
        (found = none → ∀ policy ∈ task.policy, task.violation policy = none)) E) := by
  unfold Manager.evaluateTaskPolicy
  cases hpolicy : task.policy with
  | none => exact triple_pure fun s hs => ⟨hs,by simp⟩
  | some policy =>
    cases hviolation : task.violation policy with
    | some message =>
      simp only [hviolation]
      refine triple_bind (h.policyViolation hup htrail message) fun outcome => ?_
      exact triple_pure fun s hs => ⟨hs,by simp⟩
    | none =>
      simp only [hviolation]
      refine hup.refused ?_ (triple_pure fun s hs => ⟨hs,fun _ p hp => by
        obtain rfl := Option.mem_some.1 hp
        exact hviolation⟩)
      refine triple_bind (h.failed _ _ _ htrail) fun outcome => ?_
      exact triple_pure fun s hs => ⟨hs,by simp⟩

theorem governed (h : Sealing host trajectoryId I Out E) (hup : Upkeep host I E)
    (htrail : trail.trajectoryId = trajectoryId) (task : TaskSpecification) {work : Do W Outcome}
    (hwork : (∀ policy ∈ task.policy, task.violation policy = none) → Triple I work (Ends Out E)) :
    Triple I (governed host trail task work) (Ends Out E) := by
  refine triple_bind h.begun fun refused => ?_
  cases refused with
  | some text => exact triple_pure fun s hs => h.unbegun _ _ s hs
  | none =>
    refine triple_bind (h.evaluateTaskPolicy hup htrail task) fun found => ?_
    cases found with
    | some outcome => exact triple_pure fun s hs => hs.1
    | none => exact fun s hs => hwork (hs.2 rfl) s hs.1

theorem stageFailureToOutcome (h : Sealing host trajectoryId I Out E) (hup : Upkeep host I E)
    (htrail : trail.trajectoryId = trajectoryId) (accounts : List Value) (failure : StageFailure) :
    Triple I (stageFailureToOutcome host trail accounts failure) (Ends Out E) :=
  triple_bind (hup.persistStageSummary accounts) fun _ =>
    triple_ite (fun _ => h.failed _ _ _ htrail) fun _ => h.failed _ _ _ htrail

theorem finishPipeline (h : Sealing host trajectoryId I Out E) (hup : Upkeep host I E)
    (htrail : trail.trajectoryId = trajectoryId) (accounts : List Value) (payload : Value) :
    Triple I (finishPipeline host trail accounts payload) (Ends Out E) :=
  triple_bind (hup.persistStageSummary accounts) fun _ =>
    triple_ite (fun _ => h.certified _ _ htrail) fun _ => h.failed _ _ _ htrail

theorem conclude (h : Sealing host trajectoryId I Out E)
    (htrail : trail.trajectoryId = trajectoryId) (ended : Except StageFailure (List Joined)) :
    Triple I (conclude host trail ended) (Ends Out E) := by
  cases ended with
  | error failure => exact h.failed _ _ _ htrail
  | ok joined => exact h.certified _ _ htrail

end Sealing

theorem workers_keep {R : Run W → Run W → Prop} (hstable : Thread.Stable R I)
    (registry : Registry) (g : Group) (branches : List Branch)
    (hworkers : ∀ i branch, branches[i]? = some branch →
      Proc.Holds R R I (executeAgent host registry (branchExecution host g i branch))
        (Ends (fun _ => I) fun _ => I)) (hjoiner : ∀ i result s, R s (collect g i result s)) :
    Triple I (runWorkers host registry g branches) (Ends (fun _ => I) E) := by
  intro s hs
  have hsound : (pool host registry g branches s).Sound (fun _ => R) (fun _ => R)
      fun _ => Ends (fun _ => I) fun _ => I := by
    refine ⟨fun i t ht => ?_,fun i b hb => by simp [pool] at hb⟩
    simp only [pool,List.getElem?_mapIdx,Option.map_eq_some_iff] at ht
    obtain ⟨branch,hbranch,rfl⟩ := ht
    exact ⟨I,hstable,hs,hworkers i branch hbranch⟩
  have hapart : Pool.Apart (fun _ => R) (fun _ => R) (fun _ => Ends (fun _ => I) fun _ => I)
      (collect g) :=
    ⟨fun _ _ _ _ _ hG => hG,fun i b _ t _ => hjoiner i b t⟩
  exact hsound.keeps hapart (Pool.run_reaches _ _) hs (fun _ => hstable)
    fun i b t _ ht => hstable _ _ (hjoiner i b t) ht

def AgentPost (I : Run W → Prop) (T : Outcome → Run W → Prop) (ended : Option Outcome × Value)
    (s : Run W) : Prop :=
  match ended.1 with
  | none => I s
  | some outcome => T outcome s

/-- However an agent stage ends, the same holds. -/
theorem agentPost_same {I : Run W → Prop} {E : Raised → Run W → Prop}
    {r : Except Raised (Option Outcome × Value)} {s : Run W} (h : Ends (fun _ => I) E r s) :
    Ends (AgentPost I fun _ => I) E r s := by
  refine h.imp (fun ended hs => ?_) fun _ he => he
  obtain ⟨found,output⟩ := ended
  cases found with
  | none => exact hs
  | some outcome => exact hs

/-- The rules of a run that was accepted. `I₀` holds before it, `T` where the outcome of an agent
is recorded, and `T'` where this ended a pipeline. -/
structure RunRules (host : Host W S) (registry : Registry) (task : TaskSpecification)
    (trajectoryId : String) (I₀ I : Run W → Prop) (T T' Out : Outcome → Run W → Prop)
    (E : Raised → Run W → Prop) : Prop where
  upkeep : Upkeep host I E
  sealing : Sealing host trajectoryId I Out E
  starts : ∀ s, I₀ s → I s
  unknown : Triple I₀ (runUnknownAgent host task trajectoryId) (Ends Out E)
  single : ∀ selector manifest start, task.work = .single selector →
    registry.resolve selector = some manifest →
    (∀ policy ∈ task.policy, task.violation policy = none) →
    Triple I (runAgent host registry
      (singleExecution host task ⟨task.taskId,manifest.name,trajectoryId⟩ start))
      (Ends (AgentPost I T) E)
  stage : ∀ spec p i start payload, p.task = task →
    p.trail.trajectoryId = trajectoryId → task.specAt ⟨i,none⟩ = some spec →
    (registry.resolve spec.selector).isSome = true →
    (∀ policy ∈ task.policy, task.violation policy = none) →
    Triple I (runAgent host registry (stageExecution host registry p i spec start payload))
      (Ends (AgentPost I T) E)
  workers : ∀ g branches, g.task = task → g.trajectoryId = trajectoryId →
    (∀ j, task.specAt ⟨g.stage,some j⟩ = g.parallel.stages[j]?) →
    Found registry g.parallel.stages branches →
    (∀ policy ∈ task.policy, task.violation policy = none) →
    Triple I (runWorkers host registry g branches) (Ends (fun _ => I) E)
  produced : ∀ i parts s, I s → I (s.note (.produced i parts))
  handed : ∀ i s, I s → I (s.note (.handed i))
  ended : ∀ outcome s, T outcome s → Out outcome s
  stopped : ∀ outcome i s, T outcome s → T' outcome (s.note (.stopped i))
  stopped_world : ∀ outcome s w, T' outcome s → T' outcome { s with world := w }
  summary : ∀ outcome record, Triple (T' outcome) (appendStep host .caller record)
    (Ends (fun refused s => if refused.isSome = true then I s else Out outcome s) E)

section
variable {task : TaskSpecification} {I₀ : Run W → Prop} {T T' : Outcome → Run W → Prop}

namespace RunRules

theorem runSingle (h : RunRules host registry task trajectoryId I₀ I T T' Out E)
    {selector : Selector} (hwork : task.work = .single selector) :
    Triple I₀ (runSingle host registry task selector trajectoryId) (Ends Out E) := by
  unfold Manager.runSingle
  cases hfound : registry.resolve selector with
  | none => exact h.unknown
  | some manifest =>
    refine triple_weaken (P := I) ?_ h.starts fun _ _ hr => hr
    refine triple_bind (h.upkeep.quiet quiet_clock) fun start => ?_
    refine h.sealing.governed h.upkeep rfl task fun haccepted => ?_
    refine triple_bind (h.single selector manifest start hwork hfound haccepted)
      fun ended => ?_
    obtain ⟨found,output⟩ := ended
    cases found with
    | some outcome => exact triple_pure fun s hs => h.ended outcome s hs
    | none => exact h.sealing.certified _ output rfl

def StagePost (I : Run W → Prop) (T : Outcome → Run W → Prop) : StageEnd → Run W → Prop
  | .stopped outcome, s => T outcome s
  | _, s => I s

theorem executeStage (h : RunRules host registry task trajectoryId I₀ I T T' Out E)
    (haccepted : ∀ policy ∈ task.policy, task.violation policy = none) {p : Pipeline}
    (hp : p.task = task) (htrail : p.trail.trajectoryId = trajectoryId) {stage : Stage} (i : Nat)
    (hstage : ∀ branch, task.specAt ⟨i,branch⟩ = stage.specAt branch)
    (hknown : unknownStage registry i stage = none) (start : Decimal) (payload : Value) :
    Triple I (executeStage host registry p i start payload stage) (Ends (StagePost I T) E) := by
  cases stage with
  | agent spec =>
    have hfound : (registry.resolve spec.selector).isSome = true := by
      by_contra hnone
      simp [unknownStage,hnone] at hknown
    refine triple_bind (h.stage spec p i start payload hp htrail (hstage none) hfound haccepted)
      fun ended => ?_
    obtain ⟨found,output⟩ := ended
    cases found with
    | some outcome => exact triple_pure fun s hs => hs
    | none => exact triple_pure fun s hs => hs
  | group parallel =>
    refine triple_bind (h.upkeep.group _ fun branches hbranches =>
      h.workers _ branches hp htrail (fun j => hstage (some j)) hbranches haccepted) fun ended => ?_
    cases ended with
    | error failure => exact triple_pure fun s hs => hs
    | ok joined => exact triple_pure fun s hs => hs

/-- A payload is handed on, or not. -/
def PassPost (I : Run W → Prop) (Out : Outcome → Run W → Prop) :
    Except Outcome Value → Run W → Prop
  | .error outcome, s => Out outcome s
  | .ok _, s => I s

theorem handOn (h : RunRules host registry task trajectoryId I₀ I T T' Out E)
    (htrail : trail.trajectoryId = trajectoryId) (i : Nat) (producing : Stage) (output : Value)
    (rest : List Stage) :
    Triple I (handOn host trail i producing output rest) (Ends (PassPost I Out) E) := by
  cases rest with
  | nil => exact triple_pure fun s hs => hs
  | cons consuming rest =>
    refine triple_bind (Q := Sealing.MaybePost I Out) ?_ fun failure => ?_
    · unfold validateStageHandoff
      cases handoffError i (handedOff output) (handoffChecks i producing consuming) with
      | some message => exact h.sealing.sealed htrail _ _
      | none =>
        refine h.upkeep.refused (h.sealing.sealed htrail _ _) ?_
        refine triple_bind (Act.triple_write (Q := fun _ => I) fun s hs => h.handed i s hs)
          fun _ => triple_pure fun s hs => hs
    · cases failure with
      | some outcome => exact triple_pure fun s hs => hs
      | none => exact triple_pure fun s hs => hs

theorem stop (h : RunRules host registry task trajectoryId I₀ I T T' Out E)
    (htrail : trail.trajectoryId = trajectoryId) (outcome : Outcome) (accounts : List Value) :
    Triple (T' outcome) (do
      let persisted ← persistStageSummary host accounts
      if persisted = true then pure outcome else unaccounted host trail) (Ends Out E) := by
  intro s hs
  obtain ⟨count,w,hrun⟩ := quiet_stepCount s
  refine (triple_bind (P := T' outcome)
    (Q := fun persisted s => if persisted = true then Out outcome s else I s) ?_
    fun persisted => ?_) s hs
  · refine triple_bind (Q := fun _ => T' outcome) ?_ fun count => ?_
    · exact fun s hs => hs
    · refine triple_bind (h.summary outcome _) fun refused => triple_pure fun s hs => ?_
      cases refused with
      | none => exact hs
      | some text => exact hs
  · cases persisted with
    | true => exact triple_pure fun s hs => hs
    | false => exact h.sealing.failed _ _ _ htrail

theorem runStages (h : RunRules host registry task trajectoryId I₀ I T T' Out E)
    (haccepted : ∀ policy ∈ task.policy, task.violation policy = none) {p : Pipeline}
    (hp : p.task = task) (htrail : p.trail.trajectoryId = trajectoryId) (stages : List Stage)
    (i : Nat)
    (hstages : ∀ k branch, task.specAt ⟨i + k,branch⟩ = (stages[k]?).bind (·.specAt branch))
    (payload : Value) (accounts : List Value) :
    Triple I (runStages host registry p i stages payload accounts) (Ends Out E) := by
  induction stages generalizing i payload accounts with
  | nil => exact h.sealing.finishPipeline h.upkeep htrail _ _
  | cons stage rest ih =>
    refine triple_bind (h.upkeep.quiet quiet_clock) fun start => ?_
    refine triple_bind (h.upkeep.quiet quiet_stepCount) fun startedSteps => ?_
    cases hunknown : unknownStage registry i stage with
    | some message =>
      exact h.sealing.failed _ _ _ htrail
    | none =>
      refine h.upkeep.refused (h.sealing.failed _ _ _ htrail) ?_
      refine triple_bind (h.executeStage haccepted hp htrail i (hstages 0) hunknown start payload)
        fun ended => ?_
      cases ended with
      | groupFailed failure => exact h.sealing.stageFailureToOutcome h.upkeep htrail _ _
      | stopped outcome =>
        refine triple_bind (Act.triple_write (Q := fun _ => T' outcome) fun s hs =>
          h.stopped outcome i s hs) fun _ => ?_
        refine triple_bind (Q := fun _ => T' outcome) (fun s hs => ?_) fun account =>
          h.stop htrail outcome _
        have hquiet : Quiet (stageAccount host i (stage.name registry) start startedSteps) :=
          quiet_stageAccount i _ start startedSteps
        obtain ⟨a,w,hrun⟩ := hquiet s
        rw [hrun]
        exact h.stopped_world outcome s w hs
      | output output parts =>
        refine triple_bind (Act.triple_write (Q := fun _ => I) fun s hs =>
          h.produced i parts s hs) fun _ => ?_
        refine triple_bind (h.upkeep.quiet (quiet_stageAccount i _ start startedSteps))
          fun account => ?_
        refine triple_bind (h.handOn htrail i stage output rest) fun passed => ?_
        cases passed with
        | error outcome => exact triple_pure fun s hs => hs
        | ok payload =>
          refine ih (i + 1) (fun k branch => ?_) payload _
          rw [Nat.add_right_comm]
          exact hstages (k + 1) branch

theorem run (seq : Nat) (h : RunRules host registry task (task.taskId ++ "#" ++ toString seq) I₀
    I T T' Out E) : Triple I₀ (run host registry task seq) (Ends Out E) := by
  unfold Manager.run
  cases hwork : task.work with
  | single selector => exact h.runSingle hwork
  | pipeline pipeline =>
    have hspecs : ∀ k branch, task.specAt ⟨0 + k,branch⟩ =
        (pipeline.stages[k]?).bind (·.specAt branch) := by
      intro k branch
      simp [TaskSpecification.specAt,hwork]
    simp only [runPipeline]
    cases registry.resolve (pipeline.stages.head pipeline.nonempty).first.selector with
    | none => exact h.unknown
    | some manifest =>
      refine triple_weaken (P := I) ?_ h.starts fun _ _ hr => hr
      refine triple_bind (h.upkeep.quiet quiet_clock) fun start => ?_
      refine h.sealing.governed h.upkeep rfl task fun haccepted => ?_
      exact h.runStages haccepted rfl rfl pipeline.stages 0 hspecs task.payload []
  | parallel parallel =>
    have hspecs : ∀ j, task.specAt ⟨0,some j⟩ = parallel.stages[j]? := by
      intro j
      simp [TaskSpecification.specAt,hwork,Stage.specAt]
    simp only [runParallel]
    cases registry.resolve (parallel.stages.head parallel.nonempty).selector with
    | none => exact h.unknown
    | some manifest =>
      refine triple_weaken (P := I) ?_ h.starts fun _ _ hr => hr
      refine triple_bind (h.upkeep.quiet quiet_clock) fun start => ?_
      refine h.sealing.governed h.upkeep rfl task fun haccepted => ?_
      refine triple_bind (h.upkeep.group _ fun branches hbranches =>
        h.workers _ branches rfl rfl hspecs hbranches haccepted) fun ended => ?_
      exact h.sealing.conclude rfl ended

end RunRules

end

end

end AgentCentric.Manager

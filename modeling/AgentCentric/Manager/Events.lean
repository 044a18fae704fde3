import AgentCentric.Manager.RunRule

namespace AgentCentric.Manager
open Act (Ends Guarded Triple triple_bind triple_pure triple_weaken)
open Thread (Stable)

/-- An agent is asked for a session, a tool is executed, or a stage of a pipeline ended well. -/
def Event.isDeed : Event → Bool
  | .started _ _ _ _ => true
  | .executed _ _ => true
  | .produced _ _ => true
  | .handed _ => true
  | _ => false

def TaskSpecification.Accepted (task : TaskSpecification) : Prop :=
  ∀ policy ∈ task.policy, task.violation policy = none

structure Declared {W S : Type} (host : Host W S) (registry : Registry) (task : TaskSpecification)
    (seat : Seat) (agent : String) (tools : List String) : Prop where
  accepted : task.Accepted
  stage : ∃ spec manifest, task.specAt seat = some spec ∧
    registry.resolve spec.selector = some manifest ∧ agent = manifest.name ∧
    tools = buildToolContext host spec.grantedTools

def Event.Possible {W S : Type} (host : Host W S) (registry : Registry)
    (task : TaskSpecification) : Event → Prop
  | .started seat agent _ tools => Declared host registry task seat agent tools
  | .executed seat name => ∃ agent tools, Declared host registry task seat agent tools ∧
      name ∈ tools
  | _ => True

theorem Event.possible_of_idle {W S : Type} {host : Host W S} {registry : Registry}
    {task : TaskSpecification} (e : Event) (h : e.isDeed = false) :
    e.Possible host registry task := by
  cases e <;> trivial

/-- Every event so far is one of `A`, and those of `past` are among them. -/
def Traced {W : Type} (A : Event → Prop) (past : List Event) (s : Run W) : Prop :=
  (∀ e ∈ s.trace, A e) ∧ ∀ e ∈ past, e ∈ s.trace

def Keeps {W : Type} (A : Event → Prop) (past : List Event) (s t : Run W) : Prop :=
  Traced A past s → Traced A past t

def Adds {W α : Type} (A : Event → Prop) (past : List Event) (m : Do W α) : Prop :=
  ∀ s, Keeps A past s (m s).2

section
variable {W S : Type} {host : Host W S} {A : Event → Prop} {past : List Event}

theorem traced_note {s : Run W} {e : Event} (h : Traced A past s) (he : A e) :
    Traced A past (s.note e) := by
  refine ⟨fun e' he' => ?_,fun e' he' => List.mem_append_left _ (h.2 e' he')⟩
  rcases List.mem_append.1 he' with hold | hnew
  · exact h.1 e' hold
  · rw [List.mem_singleton.1 hnew]
    exact he

theorem stable_traced : Stable (Keeps A past) (Traced (W := W) A past) := fun _ _ hst hs => hst hs

theorem Adds.guarded {α : Type} {m : Do W α} (h : Adds A past m) {Q : α → Run W → Prop}
    {E : Raised → Run W → Prop} (hQ : ∀ a s, Traced A past s → Q a s)
    (hE : ∀ e s, Traced A past s → E e s) :
    Guarded (Keeps A past) (Traced A past) m (Ends Q E) := by
  intro s hs
  refine ⟨h s,?_⟩
  cases (m s).1 with
  | ok a => exact hQ a _ (h s hs)
  | error e => exact hE e _ (h s hs)

theorem Adds.triple {α : Type} {m : Do W α} (h : Adds A past m) {Q : α → Run W → Prop}
    {E : Raised → Run W → Prop} (hQ : ∀ a s, Traced A past s → Q a s)
    (hE : ∀ e s, Traced A past s → E e s) : Triple (Traced A past) m (Ends Q E) :=
  fun s hs => (h.guarded hQ hE s hs).2

variable (hidle : ∀ e : Event, e.isDeed = false → A e)
include hidle

theorem Traced.appends {place : Place} {s t : Run W} {result : Except Raised (Option String)}
    (h : Appends place s result t) (hs : Traced A past s) : Traced A past t := by
  cases h with
  | stored w r h => exact hs
  | refused w r text h => exact traced_note hs (hidle _ rfl)
  | raised w r e h => exact traced_note (traced_note hs (hidle _ rfl)) (hidle _ rfl)

theorem Adds.appendStep (place : Place) (record : StepRecord Value) :
    Adds A past (appendStep host place record) :=
  fun s hs => hs.appends hidle (appendStep_spec host place record s)

theorem Traced.records {place : Place} {trail : Trail} {decision : Decision} {s t : Run W}
    {result : Except Raised Outcome} (h : Records place trail decision s result t)
    (hs : Traced A past s) : Traced A past t := by
  cases h with
  | stored w hfree h => exact hs
  | refused w message => exact hs
  | raised w e => exact traced_note hs (hidle _ rfl)
  | disordered w message h => exact traced_note hs (hidle _ rfl)

theorem Adds.recordFailure (place : Place) (trail : Trail) (reason : FailureReason)
    (message : String) : Adds A past (recordFailure host place trail reason message) :=
  fun s hs => hs.records hidle (recordFailure_spec host place trail reason message s)

theorem Adds.recordSuccess (trail : Trail) (output : Value) :
    Adds A past (recordSuccess host trail output) := by
  intro s hs
  cases recordSuccess_spec host trail output s with
  | recorded h => exact hs.records hidle h
  | failed w message h =>
    have hw : Traced A past { s with world := w } := hs
    exact hw.records hidle h

theorem Adds.storeBegin : Adds A past (storeBegin host) := by
  intro s hs
  obtain ⟨w,⟨refused,hrun⟩ | ⟨e,hrun⟩⟩ := storeBegin_cases host s
  · rw [hrun]
    exact hs
  · rw [hrun]
    have hw : Traced A past { s with world := w } := hs
    exact traced_note hw (hidle _ rfl)

theorem Adds.deferred (place : Place) (trail : Trail) (reason : FailureReason) (message : String)
    (stageWorker : Bool) :
    Adds A past (deferredOrRecordedFailure host place trail reason message stageWorker) := by
  cases stageWorker with
  | false => exact Adds.recordFailure hidle place trail reason message
  | true => exact fun s hs => hs

theorem rules_traced (registry : Registry) (x : Execution)
    (hstarted : ∀ manifest, registry.getByName x.trail.agentName = some manifest →
      A (.started x.seat manifest.name x.payload x.tools))
    (hexecuted : ∀ name ∈ x.tools, A (.executed x.seat name)) :
    Rules host registry x (Keeps A past) (Keeps A past) (Traced A past) (Traced A past)
      (Traced A past) (fun _ => Traced A past) (fun _ => Traced A past) where
  going _ hs := hs
  lost _ hs := hs
  stable := ⟨stable_traced,stable_traced,stable_traced⟩
  stable_raised _ := stable_traced
  stable_result _ := stable_traced
  world s w := ⟨fun hs => ⟨fun _ => hs,hs⟩,fun hs => ⟨fun _ => hs,hs⟩⟩
  session manifest hfound := by
    refine Adds.guarded (fun s hs => ?_) (fun _ _ hs => hs) fun e s hs => inner_same hs
    have hnoted := traced_note hs (hstarted manifest hfound)
    obtain ⟨w,⟨session,hrun⟩ | ⟨e,hrun⟩⟩ := startSession_cases host x manifest s
    · rw [hrun]
      exact hnoted
    · rw [hrun]
      have hw : Traced A past { s.note (.started x.seat manifest.name x.payload x.tools) with
        world := w } := hnoted
      exact traced_note hw (hidle _ rfl)
  boundary := by
    intro s hs
    rw [readCancelEvent_run]
    have hnoted := traced_note hs (hidle (.boundary x.seat (x.stageWorker && s.cancelled)) rfl)
    exact ⟨fun _ => hnoted,by simpa using hnoted⟩
  stepped session sent := by
    intro s hs
    obtain ⟨next,w,hrun⟩ := takeStep_run host x session sent s
    rw [hrun]
    exact ⟨fun _ => traced_note hs (hidle _ rfl),traced_note hs (hidle _ rfl)⟩
  executed name args hname := by
    intro s hs
    obtain ⟨executed,w,hrun⟩ := executeTool_run host x name args s
    rw [hrun]
    exact ⟨fun _ => traced_note hs (hexecuted name hname),traced_note hs (hexecuted name hname)⟩
  raised e s hs := by
    have hnoted := traced_note hs (hidle (.raised x.inner e) rfl)
    exact ⟨fun _ => hnoted,inner_same hnoted⟩
  appended record := by
    refine (Adds.appendStep hidle x.inner record).guarded (fun _ s hs => ?_)
      fun e s hs => inner_same hs
    rw [ite_self]
    exact hs
  stopped record :=
    (Adds.appendStep hidle x.inner record).guarded (fun _ _ hs => hs) fun _ _ hs => inner_same hs
  deferred reason message :=
    (Adds.deferred hidle _ _ reason message _).guarded (fun _ _ hs => hs)
      fun _ _ hs => inner_same hs
  recorded reason message :=
    (Adds.deferred hidle _ _ reason message _).guarded (fun _ _ hs => hs) fun _ _ hs => hs
  persisted message :=
    (Adds.recordFailure hidle _ _ _ message).guarded (fun _ _ hs => hs)
      fun _ _ hs => inner_same hs
  verified output := by
    refine Adds.guarded (fun s hs => ?_) (fun _ _ hs => hs) fun _ _ hs => hs
    obtain ⟨verification,hrun⟩ | ⟨e,_,hrun⟩ := verifyOutput_cases host x output s
    · rw [hrun]
      exact hs
    · rw [hrun]
      exact traced_note hs (hidle _ rfl)
  succeeded _ _ hs := hs

theorem runAgent_traced {registry : Registry} {x : Execution}
    (hstarted : ∀ manifest, registry.getByName x.trail.agentName = some manifest →
      A (.started x.seat manifest.name x.payload x.tools))
    (hexecuted : ∀ name ∈ x.tools, A (.executed x.seat name)) :
    Triple (Traced A past) (runAgent host registry x)
      (Ends (fun _ => Traced A past) fun _ => Traced A past) :=
  Proc.holds_alone (rules_traced hidle registry x hstarted hexecuted).holds_executeAgent

theorem keeps_collect {g : Group} (i : Nat) (result : Except Raised WorkerEnd) (s : Run W) :
    Keeps A past s (collect g i result s) := by
  intro hs
  cases result with
  | error e =>
    have hnoted := traced_note hs (hidle (.taken (g.seat i) .raised) rfl)
    exact hnoted
  | ok ended =>
    obtain ⟨found,output⟩ := ended
    cases found with
    | none => exact traced_note hs (hidle _ rfl)
    | some failure => exact traced_note hs (hidle _ rfl)

theorem workers_traced {registry : Registry} {g : Group} {branches : List Branch}
    (hstarted : ∀ (i : Nat) branch, branches[i]? = some branch → ∀ manifest,
      registry.getByName branch.agent = some manifest → A (.started (g.seat i) manifest.name g.input
        (buildToolContext host branch.spec.grantedTools)))
    (hexecuted : ∀ (i : Nat) branch, branches[i]? = some branch →
      ∀ name ∈ buildToolContext host branch.spec.grantedTools, A (.executed (g.seat i) name)) :
    Triple (Traced A past) (runWorkers host registry g branches)
      (Ends (fun _ => Traced A past) fun _ => Traced A past) := by
  refine workers_keep stable_traced registry g branches (fun i branch hbranch => ?_)
    (keeps_collect hidle)
  have hrules : Rules host registry (branchExecution host g i branch) (Keeps A past)
      (Keeps A past) (Traced A past) (Traced A past) (Traced A past) (fun _ => Traced A past)
      fun _ => Traced A past :=
    rules_traced hidle registry _ (hstarted i branch hbranch) (hexecuted i branch hbranch)
  exact hrules.holds_executeAgent

theorem upkeep_traced {E : Raised → Run W → Prop} (hE : ∀ e s, Traced A past s → E e s) :
    Upkeep host (Traced A past) E where
  world _ _ hs := hs
  appended record := (Adds.appendStep hidle .caller record).triple (fun _ _ hs => hs) hE

theorem sealing_traced (trajectoryId : String) {Out : Outcome → Run W → Prop}
    {E : Raised → Run W → Prop} (hOut : ∀ outcome s, Traced A past s → Out outcome s)
    (hE : ∀ e s, Traced A past s → E e s) : Sealing host trajectoryId (Traced A past) Out E where
  begun := (Adds.storeBegin hidle).triple (fun _ _ hs => hs) hE
  unbegun _ _ _ hs := hOut _ _ hs
  failed trail reason message _ :=
    (Adds.recordFailure hidle .caller trail reason message).triple hOut hE
  certified trail output _ := (Adds.recordSuccess hidle trail output).triple hOut hE

theorem Adds.storeOutcome (place : Place) (trail : Trail) (outcome : StoredOutcome Value) :
    Adds A past (storeOutcome host place trail outcome) := by
  intro s hs
  obtain ⟨w,⟨_,hrun⟩ | ⟨text,hrun⟩ | ⟨e,hrun⟩⟩ := storeOutcome_cases host place trail outcome s
  · rw [hrun]
    exact hs
  · rw [hrun]
    exact hs
  · rw [hrun]
    have hw : Traced A past { s with world := w } := hs
    exact traced_note hw (hidle _ rfl)

theorem traced_runUnknownAgent (task : TaskSpecification) (trajectoryId : String) :
    Triple (Traced A past) (runUnknownAgent host task trajectoryId)
      (Ends (fun _ => Traced A past) fun _ => Traced A past) := by
  refine triple_bind ((Adds.storeBegin hidle).triple (fun _ _ hs => hs) fun _ _ hs => hs)
    fun refused => ?_
  cases refused with
  | some text => exact triple_pure fun s hs => hs
  | none =>
    refine triple_bind (Q := fun _ => Traced A past) ?_ fun refused => ?_
    · exact (Adds.storeOutcome hidle .caller _ _).triple (fun _ _ hs => hs) fun _ _ hs => hs
    · cases refused with
      | some text => exact triple_pure fun s hs => hs
      | none => exact triple_pure fun s hs => hs

omit hidle

theorem started_possible {registry : Registry} {task : TaskSpecification} {seat : Seat}
    {agent : String} {tools : List String} (h : Declared host registry task seat agent tools)
    (payload : Value) (manifest : AgentComponentManifest)
    (hfound : registry.getByName agent = some manifest) :
    Event.Possible host registry task (.started seat manifest.name payload tools) := by
  have hname : manifest.name = agent := registry.named _ _ hfound
  rw [hname]
  exact h

theorem rules_possible (host : Host W S) (registry : Registry) (task : TaskSpecification)
    (trajectoryId : String) : RunRules host registry task trajectoryId
      (Traced (Event.Possible host registry task) [])
      (Traced (Event.Possible host registry task) [])
      (fun _ => Traced (Event.Possible host registry task) [])
      (fun _ => Traced (Event.Possible host registry task) [])
      (fun _ => Traced (Event.Possible host registry task) [])
      (fun _ => Traced (Event.Possible host registry task) []) where
  upkeep := upkeep_traced Event.possible_of_idle fun _ _ hs => hs
  sealing := sealing_traced Event.possible_of_idle trajectoryId (fun _ _ hs => hs)
    fun _ _ hs => hs
  starts _ hs := hs
  unknown := traced_runUnknownAgent Event.possible_of_idle task trajectoryId
  single selector manifest start hwork hfound haccepted := by
    have hdeclared : Declared host registry task ⟨0,none⟩ manifest.name
        (buildToolContext host task.grantedTools) := by
      refine ⟨haccepted,⟨selector,task.grantedTools,none,none,none⟩,manifest,?_,hfound,rfl,rfl⟩
      simp [TaskSpecification.specAt,hwork,Stage.specAt]
    refine triple_weaken (runAgent_traced Event.possible_of_idle (started_possible hdeclared _)
      fun name hname => ⟨_,_,hdeclared,hname⟩) (fun _ hs => hs) fun _ _ hr => agentPost_same hr
  stage spec p i start payload hp htrail hspec hfound haccepted := by
    obtain ⟨manifest,hmanifest⟩ := Option.isSome_iff_exists.1 hfound
    have hdeclared : Declared host registry task ⟨i,none⟩ ((Stage.agent spec).name registry)
        (buildToolContext host spec.grantedTools) := by
      refine ⟨haccepted,spec,manifest,hspec,hmanifest,?_,rfl⟩
      simp [Stage.name,hmanifest]
    refine triple_weaken (runAgent_traced Event.possible_of_idle (started_possible hdeclared _)
      fun name hname => ⟨_,_,hdeclared,hname⟩) (fun _ hs => hs) fun _ _ hr => agentPost_same hr
  workers g branches hg htrail hspecs hfound haccepted := by
    have hdeclared : ∀ (i : Nat) branch, branches[i]? = some branch →
        Declared host registry task (g.seat i) branch.agent
          (buildToolContext host branch.spec.grantedTools) := by
      intro i branch hbranch
      obtain ⟨stage,hstage,rfl,manifest,hmanifest,hagent⟩ := hfound.branch hbranch
      exact ⟨haccepted,branch.spec,manifest,(hspecs i).trans hstage,hmanifest,hagent,rfl⟩
    exact workers_traced Event.possible_of_idle
      (fun i branch hbranch => started_possible (hdeclared i branch hbranch) _)
      fun i branch hbranch name hname => ⟨_,_,hdeclared i branch hbranch,hname⟩
  produced i parts s hs := traced_note hs trivial
  handed i s hs := traced_note hs trivial
  ended _ _ hs := hs
  stopped _ i s hs := traced_note hs trivial
  stopped_world _ _ _ hs := hs
  summary outcome record := by
    refine (Adds.appendStep Event.possible_of_idle .caller record).triple (fun _ s hs => ?_)
      fun _ _ hs => hs
    rw [ite_self]
    exact hs

theorem run_possible (host : Host W S) (registry : Registry) (task : TaskSpecification) (seq : Nat)
    (w : W) : ∀ e ∈ (run host registry task seq (Run.start w)).2.trace,
      e.Possible host registry task := by
  have hended := RunRules.run seq (rules_possible host registry task _) (Run.start w)
    ⟨by simp [Run.start],by simp⟩
  cases h : (run host registry task seq (Run.start w)).1 with
  | ok outcome =>
    rw [h] at hended
    exact hended.1
  | error e =>
    rw [h] at hended
    exact hended.1

end

end AgentCentric.Manager

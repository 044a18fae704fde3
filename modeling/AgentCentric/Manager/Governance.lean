import AgentCentric.Manager.Events

namespace AgentCentric.Manager

/-- What a policy is for: the agent, its capability and its tools are allowed at every seat, and a
tool is granted there. -/
def Event.Governed (task : TaskSpecification) (policy : Policy) : Event → Prop
  | .started seat agent _ _ => (policy.checkAgent agent).allowed = true ∧
      ∀ spec capability, task.specAt seat = some spec → spec.selector = .capability capability →
        (policy.checkCapability capability).allowed = true
  | .executed seat name => (policy.checkTool name).allowed = true ∧
      ∃ spec, task.specAt seat = some spec ∧ name ∈ spec.grantedTools
  | _ => True

def TaskSpecification.OwnersAllowed (task : TaskSpecification) (registry : Registry)
    (policy : Policy) : Prop :=
  ∀ seat spec capability manifest, task.specAt seat = some spec →
    spec.selector = .capability capability →
    registry.getByCapability capability = some manifest →
    (policy.checkAgent manifest.name).allowed = true

def Policy.onSelector (policy : Policy) : Selector → PolicyDecision
  | .agentName name => policy.checkAgent name
  | .capability capability => policy.checkCapability capability

theorem ofSelector_decision (policy : Policy) (scope : String) (selector : Selector) :
    (policy.ofSelector scope selector).decision = policy.onSelector selector := by
  cases selector with
  | agentName name => rfl
  | capability capability => rfl

theorem mem_specs_of_specAt {task : TaskSpecification} {seat : Seat} {spec : StageSpec}
    (h : task.specAt seat = some spec) : (∃ selector, task.work = .single selector ∧
      spec = ⟨selector,task.grantedTools,none,none,none⟩) ∨ spec ∈ task.specs := by
  unfold TaskSpecification.specAt at h
  cases hwork : task.work with
  | single selector =>
    rw [hwork] at h
    cases hbranch : seat.branch with
    | none =>
      simp only [hbranch,Stage.specAt,Option.some.injEq] at h
      exact .inl ⟨selector,rfl,h.symm⟩
    | some i =>
      simp only [hbranch,Stage.specAt] at h
      cases h
  | pipeline pipeline =>
    right
    rw [hwork] at h
    obtain ⟨stage,hstage,hspec⟩ := Option.bind_eq_some_iff.1 h
    have hmem : spec ∈ stage.specs := by
      cases stage with
      | agent declared =>
        cases hbranch : seat.branch with
        | none =>
          simp only [hbranch,Stage.specAt,Option.some.injEq] at hspec
          simp [Stage.specs,hspec]
        | some i =>
          simp only [hbranch,Stage.specAt] at hspec
          cases hspec
      | group parallel =>
        cases hbranch : seat.branch with
        | none =>
          simp only [hbranch,Stage.specAt] at hspec
          cases hspec
        | some i =>
          simp only [hbranch,Stage.specAt] at hspec
          exact List.mem_of_getElem? hspec
    simp only [TaskSpecification.specs,hwork,List.mem_flatMap]
    exact ⟨stage,List.mem_of_getElem? hstage,hmem⟩
  | parallel parallel =>
    right
    rw [hwork] at h
    cases hbranch : seat.branch with
    | none =>
      simp only [hbranch,Stage.specAt] at h
      cases h
    | some i =>
      simp only [hbranch,Stage.specAt] at h
      simp only [TaskSpecification.specs,hwork]
      exact List.mem_of_getElem? h

theorem allowed_of_accepted {task : TaskSpecification} {policy : Policy}
    (h : task.violation policy = none) {c : Constraint} (hc : c ∈ task.constraints policy) :
    c.decision.allowed = true := by
  have hnone := Option.map_eq_none_iff.1 h
  have hfound := List.find?_eq_none.1 hnone c hc
  simpa using hfound

theorem checked_of_accepted {task : TaskSpecification} {policy : Policy} {seat : Seat}
    {spec : StageSpec} (h : task.violation policy = none) (hspec : task.specAt seat = some spec) :
    (policy.onSelector spec.selector).allowed = true ∧
      ∀ name ∈ spec.grantedTools, (policy.checkTool name).allowed = true := by
  rcases mem_specs_of_specAt hspec with ⟨selector,hwork,rfl⟩ | hmem
  · constructor
    · rw [← ofSelector_decision policy "" selector]
      refine allowed_of_accepted h ?_
      simp [TaskSpecification.constraints,hwork]
    · intro name hname
      have hc : (⟨policy.checkTool name,"" ++ "tool",name⟩ : Constraint) ∈
          task.constraints policy := by
        simp only [TaskSpecification.constraints,List.mem_append,Policy.ofTools,List.mem_map]
        exact .inl (.inr ⟨name,hname,rfl⟩)
      exact allowed_of_accepted h hc
  · have hstage : ∀ c ∈ policy.ofStage spec, c.decision.allowed = true := by
      intro c hc
      refine allowed_of_accepted h ?_
      simp only [TaskSpecification.constraints,List.mem_append,List.mem_flatMap]
      exact .inr ⟨spec,hmem,hc⟩
    constructor
    · rw [← ofSelector_decision policy "stage " spec.selector]
      exact hstage _ (List.mem_cons_self ..)
    · intro name hname
      have hc : (⟨policy.checkTool name,"stage " ++ "tool",name⟩ : Constraint) ∈
          policy.ofStage spec :=
        List.mem_cons_of_mem _ (List.mem_map_of_mem hname)
      exact hstage _ hc

section
variable {W S : Type} {host : Host W S} {registry : Registry} {task : TaskSpecification}
  {policy : Policy}

theorem governed_of_possible (hpolicy : task.policy = some policy)
    (howners : task.OwnersAllowed registry policy) {e : Event}
    (h : e.Possible host registry task) : e.Governed task policy := by
  cases e with
  | started seat agent payload tools =>
    obtain ⟨haccepted,spec,manifest,hspec,hmanifest,rfl,_⟩ := h
    have hchecked := (checked_of_accepted (haccepted policy hpolicy) hspec).1
    cases hselector : spec.selector with
    | agentName name =>
      rw [hselector] at hchecked hmanifest
      have hname : manifest.name = name := registry.name_of_resolve hmanifest
      refine ⟨by rw [hname]; exact hchecked,fun spec' capability hspec' hcapability => ?_⟩
      rw [hspec] at hspec'
      cases hspec'
      rw [hselector] at hcapability
      cases hcapability
    | capability capability =>
      rw [hselector] at hchecked hmanifest
      refine ⟨howners seat spec capability manifest hspec hselector hmanifest,
        fun spec' capability' hspec' hcapability => ?_⟩
      rw [hspec] at hspec'
      cases hspec'
      rw [hselector] at hcapability
      cases hcapability
      exact hchecked
  | executed seat name =>
    obtain ⟨agent,tools,⟨haccepted,spec,manifest,hspec,hmanifest,_,rfl⟩,hname⟩ := h
    have hgranted : name ∈ spec.grantedTools := List.mem_of_mem_filter hname
    exact ⟨(checked_of_accepted (haccepted policy hpolicy) hspec).2 name hgranted,spec,hspec,
      hgranted⟩
  | _ => trivial

/-- A run of a task with a policy is governed by it, if the agents of its capabilities are allowed.
Otherwise the policy is asked for the capability only. -/
theorem run_governed (host : Host W S) (registry : Registry) (task : TaskSpecification) (seq : Nat)
    (w : W) (policy : Policy) (hpolicy : task.policy = some policy)
    (howners : task.OwnersAllowed registry policy) :
    ∀ e ∈ (run host registry task seq (Run.start w)).2.trace, e.Governed task policy :=
  fun e he => governed_of_possible hpolicy howners (run_possible host registry task seq w e he)

end

def echoCapability : Capability := ⟨"echo","1"⟩

def echoRegistry : Registry :=
  match Registry.empty.register ⟨"echo","agents:echo",[echoCapability]⟩ with
  | .ok registry => registry
  | .error _ => .empty

def echoDenied : Policy := ⟨[],["echo"],[],[],[],[]⟩

def echoTask (policy : Policy) : TaskSpecification :=
  { TaskSpecification.plain (.single (.capability echoCapability)) .none with
    policy := some policy }

def echoHost : Host Unit String := .plain (fun _ => .result .none) fun _ _ _ => .ok ⟨true,""⟩

def firstStarted : List Event → Option String
  | [] => none
  | .started _ agent _ _ :: _ => some agent
  | _ :: rest => firstStarted rest

theorem started_of_firstStarted {events : List Event} {agent : String}
    (h : firstStarted events = some agent) :
    ∃ seat payload tools, .started seat agent payload tools ∈ events := by
  induction events with
  | nil => cases h
  | cons e events ih =>
    cases e with
    | started seat name payload tools =>
      cases h
      exact ⟨seat,payload,tools,List.mem_cons_self ..⟩
    | _ =>
      obtain ⟨seat,payload,tools,hmem⟩ := ih h
      exact ⟨seat,payload,tools,List.mem_cons_of_mem _ hmem⟩

theorem echo_of_capability {capability : Capability} {manifest : AgentComponentManifest}
    (h : echoRegistry.getByCapability capability = some manifest) : manifest.name = "echo" := by
  have hall : ∀ item ∈ echoRegistry.byCapability.entries, item.2.name = "echo" := by
    decide +kernel
  exact hall _ ((Dict.lookup_eq_some_iff echoRegistry.byCapability.nodup).1 h)

def echoAllowed : Policy := ⟨["echo"],[],[],[],[],[]⟩

theorem run_governed_echo : (echoTask echoAllowed).policy = some echoAllowed ∧
    ∀ e ∈ (run echoHost echoRegistry (echoTask echoAllowed) 0 (Run.start ())).2.trace,
      e.Governed (echoTask echoAllowed) echoAllowed := by
  refine ⟨rfl,run_governed echoHost echoRegistry _ 0 () echoAllowed rfl ?_⟩
  intro seat spec capability manifest _ _ hmanifest
  rw [echo_of_capability hmanifest]
  decide

theorem run_not_governed : (echoTask echoDenied).policy = some echoDenied ∧
    ¬ ∀ e ∈ (run echoHost echoRegistry (echoTask echoDenied) 0 (Run.start ())).2.trace,
      e.Governed (echoTask echoDenied) echoDenied := by
  refine ⟨rfl,fun hgoverned => ?_⟩
  have hstarts : firstStarted (run echoHost echoRegistry (echoTask echoDenied) 0
      (Run.start ())).2.trace = some "echo" := by
    decide +kernel
  obtain ⟨seat,payload,tools,hmem⟩ := started_of_firstStarted hstarts
  have hallowed : (echoDenied.checkAgent "echo").allowed = true := (hgoverned _ hmem).1
  revert hallowed
  decide

end AgentCentric.Manager

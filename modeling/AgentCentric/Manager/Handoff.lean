import AgentCentric.Manager.Events

namespace AgentCentric.Manager
open Act (Ends Guarded Triple triple_assume triple_bind triple_pure triple_weaken)

namespace HandoffSchema

def accepts (schema : HandoffSchema) (payload : Value) : Bool := (validateHandoff payload schema).1

def meets (schema : HandoffSchema) (output : Value) : Prop :=
  schema.accepts output = true ∨ schema.accepts (handedOff output) = true

end HandoffSchema

/-- The output of an agent stage, or of a branch. -/
def partAt (parts : List Value) : Option Nat → Option Value
  | none => parts[0]?
  | some j => parts[j]?

namespace TaskSpecification

def Fits (task : TaskSpecification) (seat : Seat) (payload : Value) : Prop :=
  ∀ spec schema, task.specAt seat = some spec → spec.inputSchema = some schema →
    schema.accepts payload = true

/-- The outputs of stage `i` meet their schemas. -/
def Meets (task : TaskSpecification) (i : Nat) (parts : List Value) : Prop :=
  ∀ branch spec schema output, task.specAt ⟨i,branch⟩ = some spec →
    spec.outputSchema = some schema → partAt parts branch = some output → schema.meets output

/-- No branch has a schema that a hand-off would be checked against. -/
def BranchesFree (task : TaskSpecification) (count : Nat) : Prop :=
  ∀ i j spec, task.specAt ⟨i,some j⟩ = some spec →
    (0 < i → spec.inputSchema = none) ∧ (i + 1 < count → spec.outputSchema = none)

end TaskSpecification

/-- The run ends with `HANDOFF_FAILED`, unless the store fails. -/
def Rejected (result : Except Raised Outcome) (trace : List Event) : Prop :=
  .lost ∈ trace ∨ ∀ outcome, result = .ok outcome → outcome.trajectoryId = none ∨
    ∃ message, outcome.decision = .failure .handoffFailed message

/-- A later stage starts only on a payload that fits. The outputs of a stage are handed on only if
they meet their schemas, and otherwise the run is rejected and no later stage starts. -/
structure HandsOff (task : TaskSpecification) (count : Nat) (result : Except Raised Outcome)
    (trace : List Event) : Prop where
  starts : ∀ seat agent payload tools, .started seat agent payload tools ∈ trace →
    0 < seat.stage → task.Fits seat payload
  outputs : ∀ i parts, .produced i parts ∈ trace → .handed i ∈ trace → task.Meets i parts
  rejects : ∀ i parts, .produced i parts ∈ trace → i + 1 < count → .handed i ∉ trace →
    Rejected result trace ∧
      ∀ seat agent payload tools, .started seat agent payload tools ∈ trace → seat.stage ≤ i

theorem handoffError_none {i : Nat} {payload : Value} {checks : List (String × HandoffSchema)} :
    handoffError i payload checks = none ↔ ∀ check ∈ checks, check.2.accepts payload = true := by
  induction checks with
  | nil => simp [handoffError]
  | cons check checks ih =>
    obtain ⟨label,schema⟩ := check
    by_cases haccepts : schema.accepts payload = true
    · simp only [HandoffSchema.accepts] at haccepts
      simp [handoffError,haccepts,ih,HandoffSchema.accepts]
    · simp only [HandoffSchema.accepts] at haccepts
      simp [handoffError,haccepts,HandoffSchema.accepts]

theorem mem_handoffChecks {i : Nat} {producing consuming : Stage} {schema : HandoffSchema}
    (h : producing.outputSchema = some schema ∨ consuming.inputSchema = some schema) :
    ∃ label, (label,schema) ∈ handoffChecks i producing consuming := by
  have hmem : ∃ label, (label,schema) ∈ (producing.outputSchema.toList.map fun schema =>
      ("stage " ++ toString i ++ " output_schema",schema)) ++
        consuming.inputSchema.toList.map fun schema =>
          ("stage " ++ toString (i + 1) ++ " input_schema",schema) := by
    rcases h with h | h
    · exact ⟨"stage " ++ toString i ++ " output_schema",by simp [h]⟩
    · exact ⟨"stage " ++ toString (i + 1) ++ " input_schema",by simp [h]⟩
  obtain ⟨label,hlabel⟩ := hmem
  refine ⟨label,?_⟩
  unfold handoffChecks
  rw [if_neg (fun hnil => by rw [hnil] at hlabel; cases hlabel)]
  exact hlabel

theorem accepts_of_handed {i : Nat} {producing consuming : Stage} {payload : Value}
    (h : handoffError i payload (handoffChecks i producing consuming) = none)
    {schema : HandoffSchema}
    (hschema : producing.outputSchema = some schema ∨ consuming.inputSchema = some schema) :
    schema.accepts payload = true := by
  obtain ⟨label,hmem⟩ := mem_handoffChecks (i := i) hschema
  exact handoffError_none.1 h (label,schema) hmem

/-- The stages before `k` were handed on, and stage `k` may start. -/
def Event.upTo (task : TaskSpecification) (k : Nat) : Event → Prop
  | .started seat _ payload _ => seat.stage ≤ k ∧ (0 < seat.stage → task.Fits seat payload)
  | .produced i parts => i < k ∧ task.Meets i parts
  | .handed i => i < k
  | _ => True

/-- Stage `k` has produced its outputs, too. -/
def Event.after (task : TaskSpecification) (k : Nat) (parts : List Value) (e : Event) : Prop :=
  e.upTo task k ∨ e = .produced k parts

def handedBefore (k : Nat) : List Event := (List.range k).map .handed

section
variable {W S : Type} {host : Host W S} {registry : Registry} {task : TaskSpecification}
  {count k : Nat} {parts : List Value} {s : Run W}

theorem upTo_of_idle (e : Event) (h : e.isDeed = false) : e.upTo task k := by
  cases e <;> trivial

theorem after_of_idle (e : Event) (h : e.isDeed = false) : e.after task k parts :=
  .inl (upTo_of_idle e h)

theorem handsOff_of_upTo (h : Traced (Event.upTo task k) (handedBefore k) s)
    (result : Except Raised Outcome) : HandsOff task count result s.trace := by
  obtain ⟨hevents,hpast⟩ := h
  refine ⟨fun seat agent payload tools hmem => (hevents _ hmem).2,
    fun i parts hmem _ => (hevents _ hmem).2,fun i parts hmem _ hhanded => ?_⟩
  have hi : i < k := (hevents _ hmem).1
  exact absurd (hpast (.handed i) (List.mem_map_of_mem (List.mem_range.2 hi))) hhanded

theorem handsOff_of_after (h : Traced (Event.after task k parts) (handedBefore k) s)
    {result : Except Raised Outcome} (hrejected : k + 1 < count → Rejected result s.trace) :
    HandsOff task count result s.trace := by
  obtain ⟨hevents,hpast⟩ := h
  refine ⟨fun seat agent payload tools hmem => ?_,fun i parts' hmem hhanded => ?_,
    fun i parts' hmem hcount hhanded => ?_⟩
  · rcases hevents _ hmem with hupTo | heq
    · exact hupTo.2
    · cases heq
  · rcases hevents _ hmem with hupTo | heq
    · exact hupTo.2
    · cases heq
      rcases hevents _ hhanded with hlt | heq
      · exact absurd hlt (Nat.lt_irrefl k)
      · cases heq
  · rcases hevents _ hmem with hupTo | heq
    · have hi : i < k := hupTo.1
      exact absurd (hpast (.handed i) (List.mem_map_of_mem (List.mem_range.2 hi))) hhanded
    · cases heq
      refine ⟨hrejected hcount,fun seat agent payload tools hstarted => ?_⟩
      rcases hevents _ hstarted with hupTo | heq
      · exact hupTo.1
      · cases heq

theorem upTo_of_handed (h : Traced (Event.after task k parts) (handedBefore k) s)
    (hmeets : task.Meets k parts) :
    Traced (Event.upTo task (k + 1)) (handedBefore (k + 1)) (s.note (.handed k)) := by
  obtain ⟨hevents,hpast⟩ := h
  refine ⟨fun e he => ?_,fun e he => ?_⟩
  · rcases List.mem_append.1 he with hold | hnew
    · rcases hevents e hold with hupTo | heq
      · cases e with
        | started seat agent payload tools => exact ⟨Nat.le_succ_of_le hupTo.1,hupTo.2⟩
        | produced i parts => exact ⟨Nat.lt_succ_of_lt hupTo.1,hupTo.2⟩
        | handed i => exact Nat.lt_succ_of_lt hupTo
        | _ => trivial
      · rw [heq]
        exact ⟨Nat.lt_succ_self k,hmeets⟩
    · rw [List.mem_singleton.1 hnew]
      exact Nat.lt_succ_self k
  · simp only [handedBefore,List.range_succ,List.map_append,List.mem_append] at he
    rcases he with hold | hnew
    · exact List.mem_append_left _ (hpast e hold)
    · exact List.mem_append_right _ hnew

/-- What the stages return or raise. -/
def HandsOffEnds (task : TaskSpecification) (count : Nat) : Except Raised Outcome → Run W → Prop :=
  Ends (fun outcome s => HandsOff task count (.ok outcome) s.trace)
    fun e s => HandsOff task count (.error e) s.trace

theorem upkeep_upTo : Upkeep host (Traced (Event.upTo task k) (handedBefore k))
    fun e s => HandsOff task count (.error e) s.trace :=
  upkeep_traced upTo_of_idle fun _ _ hs => handsOff_of_upTo hs _

theorem sealing_upTo (trajectoryId : String) :
    Sealing host trajectoryId (Traced (Event.upTo task k) (handedBefore k))
      (fun outcome s => HandsOff task count (.ok outcome) s.trace)
      fun e s => HandsOff task count (.error e) s.trace :=
  sealing_traced upTo_of_idle trajectoryId (fun _ _ hs => handsOff_of_upTo hs _)
    fun _ _ hs => handsOff_of_upTo hs _

def StageOutput (stage : Stage) : StageEnd → Prop
  | .output output parts => ∀ spec, stage = .agent spec → parts = [output]
  | _ => True

theorem executeStage_upTo {p : Pipeline} {stage : Stage} {payload : Value} (start : Decimal)
    (hstage : ∀ branch, task.specAt ⟨k,branch⟩ = stage.specAt branch)
    (hfits : ∀ spec, stage = .agent spec → 0 < k → task.Fits ⟨k,none⟩ payload)
    (hbranches : ∀ j spec, task.specAt ⟨k,some j⟩ = some spec → 0 < k → spec.inputSchema = none) :
    Triple (Traced (Event.upTo task k) (handedBefore k))
      (executeStage host registry p k start payload stage)
      (Ends (fun ended s => Traced (Event.upTo task k) (handedBefore k) s ∧
        StageOutput stage ended) fun e s => HandsOff task count (.error e) s.trace) := by
  cases stage with
  | agent spec =>
    refine triple_bind (Q := fun _ => Traced (Event.upTo task k) (handedBefore k)) ?_
      fun ended => triple_pure fun s hs => ⟨hs,?_⟩
    · refine triple_weaken (runAgent_traced upTo_of_idle (fun manifest _ => ?_)
        fun _ _ => trivial) (fun _ hs => hs) fun r s hr => ?_
      · exact ⟨le_refl k,hfits spec rfl⟩
      · exact hr.imp (fun _ hs => hs) fun e hs => handsOff_of_upTo hs (.error e)
    · obtain ⟨found,output⟩ := ended
      cases found with
      | none => exact fun _ _ => rfl
      | some outcome => trivial
  | group parallel =>
    refine triple_bind (upkeep_upTo.group _ fun branches hbegun => ?_) fun ended => ?_
    · refine triple_weaken (workers_traced upTo_of_idle (fun j branch hbranch manifest _ => ?_)
        fun _ _ _ _ _ => trivial) (fun _ hs => hs) fun r s hr => ?_
      · refine ⟨le_refl k,fun hk spec schema hspec hschema => ?_⟩
        rw [hbranches j spec hspec hk] at hschema
        cases hschema
      · exact hr.imp (fun _ hs => hs) fun e hs => handsOff_of_upTo hs (.error e)
    · cases ended with
      | error failure => exact triple_pure fun s hs => ⟨hs,trivial⟩
      | ok joined => exact triple_pure fun s hs => ⟨hs,fun _ h => by cases h⟩

theorem rejected_of_records {place : Place} {trail : Trail} {message : String} {outcome : Outcome}
    {t : Run W} {result : Except Raised Outcome}
    (h : Records place trail (.failure .handoffFailed message) s result t)
    (hresult : result = .ok outcome) : outcome.trajectoryId = none ∨
      ∃ message, outcome.decision = .failure .handoffFailed message := by
  cases h with
  | stored w hfree h =>
    cases hresult
    exact .inr ⟨message,rfl⟩
  | refused w message =>
    cases hresult
    exact .inl rfl
  | raised w e => cases hresult
  | disordered w message h => cases hresult

def HandPost (task : TaskSpecification) (count k : Nat) (consuming : Stage) :
    Except Outcome Value → Run W → Prop
  | .error outcome, s => HandsOff task count (.ok outcome) s.trace
  | .ok payload, s => Traced (Event.upTo task (k + 1)) (handedBefore (k + 1)) s ∧
      ∀ schema, consuming.inputSchema = some schema → schema.accepts payload = true

theorem recordRejection (trail : Trail) (message : String) :
    Triple (Traced (Event.after task k parts) (handedBefore k))
      (recordFailure host .caller trail .handoffFailed message) (HandsOffEnds task count) := by
  intro s hs
  have hspec := recordFailure_spec host .caller trail .handoffFailed message s
  have htraced := hs.records after_of_idle hspec
  have hrejected : ∀ outcome, (recordFailure host .caller trail .handoffFailed message s).1 =
      .ok outcome → outcome.trajectoryId = none ∨
        ∃ message, outcome.decision = .failure .handoffFailed message :=
    fun outcome => rejected_of_records hspec
  cases hrun : (recordFailure host .caller trail .handoffFailed message s).1 with
  | ok outcome =>
    rw [hrun] at hrejected
    exact handsOff_of_after htraced fun _ => .inr hrejected
  | error e => exact handsOff_of_after htraced fun _ => .inr fun _ h => by cases h

theorem recordLost (trail : Trail) (reason : FailureReason) (message : String) :
    Triple (Traced (Event.after task k parts) (.lost :: handedBefore k))
      (recordFailure host .caller trail reason message) (HandsOffEnds task count) := by
  intro s hs
  have htraced := hs.records after_of_idle (recordFailure_spec host .caller trail reason message s)
  have hlost : .lost ∈ (recordFailure host .caller trail reason message s).2.trace :=
    htraced.2 _ (List.mem_cons_self ..)
  have hbefore : Traced (Event.after task k parts) (handedBefore k)
      (recordFailure host .caller trail reason message s).2 :=
    ⟨htraced.1,fun e he => htraced.2 e (List.mem_cons_of_mem _ he)⟩
  cases (recordFailure host .caller trail reason message s).1 with
  | ok outcome => exact handsOff_of_after hbefore fun _ => .inl hlost
  | error e => exact handsOff_of_after hbefore fun _ => .inl hlost

theorem appendHandoff (record : StepRecord Value) :
    Triple (Traced (Event.after task k parts) (handedBefore k)) (appendStep host .caller record)
      (Ends (fun refused s => if refused.isSome = true then
          Traced (Event.after task k parts) (.lost :: handedBefore k) s
        else Traced (Event.after task k parts) (handedBefore k) s)
        fun e s => HandsOff task count (.error e) s.trace) := by
  intro s hs
  have hspec := appendStep_spec host .caller record s
  have htraced := hs.appends after_of_idle hspec
  have hlost : (appendStep host .caller record s).1 ≠ .ok none →
      .lost ∈ (appendStep host .caller record s).2.trace := lost_of_appends hspec
  cases hrun : (appendStep host .caller record s).1 with
  | error e =>
    exact handsOff_of_after htraced fun _ => .inr fun _ h => by cases h
  | ok refused =>
    cases refused with
    | none => exact htraced
    | some text =>
      have hmem := hlost (by rw [hrun]; simp)
      refine ⟨htraced.1,fun e he => ?_⟩
      rcases List.mem_cons.1 he with heq | hold
      · rw [heq]
        exact hmem
      · exact htraced.2 e hold

theorem upkeep_after : Upkeep host (Traced (Event.after task k parts) (handedBefore k))
    fun e s => HandsOff task count (.error e) s.trace :=
  upkeep_traced after_of_idle fun _ _ hs => handsOff_of_after hs fun _ =>
    .inr fun _ h => by cases h

theorem after_of_produced (h : Traced (Event.upTo task k) (handedBefore k) s) :
    Traced (Event.after task k parts) (handedBefore k) (s.note (.produced k parts)) := by
  refine ⟨fun e he => ?_,fun e he => List.mem_append_left _ (h.2 e he)⟩
  rcases List.mem_append.1 he with hold | hnew
  · exact .inl (h.1 e hold)
  · exact .inr (List.mem_singleton.1 hnew)

theorem meets_of_accepted (hfree : task.BranchesFree count) (hlt : k + 1 < count)
    {stage : Stage} (hstage : ∀ branch, task.specAt ⟨k,branch⟩ = stage.specAt branch)
    {output : Value} (hout : StageOutput stage (.output output parts))
    (haccepts : ∀ schema, stage.outputSchema = some schema →
      schema.accepts (handedOff output) = true) : task.Meets k parts := by
  intro branch spec schema part hspec hschema hpart
  cases branch with
  | some j =>
    rw [(hfree k j spec hspec).2 hlt] at hschema
    cases hschema
  | none =>
    rw [hstage] at hspec
    cases stage with
    | group parallel => cases hspec
    | agent declared =>
      cases hspec
      rw [hout spec rfl] at hpart
      cases hpart
      exact .inr (haccepts schema hschema)

theorem fits_of_accepted {consuming : Stage} {payload : Value}
    (hspec : task.specAt ⟨k,none⟩ = consuming.specAt none)
    (haccepts : ∀ schema, consuming.inputSchema = some schema → schema.accepts payload = true) :
    task.Fits ⟨k,none⟩ payload := by
  intro spec schema hfound hschema
  rw [hspec] at hfound
  cases consuming with
  | group parallel => cases hfound
  | agent declared =>
    cases hfound
    exact haccepts schema hschema

def CheckedPost (task : TaskSpecification) (count k : Nat) (consuming : Stage) (payload : Value) :
    Option Outcome → Run W → Prop
  | some outcome, s => HandsOff task count (.ok outcome) s.trace
  | none, s => Traced (Event.upTo task (k + 1)) (handedBefore (k + 1)) s ∧
      ∀ schema, consuming.inputSchema = some schema → schema.accepts payload = true

theorem handOn_handsOff (trail : Trail) (producing consuming : Stage) (output : Value)
    (rest : List Stage) (hmeets : (∀ schema, producing.outputSchema = some schema →
      schema.accepts (handedOff output) = true) → task.Meets k parts) :
    Triple (Traced (Event.after task k parts) (handedBefore k))
      (handOn host trail k producing output (consuming :: rest))
      (Ends (HandPost task count k consuming)
        fun e s => HandsOff task count (.error e) s.trace) := by
  refine triple_bind (Q := CheckedPost task count k consuming (handedOff output)) ?_
    fun found => ?_
  · unfold validateStageHandoff
    cases herror : handoffError k (handedOff output) (handoffChecks k producing consuming) with
    | some message =>
      refine triple_bind (recordRejection trail message) fun outcome => ?_
      exact triple_pure fun s hs => hs
    | none =>
      refine triple_bind (appendHandoff _) fun refused => ?_
      cases refused with
      | some text =>
        refine triple_weaken (triple_bind (recordLost trail .internal _) fun outcome => ?_)
          (fun s hs => hs) fun _ _ hr => hr
        exact triple_pure fun s hs => hs
      | none =>
        refine triple_bind (Act.triple_write (Q := fun _ =>
          Traced (Event.upTo task (k + 1)) (handedBefore (k + 1))) fun s hs => ?_) fun _ => ?_
        · exact upTo_of_handed hs (hmeets fun schema hschema =>
            accepts_of_handed herror (.inl hschema))
        · exact triple_pure fun s hs => ⟨hs,fun schema hschema =>
            accepts_of_handed herror (.inr hschema)⟩
  · cases found with
    | some outcome => exact triple_pure fun s hs => hs
    | none => exact triple_pure fun s hs => hs

theorem stopped_handsOff (trail : Trail) (outcome : Outcome) (i : Nat) (name : String)
    (start : Decimal) (startedSteps : Nat) (accounts : List Value) :
    Triple (Traced (Event.upTo task k) (handedBefore k)) (do
      note (.stopped i)
      let account ← stageAccount host i name start startedSteps
      let persisted ← persistStageSummary host (accounts ++ [account])
      if persisted then pure outcome else unaccounted host trail) (HandsOffEnds task count) := by
  have hupkeep : Upkeep host (Traced (Event.upTo task k) (handedBefore k))
      fun e s => HandsOff task count (.error e) s.trace := upkeep_upTo
  have hsealing : Sealing host trail.trajectoryId (Traced (Event.upTo task k) (handedBefore k))
      (fun outcome s => HandsOff task count (.ok outcome) s.trace)
      fun e s => HandsOff task count (.error e) s.trace := sealing_upTo _
  refine triple_bind (Act.triple_write (Q := fun _ =>
    Traced (Event.upTo task k) (handedBefore k)) fun s hs => traced_note hs trivial) fun _ => ?_
  refine triple_bind (hupkeep.quiet (quiet_stageAccount i name start startedSteps))
    fun account => ?_
  refine triple_bind (hupkeep.persistStageSummary _) fun persisted => ?_
  cases persisted with
  | true => exact triple_pure fun s hs => handsOff_of_upTo hs _
  | false => exact hsealing.failed trail .internal _ rfl

theorem runStages_handsOff (hfree : task.BranchesFree count) {p : Pipeline} (stages : List Stage)
    (k : Nat)
    (hstages : ∀ n branch, task.specAt ⟨k + n,branch⟩ = (stages[n]?).bind (·.specAt branch))
    (hcount : k + stages.length = count) (payload : Value)
    (hfits : 0 < k → task.Fits ⟨k,none⟩ payload) (accounts : List Value) :
    Triple (Traced (Event.upTo task k) (handedBefore k))
      (runStages host registry p k stages payload accounts) (HandsOffEnds task count) := by
  induction stages generalizing k payload accounts with
  | nil =>
    have hsealing : Sealing host p.trail.trajectoryId (Traced (Event.upTo task k) (handedBefore k))
        (fun outcome s => HandsOff task count (.ok outcome) s.trace)
        fun e s => HandsOff task count (.error e) s.trace := sealing_upTo _
    exact hsealing.finishPipeline upkeep_upTo rfl _ _
  | cons stage rest ih =>
    have hupkeep : Upkeep host (Traced (Event.upTo task k) (handedBefore k))
        fun e s => HandsOff task count (.error e) s.trace := upkeep_upTo
    have hsealing : Sealing host p.trail.trajectoryId (Traced (Event.upTo task k) (handedBefore k))
        (fun outcome s => HandsOff task count (.ok outcome) s.trace)
        fun e s => HandsOff task count (.error e) s.trace := sealing_upTo _
    refine triple_bind (hupkeep.quiet quiet_clock) fun start => ?_
    refine triple_bind (hupkeep.quiet quiet_stepCount) fun startedSteps => ?_
    cases hunknown : unknownStage registry k stage with
    | some message => exact hsealing.failed _ _ _ rfl
    | none =>
      refine hupkeep.refused (hsealing.failed _ _ _ rfl) ?_
      have hstage : ∀ branch, task.specAt ⟨k,branch⟩ = stage.specAt branch := hstages 0
      refine triple_bind (executeStage_upTo start hstage (fun _ _ => hfits)
        fun j spec hspec => (hfree k j spec hspec).1) fun ended => ?_
      cases ended with
      | groupFailed failure =>
        exact triple_weaken (hsealing.stageFailureToOutcome hupkeep rfl _ _) (fun _ hs => hs.1)
          fun _ _ hr => hr
      | stopped outcome =>
        refine triple_weaken (stopped_handsOff p.trail outcome k (stage.name registry) start
          startedSteps accounts) (fun _ hs => hs.1) fun _ _ hr => hr
      | output output parts =>
        have hupkeep' : Upkeep host (Traced (Event.after task k parts) (handedBefore k))
            fun e s => HandsOff task count (.error e) s.trace := upkeep_after
        refine triple_assume fun hout => ?_
        refine triple_bind (Act.triple_write (Q := fun _ =>
          Traced (Event.after task k parts) (handedBefore k)) fun s hs => after_of_produced hs)
          fun _ => ?_
        refine triple_bind (hupkeep'.quiet (quiet_stageAccount k _ start startedSteps))
          fun account => ?_
        cases rest with
        | nil =>
          -- The last stage has no hand-off.
          have hlast : k + 1 = count := hcount
          have hsealing' : Sealing host p.trail.trajectoryId
              (Traced (Event.after task k parts) (handedBefore k))
              (fun outcome s => HandsOff task count (.ok outcome) s.trace)
              fun e s => HandsOff task count (.error e) s.trace :=
            sealing_traced after_of_idle _
              (fun outcome s hs => handsOff_of_after hs fun hlt => by omega)
              fun e s hs => handsOff_of_after hs fun hlt => by omega
          exact hsealing'.finishPipeline hupkeep' rfl _ _
        | cons consuming rest =>
          have hlt : k + 1 < count := by
            simp only [List.length_cons] at hcount
            omega
          have hmeets := meets_of_accepted hfree hlt hstage hout
          refine triple_bind (handOn_handsOff p.trail stage consuming output rest hmeets)
            fun passed => ?_
          cases passed with
          | error outcome => exact triple_pure fun s hs => hs
          | ok payload =>
            refine triple_assume fun hpassed => ?_
            refine ih (k + 1) (fun n branch => ?_) ?_ payload
              (fun _ => fits_of_accepted (hstages 1 none) hpassed) _
            · rw [Nat.add_right_comm]
              exact hstages (n + 1) branch
            · rw [← hcount]
              simp only [List.length_cons]
              omega

/-- A run of a pipeline whose branches have no schemas hands on what it should. -/
theorem run_handsOff (host : Host W S) (registry : Registry) (task : TaskSpecification) (seq : Nat)
    (w : W) (pipeline : SequentialComposition) (hwork : task.work = .pipeline pipeline)
    (hfree : task.BranchesFree pipeline.stages.length) :
    HandsOff task pipeline.stages.length (run host registry task seq (Run.start w)).1
      (run host registry task seq (Run.start w)).2.trace := by
  have hstart : Traced (Event.upTo task 0) (handedBefore 0) (Run.start w) :=
    ⟨by simp [Run.start],by simp [handedBefore]⟩
  have hends : Triple (Traced (Event.upTo task 0) (handedBefore 0))
      (run host registry task seq) (HandsOffEnds task pipeline.stages.length) := by
    have hupkeep : Upkeep host (Traced (Event.upTo task 0) (handedBefore 0))
        fun e s => HandsOff task pipeline.stages.length (.error e) s.trace := upkeep_upTo
    have hsealing : Sealing host (task.taskId ++ "#" ++ toString seq)
        (Traced (Event.upTo task 0) (handedBefore 0))
        (fun outcome s => HandsOff task pipeline.stages.length (.ok outcome) s.trace)
        fun e s => HandsOff task pipeline.stages.length (.error e) s.trace := sealing_upTo _
    simp only [run,hwork,runPipeline]
    cases registry.resolve (pipeline.stages.head pipeline.nonempty).first.selector with
    | none =>
      refine triple_weaken (traced_runUnknownAgent upTo_of_idle task _) (fun _ hs => hs) ?_
      exact fun _ _ hr => hr.imp (fun _ hs => handsOff_of_upTo hs _)
        fun _ hs => handsOff_of_upTo hs _
    | some manifest =>
      refine triple_bind (hupkeep.quiet quiet_clock) fun start => ?_
      refine hsealing.governed hupkeep rfl task fun _ => ?_
      refine runStages_handsOff hfree pipeline.stages 0 (fun n branch => ?_)
        (Nat.zero_add _) task.payload (fun hlt => absurd hlt (Nat.lt_irrefl 0)) []
      simp [TaskSpecification.specAt,hwork]
  have hended := hends (Run.start w) hstart
  cases hrun : (run host registry task seq (Run.start w)).1 with
  | ok outcome =>
    rw [hrun] at hended
    exact hended
  | error e =>
    rw [hrun] at hended
    exact hended

end

def payloadAt (seat : Seat) : List Event → Option Value
  | [] => none
  | .started at' _ payload _ :: rest => if at' = seat then some payload else payloadAt seat rest
  | _ :: rest => payloadAt seat rest

theorem started_of_payloadAt {seat : Seat} {events : List Event} {payload : Value}
    (h : payloadAt seat events = some payload) :
    ∃ agent tools, .started seat agent payload tools ∈ events := by
  induction events with
  | nil => cases h
  | cons e events ih =>
    cases e with
    | started at' name found tools =>
      by_cases heq : at' = seat
      · simp only [payloadAt,if_pos heq,Option.some.injEq] at h
        exact ⟨name,tools,by simp [heq,h]⟩
      · simp only [payloadAt,if_neg heq] at h
        obtain ⟨agent,tools,hmem⟩ := ih h
        exact ⟨agent,tools,List.mem_cons_of_mem _ hmem⟩
    | _ =>
      obtain ⟨agent,tools,hmem⟩ := ih h
      exact ⟨agent,tools,List.mem_cons_of_mem _ hmem⟩

def namesHost : Host Unit String := .plain (fun name => .result (.str name)) fun _ _ _ =>
  .ok ⟨true,""⟩

def twoAgents : SequentialComposition :=
  ⟨[.agent (.named "first"),.agent (.named "second")],by simp⟩

/-- The payload must have an integer `n`. -/
def needsNumber : HandoffSchema := .fields (Dict.empty.set "n" .int)

def numberBranch : SequentialComposition :=
  ⟨[.agent (.named "first"),.group ⟨[⟨.agentName "second",[],none,none,some needsNumber⟩],
    by simp⟩],by simp⟩

theorem run_handsOff_two : HandsOff (.plain (.pipeline twoAgents) .none) 2
    (run namesHost (.ofNames ["first","second"]) (.plain (.pipeline twoAgents) .none) 0
      (Run.start ())).1
    (run namesHost (.ofNames ["first","second"]) (.plain (.pipeline twoAgents) .none) 0
      (Run.start ())).2.trace := by
  refine run_handsOff namesHost (.ofNames ["first","second"]) (.plain (.pipeline twoAgents) .none)
    0 () twoAgents rfl ?_
  intro i j spec hspec
  rcases i with _ | _ | i
  · cases hspec
  · cases hspec
  · cases hspec

theorem branch_starts_unfit : ¬ HandsOff (.plain (.pipeline numberBranch) .none) 2
    (run namesHost (.ofNames ["first","second"]) (.plain (.pipeline numberBranch) .none) 0
      (Run.start ())).1
    (run namesHost (.ofNames ["first","second"]) (.plain (.pipeline numberBranch) .none) 0
      (Run.start ())).2.trace := by
  intro hhands
  have hunfit : (payloadAt ⟨1,some 0⟩ (run namesHost (.ofNames ["first","second"])
      (.plain (.pipeline numberBranch) .none) 0 (Run.start ())).2.trace).map
        (needsNumber.accepts ·) = some false := by
    decide +kernel
  obtain ⟨payload,hpayload,haccepts⟩ := Option.map_eq_some_iff.1 hunfit
  obtain ⟨agent,tools,hmem⟩ := started_of_payloadAt hpayload
  have hfits := hhands.starts ⟨1,some 0⟩ agent payload tools hmem Nat.one_pos _ needsNumber rfl rfl
  rw [haccepts] at hfits
  cases hfits

end AgentCentric.Manager

import AgentCentric.Flow.Determinacy

namespace AgentCentric.Flow
open Network Machine

/-- The arguments that the edges into a component give, on top of its template. -/
def edgeArgs (id : String) (outputs : Dict String Value) :
    List Edge → Dict String Value → Except String (Dict String Value)
  | [], args => .ok args
  | e :: rest, args =>
    if e.target = id then do
      let value ← expect (outputs.get e.source)
        (s!"edge {e.source}.{e.sourceField} -> {id}: source has no computed output")
      edgeArgs id outputs rest (args.set e.targetArg value)
    else edgeArgs id outputs rest args

def dataflowLoop (d : Driver) (net : ComponentNetwork) :
    List Component → Dict String Value → List Activation → FlowEnding
  | [], _, log => ⟨.success,log,log.length⟩
  | c :: rest, outputs, log =>
    match edgeArgs c.id outputs net.edges c.args with
    | .error message => ⟨.failed message,log,log.length⟩
    | .ok args =>
      match d log (makeRequest c args) with
      | .error message =>
          ⟨.failed s!"component {c.id} ({c.task}) raised: {message}",log,log.length⟩
      | .ok response =>
        let log' := log ++ [⟨c.id,makeRequest c args,response⟩]
        if response.verified = false then ⟨.unverified,log',log.length⟩
        else dataflowLoop d net rest (outputs.set c.id response.value) log'

def dataflow (d : Driver) (net : ComponentNetwork) (stepLimit : Option Int) :
    Except String FlowEnding := do
  let _ ← checkLimits net stepLimit
  pure (dataflowLoop d net (schedule net) .empty [])

/-- The components by their ids, `components()`. -/
def nodes (net : ComponentNetwork) : List Component :=
  (sortStrings net.ids).filterMap net.component?

def streaming (net : ComponentNetwork) : Bool := (nodes net).any fun c => !c.stream.isEmpty

def ported (net : ComponentNetwork) : Bool :=
  !net.iips.isEmpty || (nodes net).any fun c => !c.ports.entries.isEmpty

def runNetwork (d : Driver) (net : ComponentNetwork) (stepLimit : Option Int) : RunResult :=
  if streaming net then runStream d net stepLimit
  else if ported net then runFlow d net stepLimit
  else
    match dataflow d net stepLimit with
    | .error message => refused message
    | .ok ending => flowReport ending

/-- The `driver.run` calls of a run, with their answers. -/
def networkLog (d : Driver) (net : ComponentNetwork) (stepLimit : Option Int) :
    List Activation :=
  if streaming net then streamLog d net stepLimit
  else if ported net then flowLog d net stepLimit
  else
    match dataflow d net stepLimit with
    | .error _ => []
    | .ok ending => ending.log

variable {net : ComponentNetwork} {c : Component}

theorem mem_nodes : c ∈ nodes net ↔ net.component? c.id = some c := by
  unfold nodes
  rw [List.mem_filterMap]
  constructor
  · rintro ⟨id,_,hc⟩
    rwa [ComponentNetwork.component?_id hc]
  · intro hc
    have hid : c.id ∈ net.ids := ComponentNetwork.mem_ids.mpr (by simp [hc])
    exact ⟨c.id,(sortStrings_perm _).mem_iff.mpr hid,hc⟩

/-- A call of a component, with its own task, verifier and child. -/
def Activation.For (a : Activation) (c : Component) : Prop :=
  a.id = c.id ∧ ∃ args, a.request = makeRequest c args

def CallsOf (cs : List Component) (log : List Activation) : Prop :=
  ∀ a ∈ log, ∃ c ∈ cs, a.For c

variable {log : List Activation}

theorem CallsOf.snoc {cs : List Component}
    {args : Dict String Value} {response : Response} (h : CallsOf cs log) (hc : c ∈ cs) :
    CallsOf cs (log ++ [⟨c.id,makeRequest c args,response⟩]) := by
  intro a ha
  rcases List.mem_append.mp ha with ha | ha
  · exact h a ha
  · rw [List.mem_singleton.mp ha]
    exact ⟨c,hc,rfl,args,rfl⟩

structure Looped (cs rest : List Component) (log : List Activation) (e : FlowEnding) : Prop where
  calls : CallsOf cs log → CallsOf cs e.log
  kept : ∀ a ∈ log, a ∈ e.log
  all : e.verdict = .success → ∀ c ∈ rest, ∃ a ∈ e.log, a.For c

variable {cs rest : List Component}

theorem Looped.stop {verdict : FlowVerdict}
    {completed : Nat} (h : verdict ≠ .success) : Looped cs rest log ⟨verdict,log,completed⟩ :=
  ⟨id,fun _ ha => ha,fun hs => absurd hs h⟩

theorem Looped.called
    {args : Dict String Value} {response : Response} {e : FlowEnding} (hc : c ∈ cs)
    (h : Looped cs rest (log ++ [⟨c.id,makeRequest c args,response⟩]) e) :
    Looped cs (c :: rest) log e := by
  refine ⟨fun hlog => h.calls (hlog.snoc hc),fun a ha => h.kept a (List.mem_append_left _ ha),
    fun hs c' hc' => ?_⟩
  rcases List.mem_cons.mp hc' with rfl | hc'
  · exact ⟨_,h.kept _ (List.mem_append_right _ List.mem_cons_self),rfl,args,rfl⟩
  · exact h.all hs c' hc'

theorem dataflowLoop_looped (d : Driver) (net : ComponentNetwork)
    (hrest : ∀ c ∈ rest, c ∈ cs) (outputs : Dict String Value) (log : List Activation) :
    Looped cs rest log (dataflowLoop d net rest outputs log) := by
  induction rest generalizing outputs log with
  | nil => exact ⟨id,fun _ ha => ha,fun _ _ hc => by cases hc⟩
  | cons c rest ih =>
    have hc := hrest c List.mem_cons_self
    have hlater := fun c' hc' => hrest c' (List.mem_cons_of_mem c hc')
    unfold dataflowLoop
    split
    · exact .stop (by simp)
    split
    · exact .stop (by simp)
    simp only
    split
    · exact .called hc (.stop (by simp))
    · exact .called hc (ih hlater _ _)

theorem flowLoop_looped (d : Driver) (p : Plan)
    (hrest : ∀ c ∈ rest, c ∈ cs) (b : Buffers) (log : List Activation) :
    Looped cs rest log (flowLoop d p rest b log) := by
  induction rest generalizing b log with
  | nil => exact ⟨id,fun _ ha => ha,fun _ _ hc => by cases hc⟩
  | cons c rest ih =>
    have hc := hrest c List.mem_cons_self
    have hlater := fun c' hc' => hrest c' (List.mem_cons_of_mem c hc')
    unfold flowLoop
    split
    · exact .stop (by simp)
    split
    · exact .stop (by simp)
    simp only
    split
    · exact .called hc (.stop (by simp))
    split
    · exact .called hc (.stop (by simp))
    · exact .called hc (ih hlater _ _)

def outcomeState : Outcome State Verdict → State
  | .next s => s
  | .halt _ s => s

theorem schedulerStep_log (d : Driver) (p : Plan) (s : State) :
    (outcomeState (schedulerStep d p s)).log = s.log ∨ ∃ c ∈ p.order, ∃ args response,
      (outcomeState (schedulerStep d p s)).log = s.log ++ [⟨c.id,makeRequest c args,response⟩] := by
  unfold schedulerStep
  split
  · rename_i c rest hready
    have hc : c ∈ p.order := (mem_ready.mp (hready ▸ List.mem_cons_self : c ∈ ready p s)).1
    unfold activate
    split
    · exact .inl rfl
    · rename_i args b hargs
      split
      · exact .inl rfl
      · split
        · exact .inl rfl
        · rename_i response hresponse
          refine .inr ⟨c,hc,args,response,?_⟩
          simp only
          split
          · rfl
          · split <;> rfl
  · split
    · unfold settle
      split <;> exact .inl rfl
    · unfold emit
      simp only
      split
      · exact .inl rfl
      · exact .inl rfl
      · exact .inl rfl
      · split <;> exact .inl rfl

theorem CallsOf.turn {d : Driver} {p : Plan} {s : State} (h : CallsOf p.order s.log) :
    CallsOf p.order (outcomeState (schedulerStep d p s)).log := by
  rcases schedulerStep_log d p s with hsame | ⟨c,hc,args,response,hnew⟩
  · rw [hsame]
    exact h
  · rw [hnew]
    exact h.snoc hc

theorem streamLog_calls (d : Driver) (net : ComponentNetwork) (stepLimit : Option Int) :
    CallsOf (schedule net) (streamLog d net stepLimit) := by
  unfold streamLog
  split
  · intro a ha
    cases ha
  · rename_i p hprep
    rw [← (prepare_plan hprep).1]
    cases hrun : runLoop d p with
    | none =>
      intro a ha
      cases ha
    | some e =>
      obtain ⟨hreach,hlast⟩ := run_halts hrun
      have hstart : CallsOf p.order State.initial.log := by
        intro a ha
        cases ha
      have hstep : ∀ s t, CallsOf p.order s.log → schedulerStep d p s = .next t →
          CallsOf p.order t.log := by
        intro s t hs ht
        have hturn := hs.turn (d := d)
        rw [ht] at hturn
        exact hturn
      have hbefore : CallsOf p.order e.last.log :=
        Reaches.invariant (P := fun s => CallsOf p.order s.log) hreach hstart hstep
      have hturn := hbefore.turn (d := d)
      rw [hlast] at hturn
      exact hturn

/-- What the calls of a run are: those of its components, and, but for streams, at least one
of each when the run succeeds. -/
structure Calls (net : ComponentNetwork) (ok : Bool) (log : List Activation) : Prop where
  calls : ∀ a ∈ log, ∃ c, net.component? a.id = some c ∧ a.For c
  all : ok = true → streaming net = false → ∀ id c, net.component? id = some c →
    ∃ a ∈ log, a.id = id

theorem calls_of_schedule
    (h : CallsOf (schedule net) log) : ∀ a ∈ log, ∃ c, net.component? a.id = some c ∧ a.For c := by
  intro a ha
  obtain ⟨c,hc,hfor⟩ := h a ha
  exact ⟨c,hfor.1 ▸ schedule_component hc,hfor⟩

theorem mem_schedule (hvalid : net.Validated) {id : String}
    (h : net.component? id = some c) : c ∈ schedule net := by
  have hid : id ∈ net.order :=
    hvalid.order_perm.mem_iff.mpr (ComponentNetwork.mem_ids.mpr (by simp [h]))
  exact List.mem_filterMap.mpr ⟨id,hid,h⟩

theorem Looped.of_schedule (hvalid : net.Validated) {e : FlowEnding}
    (h : Looped (schedule net) (schedule net) [] e) : Calls net (flowReport e).ok e.log := by
  refine ⟨calls_of_schedule (h.calls fun a ha => (by cases ha)),fun hok _ id c hc => ?_⟩
  simp only [flowReport,decide_eq_true_eq] at hok
  obtain ⟨a,ha,hfor⟩ := h.all hok c (mem_schedule hvalid hc)
  exact ⟨a,ha,hfor.1.trans (ComponentNetwork.component?_id hc)⟩

theorem Calls.none (net : ComponentNetwork) : Calls net false [] :=
  ⟨fun a ha => (by cases ha),fun hok => (by cases hok)⟩

theorem runNetwork_calls (d : Driver) (net : ComponentNetwork) (stepLimit : Option Int) :
    Calls net (runNetwork d net stepLimit).ok (networkLog d net stepLimit) := by
  unfold runNetwork networkLog
  split
  · rename_i hstream
    exact ⟨calls_of_schedule (streamLog_calls d net stepLimit),
      fun _ hnot => by rw [hstream] at hnot; cases hnot⟩
  split
  · unfold runFlow flowLog
    cases hprep : prepareFlow net stepLimit with
    | error message => exact .none net
    | ok p =>
      simp only [prepareFlow,bind_ok] at hprep
      obtain ⟨limit,hlimit,_,_,hp⟩ := hprep
      cases hp
      exact (flowLoop_looped d _ (fun c hc => hc) _ _).of_schedule (checkLimits_ok hlimit).1
  · unfold dataflow
    cases hlimit : checkLimits net stepLimit with
    | error message => exact .none net
    | ok limit =>
      exact (dataflowLoop_looped d net (fun c hc => hc) _ _).of_schedule
        (checkLimits_ok hlimit).1

end AgentCentric.Flow

import AgentCentric.Flow.Turns

namespace AgentCentric.Flow
open Network Machine

/-- The elements that one activation outputs on a port. An output that is not verified is
never sent. -/
def outputOn (net : ComponentNetwork) (port : String) (a : Activation) : Stream'.Seq Value :=
  if a.response.verified then
    match net.component? a.id with
    | some c =>
      match portElements c a.response.value port with
      | .ok elements => elements
      | .error _ => Stream'.Seq.nil
    | none => Stream'.Seq.nil
  else Stream'.Seq.nil

def activationsOf (id : String) (log : List Activation) : List Activation :=
  log.filter (·.id = id)

/-- All that the source of `w` has output on the port of `w`, in activation order. -/
def produced (net : ComponentNetwork) (w : Connection) (log : List Activation) :
    Stream'.Seq Value :=
  Feed.catenate ((activationsOf w.source log).map (outputOn net w.sourcePort))

def remaining (emitters : String → Option Emitter) (w : Connection) : Stream'.Seq Value :=
  match emitters w.source with
  | some e => e.remaining w
  | none => Stream'.Seq.nil

/-- The element that the suspended source of `w` still holds for it. -/
def State.retained (s : State) (w : Connection) : List Value :=
  match s.emitters w.source with
  | some e => e.inFlight w
  | none => []

/-- Every wire has had, or is still owed, the sequence `total`, and no buffer is above its
capacity. -/
structure Carries (wires : List Connection) (total : Connection → Stream'.Seq Value)
    (emitters : String → Option Emitter) (b : Buffers) : Prop where
  ok : ∀ id e, emitters id = some e → e.Ok wires id
  flow : ∀ w ∈ wires,
    (Stream'.Seq.ofList (b.history w)).append (remaining emitters w) = total w
  bounded : ∀ w ∈ wires, (b.queue w.id).length ≤ w.capacity

variable {total : Connection → Stream'.Seq Value} {emitters : String → Option Emitter} {e : Emitter}
  {b : Buffers} {id : String}

theorem Carries.step {wires : List Connection}
   
    (h : Carries wires total emitters b) (hids : DistinctIds wires) (he : emitters id = some e) :
    Carries wires total (Function.update emitters id (some (e.step b).emitter))
      (e.step b).buffers := by
  have hok := h.ok id e he
  have hmoved := Emitter.step_moved b hids hok
  refine ⟨forall_update_some h.ok (hmoved.ok hok),fun w hw => ?_,fun w hw => ?_⟩
  · rw [← h.flow w hw]
    by_cases hsource : w.source = id
    · subst hsource
      have hconserve := hmoved.conserves hids hok hw
      simpa [remaining,he] using hconserve
    · have hqueue := hmoved.elsewhere hids hok hw hsource
      simp [remaining,hsource,Buffers.history,hqueue,hmoved.taken]
  · exact hmoved.bounded hids hok hw (h.bounded w hw)

theorem Carries.done {wires : List Connection}
   
    (h : Carries wires total emitters b) (hids : DistinctIds wires) (he : emitters id = some e)
    (hdone : (e.step b).status = .done) :
    Carries wires total (Function.update emitters id none) (e.step b).buffers := by
  have hstep := h.step hids he
  have hempty : (e.step b).emitter = ⟨[],none⟩ := by
    have hmoved := Emitter.step_moved b hids (h.ok id e he)
    generalize e.step b = st at hmoved hdone
    cases hmoved <;> simp at hdone ⊢
  refine ⟨forall_update_none id h.ok,fun w hw => ?_,hstep.bounded⟩
  · rw [← hstep.flow w hw]
    by_cases hsource : w.source = id
    · simp [remaining,hsource,hempty,Emitter.remaining,Emitter.inFlight,owed]
    · simp [remaining,hsource]

theorem Carries.round {wires : List Connection} (ids : List String)
    (h : Carries wires total emitters b) (hids : DistinctIds wires) :
    Carries wires total (round ids emitters b).emitters (round ids emitters b).buffers :=
  round_invariant h (fun _ _ _ _ he hP => hP.step hids he)
    fun _ _ _ _ he hdone hP => hP.done hids he hdone

variable {p : Plan} {w : Connection}

theorem mem_targetsOf {id port : String} : w ∈ (targetsOf p id port).map Prod.fst ↔
      w ∈ p.connections ∧ w.source = id ∧ w.sourcePort = port := by
  simp [targetsOf,Function.comp_def,List.mem_insertionSort,Plan.outgoing]

theorem targetsOf_ok (hp : p.Sound) (id port : String) :
    TargetsOk p.connections id (targetsOf p id port) := by
  refine ⟨?_,fun c hc => ?_⟩
  · have hsorted : ((p.outgoing id port).insertionSort (byTarget · ·)).Nodup :=
      (List.perm_insertionSort _ _).nodup_iff.mpr (hp.nodup.filter _)
    simpa [targetsOf,Function.comp_def] using hsorted
  · obtain ⟨hmem,hsource,_⟩ := mem_targetsOf.mp hc
    exact ⟨hmem,hsource⟩

variable {c : Component} {output : Value}

theorem buildStream_ok {port : String} {s : OutStream} : buildStream p c output port = .ok s ↔
      ∃ elements, portElements c output port = .ok elements ∧
        s = ⟨targetsOf p c.id port,elements⟩ := by
  simp only [buildStream,bind_ok]
  constructor
  · intro h
    obtain ⟨elements,hel,hs⟩ := h
    cases hs
    exact ⟨elements,hel,rfl⟩
  · intro h
    obtain ⟨elements,hel,rfl⟩ := h
    exact ⟨elements,hel,rfl⟩

theorem buildStreams_targets {ports : List String} {streams : List OutStream} (hp : p.Sound)
    (h : buildStreams p c output ports = .ok streams) :
    ∀ s ∈ streams, TargetsOk p.connections c.id s.targets := by
  induction ports generalizing streams with
  | nil =>
    cases h
    simp
  | cons port ports ih =>
    simp only [buildStreams,bind_ok,buildStream_ok] at h
    obtain ⟨s,⟨elements,_,rfl⟩,rest,hrest,hstreams⟩ := h
    cases hstreams
    intro s hs
    cases List.mem_cons.mp hs with
    | inl heq => exact heq ▸ targetsOf_ok hp c.id port
    | inr hmem => exact ih hrest s hmem

theorem buildStreams_owed {ports : List String} {streams : List OutStream} (hports : ports.Nodup)
    (hw : w ∈ p.connections) (hsource : w.source = c.id)
    (h : buildStreams p c output ports = .ok streams) :
    (w.sourcePort ∉ ports → owed streams w = Stream'.Seq.nil) ∧
    (w.sourcePort ∈ ports → portElements c output w.sourcePort = .ok (owed streams w)) := by
  induction ports generalizing streams with
  | nil =>
    cases h
    simp [owed]
  | cons port ports ih =>
    simp only [buildStreams,bind_ok,buildStream_ok] at h
    obtain ⟨s,⟨elements,hel,rfl⟩,rest,hrest,hstreams⟩ := h
    cases hstreams
    simp only [List.nodup_cons] at hports
    obtain ⟨hout,hin⟩ := ih hports.2 hrest
    by_cases hport : w.sourcePort = port
    · have hhas : Targets.has (targetsOf p c.id port) w = true :=
        Targets.has_eq_true.mpr (mem_targetsOf.mpr ⟨hw,hsource,hport⟩)
      have hrest' := hout (hport ▸ hports.1)
      simp [owed_cons,hhas,hport,hrest',hel]
    · have hhas : Targets.has (targetsOf p c.id port) w = false := by
        rw [Bool.eq_false_iff]
        exact fun hhas => hport (mem_targetsOf.mp (Targets.has_eq_true.mp hhas)).2.2
      simpa [owed_cons,hhas,hport] using And.intro hout hin

theorem mem_wiredPorts (hw : w ∈ p.connections) : w.sourcePort ∈ p.wiredPorts w.source := by
  rw [Plan.wiredPorts,(sortStrings_perm _).mem_iff]
  simp only [List.mem_dedup,List.mem_map,List.mem_filter]
  exact ⟨w,⟨hw,by simp⟩,rfl⟩

theorem wiredPorts_nodup (p : Plan) (id : String) : (p.wiredPorts id).Nodup :=
  (sortStrings_perm _).nodup_iff.mpr (List.nodup_dedup _)

theorem buildEmitter_ok
    (hp : p.Sound) (h : buildEmitter p c output = .ok e) : e.Ok p.connections c.id := by
  simp only [buildEmitter,bind_ok] at h
  obtain ⟨streams,hstreams,he⟩ := h
  cases he
  exact ⟨buildStreams_targets hp hstreams,by simp⟩

theorem buildEmitter_remaining {r : Request} {response : Response}
    (hw : w ∈ p.connections) (hsource : w.source = c.id)
    (hc : p.network.component? c.id = some c) (hverified : response.verified = true)
    (h : buildEmitter p c response.value = .ok e) :
    e.remaining w = outputOn p.network w.sourcePort ⟨c.id,r,response⟩ := by
  simp only [buildEmitter,bind_ok] at h
  obtain ⟨streams,hstreams,he⟩ := h
  cases he
  have hport : w.sourcePort ∈ p.wiredPorts c.id := hsource ▸ mem_wiredPorts hw
  have howed := (buildStreams_owed (wiredPorts_nodup p c.id) hw hsource hstreams).2 hport
  simp [outputOn,hverified,hc,howed,Emitter.remaining,Emitter.inFlight]

theorem produced_append {net : ComponentNetwork} {log : List Activation} {a : Activation} :
    produced net w (log ++ [a]) = if a.id = w.source then
        (produced net w log).append (outputOn net w.sourcePort a) else produced net w log := by
  by_cases h : a.id = w.source
  · simp [produced,activationsOf,h,Feed.catenate_append]
  · simp [produced,activationsOf,h]

/-- The invariant of the loop. -/
structure Conserved (p : Plan) (s : State) : Prop where
  carries : Carries p.connections (fun w => produced p.network w s.log) s.emitters s.buffers
  scheduled : ∀ id e, s.emitters id = some e → id ∈ p.order.map (·.id)

theorem Conserved.initial (p : Plan) (hp : p.Sound) : Conserved p .initial := by
  refine ⟨⟨by simp [State.initial],fun w _ => ?_,fun w hw => ?_⟩,by simp [State.initial]⟩
  · simp [State.initial,remaining,produced,activationsOf]
  · have hcap := hp.capacity w hw
    simp [State.initial,Buffers.empty]
    omega

variable {s : State}

theorem remaining_emitting (hidle : s.emitters id = none) : remaining (s.emitting id e).emitters w =
      if w.source = id then e.remaining w else remaining s.emitters w := by
  by_cases hempty : e.isEmpty = true
  · have he : e = ⟨[],none⟩ := by
      obtain ⟨streams,pending⟩ := e
      simpa [Emitter.isEmpty] using hempty
    by_cases hw : w.source = id
    · simp [State.emitting,he,Emitter.isEmpty,remaining,hw,hidle,Emitter.remaining,
        Emitter.inFlight,owed]
    · simp [State.emitting,hempty,hw]
  · by_cases hw : w.source = id
    · simp [State.emitting,hempty,remaining,hw]
    · simp [State.emitting,hempty,remaining,hw]

theorem Carries.fed {b b' : Buffers} (hp : p.Sound)
    (h : Carries p.connections total emitters b) (hrec : Received (wired p id) b b') :
    Carries p.connections total emitters b' := by
  refine ⟨h.ok,fun w hw => ?_,fun w hw => ?_⟩
  · rw [hrec.history w fun c hc heq => hp.distinct c (mem_wired.mp hc).1 w hw heq]
    exact h.flow w hw
  · have hle := h.bounded w hw
    by_cases hin : w.id ∈ (wired p id).map (·.id)
    · obtain ⟨c,hc,heq⟩ := List.mem_map.mp hin
      rw [← heq] at hle ⊢
      rw [hrec.queue c hc,List.length_cons] at hle
      omega
    · rwa [(hrec.frame w.id hin).1]

theorem Conserved.emits {req : Request}
    {r : Response} (hp : p.Sound) (h : Conserved p s) (hc : c ∈ p.order)
    (hready : Ready p s c) (hrec : Received (wired p c.id) s.buffers b)
    (hverified : r.verified = true) (hbuild : buildEmitter p c r.value = .ok e) :
    Conserved p (((s.fed p c b).answered ⟨c.id,req,r⟩).emitting c.id e) := by
  have hfed := h.carries.fed hp hrec
  have hidle : ((s.fed p c b).answered ⟨c.id,req,r⟩).emitters c.id = none := hready.idle
  refine ⟨⟨fun id e' he' => ?_,fun w hw => ?_,?_⟩,fun id e' he' => ?_⟩
  · by_cases hid : id = c.id
    · subst hid
      exact State.emitting_some hidle he' ▸ buildEmitter_ok hp hbuild
    · rw [State.emitting_ne e hid] at he'
      exact h.carries.ok id e' he'
  · have hflow := hfed.flow w hw
    rw [State.emitting_log,State.answered_log,produced_append,remaining_emitting hidle]
    by_cases hsource : w.source = c.id
    · have hnew := buildEmitter_remaining (r := req) hw hsource (hp.component c hc)
        hverified hbuild
      have hnone : remaining s.emitters w = Stream'.Seq.nil := by
        simp [remaining,hsource,hready.idle]
      rw [hnone,Stream'.Seq.append_nil] at hflow
      simp [hsource,hflow,hnew]
    · have hne : ¬ c.id = w.source := fun heq => hsource heq.symm
      simpa [hsource,hne] using hflow
  · exact hfed.bounded
  · by_cases hid : id = c.id
    · exact hid ▸ List.mem_map_of_mem hc
    · rw [State.emitting_ne e hid] at he'
      exact h.scheduled id e' he'

theorem Conserved.passed (hp : p.Sound) (h : Conserved p s)
    (ids : List String) : Conserved p (s.passed (round ids s.emitters s.buffers)) := by
  refine ⟨h.carries.round ids hp.distinct,?_⟩
  have hdomain : ∀ id e, (round ids s.emitters s.buffers).emitters id = some e →
      id ∈ p.order.map (·.id) := by
    refine round_invariant (P := fun em _ => ∀ id e, em id = some e → id ∈ p.order.map (·.id))
      h.scheduled ?_ ?_
    · exact fun em b id e he hP => forall_update_some hP (hP id e he)
    · exact fun em b id e _ _ hP => forall_update_none id hP
  exact hdomain

variable {d : Driver}

theorem Conserved.step {s s' : State} (hp : p.Sound)
    (h : Conserved p s) (hnext : schedulerStep d p s = .next s') : Conserved p s' := by
  cases step_advance hp hnext with
  | activated c b r e hc hready hrec _ _ hverified hbuild =>
    exact h.emits hp hc hready hrec hverified hbuild
  | passed _ _ _ => exact h.passed hp (producers p s)

theorem Conserved.reaches (hp : p.Sound)
    (h : Reaches (schedulerStep d p) .initial s) : Conserved p s :=
  h.invariant (Conserved.initial p hp) fun _ _ ha hab => ha.step hp hab

/-- What is visible of the invariant on one wire: the packets taken, in line and retained
are the first ones that the source has output. -/
structure Delivered (p : Plan) (s : State) (w : Connection) : Prop where
  inOrder : Feed.Starts (s.buffers.taken w.id ++ s.buffers.queue w.id ++ s.retained w)
    (produced p.network w s.log)
  bounded : (s.buffers.queue w.id).length ≤ w.capacity

theorem Conserved.delivered (h : Conserved p s) (hw : w ∈ p.connections) : Delivered p s w := by
  refine ⟨?_,h.carries.bounded w hw⟩
  have hflow := h.carries.flow w hw
  cases he : s.emitters w.source with
  | none =>
    simp only [remaining,he] at hflow
    refine ⟨Stream'.Seq.nil,?_⟩
    simp only [State.retained,he,List.append_nil]
    exact hflow
  | some e =>
    simp only [remaining,he,Emitter.remaining] at hflow
    refine ⟨owed e.streams w,?_⟩
    rw [Feed.ofList_append_append]
    simp only [State.retained,he]
    exact hflow

theorem Delivered.answered (h : Delivered p s w)
    (a : Activation) : Delivered p (s.answered a) w := by
  refine ⟨?_,h.bounded⟩
  rw [State.answered_log,produced_append]
  split
  · exact h.inOrder.append _
  · exact h.inOrder

theorem Conserved.fed (hp : p.Sound)
    (h : Conserved p s) (hrec : Received (wired p c.id) s.buffers b) : Conserved p (s.fed p c b) :=
  ⟨h.carries.fed hp hrec,h.scheduled⟩

theorem Conserved.halt {s s' : State} {v : Verdict}
    (hp : p.Sound) (h : Conserved p s) (hw : w ∈ p.connections)
    (hhalt : schedulerStep d p s = .halt v s') : Delivered p s' w := by
  have hturn := schedulerStep_turn (d := d) hp s
  rw [hhalt] at hturn
  generalize ho : Outcome.halt v s' = o at hturn
  cases hturn with
  | activation c _ _ _ hact =>
    cases hact with
    | overLimit b hrec _ =>
      cases ho
      exact (h.fed hp hrec).delivered hw
    | raised b _ hrec _ _ =>
      cases ho
      exact (h.fed hp hrec).delivered hw
    | unverified b r hrec _ _ _ =>
      cases ho
      exact ((h.fed hp hrec).delivered hw).answered _
    | unbuilt b r _ hrec _ _ _ _ =>
      cases ho
      exact ((h.fed hp hrec).delivered hw).answered _
    | emits => cases ho
  | emission _ _ =>
    have hpass := (h.passed hp (producers p s)).delivered hw
    unfold emit at ho
    simp only at ho
    split at ho
    · cases ho
      exact hpass
    · cases ho
    · cases ho
      exact hpass
    · split at ho <;> cases ho
      exact hpass
  | settled _ _ =>
    unfold settle at ho
    split at ho <;> cases ho <;> exact h.delivered hw

/-- A run that ends in success leaves no packet and no emitter behind. -/
theorem success_settled {s s' : State} (hp : p.Sound)
    (h : schedulerStep d p s = .halt .success s') :
    s' = s ∧ producers p s = [] ∧ ∀ w ∈ p.connections, s.buffers.queue w.id = [] := by
  have hturn := schedulerStep_turn (d := d) hp s
  rw [h] at hturn
  generalize ho : Outcome.halt Verdict.success s' = o at hturn
  cases hturn with
  | activation c _ _ _ hact => cases hact <;> cases ho
  | emission _ _ =>
    unfold emit at ho
    simp only at ho
    split at ho
    · cases ho
    · cases ho
    · cases ho
    · split at ho <;> cases ho
  | settled _ hprod =>
    unfold settle at ho
    split at ho
    · rename_i hall
      cases ho
      refine ⟨rfl,hprod,fun w hw => ?_⟩
      have hempty := List.all_eq_true.mp hall w hw
      simpa [Buffers.isEmpty] using hempty
    · cases ho

theorem Conserved.complete (h : Conserved p s)
    (hw : w ∈ p.connections) (hprod : producers p s = []) (hempty : s.buffers.queue w.id = []) :
    Stream'.Seq.ofList (s.buffers.taken w.id) = produced p.network w s.log := by
  have hidle : s.emitters w.source = none := by
    cases he : s.emitters w.source with
    | none => rfl
    | some e =>
      have hin : w.source ∈ producers p s :=
        mem_producers.mpr ⟨h.scheduled _ e he,by simp [he]⟩
      simp [hprod] at hin
  have hflow := h.carries.flow w hw
  simpa [remaining,hidle,Buffers.history,hempty] using hflow

theorem prepare_network {net : ComponentNetwork} {stepLimit : Option Int}
    (h : prepare net stepLimit = .ok p) : p.network = net := by
  simp only [prepare,bind_ok] at h
  obtain ⟨_,_,_,_,_,_,hp⟩ := h
  cases hp
  rfl

/-- In every state of a run, what the target of a wire has received, followed by the buffer
and the retained element, starts the sequence its source has output on that port; a run that
succeeds has delivered all of it. -/
theorem stream_delivers {d : Driver} {net : ComponentNetwork} {stepLimit : Option Int} {p : Plan}
    {s : State} {w : Connection} (hprep : prepare net stepLimit = .ok p)
    (hs : Visits (schedulerStep d p) .initial s) (hw : w ∈ p.connections) :
    Feed.Starts (s.buffers.taken w.id ++ s.buffers.queue w.id ++ s.retained w)
        (produced net w s.log) ∧
      (s.buffers.queue w.id).length ≤ w.capacity ∧
      ∀ s₀, Halts (schedulerStep d p) .initial s₀ .success s →
        Stream'.Seq.ofList (s.buffers.taken w.id) = produced net w s.log := by
  have hp := prepare_sound hprep
  rw [← prepare_network hprep]
  have hdelivered : Delivered p s w := by
    cases hs with
    | inl hreach => exact (Conserved.reaches hp hreach).delivered hw
    | inr hhalts =>
      obtain ⟨s₀,v,hhalts⟩ := hhalts
      exact (Conserved.reaches hp hhalts.reaches).halt hp hw hhalts.last
  refine ⟨hdelivered.inOrder,hdelivered.bounded,fun s₀ hsuccess => ?_⟩
  obtain ⟨rfl,hprod,hempty⟩ := success_settled hp hsuccess.last
  exact (Conserved.reaches hp hsuccess.reaches).complete hw hprod (hempty w hw)

def part (id : String) (ins outs streams : List String) : Component :=
  { id := id
    task := id
    args := .empty
    verifier := .null
    child := .null
    ports := ((Dict.empty : Dict Direction (List String)).set .input ins).set .output outs
    portTypes := .empty
    stream := streams
    external := .empty
    subnet := none }

def relay : ComponentNetwork :=
  .mk [part "a" [] ["o"] ["o"],part "b" ["x"] [] []] [⟨"a","o","b","x",1⟩] []

def relayFunction (r : Request) : Except String Response :=
  .ok ⟨true,if r.task = "a" then .list [.int 1,.int 2] else .null,none⟩

def relayDriver : Driver := .ofFunction relayFunction

def relayPlan : Plan := ⟨relay,schedule relay,connectionsOf relay.edges,512⟩

theorem stream_delivers_relay :
    ∃ e w, runLoop relayDriver relayPlan = some e ∧ w ∈ relayPlan.connections ∧
      Feed.Starts (e.final.buffers.taken w.id ++ e.final.buffers.queue w.id ++ e.final.retained w)
        (produced relay w e.final.log) ∧
      (e.final.buffers.queue w.id).length ≤ w.capacity ∧
      ∀ s₀, Halts (schedulerStep relayDriver relayPlan) .initial s₀ .success e.final →
        Stream'.Seq.ofList (e.final.buffers.taken w.id) = produced relay w e.final.log := by
  have hprep : prepare relay none = .ok relayPlan := rfl
  obtain ⟨e,he⟩ := runLoop_total (d := relayDriver) (prepare_sound hprep)
  have hw : (⟨0,"a","o","b","x",1⟩ : Connection) ∈ relayPlan.connections := by decide
  exact ⟨e,_,he,hw,stream_delivers hprep (.inr ⟨_,_,run_halts he⟩) hw⟩

end AgentCentric.Flow

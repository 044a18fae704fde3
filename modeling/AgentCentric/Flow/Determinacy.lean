import AgentCentric.Flow.Activations

namespace AgentCentric.Flow
open Network Machine

/-- What holds when a run has ended in success. -/
structure Completed (d : Driver) (p : Plan) (s : State) : Prop where
  fed : Fed d p s
  full : ∀ w ∈ p.connections,
    Stream'.Seq.ofList (s.buffers.taken w.id) = produced p.network w s.log
  once : ∀ c ∈ p.order, wired p c.id = [] → (activationsOf c.id s.log).length = 1

theorem completed_of_success {d : Driver} {p : Plan} {s s' : State} (hp : p.Sound)
    (h : Halts (schedulerStep d p) .initial s .success s') : Completed d p s' := by
  obtain ⟨rfl,hprod,hempty⟩ := success_settled hp h.last
  have hinv := Conserved.reaches hp h.reaches
  have hfed := Fed.reaches hp h.reaches
  refine ⟨hfed,fun w hw => hinv.complete hw hprod (hempty w hw),fun c hc hwired => ?_⟩
  have hready : ready p s' = [] := by
    cases hlist : ready p s' with
    | nil => rfl
    | cons c rest =>
      have hturn := h.last
      simp only [schedulerStep,hlist] at hturn
      have hr := (mem_ready.mp (hlist ▸ List.mem_cons_self : c ∈ ready p s')).2
      have hact := activate_spec d hp hr
      rw [hturn] at hact
      cases hact
  have hspent : c.id ∈ s'.spentSources := by
    by_contra hspent
    have hidle : s'.emitters c.id = none := by
      cases he : s'.emitters c.id with
      | none => rfl
      | some e =>
        have hin : c.id ∈ producers p s' :=
          mem_producers.mpr ⟨List.mem_map_of_mem hc,by simp [he]⟩
        simp [hprod] at hin
    have hin := mem_ready.mpr ⟨hc,⟨hidle,fun _ => hspent,by simp [hwired]⟩⟩
    simp [hready] at hin
  rw [hfed.source c hc hwired,if_pos hspent]

def Connection.uncapped (c : Connection) : Connection := { c with capacity := 0 }

theorem Connection.uncapped_eq {w w' : Connection} (h : w'.uncapped = w.uncapped) :
    w'.id = w.id ∧ w'.source = w.source ∧ w'.sourcePort = w.sourcePort ∧ w'.target = w.target := by
  simp only [Connection.uncapped,Connection.mk.injEq] at h
  exact ⟨h.1,h.2.1,h.2.2.1,h.2.2.2.1⟩

/-- Two plans that differ in nothing but capacities and limits. -/
structure SameShape (p p' : Plan) : Prop where
  order : p'.order = p.order
  wires : p'.connections.map Connection.uncapped = p.connections.map Connection.uncapped
  component : p'.network.component? = p.network.component?
  iips : p'.network.iips = p.network.iips

theorem wired_uncapped (p : Plan) (id : String) : (wired p id).map Connection.uncapped =
      ((p.connections.map Connection.uncapped).filter fun c => c.target = id).insertionSort
        (byTargetPort · ·) := by
  rw [wired,feeding,List.map_insertionSort _ (s := (byTargetPort · ·))]
  · rw [List.filter_map]
    rfl
  · exact fun _ _ _ _ => Iff.rfl

theorem SameShape.wired {p p' : Plan} (h : SameShape p p') (id : String) :
    (wired p' id).map Connection.uncapped = (wired p id).map Connection.uncapped := by
  rw [wired_uncapped,wired_uncapped,h.wires]

theorem packetsAt_uncapped (cs : List Connection) (taken : Nat → List Value) (k : Nat) :
    packetsAt (cs.map Connection.uncapped) taken k = packetsAt cs taken k := by
  simp [packetsAt,Function.comp_def,Connection.uncapped]

theorem SameShape.wire {p p' : Plan} (h : SameShape p p') {w : Connection}
    (hw : w ∈ p.connections) : ∃ w' ∈ p'.connections, w'.uncapped = w.uncapped := by
  have hin : w.uncapped ∈ p'.connections.map Connection.uncapped :=
    h.wires ▸ List.mem_map_of_mem hw
  exact List.mem_map.mp hin

theorem activationsOf_id {id : String} {log : List Activation} {a : Activation}
    (h : a ∈ activationsOf id log) : a.id = id ∧ a ∈ log := by
  rw [activationsOf,List.mem_filter] at h
  exact ⟨by simpa using h.2,h.1⟩

theorem activationsOf_unscheduled {d : Driver} {p : Plan} {s : State} {id : String}
    (h : Fed d p s) (hid : id ∉ p.order.map (·.id)) : activationsOf id s.log = [] := by
  refine List.filter_eq_nil_iff.mpr fun a ha heq => hid ?_
  have hmem := h.scheduled a ha
  simp only [decide_eq_true_eq] at heq
  rwa [heq] at hmem

theorem activations_step {f : Request → Except String Response} {p p' : Plan} {s s' : State}
    {c : Component} (hshape : SameShape p p')
    (h : Completed (.ofFunction f) p s) (h' : Completed (.ofFunction f) p' s')
    (hc : c ∈ p.order) (hbefore : ∀ w ∈ wired p c.id,
      activationsOf w.source s.log = activationsOf w.source s'.log) :
    activationsOf c.id s.log = activationsOf c.id s'.log := by
  have hc' : c ∈ p'.order := hshape.order ▸ hc
  have htaken : ∀ w ∈ wired p c.id, s.buffers.taken w.id = s'.buffers.taken w.id := by
    intro w hw
    obtain ⟨hmem,_⟩ := mem_wired.mp hw
    obtain ⟨w',hw',heq⟩ := hshape.wire hmem
    obtain ⟨hid,hsource,hport,_⟩ := Connection.uncapped_eq heq
    have houtput : outputOn p'.network = outputOn p.network := by
      unfold outputOn
      rw [hshape.component]
    apply Stream'.Seq.ofList_injective
    calc Stream'.Seq.ofList (s.buffers.taken w.id) = produced p.network w s.log := h.full w hmem
      _ = produced p'.network w' s'.log := by
        rw [produced,produced,hbefore w hw,hsource,hport,houtput]
      _ = Stream'.Seq.ofList (s'.buffers.taken w.id) := by rw [← hid,h'.full w' hw']
  have hlength : (activationsOf c.id s.log).length = (activationsOf c.id s'.log).length := by
    cases hwired : wired p c.id with
    | nil =>
      have hwired' : wired p' c.id = [] := by
        have hmap := hshape.wired c.id
        rw [hwired] at hmap
        simpa using hmap
      rw [h.once c hc hwired,h'.once c hc' hwired']
    | cons w rest =>
      have hw : w ∈ wired p c.id := by simp [hwired]
      obtain ⟨hmem,htarget⟩ := mem_wired.mp hw
      obtain ⟨w',hw',heq⟩ := hshape.wire hmem
      obtain ⟨hid,_,_,htarget'⟩ := Connection.uncapped_eq heq
      rw [← htarget,← h.fed.count w hmem,htaken w hw,← hid,h'.fed.count w' hw',htarget']
  have hpackets : ∀ k, packetsAt (wired p c.id) s.buffers.taken k =
      packetsAt (wired p' c.id) s'.buffers.taken k := by
    intro k
    calc packetsAt (wired p c.id) s.buffers.taken k
        = packetsAt (wired p c.id) s'.buffers.taken k :=
          List.map_congr_left fun w hw => by rw [htaken w hw]
      _ = packetsAt (wired p' c.id) s'.buffers.taken k := by
        rw [← packetsAt_uncapped,← hshape.wired,packetsAt_uncapped]
  have htemplate : templateArgs p'.network c = templateArgs p.network c := by
    unfold templateArgs
    rw [hshape.iips]
  apply List.ext_getElem hlength
  intro k hk hk'
  have hmem := List.getElem_mem hk
  have hmem' := List.getElem_mem hk'
  have hreq := h.fed.request c hc k _ (List.getElem?_eq_getElem hk)
  have hreq' := h'.fed.request c hc' k _ (List.getElem?_eq_getElem hk')
  have hsame : ((activationsOf c.id s.log)[k]).request =
      ((activationsOf c.id s'.log)[k]).request := by
    rw [hreq,hreq',hpackets,htemplate]
  obtain ⟨_,hanswer⟩ := h.fed.answered _ (activationsOf_id hmem).2
  obtain ⟨_,hanswer'⟩ := h'.fed.answered _ (activationsOf_id hmem').2
  have hid := (activationsOf_id hmem).1
  have hid' := (activationsOf_id hmem').1
  generalize (activationsOf c.id s.log)[k] = a at hsame hanswer hid
  generalize (activationsOf c.id s'.log)[k] = a' at hsame hanswer' hid'
  obtain ⟨i,r,v⟩ := a
  obtain ⟨i',r',v'⟩ := a'
  simp only [Driver.ofFunction] at hsame hanswer hanswer' hid hid'
  subst hsame
  rw [hanswer] at hanswer'
  cases hanswer'
  rw [hid,hid']

theorem completed_determined {f : Request → Except String Response} {p p' : Plan}
    {s s' : State} (hp : p.Sound) (hshape : SameShape p p')
    (h : Completed (.ofFunction f) p s) (h' : Completed (.ofFunction f) p' s') (id : String) :
    activationsOf id s.log = activationsOf id s'.log := by
  refine hp.ranked.induction (P := fun id => activationsOf id s.log = activationsOf id s'.log)
    (fun id hbefore => ?_) id
  by_cases hid : id ∈ p.order.map (·.id)
  · obtain ⟨c,hc,rfl⟩ := List.mem_map.mp hid
    refine activations_step hshape h h' hc fun w hw => hbefore w.source ?_
    obtain ⟨hmem,htarget⟩ := mem_wired.mp hw
    exact List.mem_map.mpr ⟨w,hmem,by rw [htarget]⟩
  · rw [activationsOf_unscheduled h.fed hid,
      activationsOf_unscheduled h'.fed (hshape.order ▸ hid)]

/-- The network with `cap i` as the capacity of its `i`-th edge. -/
def withCapacities (net : ComponentNetwork) (cap : Nat → Int) : ComponentNetwork :=
  .mk net.components (net.edges.mapIdx fun i e => { e with capacity := cap i }) net.iips

def uncappedEdge (e : Edge) : Edge := { e with capacity := 0 }

theorem connectionsOf_uncapped (edges : List Edge) :
    (connectionsOf edges).map Connection.uncapped = connectionsOf (edges.map uncappedEdge) := by
  have hconnect : (connect edges).map Connection.uncapped = connect (edges.map uncappedEdge) := by
    apply List.ext_getElem
    · simp [connect]
    · intro i _ _
      simp [connect,Connection.ofEdge,Connection.uncapped,uncappedEdge]
  rw [connectionsOf,connectionsOf,← hconnect]
  exact List.map_insertionSort _ _ _ _ fun _ _ _ _ => Iff.rfl

theorem withCapacities_edges (net : ComponentNetwork) (cap : Nat → Int) :
    (withCapacities net cap).edges.map uncappedEdge = net.edges.map uncappedEdge := by
  apply List.ext_getElem
  · simp [withCapacities,ComponentNetwork.edges]
  · intro i _ _
    simp [withCapacities,ComponentNetwork.edges,uncappedEdge]

theorem schedule_withCapacities (net : ComponentNetwork) (cap : Nat → Int) :
    schedule (withCapacities net cap) = schedule net := by
  have hlinks : (withCapacities net cap).links = net.links := by
    apply List.ext_getElem
    · simp [withCapacities,ComponentNetwork.links,ComponentNetwork.edges]
    · intro i _ _
      simp [withCapacities,ComponentNetwork.links,ComponentNetwork.edges]
  have hids : (withCapacities net cap).ids = net.ids := rfl
  have hsources : (withCapacities net cap).sourcesFirst = net.sourcesFirst := by
    rw [ComponentNetwork.sourcesFirst,ComponentNetwork.sourcesFirst,hlinks,hids]
  have horder : (withCapacities net cap).order = net.order := by
    rw [ComponentNetwork.order,ComponentNetwork.order,hlinks,hids,hsources]
  rw [schedule,schedule,horder]
  rfl

theorem prepare_plan {net : ComponentNetwork} {stepLimit : Option Int} {p : Plan}
    (h : prepare net stepLimit = .ok p) :
    p.order = schedule net ∧ p.connections = connectionsOf net.edges := by
  simp only [prepare,bind_ok] at h
  obtain ⟨_,_,_,_,_,_,hp⟩ := h
  cases hp
  exact ⟨rfl,rfl⟩

theorem sameShape_withCapacities {net : ComponentNetwork} {cap cap' : Nat → Int}
    {limit limit' : Option Int} {p p' : Plan} (h : prepare (withCapacities net cap) limit = .ok p)
    (h' : prepare (withCapacities net cap') limit' = .ok p') : SameShape p p' := by
  obtain ⟨horder,hwires⟩ := prepare_plan h
  obtain ⟨horder',hwires'⟩ := prepare_plan h'
  have hnet := prepare_network h
  have hnet' := prepare_network h'
  refine ⟨?_,?_,?_,?_⟩
  · rw [horder,horder',schedule_withCapacities,schedule_withCapacities]
  · rw [hwires,hwires',connectionsOf_uncapped,connectionsOf_uncapped,withCapacities_edges,
      withCapacities_edges]
  · rw [hnet,hnet']
    rfl
  · rw [hnet,hnet']
    rfl

/-- The `driver.run` calls of a run, with their answers. -/
def streamLog (d : Driver) (net : ComponentNetwork) (stepLimit : Option Int) : List Activation :=
  match prepare net stepLimit with
  | .error _ => []
  | .ok p => ((runLoop d p).map fun e => e.final.log).getD []

theorem streamLog_of_ok {d : Driver} {net : ComponentNetwork} {stepLimit : Option Int}
    (h : (runStream d net stepLimit).ok = true) :
    ∃ p s, prepare net stepLimit = .ok p ∧ Completed d p s ∧ streamLog d net stepLimit = s.log := by
  obtain ⟨p,s,s',hprep,hhalts,_⟩ := runStream_ok_iff.mp h
  have hp := prepare_sound hprep
  obtain ⟨e,he⟩ := runLoop_total (d := d) hp
  obtain ⟨_,_,heq⟩ := (run_halts he).unique hhalts
  refine ⟨p,s',hprep,completed_of_success hp hhalts,?_⟩
  simp [streamLog,hprep,he,heq]

/-- Capacities and limits decide whether a run succeeds, never what its components are given
and answer. -/
theorem capacities_never_matter {f : Request → Except String Response} {net : ComponentNetwork}
    {cap cap' : Nat → Int} {limit limit' : Option Int}
    (h : (runStream (.ofFunction f) (withCapacities net cap) limit).ok = true)
    (h' : (runStream (.ofFunction f) (withCapacities net cap') limit').ok = true) (id : String) :
    activationsOf id (streamLog (.ofFunction f) (withCapacities net cap) limit) =
      activationsOf id (streamLog (.ofFunction f) (withCapacities net cap') limit') := by
  obtain ⟨p,s,hprep,hdone,hlog⟩ := streamLog_of_ok h
  obtain ⟨p',s',hprep',hdone',hlog'⟩ := streamLog_of_ok h'
  rw [hlog,hlog']
  exact completed_determined (prepare_sound hprep) (sameShape_withCapacities hprep hprep')
    hdone hdone' id

theorem capacities_never_matter_relay :
    activationsOf "b" (streamLog (.ofFunction relayFunction) (withCapacities relay fun _ => 1)
      none) =
    activationsOf "b" (streamLog (.ofFunction relayFunction) (withCapacities relay fun _ => 7)
      (some 5)) :=
  capacities_never_matter (by decide) (by decide) "b"

end AgentCentric.Flow

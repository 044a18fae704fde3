import AgentCentric.Flow.Solution

namespace AgentCentric.Flow
open Network

def sentOn (net : ComponentNetwork) (e : Edge) (a : Activation) : Except String Value :=
  extractOutput a.response.value e.sourceField
    (((net.component? e.source).map (·.portNames .output)).getD []) e.source

/-- Both ends of every edge ran once, and the target was given what the source had for it. -/
def NoneLost (net : ComponentNetwork) (log : List Activation) : Prop :=
  ∀ e ∈ net.edges, ∃ s t, activationsOf e.source log = [s] ∧ activationsOf e.target log = [t] ∧
    ∃ v, sentOn net e s = .ok v ∧ t.request.args.get e.targetArg = some v

def edgeType (net : ComponentNetwork) (e : Edge) : ValueType := requiredType net (.ofEdge e 0)

def outport (e : Edge) : String × String := (e.source,e.sourceField)

def inport (e : Edge) : String × String := (e.target,e.targetArg)

/-- Every connection out of the out-port lets the value pass. -/
def MayCarry (net : ComponentNetwork) (port : String × String) (v : Value) : Prop :=
  ∀ e ∈ net.edges, outport e = port → valueMatchesType v (edgeType net e) = true

/-- Two out-ports that may carry different values lead into one in-port. -/
structure Clash (net : ComponentNetwork) (e e' : Edge) (v v' : Value) : Prop where
  left : e ∈ net.edges
  right : e' ∈ net.edges
  inports : inport e = inport e'
  outports : outport e ≠ outport e'
  carries : MayCarry net (outport e) v
  carries' : MayCarry net (outport e') v'
  differ : v ≠ v'

/-- Every wired out-port may carry something. -/
def Runnable (net : ComponentNetwork) : Prop :=
  ∀ e ∈ net.edges, ∃ v, MayCarry net (outport e) v

variable {p : Plan}

theorem prepareFlow_laid {net : ComponentNetwork} {stepLimit : Option Int}
    (h : prepareFlow net stepLimit = .ok p) :
    p.Laid ∧ net.Validated ∧ p.network = net ∧ p.order = schedule net ∧
      p.connections = connect net.edges := by
  simp only [prepareFlow,bind_ok] at h
  obtain ⟨limit,hlimit,_,_,hp⟩ := h
  cases hp
  obtain ⟨hvalid,hpos,hlen⟩ := checkLimits_ok hlimit
  exact ⟨plan_laid hvalid hpos hlen (List.Perm.refl _),hvalid,rfl,rfl,rfl⟩

variable {e : Edge}

theorem exists_connection {edges : List Edge} (h : e ∈ edges) :
    ∃ k ∈ connect edges, k = .ofEdge e k.id := by
  obtain ⟨i,hi,rfl⟩ := List.getElem_of_mem h
  refine ⟨.ofEdge edges[i] i,?_,rfl⟩
  rw [connect,List.mem_mapIdx]
  exact ⟨i,hi,rfl⟩

variable {answer : String → Response} {d : Driver}

theorem RunsOn.packet
    {packet : Nat → Value} (h : RunsOn d p p.order answer packet) (hp : p.Laid) {i : Nat}
    (he : .ofEdge e i ∈ p.connections) :
    ∃ c ∈ p.order, c.id = e.source ∧ p.network.component? e.source = some c ∧
      extractOutput (answer e.source).value e.sourceField (c.portNames .output) e.source =
        .ok (packet i) ∧ valueMatchesType (packet i) (edgeType p.network e) = true := by
  obtain ⟨c,hc,hid⟩ := List.mem_map.mp (hp.source _ he)
  have hid' : c.id = e.source := hid
  have hfits := h.fits c hc _ he hid.symm
  rw [Fits,hid'] at hfits
  exact ⟨c,hc,hid',hid' ▸ hp.component c hc,hfits.1,hfits.2⟩

theorem RunsOn.packet_eq
    {packet : Nat → Value} (h : RunsOn d p p.order answer packet) (hp : p.Laid) {e e' : Edge}
    {i j : Nat} (he : .ofEdge e i ∈ p.connections) (he' : .ofEdge e' j ∈ p.connections)
    (hout : outport e = outport e') : packet i = packet j := by
  obtain ⟨c,_,_,hc,hsent,_⟩ := h.packet hp he
  obtain ⟨c',_,_,hc',hsent',_⟩ := h.packet hp he'
  rw [outport,outport,Prod.mk.injEq] at hout
  rw [hout.1] at hc hsent
  rw [hc] at hc'
  cases hc'
  rw [hout.2,hsent'] at hsent
  exact (Except.ok.inj hsent).symm

theorem RunsOn.mayCarry {packet : Nat → Value} (h : RunsOn d p p.order answer packet) (hp : p.Laid)
    (hwires : p.connections = connect p.network.edges) {i : Nat}
    (he : .ofEdge e i ∈ p.connections) : MayCarry p.network (outport e) (packet i) := by
  intro e' he' hout
  obtain ⟨k,hk,heq⟩ := exists_connection he'
  have hk' : .ofEdge e' k.id ∈ p.connections := by rw [hwires,← heq]; exact hk
  rw [h.packet_eq hp he hk' hout.symm]
  obtain ⟨_,_,_,_,_,htyped⟩ := h.packet hp hk'
  exact htyped

theorem RunsOn.args {packet : Nat → Value} (h : RunsOn d p p.order answer packet) (hp : p.Laid)
    (hwires : p.connections = connect p.network.edges)
    (hclash : ∀ e e' v v', ¬ Clash p.network e e' v v') {i : Nat}
    (he : .ofEdge e i ∈ p.connections) {c : Component} (hc : c.id = e.target) :
    (requestOf p packet c).args.get e.targetArg = some (packet i) := by
  have hedge : ∀ k ∈ p.connections, ∃ e ∈ p.network.edges, k = .ofEdge e k.id := by
    intro k hk
    rw [hwires] at hk
    exact connect_mem hk
  have hmem : e ∈ p.network.edges := by
    obtain ⟨e',he',heq⟩ := hedge _ he
    have hsame : e = e' := by
      cases e
      cases e'
      cases heq
      rfl
    exact hsame ▸ he'
  refine Dict.get_update_of_agree _ ?_ fun w hw => ?_
  · exact List.mem_map.mpr ⟨.ofEdge e i,mem_wired.mpr ⟨he,hc.symm⟩,rfl⟩
  · obtain ⟨k,hk,heq⟩ := List.mem_map.mp hw
    obtain ⟨hk,htarget⟩ := mem_wired.mp hk
    rw [Prod.mk.injEq] at heq
    obtain ⟨e',he',hke⟩ := hedge k hk
    rw [hke] at hk htarget
    rw [← heq.2]
    by_cases hout : outport e' = outport e
    · exact h.packet_eq hp hk he hout
    · by_contra hne
      have hport : e'.targetArg = e.targetArg := by
        rw [hke] at heq
        exact heq.1
      have htarget' : e'.target = c.id := htarget
      exact hclash e' e (packet k.id) (packet i)
        ⟨he',hmem,by rw [inport,inport,htarget',hc,hport],hout,h.mayCarry hp hwires hk,
          h.mayCarry hp hwires he,hne⟩

theorem none_lost_of_no_clash {net : ComponentNetwork} {stepLimit : Option Int}
    (hclash : ∀ e e' v v', ¬ Clash net e e' v v') (h : (runFlow d net stepLimit).ok = true) :
    NoneLost net (flowLog d net stepLimit) := by
  obtain ⟨p,hprep,hloop⟩ := runFlow_ok_iff.mp h
  obtain ⟨hp,_,rfl,_,hwires⟩ := prepareFlow_laid hprep
  obtain ⟨answer,packet,hruns,hlog⟩ := flow_runs hp hloop
  have hflow : flowLog d p.network stepLimit = p.order.map (activationOf p answer packet) := by
    simp only [flowLog,hprep,hlog]
  rw [hflow]
  intro e he
  obtain ⟨k,hk,heq⟩ := exists_connection he
  have hk' : .ofEdge e k.id ∈ p.connections := by rw [hwires,← heq]; exact hk
  obtain ⟨s,hs,hsid,hsource,hsent,_⟩ := hruns.packet hp hk'
  obtain ⟨t,ht,htid⟩ := List.mem_map.mp (hp.target _ hk')
  have htid' : t.id = e.target := htid
  refine ⟨activationOf p answer packet s,activationOf p answer packet t,?_,?_,packet k.id,?_,
    hruns.args hp hwires hclash hk' htid'⟩
  · rw [← hsid]
    exact activationsOf_order hp hs
  · rw [← htid']
    exact activationsOf_order hp ht
  · rw [sentOn,hsource]
    simpa [activationOf,hsid] using hsent

/-- The answer of component `id` when its out-ports carry `carried`. -/
def answerWith (p : Plan) (carried : String × String → Value) (id : String) : Response :=
  ⟨true,.dict ((p.wiredPorts id).map fun port => (port,carried (id,port))),none⟩

def Driver.inOrder (p : Plan) (carried : String × String → Value) : Driver := fun log _ =>
  match p.order[log.length]? with
  | some c => .ok (answerWith p carried c.id)
  | none => .error "no component is left"

def packetWith (p : Plan) (carried : String × String → Value) (i : Nat) : Value :=
  match p.connections.find? (fun k => k.id = i) with
  | some k => carried (k.source,k.sourcePort)
  | none => .null

theorem packetWith_id (hp : p.Laid) (carried : String × String → Value)
    {k : Connection} (hk : k ∈ p.connections) :
    packetWith p carried k.id = carried (k.source,k.sourcePort) := by
  have hsome : (p.connections.find? fun w => w.id = k.id).isSome := by
    rw [List.find?_isSome]
    exact ⟨k,hk,by simp⟩
  obtain ⟨w,hw⟩ := Option.isSome_iff_exists.mp hsome
  have hid : w.id = k.id := by simpa using List.find?_some hw
  have hwk := hp.distinct w (List.mem_of_find?_eq_some hw) k hk hid
  rw [packetWith,hw,hwk]

theorem inOrder_runs (hp : p.Laid) (hwires : p.connections = connect p.network.edges)
    {carried : String × String → Value}
    (hcarried : ∀ e ∈ p.network.edges, MayCarry p.network (outport e) (carried (outport e))) :
    RunsOn (.inOrder p carried) p p.order (answerWith p carried) (packetWith p carried) := by
  refine ⟨fun before c after hsplit => ?_,fun _ _ => rfl,fun c hc w hw hsource => ?_⟩
  · have hnext : p.order[before.length]? = some c := by
      rw [hsplit,List.getElem?_append_right (Nat.le_refl _)]
      simp
    simp only [Driver.inOrder,List.length_map,hnext]
  · rw [packetWith_id hp carried hw]
    refine ⟨?_,?_⟩
    · have hport : w.sourcePort ∈ p.wiredPorts c.id := by
        rw [Plan.wiredPorts,(sortStrings_perm _).mem_iff]
        simp only [List.mem_dedup,List.mem_map,List.mem_filter,decide_eq_true_eq]
        exact ⟨w,⟨hw,hsource⟩,rfl⟩
      have hlookup := Dict.lookup_map_keys (fun port => carried (c.id,port)) hport
      simp only [answerWith,extractOutput,hlookup,hsource]
      rfl
    · have hedge := hw
      rw [hwires] at hedge
      obtain ⟨e,he,hwe⟩ := connect_mem hedge
      have hpass := hcarried e he e he rfl
      rw [hwe]
      exact hpass

theorem clash_loses {net : ComponentNetwork} {stepLimit : Option Int}
    (hprep : prepareFlow net stepLimit = .ok p) (hrun : Runnable net) {e e' : Edge}
    {v v' : Value} (hclash : Clash net e e' v v') :
    ∃ d, (runFlow d net stepLimit).ok = true ∧ ¬ NoneLost net (flowLog d net stepLimit) := by
  classical
  obtain ⟨hp,_,rfl,_,hwires⟩ := prepareFlow_laid hprep
  let carried : String × String → Value := fun port =>
    if port = outport e then v
    else if port = outport e' then v'
    else if h : ∃ x, MayCarry p.network port x then h.choose
    else .null
  have hleft : carried (outport e) = v := if_pos rfl
  have hright : carried (outport e') = v' := by
    have hne : ¬ outport e' = outport e := fun h => hclash.outports h.symm
    simp [carried,hne]
  have hcarried : ∀ f ∈ p.network.edges, MayCarry p.network (outport f) (carried (outport f)) := by
    intro f hf
    by_cases hfe : outport f = outport e
    · rw [hfe,hleft]
      exact hclash.carries
    · by_cases hfe' : outport f = outport e'
      · rw [hfe',hright]
        exact hclash.carries'
      · have hsome := hrun f hf
        simp only [carried,hfe,hfe',if_false,hsome,dif_pos]
        exact hsome.choose_spec
  have hruns := inOrder_runs hp hwires hcarried
  have hloop := runs_flow hp hruns
  refine ⟨.inOrder p carried,runFlow_ok_iff.mpr ⟨p,hprep,by rw [hloop]⟩,fun hnone => ?_⟩
  have hflow : flowLog (.inOrder p carried) p.network stepLimit =
      p.order.map (activationOf p (answerWith p carried) (packetWith p carried)) := by
    simp only [flowLog,hprep,hloop]
  rw [hflow] at hnone
  -- the in-port holds one value, and both sources claim it
  have hheld : ∀ f ∈ p.network.edges, ∀ c ∈ p.order, c.id = f.target →
      (requestOf p (packetWith p carried) c).args.get f.targetArg = some (carried (outport f)) := by
    intro f hf c hc hid
    obtain ⟨s,t,hs,ht,x,hsent,hargs⟩ := hnone f hf
    obtain ⟨k,hk,heq⟩ := exists_connection hf
    have hk' : .ofEdge f k.id ∈ p.connections := by rw [hwires,← heq]; exact hk
    obtain ⟨a,ha,haid,hsource,hout,_⟩ := hruns.packet hp hk'
    rw [← haid,activationsOf_order hp ha,List.cons.injEq] at hs
    rw [← hid,activationsOf_order hp hc,List.cons.injEq] at ht
    have hpacket := packetWith_id hp carried hk'
    rw [sentOn,hsource,← hs.1] at hsent
    simp only [activationOf,haid,Option.map_some,Option.getD_some,hout] at hsent
    cases hsent
    rw [← ht.1] at hargs
    exact hargs.trans (congrArg some hpacket)
  obtain ⟨k,hk,heq⟩ := exists_connection hclash.left
  have hk' : .ofEdge e k.id ∈ p.connections := by rw [hwires,← heq]; exact hk
  obtain ⟨c,hc,hid⟩ := List.mem_map.mp (hp.target _ hk')
  have hin := hclash.inports
  rw [inport,inport,Prod.mk.injEq] at hin
  have hfirst := hheld e hclash.left c hc hid
  have hsecond := hheld e' hclash.right c hc ((show c.id = e.target from hid).trans hin.1)
  rw [hin.2,hsecond,hleft,hright] at hfirst
  exact hclash.differ (Option.some.inj hfirst).symm

/-- No driver loses a packet in a run that ends well, exactly when no two out-ports that may carry
different values lead into one in-port. -/
theorem none_lost_iff {net : ComponentNetwork} {stepLimit : Option Int} :
    (∀ d, (runFlow d net stepLimit).ok = true → NoneLost net (flowLog d net stepLimit)) ↔
      ((∃ p, prepareFlow net stepLimit = .ok p) → Runnable net →
        ∀ e e' v v', ¬ Clash net e e' v v') := by
  constructor
  · rintro h ⟨p,hprep⟩ hrun e e' v v' hclash
    obtain ⟨d,hok,hlost⟩ := clash_loses hprep hrun hclash
    exact hlost (h d hok)
  · intro h d hok
    refine none_lost_of_no_clash (fun e e' v v' hclash => ?_) hok
    obtain ⟨p,hprep,hloop⟩ := runFlow_ok_iff.mp hok
    have hrun : Runnable net := by
      obtain ⟨hp,_,rfl,_,hwires⟩ := prepareFlow_laid hprep
      obtain ⟨answer,packet,hruns,_⟩ := flow_runs hp hloop
      intro f hf
      obtain ⟨k,hk,heq⟩ := exists_connection hf
      have hk' : .ofEdge f k.id ∈ p.connections := by rw [hwires,← heq]; exact hk
      exact ⟨packet k.id,hruns.mayCarry hp hwires hk'⟩
    exact h ⟨p,hprep⟩ hrun e e' v v' hclash

def joined : ComponentNetwork :=
  .mk [part "a" [] ["o"] [],part "b" [] ["o"] [],part "c" ["x"] [] []]
    [⟨"a","o","c","x",1⟩,⟨"b","o","c","x",1⟩] []

def joinedDriver : Driver := fun _ r => .ok ⟨true,.int (if r.task = "a" then 1 else 2),none⟩

def wholeNumber : Value → Option Int
  | .int n => some n
  | _ => none

/-- The later wire overwrites the packet of the earlier one, and the run ends well. -/
theorem joined_loses :
    joined.validate = .ok () ∧ (runFlow joinedDriver joined none).ok = true ∧
      ¬ NoneLost joined (flowLog joinedDriver joined none) := by
  refine ⟨by decide,by decide,fun h => ?_⟩
  obtain ⟨s,t,hs,ht,v,hsent,hargs⟩ := h ⟨"a","o","c","x",1⟩ (by decide)
  have hsource : (activationsOf "a" (flowLog joinedDriver joined none)).map
      (fun s => (sentOn joined ⟨"a","o","c","x",1⟩ s).toOption.bind wholeNumber) = [some 1] := by
    decide
  have htarget : (activationsOf "c" (flowLog joinedDriver joined none)).map
      (fun t => (t.request.args.get "x").bind wholeNumber) = [some 2] := by decide
  simp only [hs,List.map_singleton,hsent] at hsource
  simp only [ht,List.map_singleton,hargs] at htarget
  cases hsource.symm.trans htarget

end AgentCentric.Flow

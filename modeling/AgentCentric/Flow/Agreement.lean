import Mathlib.Algebra.Order.BigOperators.Group.List
import AgentCentric.Flow.Determinacy
import AgentCentric.Flow.Solution
import AgentCentric.Flow.Typing

namespace AgentCentric.Flow
open Network Machine

structure OneShot (p : Plan) : Prop where
  noStream : ∀ c ∈ p.order, c.stream = []
  sends : (p.connections.length : Int) ≤ p.sendLimit

variable {c : Component}

theorem portElements_ok {output : Value} {port : String}
    {elements : Stream'.Seq Value} (hstream : c.stream = []) :
    portElements c output port = .ok elements ↔
      ∃ v, extractOutput output port (c.portNames .output) c.id = .ok v ∧
        elements = Stream'.Seq.cons v Stream'.Seq.nil := by
  simp only [portElements,bind_ok,hstream,List.not_mem_nil,if_false]
  constructor
  · intro h
    obtain ⟨v,hv,hel⟩ := h
    cases hel
    exact ⟨v,hv,rfl⟩
  · intro h
    obtain ⟨v,hv,rfl⟩ := h
    exact ⟨v,hv,rfl⟩

variable {p : Plan} {s : State} {w : Connection}

theorem outputOn_single {d : Driver} {a : Activation}
    (hp : p.Sound) (hone : OneShot p) (h : Fed d p s) (ha : a ∈ s.log)
    (hc : c ∈ p.order) (hid : c.id = a.id) (hw : w ∈ p.connections) (hsource : w.source = c.id) :
    ∃ v, extractOutput a.response.value w.sourcePort (c.portNames .output) c.id = .ok v ∧
      outputOn p.network w.sourcePort a = Stream'.Seq.cons v Stream'.Seq.nil := by
  obtain ⟨c',hc',hid',e,hbuild⟩ := h.built a ha
  have hcc : c' = c := List.inj_on_of_nodup_map hp.orderNodup hc' hc (hid'.trans hid.symm)
  subst hcc
  simp only [buildEmitter,bind_ok] at hbuild
  obtain ⟨streams,hstreams,_⟩ := hbuild
  have hport := (buildStreams_owed (wiredPorts_nodup p c'.id) hw hsource hstreams).2
    (hsource ▸ mem_wiredPorts hw)
  obtain ⟨v,hv,hel⟩ := (portElements_ok (hone.noStream c' hc')).mp hport
  rw [hel] at hport
  refine ⟨v,hv,?_⟩
  have hcomponent := hp.component c' hc'
  rw [hid] at hcomponent
  simp [outputOn,h.verified a ha,hcomponent,hport]

theorem produced_single {log : List Activation} {a : Activation}
    {v : Value} (hact : activationsOf w.source log = [a])
    (hout : outputOn p.network w.sourcePort a = Stream'.Seq.cons v Stream'.Seq.nil) :
    produced p.network w log = Stream'.Seq.cons v Stream'.Seq.nil := by
  simp [produced,hact,hout]

theorem Completed.once_all {d : Driver} (hp : p.Sound) (hone : OneShot p) (h : Completed d p s) :
    ∀ c ∈ p.order, ∃ a, activationsOf c.id s.log = [a] := by
  have hall : ∀ id, id ∈ p.order.map (·.id) → (activationsOf id s.log).length = 1 := by
    refine hp.ranked.induction fun id hbefore hid => ?_
    obtain ⟨c,hc,rfl⟩ := List.mem_map.mp hid
    cases hwired : wired p c.id with
    | nil => exact h.once c hc hwired
    | cons w rest =>
      have hw : w ∈ wired p c.id := by simp [hwired]
      obtain ⟨hmem,htarget⟩ := mem_wired.mp hw
      have hsource := hp.source w hmem
      obtain ⟨a,hact⟩ := List.length_eq_one_iff.mp
        (hbefore w.source (List.mem_map.mpr ⟨w,hmem,by rw [htarget]⟩) hsource)
      obtain ⟨c',hc',hcs⟩ := List.mem_map.mp hsource
      obtain ⟨haid,ha⟩ := activationsOf_id (hact ▸ List.mem_singleton_self a :
        a ∈ activationsOf w.source s.log)
      obtain ⟨v,_,hout⟩ := outputOn_single hp hone h.fed ha hc' (hcs.trans haid.symm) hmem
        hcs.symm
      have hfull := h.full w hmem
      rw [produced_single hact hout] at hfull
      have htaken : s.buffers.taken w.id = [v] := by
        apply Stream'.Seq.ofList_injective
        rw [hfull]
        simp
      rw [← htarget,← h.fed.count w hmem,htaken]
      rfl
  exact fun c hc => List.length_eq_one_iff.mp (hall c.id (List.mem_map_of_mem hc))

variable {f : Request → Except String Response}

theorem Completed.solves (hp : p.Sound) (hone : OneShot p) (h : Completed (.ofFunction f) p s)
    (htyped : Typed p.network p.connections s.emitters s.buffers) :
    ∃ answer packet, SolvesOn f p p.order answer packet ∧
      ∀ c ∈ p.order, activationsOf c.id s.log = [activationOf p answer packet c] := by
  let answer : String → Response := fun id =>
    ((activationsOf id s.log).head?.map (·.response)).getD ⟨true,.null,none⟩
  let packet : Nat → Value := fun i => (s.buffers.taken i).headD .null
  have hact : ∀ c ∈ p.order, ∃ a, activationsOf c.id s.log = [a] ∧ a ∈ s.log ∧ c.id = a.id ∧
      a = activationOf p answer packet c := by
    intro c hc
    obtain ⟨a,ha⟩ := h.once_all hp hone c hc
    obtain ⟨haid,hmem⟩ := activationsOf_id (ha ▸ List.mem_singleton_self a :
      a ∈ activationsOf c.id s.log)
    refine ⟨a,ha,hmem,haid.symm,?_⟩
    have hrequest := h.fed.request c hc 0 a (by simp [ha])
    have hpackets : packetsAt (wired p c.id) s.buffers.taken 0 =
        (wired p c.id).map fun k => (k.targetPort,packet k.id) :=
      List.map_congr_left fun k _ => by
        simp [packet,List.getD_eq_getElem?_getD,List.headD_eq_head?_getD,List.head?_eq_getElem?]
    rw [hpackets] at hrequest
    obtain ⟨i,request,response⟩ := a
    simp only at hrequest haid
    simp [activationOf,requestOf,answer,ha,hrequest,haid]
  -- the packet on a wire is what its source has output
  have hpacket : ∀ c ∈ p.order, ∀ w ∈ p.connections, w.source = c.id →
      s.buffers.taken w.id = [packet w.id] ∧
        extractOutput (answer c.id).value w.sourcePort (c.portNames .output) c.id =
          .ok (packet w.id) := by
    intro c hc w hw hsource
    obtain ⟨a,ha,hmem,haid,heq⟩ := hact c hc
    obtain ⟨v,hv,hout⟩ := outputOn_single hp hone h.fed hmem hc haid hw hsource
    have hfull := h.full w hw
    rw [produced_single (hsource ▸ ha) hout] at hfull
    have htaken : s.buffers.taken w.id = [v] := by
      apply Stream'.Seq.ofList_injective
      rw [hfull]
      simp
    have hresponse : a.response = answer c.id := by rw [heq]; rfl
    have hpv : packet w.id = v := by simp [packet,htaken]
    rw [hpv]
    exact ⟨htaken,hresponse ▸ hv⟩
  refine ⟨answer,packet,⟨fun c hc => ?_,fun c hc => ?_,fun c hc w hw hsource => ?_,
    fun c hc w hw hsource => ?_⟩,fun c hc => ?_⟩
  · obtain ⟨a,_,hmem,_,heq⟩ := hact c hc
    obtain ⟨_,hanswer⟩ := h.fed.answered a hmem
    rw [heq] at hanswer
    exact hanswer
  · obtain ⟨a,_,hmem,_,heq⟩ := hact c hc
    have hverified := h.fed.verified a hmem
    rw [heq] at hverified
    exact hverified
  · exact (hpacket c hc w hw hsource).2
  · refine htyped.packets w hw (packet w.id) ?_
    rw [Buffers.history,(hpacket c hc w hw hsource).1]
    simp
  · obtain ⟨a,ha,_,_,heq⟩ := hact c hc
    rw [ha,heq]

def sentTotal (p : Plan) (b : Buffers) : Nat :=
  (p.connections.map fun w => (b.history w).length).sum

/-- A run so far has only done what the solution says. -/
structure Follows (p : Plan) (answer : String → Response) (packet : Nat → Value) (s : State) :
    Prop where
  log : ∀ a ∈ s.log, ∃ c ∈ p.order, a = activationOf p answer packet c
  once : ∀ id, (activationsOf id s.log).length ≤ 1
  activations : s.activations = s.log.length
  sends : s.sends ≤ sentTotal p s.buffers

theorem Follows.initial (p : Plan) (answer : String → Response) (packet : Nat → Value) :
    Follows p answer packet .initial := by
  constructor <;> simp [State.initial,activationsOf]

variable {answer : String → Response} {packet : Nat → Value}

theorem Follows.activated (hp : p.Sound) (h : Follows p answer packet s) (hc : c ∈ p.order) :
    activationsOf c.id s.log = [] ∨
      activationsOf c.id s.log = [activationOf p answer packet c] := by
  have honce := h.once c.id
  cases hacts : activationsOf c.id s.log with
  | nil => exact .inl rfl
  | cons a rest =>
    rw [hacts,List.length_cons] at honce
    have hrest : rest = [] := List.length_eq_zero_iff.mp (by omega)
    obtain ⟨haid,ha⟩ := activationsOf_id (hacts ▸ List.mem_cons_self :
      a ∈ activationsOf c.id s.log)
    obtain ⟨c',hc',heq⟩ := h.log a ha
    have hid : c'.id = c.id := by rw [← haid,heq]; rfl
    have hcc : c' = c := List.inj_on_of_nodup_map hp.orderNodup hc' hc hid
    rw [hrest,heq,hcc]
    exact .inr rfl

theorem Follows.wire
   
    (hp : p.Sound) (hone : OneShot p) (hsolves : SolvesOn f p p.order answer packet)
    (hfed : Fed (.ofFunction f) p s) (h : Follows p answer packet s) (hw : w ∈ p.connections) :
    (activationsOf w.source s.log = [] ∧ produced p.network w s.log = Stream'.Seq.nil) ∨
      (activationsOf w.source s.log ≠ [] ∧ produced p.network w s.log =
        Stream'.Seq.cons (packet w.id) Stream'.Seq.nil) := by
  obtain ⟨c,hc,hcs⟩ := List.mem_map.mp (hp.source w hw)
  cases h.activated hp hc with
  | inl hnone =>
    rw [hcs] at hnone
    exact .inl ⟨hnone,by simp [produced,hnone]⟩
  | inr hact =>
    obtain ⟨_,hmem⟩ := activationsOf_id (hact ▸ List.mem_singleton_self _ :
      activationOf p answer packet c ∈ activationsOf c.id s.log)
    obtain ⟨v,hv,hout⟩ := outputOn_single hp hone hfed hmem hc rfl hw hcs.symm
    have hvalue : packet w.id = v :=
      Except.ok.inj ((hsolves.sent c hc w hw hcs.symm).symm.trans hv)
    rw [hcs] at hact
    exact .inr ⟨by simp [hact],by rw [hvalue]; exact produced_single hact hout⟩

/-- The states of a run, with everything the invariants say of them. -/
structure OnTrack (f : Request → Except String Response) (p : Plan) (answer : String → Response)
    (packet : Nat → Value) (s : State) : Prop where
  conserved : Conserved p s
  fed : Fed (.ofFunction f) p s
  typed : Typed p.network p.connections s.emitters s.buffers
  follows : Follows p answer packet s

theorem ofList_append_eq_single {xs : List Value} {rest : Stream'.Seq Value} {v : Value}
    (h : (Stream'.Seq.ofList xs).append rest = Stream'.Seq.cons v Stream'.Seq.nil) :
    (xs = [] ∧ rest = Stream'.Seq.cons v Stream'.Seq.nil) ∨
      (xs = [v] ∧ rest = Stream'.Seq.nil) := by
  cases xs with
  | nil => exact .inl ⟨rfl,by simpa using h⟩
  | cons x xs =>
    rw [Stream'.Seq.ofList_cons,Stream'.Seq.cons_append,Stream'.Seq.cons_eq_cons] at h
    obtain ⟨rfl,htail⟩ := h
    cases xs with
    | nil => exact .inr ⟨rfl,by simpa using htail⟩
    | cons y ys =>
      rw [Stream'.Seq.ofList_cons,Stream'.Seq.cons_append] at htail
      exact absurd htail Stream'.Seq.cons_ne_nil

theorem OnTrack.history
   
    (hp : p.Sound) (hone : OneShot p) (hsolves : SolvesOn f p p.order answer packet)
    (h : OnTrack f p answer packet s) (hw : w ∈ p.connections) :
    (s.buffers.history w = [] ∧ (remaining s.emitters w = Stream'.Seq.nil ∨
        remaining s.emitters w = Stream'.Seq.cons (packet w.id) Stream'.Seq.nil)) ∨
      (s.buffers.history w = [packet w.id] ∧ remaining s.emitters w = Stream'.Seq.nil) := by
  have hflow := h.conserved.carries.flow w hw
  cases h.follows.wire hp hone hsolves h.fed hw with
  | inl hnone =>
    rw [hnone.2] at hflow
    cases hhist : s.buffers.history w with
    | nil =>
      rw [hhist] at hflow
      exact .inl ⟨rfl,.inl (by simpa using hflow)⟩
    | cons x xs =>
      rw [hhist,Stream'.Seq.ofList_cons,Stream'.Seq.cons_append] at hflow
      exact absurd hflow Stream'.Seq.cons_ne_nil
  | inr hact =>
    rw [hact.2] at hflow
    cases ofList_append_eq_single hflow with
    | inl hleft => exact .inl ⟨hleft.1,.inr hleft.2⟩
    | inr hright => exact .inr hright

/-- A ready component has not been activated, and the packets in line for it are those of
the solution. -/
theorem OnTrack.ready
   
    (hp : p.Sound) (hone : OneShot p) (hsolves : SolvesOn f p p.order answer packet)
    (h : OnTrack f p answer packet s) (hc : c ∈ p.order) (hready : Ready p s c) :
    activationsOf c.id s.log = [] ∧ s.requestFor p c = requestOf p packet c := by
  have hline : ∀ w ∈ wired p c.id, s.buffers.taken w.id = [] ∧ s.buffers.front w = packet w.id := by
    intro w hw
    have hfull := hready.fed w hw
    cases hqueue : s.buffers.queue w.id with
    | nil => exact absurd hqueue hfull
    | cons v rest =>
      have hhist : s.buffers.history w = s.buffers.taken w.id ++ v :: rest := by
        rw [Buffers.history,hqueue]
      cases h.history hp hone hsolves (mem_wired.mp hw).1 with
      | inl hnone => simp [hhist] at hnone
      | inr hsent =>
        rw [hhist] at hsent
        have hlen := congrArg List.length hsent.1
        simp only [List.length_append,List.length_cons,List.length_nil] at hlen
        have htaken : s.buffers.taken w.id = [] := List.length_eq_zero_iff.mp (by omega)
        rw [htaken,List.nil_append,List.cons.injEq] at hsent
        exact ⟨htaken,by simp [Buffers.front,hqueue,hsent.1.1]⟩
  constructor
  · cases hwired : wired p c.id with
    | nil =>
      have hsource := h.fed.source c hc hwired
      rw [if_neg (hready.unspent hwired)] at hsource
      exact List.length_eq_zero_iff.mp hsource
    | cons w rest =>
      have hw : w ∈ wired p c.id := by simp [hwired]
      obtain ⟨hmem,htarget⟩ := mem_wired.mp hw
      have hcount := h.fed.count w hmem
      rw [(hline w hw).1,htarget] at hcount
      exact List.length_eq_zero_iff.mp hcount.symm
  · have hpackets : packets (wired p c.id) s.buffers =
        (wired p c.id).map fun k => (k.targetPort,packet k.id) :=
      List.map_congr_left fun w hw => by rw [(hline w hw).2]
    rw [State.requestFor,requestOf,hpackets]

theorem buildStreams_total {output : Value} {ports : List String}
    (h : ∀ port ∈ ports, ∃ elements, portElements c output port = .ok elements) :
    ∃ streams, buildStreams p c output ports = .ok streams := by
  induction ports with
  | nil => exact ⟨[],rfl⟩
  | cons port ports ih =>
    obtain ⟨elements,hel⟩ := h port (by simp)
    obtain ⟨streams,hstreams⟩ := ih fun q hq => h q (by simp [hq])
    refine ⟨⟨targetsOf p c.id port,elements⟩ :: streams,?_⟩
    simp only [buildStreams,bind_ok,buildStream_ok]
    exact ⟨_,⟨elements,hel,rfl⟩,streams,hstreams,rfl⟩

theorem SolvesOn.builds (hone : OneShot p)
    (hsolves : SolvesOn f p p.order answer packet) (hc : c ∈ p.order) :
    ∃ e, buildEmitter p c (answer c.id).value = .ok e := by
  have hports : ∀ port ∈ p.wiredPorts c.id, ∃ elements,
      portElements c (answer c.id).value port = .ok elements := by
    intro port hport
    obtain ⟨w,hw,hsource,rfl⟩ := mem_wiredPorts_iff.mp hport
    exact ⟨_,(portElements_ok (hone.noStream c hc)).mpr
      ⟨_,hsolves.sent c hc w hw hsource,rfl⟩⟩
  obtain ⟨streams,hstreams⟩ := buildStreams_total (p := p) hports
  exact ⟨⟨streams,none⟩,by simp only [buildEmitter,bind_ok]; exact ⟨streams,hstreams,rfl⟩⟩

theorem Follows.room (hp : p.Sound) (h : Follows p answer packet s) (hc : c ∈ p.order)
    (hnone : activationsOf c.id s.log = []) : (s.activations : Int) + 1 ≤ p.limit := by
  have hcount : ∀ id, (s.log.map (·.id)).count id = (activationsOf id s.log).length := by
    intro id
    rw [List.count,List.countP_map,activationsOf,List.countP_eq_length_filter]
    rfl
  have hnodup : (c.id :: s.log.map (·.id)).Nodup := by
    refine List.nodup_cons.mpr ⟨fun hin => ?_,List.nodup_iff_count_le_one.mpr fun id => ?_⟩
    · have hpos := List.count_pos_iff.mpr hin
      rw [hcount,hnone] at hpos
      simp at hpos
    · rw [hcount]
      exact h.once id
  have hsub : c.id :: s.log.map (·.id) ⊆ p.order.map (·.id) := by
    intro id hid
    cases List.mem_cons.mp hid with
    | inl heq => exact heq ▸ List.mem_map_of_mem hc
    | inr hin =>
      obtain ⟨a,ha,rfl⟩ := List.mem_map.mp hin
      obtain ⟨c',hc',heq⟩ := h.log a ha
      exact heq ▸ List.mem_map_of_mem (f := (·.id)) hc'
  have hle := (List.subperm_of_subset hnodup hsub).length_le
  have hlen := hp.orderLength
  simp only [List.length_cons,List.length_map] at hle
  have hact := h.activations
  omega

theorem sentTotal_fed {id : String} {b b' : Buffers} (hp : p.Sound)
    (hrec : Received (wired p id) b b') : sentTotal p b' = sentTotal p b := by
  unfold sentTotal
  rw [List.map_congr_left fun w hw => by
    rw [hrec.history w fun k hk heq => hp.distinct k (mem_wired.mp hk).1 w hw heq]]

theorem OnTrack.activate
   
    {o : Outcome State Verdict} (hp : p.Sound) (hone : OneShot p)
    (hsolves : SolvesOn f p p.order answer packet) (h : OnTrack f p answer packet s)
    (hc : c ∈ p.order) (hready : Ready p s c) (hact : Activated (.ofFunction f) p s c o) :
    ∃ s', o = .next s' ∧ Follows p answer packet s' := by
  obtain ⟨hnone,hrequest⟩ := h.ready hp hone hsolves hc hready
  have hroom := h.follows.room hp hc hnone
  have hasked := hsolves.asked c hc
  have hverified := hsolves.verified c hc
  obtain ⟨e',hbuild'⟩ := hsolves.builds hone hc
  cases hact with
  | overLimit b _ hlimit => omega
  | raised b message _ _ hraised =>
    rw [Driver.ofFunction,hrequest,hasked] at hraised
    cases hraised
  | unverified b r _ _ hanswer hbad =>
    rw [Driver.ofFunction,hrequest,hasked] at hanswer
    cases hanswer
    rw [hverified] at hbad
    cases hbad
  | unbuilt b r message _ _ hanswer _ hbuild =>
    rw [Driver.ofFunction,hrequest,hasked] at hanswer
    cases hanswer
    rw [hbuild'] at hbuild
    cases hbuild
  | emits b r e hrec _ hanswer _ _ =>
    rw [Driver.ofFunction,hrequest,hasked] at hanswer
    cases hanswer
    refine ⟨_,rfl,?_,fun id => ?_,?_,?_⟩
    · simp only [State.emitting_log,State.answered_log,State.fed_log,List.mem_append,
        List.mem_singleton]
      intro a ha
      cases ha with
      | inl hold => exact h.follows.log a hold
      | inr hnew => exact ⟨c,hc,by rw [hnew,hrequest]; rfl⟩
    · simp only [State.emitting_log,State.answered_log,State.fed_log,activationsOf_append]
      by_cases hid : c.id = id
      · subst hid
        simp [hnone]
      · simpa [hid] using h.follows.once id
    · simp [State.emitting,State.answered,State.fed,h.follows.activations]
    · change s.sends ≤ sentTotal p b
      rw [sentTotal_fed hp hrec]
      exact h.follows.sends

theorem sentTotal_putAll {id : String} {v : Value} {ts : Targets} {b : Buffers}
    (hp : p.Sound) (hok : TargetsOk p.connections id ts) (hne : ts ≠ []) :
    sentTotal p b < sentTotal p (putAll v ts b) := by
  refine List.sum_lt_sum _ _ (fun w hw => ?_) ?_
  · simp [putAll_history v b hp.distinct hok hw]
  · cases ts with
    | nil => exact absurd rfl hne
    | cons t rest =>
      have hw := (hok.wire t.1 (by simp)).1
      have hhas : Targets.has (t :: rest) t.1 = true := Targets.has_eq_true.mpr (by simp)
      exact ⟨t.1,hw,by simp [putAll_history v b hp.distinct hok hw,hhas]⟩

theorem OnTrack.emitter {id : String} {e : Emitter} {st : Stepped} (hp : p.Sound) (hone : OneShot p)
    (hsolves : SolvesOn f p p.order answer packet) (h : OnTrack f p answer packet s)
    (he : s.emitters id = some e) (hmoved : Emitter.Moved e s.buffers st) : st.status = .done ∨
      (st.status = .progress ∧ sentTotal p s.buffers < sentTotal p st.buffers) := by
  have hok := h.conserved.carries.ok id e he
  have htyped := h.typed.emitters id e he
  -- a connection still in line has had nothing, and its packet is in flight
  have hwaits : ∀ v ts streams w, e.front = some (v,ts,streams) → w ∈ ts.map Prod.fst →
      s.buffers.queue w.id = [] ∧ v = packet w.id := by
    intro v ts streams w hfront hw
    obtain ⟨hmem,hsource⟩ := (Emitter.front_ok hok hfront).1.wire w hw
    have hremaining : remaining s.emitters w = Stream'.Seq.cons v (owed streams w) := by
      have hfr := Emitter.front_remaining hfront w
      rw [if_pos (Targets.has_eq_true.mpr hw),Feed.ofList_singleton_append] at hfr
      simp [remaining,hsource,he,hfr]
    cases h.history hp hone hsolves hmem with
    | inl hnone =>
      have hqueue : s.buffers.queue w.id = [] := by
        have hhist := hnone.1
        rw [Buffers.history,List.append_eq_nil_iff] at hhist
        exact hhist.2
      cases hnone.2 with
      | inl hnil =>
        rw [hremaining] at hnil
        exact absurd hnil Stream'.Seq.cons_ne_nil
      | inr hcons =>
        rw [hremaining,Stream'.Seq.cons_eq_cons] at hcons
        exact ⟨hqueue,hcons.1⟩
    | inr hsent =>
      rw [hremaining] at hsent
      exact absurd hsent.2 Stream'.Seq.cons_ne_nil
  cases hmoved with
  | done _ => exact .inl rfl
  | progress v ts streams hfront _ =>
    exact .inr ⟨rfl,sentTotal_putAll hp (Emitter.front_ok hok hfront).1 (htyped.front hfront).1.1⟩
  | blocked v done t rest streams hfront _ hfull =>
    have hin : t.1 ∈ (done ++ t :: rest).map Prod.fst := by simp
    have hempty := (hwaits v _ streams t.1 hfront hin).1
    have hcap := hp.capacity t.1 ((Emitter.front_ok hok hfront).1.wire t.1 hin).1
    simp [Buffers.isFull,hempty] at hfull
    omega
  | mismatch message v done t rest streams hfront _ _ hbad =>
    have hin : t.1 ∈ (done ++ t :: rest).map Prod.fst := by simp
    obtain ⟨hmem,hsource⟩ := (Emitter.front_ok hok hfront).1.wire t.1 hin
    obtain ⟨c,hc,hcs⟩ := List.mem_map.mp (hp.source t.1 hmem)
    have hfits := hsolves.typed c hc t.1 hmem hcs.symm
    rw [← (hwaits v _ streams t.1 hfront hin).2,
      ← (htyped.front hfront).1.2 t (by simp)] at hfits
    rw [hfits] at hbad
    cases hbad

theorem OnTrack.passed (hp : p.Sound) (h : OnTrack f p answer packet s)
    (hsends : (s.passed (s.pass p)).sends ≤ sentTotal p (s.pass p).buffers) :
    OnTrack f p answer packet (s.passed (s.pass p)) :=
  ⟨h.conserved.passed hp _,h.fed.passed hp h.conserved _,
    h.typed.pass hp.distinct h.conserved.carries.ok,
    ⟨h.follows.log,h.follows.once,h.follows.activations,hsends⟩⟩

theorem OnTrack.sentTotal_le (hp : p.Sound)
    (hone : OneShot p) (hsolves : SolvesOn f p p.order answer packet)
    (h : OnTrack f p answer packet s) : sentTotal p s.buffers ≤ p.connections.length := by
  have hle : ∀ n ∈ p.connections.map fun w => (s.buffers.history w).length, n ≤ 1 := by
    intro n hn
    obtain ⟨w,hw,rfl⟩ := List.mem_map.mp hn
    cases h.history hp hone hsolves hw with
    | inl hnone => simp [hnone.1]
    | inr hsent => simp [hsent.1]
  have hsum := List.sum_le_card_nsmul _ 1 hle
  simpa [sentTotal] using hsum

theorem OnTrack.emit (hp : p.Sound)
    (hone : OneShot p) (hsolves : SolvesOn f p p.order answer packet)
    (h : OnTrack f p answer packet s) (hprod : producers p s ≠ []) :
    ∃ s', Flow.emit p s = .next s' ∧ Follows p answer packet s' := by
  cases hlist : producers p s with
  | nil => exact absurd hlist hprod
  | cons id rest =>
    have hin : id ∈ producers p s := by simp [hlist]
    obtain ⟨e,he⟩ := Option.isSome_iff_exists.mp (mem_producers.mp hin).2
    have hmoved := Emitter.step_moved s.buffers hp.distinct (h.conserved.carries.ok id e he)
    have hstatus := h.emitter hp hone hsolves he hmoved
    have hnot : (e.step s.buffers).status ≠ .blocked := by
      cases hstatus with
      | inl hdone => simp [hdone]
      | inr hprogress => simp [hprogress.1]
    have hpass : round (id :: rest) s.emitters s.buffers = _ := round_cons_some s.buffers he
    rw [if_neg hnot,← hlist] at hpass
    have hpass' : (s.pass p).status = (e.step s.buffers).status ∧
        (s.pass p).buffers = (e.step s.buffers).buffers := by
      rw [State.pass,hpass]
      exact ⟨rfl,rfl⟩
    cases hstatus with
    | inl hdone =>
      have hsame : (s.pass p).buffers = s.buffers := by
        rw [hpass'.2]
        generalize e.step s.buffers = st at hmoved hdone
        cases hmoved <;> simp at hdone ⊢
      have hsends : (s.passed (s.pass p)).sends ≤ sentTotal p (s.pass p).buffers := by
        simp [State.passed,hpass'.1,hdone,hsame,h.follows.sends]
      refine ⟨s.passed (s.pass p),?_,(h.passed hp hsends).follows⟩
      have hst := hpass'.1.trans hdone
      unfold State.pass at hst ⊢
      simp [Flow.emit,hst]
    | inr hprogress =>
      have hst := hpass'.1.trans hprogress.1
      have hlt := hprogress.2
      rw [← hpass'.2] at hlt
      have hsends : (s.passed (s.pass p)).sends ≤ sentTotal p (s.pass p).buffers := by
        have hle := h.follows.sends
        simp only [State.passed,hst,if_true]
        omega
      have hnext := h.passed hp hsends
      have htotal := hnext.sentTotal_le hp hone hsolves
      have hlimit : ¬ p.sendLimit < ((s.passed (s.pass p)).sends : Int) := by
        have hle := hone.sends
        have hbuffers : (s.passed (s.pass p)).buffers = (s.pass p).buffers := rfl
        rw [hbuffers] at htotal
        omega
      refine ⟨s.passed (s.pass p),?_,hnext.follows⟩
      unfold State.pass at hst hlimit ⊢
      simp [Flow.emit,hst,hlimit]

theorem OnTrack.settle (hp : p.Sound)
    (hone : OneShot p) (hsolves : SolvesOn f p p.order answer packet)
    (h : OnTrack f p answer packet s) (hready : Flow.ready p s = []) (hprod : producers p s = []) :
    Flow.settle p s = .halt .success s := by
  have hidle : ∀ id, s.emitters id = none := by
    intro id
    cases he : s.emitters id with
    | none => rfl
    | some e =>
      have hin : id ∈ producers p s :=
        mem_producers.mpr ⟨h.conserved.scheduled id e he,by simp [he]⟩
      simp [hprod] at hin
  have hunready : ∀ c ∈ p.order, ¬ Ready p s c := by
    intro c hc hr
    have hin := mem_ready.mpr ⟨hc,hr⟩
    simp [hready] at hin
  -- along the edges: every component has been activated
  have hall : ∀ id, id ∈ p.order.map (·.id) → (activationsOf id s.log).length = 1 := by
    refine hp.ranked.induction fun id hbefore hid => ?_
    obtain ⟨c,hc,rfl⟩ := List.mem_map.mp hid
    have hhist : ∀ w ∈ wired p c.id, s.buffers.history w = [packet w.id] := by
      intro w hw
      obtain ⟨hmem,htarget⟩ := mem_wired.mp hw
      have hact := hbefore w.source (List.mem_map.mpr ⟨w,hmem,by rw [htarget]⟩)
        (hp.source w hmem)
      have hflow := h.conserved.carries.flow w hmem
      simp only [remaining,hidle w.source,Stream'.Seq.append_nil] at hflow
      cases h.follows.wire hp hone hsolves h.fed hmem with
      | inl hnone =>
        rw [hnone.1] at hact
        cases hact
      | inr hone =>
        apply Stream'.Seq.ofList_injective
        rw [hflow,hone.2]
        simp
    by_contra hlen
    have hnone : activationsOf c.id s.log = [] := by
      have hle := h.follows.once c.id
      exact List.length_eq_zero_iff.mp (by omega)
    refine hunready c hc ⟨hidle c.id,fun hwired hspent => ?_,fun w hw => ?_⟩
    · have hsource := h.fed.source c hc hwired
      rw [if_pos hspent,hnone] at hsource
      cases hsource
    · obtain ⟨hmem,htarget⟩ := mem_wired.mp hw
      have hcount := h.fed.count w hmem
      rw [htarget,hnone] at hcount
      have htaken : s.buffers.taken w.id = [] := List.length_eq_zero_iff.mp hcount
      have hqueue := hhist w hw
      rw [Buffers.history,htaken,List.nil_append] at hqueue
      simp [hqueue]
  have hempty : (p.connections.all fun c => s.buffers.isEmpty c) = true := by
    refine List.all_eq_true.mpr fun w hw => ?_
    have hcount := h.fed.count w hw
    rw [hall w.target (hp.target w hw)] at hcount
    have hlen : (s.buffers.history w).length ≤ 1 := by
      cases h.history hp hone hsolves hw with
      | inl hnone => simp [hnone.1]
      | inr hsent => simp [hsent.1]
    rw [Buffers.history,List.length_append] at hlen
    have hqueue : s.buffers.queue w.id = [] := List.length_eq_zero_iff.mp (by omega)
    simp [Buffers.isEmpty,hqueue]
  simp [Flow.settle,hempty]

theorem OnTrack.step (hp : p.Sound)
    (hone : OneShot p) (hsolves : SolvesOn f p p.order answer packet)
    (h : OnTrack f p answer packet s) :
    (∃ s', schedulerStep (.ofFunction f) p s = .next s' ∧ Follows p answer packet s') ∨
      schedulerStep (.ofFunction f) p s = .halt .success s := by
  have hturn := schedulerStep_turn (d := .ofFunction f) hp s
  generalize schedulerStep (.ofFunction f) p s = o at hturn
  cases hturn with
  | activation c _ hc hready hact => exact .inl (h.activate hp hone hsolves hc hready hact)
  | emission _ hprod => exact .inl (h.emit hp hone hsolves hprod)
  | settled hready hprod => exact .inr (h.settle hp hone hsolves hready hprod)

theorem OnTrack.reaches (hp : p.Sound)
    (hone : OneShot p) (hsolves : SolvesOn f p p.order answer packet)
    (h : Reaches (schedulerStep (.ofFunction f) p) .initial s) : OnTrack f p answer packet s := by
  refine Reaches.invariant (P := fun s => OnTrack f p answer packet s) h
    ⟨Conserved.initial p hp,Fed.initial _ p,
      ⟨by simp [State.initial],by simp [State.initial]⟩,Follows.initial p answer packet⟩ ?_
  intro a b ha hab
  refine ⟨ha.conserved.step hp hab,ha.fed.step hp ha.conserved hab,
    ha.typed.step hp ha.conserved hab,?_⟩
  cases ha.step hp hone hsolves with
  | inl hnext =>
    obtain ⟨s',hs',hfollows⟩ := hnext
    rw [hab] at hs'
    cases hs'
    exact hfollows
  | inr hhalt =>
    rw [hab] at hhalt
    cases hhalt

theorem SolvesOn.stream (hp : p.Sound) (hone : OneShot p)
    (hsolves : SolvesOn f p p.order answer packet) :
    ∃ s s', Halts (schedulerStep (.ofFunction f) p) .initial s .success s' := by
  obtain ⟨e,he⟩ := runLoop_total (d := .ofFunction f) hp
  have hhalts := run_halts he
  cases (OnTrack.reaches hp hone hsolves hhalts.reaches).step hp hone hsolves with
  | inl hnext =>
    obtain ⟨_,hs',_⟩ := hnext
    rw [hhalts.last] at hs'
    cases hs'
  | inr hhalt => exact ⟨e.last,e.last,hhalts.reaches,hhalt⟩

variable {net : ComponentNetwork}

theorem checkPorts_agree {e : Edge} :
    checkFlowPorts net e = .ok () ↔ checkStreamPorts net e = .ok () := by
  simp [checkFlowPorts,checkStreamPorts,bind_ok]

theorem checkSingleWire_of_nodup {cs : List Connection} {seen : List (String × String)}
    (hnodup : (cs.map Connection.inPort).Nodup) (hnew : ∀ c ∈ cs, c.inPort ∉ seen) :
    checkSingleWire cs seen = .ok () := by
  induction cs generalizing seen with
  | nil => rfl
  | cons c cs ih =>
    simp only [List.map_cons,List.nodup_cons] at hnodup
    have hc : (c.target,c.targetPort) ∉ seen := hnew c (by simp)
    have hrest : ∀ k ∈ cs, k.inPort ∉ c.inPort :: seen := by
      intro k hk hin
      cases List.mem_cons.mp hin with
      | inl heq => exact hnodup.1 (heq ▸ List.mem_map_of_mem hk)
      | inr hold => exact hnew k (by simp [hk]) hold
    simp only [checkSingleWire,bind_ok,require_ok,decide_eq_true_eq]
    exact ⟨(),hc,ih hnodup.2 hrest⟩

theorem connect_inPorts (edges : List Edge) :
    (connect edges).map Connection.inPort = edges.map fun e => (e.target,e.targetArg) := by
  apply List.ext_getElem
  · simp [connect]
  · intro i _ _
    simp [connect,Connection.ofEdge,Connection.inPort]

variable {stepLimit : Option Int}

theorem prepare_agree {p q : Plan}
    (hsingle : (net.edges.map fun e => (e.target,e.targetArg)).Nodup) :
    (prepare net stepLimit = .ok p →
      prepareFlow net stepLimit = .ok ⟨net,schedule net,connect net.edges,p.limit⟩) ∧
    (prepareFlow net stepLimit = .ok q →
      prepare net stepLimit = .ok ⟨net,schedule net,connectionsOf net.edges,q.limit⟩) := by
  have hwires : ((connectionsOf net.edges).map Connection.inPort).Nodup := by
    rw [((connectionsOf_perm net.edges).map _).nodup_iff,connect_inPorts]
    exact hsingle
  simp only [prepare,prepareFlow,bind_ok,forEach_ok]
  constructor
  · intro h
    obtain ⟨limit,hlimit,_,hports,_,_,hp⟩ := h
    cases hp
    exact ⟨limit,hlimit,(),fun e he => checkPorts_agree.mpr (hports e he),rfl⟩
  · intro h
    obtain ⟨limit,hlimit,_,hports,hq⟩ := h
    cases hq
    exact ⟨limit,hlimit,(),fun e he => checkPorts_agree.mp (hports e he),(),
      checkSingleWire_of_nodup hwires (by simp),rfl⟩

theorem SolvesOn.congr {p q : Plan} (hp : p.Sound)
    (hnet : q.network = p.network) (horder : q.order = p.order)
    (hperm : p.connections.Perm q.connections) (h : SolvesOn f p p.order answer packet) :
    SolvesOn f q q.order answer packet ∧
      ∀ c, activationOf q answer packet c = activationOf p answer packet c := by
  have hrequest : ∀ c, requestOf q packet c = requestOf p packet c := by
    intro c
    rw [requestOf,requestOf,hnet,wired,wired,feeding_congr hperm hp.singleWire]
  refine ⟨⟨fun c hc => ?_,fun c hc => ?_,fun c hc w hw => ?_,fun c hc w hw => ?_⟩,fun c => ?_⟩
  · rw [hrequest]
    exact h.asked c (horder ▸ hc)
  · exact h.verified c (horder ▸ hc)
  · exact h.sent c (horder ▸ hc) w (hperm.mem_iff.mpr hw)
  · rw [hnet]
    exact h.typed c (horder ▸ hc) w (hperm.mem_iff.mpr hw)
  · rw [activationOf,activationOf,hrequest]

theorem component_mem (h : c ∈ schedule net) : c ∈ net.components := by
  obtain ⟨id,_,hc⟩ := List.mem_filterMap.mp h
  exact List.mem_of_find?_eq_some hc

theorem prepareFlow_sound {q : Plan}
    (hsingle : (net.edges.map fun e => (e.target,e.targetArg)).Nodup)
    (h : prepareFlow net stepLimit = .ok q) : q.Sound := by
  simp only [prepareFlow,bind_ok] at h
  obtain ⟨limit,hlimit,_,_,hq⟩ := h
  cases hq
  obtain ⟨hvalid,hpos,hlen⟩ := checkLimits_ok hlimit
  exact plan_sound hvalid hpos hlen (List.Perm.refl _) (by rw [connect_inPorts]; exact hsingle)

theorem oneShot_of_prepare (hstream : ∀ c ∈ net.components, c.stream = [])
    (hsize : (net.edges.length : Int) ≤ stepLimit.getD defaultStepLimit * maxConnectionCapacity)
    (h : prepare net stepLimit = .ok p) : OneShot p := by
  simp only [prepare,checkLimits,bind_ok] at h
  obtain ⟨limit,⟨_,_,_,_,_,_,hlimit⟩,_,_,_,_,hp⟩ := h
  cases hp
  cases hlimit
  refine ⟨fun c hc => hstream c (component_mem hc),?_⟩
  have hlen : (connectionsOf net.edges).length = net.edges.length := by
    simp [connectionsOf,connect,List.length_insertionSort]
  simpa [hlen,Plan.sendLimit] using hsize

theorem prepare_valid (h : prepare net stepLimit = .ok p) : net.Validated := by
  simp only [prepare,bind_ok] at h
  obtain ⟨limit,hlimit,_⟩ := h
  exact (checkLimits_ok hlimit).1

theorem flow_of_stream (hstream : ∀ c ∈ net.components, c.stream = [])
    (hsingle : (net.edges.map fun e => (e.target,e.targetArg)).Nodup)
    (hsize : (net.edges.length : Int) ≤ stepLimit.getD defaultStepLimit * maxConnectionCapacity)
    (h : (runStream (.ofFunction f) net stepLimit).ok = true) :
    (runFlow (.ofFunction f) net stepLimit).ok = true ∧ ∀ id ∈ net.ids, ∃ a,
      activationsOf id (streamLog (.ofFunction f) net stepLimit) = [a] ∧
        activationsOf id (flowLog (.ofFunction f) net stepLimit) = [a] := by
  obtain ⟨p,s₀,s,hprep,hhalts,_⟩ := runStream_ok_iff.mp h
  have hp := prepare_sound hprep
  have hone := oneShot_of_prepare hstream hsize hprep
  obtain ⟨horder,hwires⟩ := prepare_plan hprep
  have hlog : streamLog (.ofFunction f) net stepLimit = s.log := by
    obtain ⟨e,he⟩ := runLoop_total (d := .ofFunction f) hp
    obtain ⟨_,_,heq⟩ := (run_halts he).unique hhalts
    simp [streamLog,hprep,he,heq]
  have htyped : Typed p.network p.connections s.emitters s.buffers := by
    rw [(success_settled hp hhalts.last).1]
    exact Typed.reaches hp hhalts.reaches
  obtain ⟨answer,packet,hsolves,honce⟩ := (completed_of_success hp hhalts).solves hp hone htyped
  have hprepFlow := (prepare_agree (q := p) hsingle).1 hprep
  have hq := prepareFlow_sound hsingle hprepFlow
  have hperm : p.connections.Perm (connect net.edges) := by
    rw [hwires]
    exact connectionsOf_perm net.edges
  obtain ⟨hsolvesFlow,hact⟩ := hsolves.congr hp
    (q := ⟨net,schedule net,connect net.edges,p.limit⟩) (prepare_network hprep).symm horder.symm
    hperm
  have hloop := solution_flow hq.laid hsolvesFlow
  refine ⟨runFlow_ok_iff.mpr ⟨_,hprepFlow,by rw [hloop]⟩,fun id hid => ?_⟩
  have hvalid := prepare_valid hprep
  have hin : id ∈ p.order.map (·.id) := by
    rw [horder,schedule_ids hvalid]
    exact hvalid.order_perm.mem_iff.mpr hid
  obtain ⟨c,hc,rfl⟩ := List.mem_map.mp hin
  have hflow : flowLog (.ofFunction f) net stepLimit =
      p.order.map (activationOf p answer packet) := by
    simp only [flowLog,hprepFlow,hloop]
    rw [horder]
    exact List.map_congr_left fun c _ => hact c
  rw [hlog,hflow]
  exact ⟨activationOf p answer packet c,honce c hc,activationsOf_order hp.laid hc⟩

theorem stream_of_flow (hstream : ∀ c ∈ net.components, c.stream = [])
    (hsingle : (net.edges.map fun e => (e.target,e.targetArg)).Nodup)
    (hsize : (net.edges.length : Int) ≤ stepLimit.getD defaultStepLimit * maxConnectionCapacity)
    (h : (runFlow (.ofFunction f) net stepLimit).ok = true) :
    (runStream (.ofFunction f) net stepLimit).ok = true := by
  obtain ⟨q,hprepFlow,hloop⟩ := runFlow_ok_iff.mp h
  have hq := prepareFlow_sound hsingle hprepFlow
  obtain ⟨answer,packet,hsolves⟩ := flow_solution hq.laid hloop
  have hprep := (prepare_agree (p := q) hsingle).2 hprepFlow
  have hp := prepare_sound hprep
  have hshape : q.network = net ∧ q.order = schedule net ∧ q.connections = connect net.edges := by
    simp only [prepareFlow,bind_ok] at hprepFlow
    obtain ⟨_,_,_,_,hq⟩ := hprepFlow
    cases hq
    exact ⟨rfl,rfl,rfl⟩
  have hperm : q.connections.Perm (connectionsOf net.edges) := by
    rw [hshape.2.2]
    exact (connectionsOf_perm net.edges).symm
  obtain ⟨hsolvesStream,_⟩ := hsolves.congr hq
    (q := ⟨net,schedule net,connectionsOf net.edges,q.limit⟩) hshape.1.symm hshape.2.1.symm hperm
  obtain ⟨s,s',hhalts⟩ := hsolvesStream.stream hp (oneShot_of_prepare hstream hsize hprep)
  obtain ⟨e,he⟩ := runLoop_total (d := .ofFunction f) hp
  obtain ⟨_,hverdict,_⟩ := (run_halts he).unique hhalts
  simp [runStream,hprep,he,report,hverdict]

/-- The two engines accept the same networks, and give every component the same single
activation. -/
theorem engines_agree {f : Request → Except String Response} {net : ComponentNetwork}
    {stepLimit : Option Int} (hstream : ∀ c ∈ net.components, c.stream = [])
    (hsingle : (net.edges.map fun e => (e.target,e.targetArg)).Nodup)
    (hsize : (net.edges.length : Int) ≤
      stepLimit.getD defaultStepLimit * maxConnectionCapacity) :
    ((runStream (.ofFunction f) net stepLimit).ok = true ↔
        (runFlow (.ofFunction f) net stepLimit).ok = true) ∧
      ((runStream (.ofFunction f) net stepLimit).ok = true → ∀ id ∈ net.ids, ∃ a,
        activationsOf id (streamLog (.ofFunction f) net stepLimit) = [a] ∧
          activationsOf id (flowLog (.ofFunction f) net stepLimit) = [a]) :=
  ⟨⟨fun h => (flow_of_stream hstream hsingle hsize h).1,
      stream_of_flow hstream hsingle hsize⟩,
    fun h => (flow_of_stream hstream hsingle hsize h).2⟩

def diamond : ComponentNetwork :=
  .mk [part "a" [] ["o"] [],part "b" ["x"] ["y"] [],part "c" ["x"] ["y"] [],
      part "d" ["l","r"] [] []]
    [⟨"a","o","b","x",1⟩,⟨"a","o","c","x",1⟩,⟨"b","y","d","l",1⟩,⟨"c","y","d","r",1⟩] []

theorem engines_agree_diamond :
    ((runStream (.ofFunction relayFunction) diamond none).ok = true ↔
        (runFlow (.ofFunction relayFunction) diamond none).ok = true) ∧
      ((runStream (.ofFunction relayFunction) diamond none).ok = true → ∀ id ∈ diamond.ids, ∃ a,
        activationsOf id (streamLog (.ofFunction relayFunction) diamond none) = [a] ∧
          activationsOf id (flowLog (.ofFunction relayFunction) diamond none) = [a]) :=
  engines_agree (by simp [diamond,ComponentNetwork.components,part]) (by decide) (by decide)

end AgentCentric.Flow

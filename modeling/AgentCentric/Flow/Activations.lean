import AgentCentric.Flow.Delivery

namespace AgentCentric.Flow
open Network Machine

/-- The arguments that the `k`-th packets of the connections make. -/
def packetsAt (cs : List Connection) (taken : Nat → List Value) (k : Nat) :
    List (String × Value) :=
  cs.map fun c => (c.targetPort,(taken c.id).getD k .null)

/-- The `k`-th activation of a component takes the `k`-th packet of each of its connections;
a source is activated once. -/
structure Fed (d : Driver) (p : Plan) (s : State) : Prop where
  scheduled : ∀ a ∈ s.log, a.id ∈ p.order.map (·.id)
  verified : ∀ a ∈ s.log, a.response.verified = true
  built : ∀ a ∈ s.log, ∃ c ∈ p.order, c.id = a.id ∧ ∃ e, buildEmitter p c a.response.value = .ok e
  answered : ∀ a ∈ s.log, ∃ log, d log a.request = .ok a.response
  count : ∀ w ∈ p.connections,
    (s.buffers.taken w.id).length = (activationsOf w.target s.log).length
  request : ∀ c ∈ p.order, ∀ k a, (activationsOf c.id s.log)[k]? = some a →
    a.request = makeRequest c ((templateArgs p.network c).update
      (packetsAt (wired p c.id) s.buffers.taken k))
  source : ∀ c ∈ p.order, wired p c.id = [] →
    (activationsOf c.id s.log).length = if c.id ∈ s.spentSources then 1 else 0

theorem Fed.initial (d : Driver) (p : Plan) : Fed d p .initial := by
  constructor <;> simp [State.initial,activationsOf,Buffers.empty]

theorem round_taken {wires : List Connection} {ids : List String}
    {emitters : String → Option Emitter} {b : Buffers} (hids : DistinctIds wires)
    (hok : ∀ id e, emitters id = some e → e.Ok wires id) :
    (round ids emitters b).buffers.taken = b.taken := by
  have hkeep : (∀ id e, (round ids emitters b).emitters id = some e → e.Ok wires id) ∧
      (round ids emitters b).buffers.taken = b.taken := by
    refine round_invariant (P := fun em b' =>
      (∀ id e, em id = some e → e.Ok wires id) ∧ b'.taken = b.taken) ⟨hok,rfl⟩ ?_ ?_
    · intro em b' id e he hP
      have hmoved := Emitter.step_moved b' hids (hP.1 id e he)
      exact ⟨forall_update_some hP.1 (hmoved.ok (hP.1 id e he)),hmoved.taken.trans hP.2⟩
    · intro em b' id e he _ hP
      have hmoved := Emitter.step_moved b' hids (hP.1 id e he)
      exact ⟨forall_update_none id hP.1,hmoved.taken.trans hP.2⟩
  exact hkeep.2

variable {p : Plan} {d : Driver} {s : State}

theorem Fed.passed (hp : p.Sound) (hc : Conserved p s) (h : Fed d p s) (ids : List String) :
    Fed d p (s.passed (round ids s.emitters s.buffers)) := by
  have htaken : (s.passed (round ids s.emitters s.buffers)).buffers.taken = s.buffers.taken :=
    round_taken hp.distinct hc.carries.ok
  constructor
  · exact h.scheduled
  · exact h.verified
  · exact h.built
  · exact h.answered
  · rw [htaken]
    exact h.count
  · rw [htaken]
    exact h.request
  · exact h.source

theorem getD_append_left {xs : List Value} {y : Value} {k : Nat} (h : k < xs.length) :
    (xs ++ [y]).getD k .null = xs.getD k .null := by
  simp [List.getD_eq_getElem?_getD,List.getElem?_append_left h]

theorem activationsOf_append {id : String} {log : List Activation} {a : Activation} :
    activationsOf id (log ++ [a]) = activationsOf id log ++ if a.id = id then [a] else [] := by
  by_cases h : a.id = id
  · simp [activationsOf,h]
  · simp [activationsOf,h]

theorem taken_elsewhere {id : String} {b b' : Buffers} {w : Connection}
    (hp : p.Sound) (hrec : Received (wired p id) b b') (hw : w ∈ p.connections)
    (hne : w.target ≠ id) : b'.taken w.id = b.taken w.id := by
  refine (hrec.frame w.id fun hin => ?_).2
  obtain ⟨c,hc,heq⟩ := List.mem_map.mp hin
  obtain ⟨hcw,hct⟩ := mem_wired.mp hc
  exact hne (hp.distinct c hcw w hw heq ▸ hct)

theorem requestFor_eq {c : Component} {b : Buffers}
    (h : Fed d p s) (hrec : Received (wired p c.id) s.buffers b) :
    s.requestFor p c = makeRequest c ((templateArgs p.network c).update
      (packetsAt (wired p c.id) b.taken (activationsOf c.id s.log).length)) := by
  have hpackets : packetsAt (wired p c.id) b.taken (activationsOf c.id s.log).length =
      packets (wired p c.id) s.buffers := by
    refine List.map_congr_left fun w hw => ?_
    obtain ⟨hmem,htarget⟩ := mem_wired.mp hw
    have hcount := h.count w hmem
    rw [htarget] at hcount
    rw [hrec.taken w hw,← hcount]
    simp [List.getD_eq_getElem?_getD]
  rw [hpackets]
  rfl

theorem Fed.emits {c : Component} {b : Buffers}
    {r : Response} {e : Emitter} (hp : p.Sound) (h : Fed d p s) (hc : c ∈ p.order)
    (hready : Ready p s c) (hrec : Received (wired p c.id) s.buffers b)
    (hanswer : d s.log (s.requestFor p c) = .ok r) (hverified : r.verified = true)
    (hbuild : buildEmitter p c r.value = .ok e) :
    Fed d p (((s.fed p c b).answered ⟨c.id,s.requestFor p c,r⟩).emitting c.id e) := by
  constructor
  · simp only [State.emitting_log,State.answered_log,State.fed_log,List.mem_append,
      List.mem_singleton]
    intro a ha
    cases ha with
    | inl hold => exact h.scheduled a hold
    | inr hnew => exact hnew ▸ List.mem_map_of_mem hc
  · simp only [State.emitting_log,State.answered_log,State.fed_log,List.mem_append,
      List.mem_singleton]
    intro a ha
    cases ha with
    | inl hold => exact h.verified a hold
    | inr hnew => exact hnew ▸ hverified
  · simp only [State.emitting_log,State.answered_log,State.fed_log,List.mem_append,
      List.mem_singleton]
    intro a ha
    cases ha with
    | inl hold => exact h.built a hold
    | inr hnew => exact hnew ▸ ⟨c,hc,rfl,e,hbuild⟩
  · simp only [State.emitting_log,State.answered_log,State.fed_log,List.mem_append,
      List.mem_singleton]
    intro a ha
    cases ha with
    | inl hold => exact h.answered a hold
    | inr hnew => exact hnew ▸ ⟨s.log,hanswer⟩
  · intro w hw
    have hcount := h.count w hw
    simp only [State.emitting_log,State.answered_log,State.fed_log,State.emitting_buffers,
      State.answered_buffers,State.fed_buffers,activationsOf_append]
    by_cases htarget : w.target = c.id
    · rw [hrec.taken w (mem_wired.mpr ⟨hw,htarget⟩)]
      simp [htarget.symm,hcount]
    · have hne : ¬ c.id = w.target := fun heq => htarget heq.symm
      rw [taken_elsewhere hp hrec hw htarget]
      simpa [hne] using hcount
  · intro c' hc' k a ha
    simp only [State.emitting_log,State.answered_log,State.fed_log,activationsOf_append] at ha
    simp only [State.emitting_buffers,State.answered_buffers,State.fed_buffers]
    by_cases hid : c.id = c'.id
    · have hcc : c' = c := List.inj_on_of_nodup_map hp.orderNodup hc' hc hid.symm
      subst hcc
      simp only [if_true] at ha
      by_cases hk : k < (activationsOf c'.id s.log).length
      · rw [List.getElem?_append_left hk] at ha
        rw [h.request c' hc' k a ha]
        have hsame : packetsAt (wired p c'.id) b.taken k =
            packetsAt (wired p c'.id) s.buffers.taken k := by
          refine List.map_congr_left fun w hw => ?_
          obtain ⟨hmem,htarget⟩ := mem_wired.mp hw
          have hcount := h.count w hmem
          rw [htarget] at hcount
          rw [hrec.taken w hw,getD_append_left (by omega)]
        rw [hsame]
      · have hlen := (List.getElem?_eq_some_iff.mp ha).1
        simp only [List.length_append,List.length_singleton] at hlen
        have hk' : k = (activationsOf c'.id s.log).length := by omega
        subst hk'
        simp only [List.getElem?_concat_length,Option.some.injEq] at ha
        subst ha
        exact requestFor_eq h hrec
    · simp only [hid,if_false,List.append_nil] at ha
      rw [h.request c' hc' k a ha]
      have hsame : packetsAt (wired p c'.id) b.taken k =
          packetsAt (wired p c'.id) s.buffers.taken k := by
        refine List.map_congr_left fun w hw => ?_
        obtain ⟨hmem,htarget⟩ := mem_wired.mp hw
        rw [taken_elsewhere hp hrec hmem fun heq => hid (heq.symm.trans htarget)]
      rw [hsame]
  · intro c' hc' hwired
    have hsource := h.source c' hc' hwired
    simp only [State.emitting_log,State.answered_log,State.fed_log,activationsOf_append]
    by_cases hid : c.id = c'.id
    · have hcc : c' = c := List.inj_on_of_nodup_map hp.orderNodup hc' hc hid.symm
      subst hcc
      have hspent := hready.unspent hwired
      rw [if_neg hspent] at hsource
      simp [State.emitting,State.answered,State.fed,hwired,hsource]
    · have hne : ¬ c'.id = c.id := fun heq => hid heq.symm
      simp only [hid,if_false,List.append_nil,hsource]
      by_cases hw : (wired p c.id).isEmpty = true
      · simp [State.emitting,State.answered,State.fed,hw,hne]
      · simp [State.emitting,State.answered,State.fed,hw]

theorem Fed.step {s s' : State} (hp : p.Sound) (hc : Conserved p s)
    (h : Fed d p s) (hnext : schedulerStep d p s = .next s') : Fed d p s' := by
  cases step_advance hp hnext with
  | activated c b r e hmem hready hrec _ hanswer hverified hbuild =>
    exact h.emits hp hmem hready hrec hanswer hverified hbuild
  | passed _ _ _ => exact h.passed hp hc (producers p s)

theorem Fed.reaches (hp : p.Sound) (h : Reaches (schedulerStep d p) .initial s) : Fed d p s := by
  have hboth : Conserved p s ∧ Fed d p s :=
    Reaches.invariant (P := fun s => Conserved p s ∧ Fed d p s) h
      ⟨Conserved.initial p hp,Fed.initial d p⟩ fun _ _ ha hab =>
        ⟨ha.1.step hp hab,ha.2.step hp ha.1 hab⟩
  exact hboth.2

end AgentCentric.Flow

import AgentCentric.Flow.Delivery

namespace AgentCentric.Flow
open Network Machine

/-- The connections still to serve, each with its own type. -/
def Targets.Typed (net : ComponentNetwork) (ts : Targets) : Prop :=
  ts ≠ [] ∧ ∀ t ∈ ts, t.2 = requiredType net t.1

structure Emitter.Typed (net : ComponentNetwork) (e : Emitter) : Prop where
  streams : ∀ s ∈ e.streams, Targets.Typed net s.targets
  pending : ∀ v ts, e.pending = some (v,ts) → Targets.Typed net ts

structure Typed (net : ComponentNetwork) (wires : List Connection)
    (emitters : String → Option Emitter) (b : Buffers) : Prop where
  emitters : ∀ id e, emitters id = some e → e.Typed net
  packets : ∀ w ∈ wires, ∀ v ∈ b.history w, valueMatchesType v (requiredType net w) = true

variable {net : ComponentNetwork}

theorem pull_typed {streams streams' : List OutStream} {v : Value}
    {ts : Targets} (hok : ∀ s ∈ streams, Targets.Typed net s.targets)
    (h : pull streams = some (v,ts,streams')) :
    Targets.Typed net ts ∧ ∀ s ∈ streams', Targets.Typed net s.targets := by
  induction streams with
  | nil => cases h
  | cons s rest ih =>
    unfold pull at h
    split at h
    · exact ih (fun s hs => hok s (by simp [hs])) h
    · cases h
      refine ⟨hok s (by simp),fun s' hs' => ?_⟩
      cases List.mem_cons.mp hs' with
      | inl heq => exact heq ▸ hok s (by simp)
      | inr hmem => exact hok s' (by simp [hmem])

variable {e : Emitter}

theorem Emitter.Typed.front {v : Value} {ts : Targets}
    {streams : List OutStream} (h : e.Typed net) (hfront : e.front = some (v,ts,streams)) :
    Targets.Typed net ts ∧ ∀ s ∈ streams, Targets.Typed net s.targets := by
  unfold Emitter.front at hfront
  split at hfront
  · rename_i v' ts' hpending
    cases hfront
    exact ⟨h.pending v ts hpending,h.streams⟩
  · exact pull_typed h.streams hfront

theorem Targets.Typed.rest {done rest : Targets}
    {t : Connection × ValueType} (h : Targets.Typed net (done ++ t :: rest)) :
    Targets.Typed net (t :: rest) :=
  ⟨by simp,fun t' ht' => h.2 t' (List.mem_append_right _ ht')⟩

variable {b : Buffers}

theorem Emitter.Moved.typed {st : Stepped}
    (h : Emitter.Moved e b st) (htyped : e.Typed net) : st.emitter.Typed net := by
  cases h with
  | done _ => exact ⟨by simp,by simp⟩
  | progress v ts streams hfront _ => exact ⟨(htyped.front hfront).2,by simp⟩
  | blocked v done t rest streams hfront _ _ =>
    have hfacts := htyped.front hfront
    exact ⟨hfacts.2,fun v' ts hpending => by cases hpending; exact hfacts.1.rest⟩
  | mismatch message v done t rest streams hfront _ _ _ =>
    have hfacts := htyped.front hfront
    exact ⟨hfacts.2,fun v' ts hpending => by cases hpending; exact hfacts.1.rest⟩

theorem putAll_typed {wires : List Connection} {id : String}
    {done : Targets} {v x : Value} {w : Connection} (hids : DistinctIds wires)
    (hok : TargetsOk wires id done) (htyped : ∀ t ∈ done, t.2 = requiredType net t.1)
    (hroom : Room v b done) (hw : w ∈ wires)
    (hold : ∀ x ∈ b.history w, valueMatchesType x (requiredType net w) = true)
    (hx : x ∈ (putAll v done b).history w) : valueMatchesType x (requiredType net w) = true := by
  rw [putAll_history v b hids hok hw] at hx
  cases List.mem_append.mp hx with
  | inl hin => exact hold x hin
  | inr hin =>
    by_cases hhas : Targets.has done w = true
    · simp only [hhas,if_true,List.mem_singleton] at hin
      obtain ⟨t,ht,rfl⟩ := List.mem_map.mp (Targets.has_eq_true.mp hhas)
      rw [hin,← htyped t ht]
      exact (hroom t ht).2
    · simp [hhas] at hin

theorem Emitter.Moved.typedPackets {wires : List Connection}
    {id : String} {st : Stepped} {w : Connection}
    (h : Emitter.Moved e b st) (hids : DistinctIds wires) (hok : e.Ok wires id)
    (htyped : e.Typed net) (hw : w ∈ wires)
    (hold : ∀ x ∈ b.history w, valueMatchesType x (requiredType net w) = true) :
    ∀ x ∈ st.buffers.history w, valueMatchesType x (requiredType net w) = true := by
  cases h with
  | done _ => exact hold
  | progress v ts streams hfront hroom =>
    exact fun x hx => putAll_typed hids (Emitter.front_ok hok hfront).1
      (htyped.front hfront).1.2 hroom hw hold hx
  | blocked v done t rest streams hfront hroom _ =>
    exact fun x hx => putAll_typed hids (Emitter.front_ok hok hfront).1.left
      (fun t' ht' => (htyped.front hfront).1.2 t' (List.mem_append_left _ ht')) hroom hw hold hx
  | mismatch message v done t rest streams hfront hroom _ _ =>
    exact fun x hx => putAll_typed hids (Emitter.front_ok hok hfront).1.left
      (fun t' ht' => (htyped.front hfront).1.2 t' (List.mem_append_left _ ht')) hroom hw hold hx

theorem Typed.pass {wires : List Connection} {ids : List String}
    {emitters : String → Option Emitter} (hids : DistinctIds wires)
    (hok : ∀ id e, emitters id = some e → e.Ok wires id) (h : Typed net wires emitters b) :
    Typed net wires (round ids emitters b).emitters (round ids emitters b).buffers := by
  have hkeep : (∀ id e, (round ids emitters b).emitters id = some e → e.Ok wires id) ∧
      Typed net wires (round ids emitters b).emitters (round ids emitters b).buffers := by
    refine round_invariant (P := fun em b' =>
      (∀ id e, em id = some e → e.Ok wires id) ∧ Typed net wires em b') ⟨hok,h⟩ ?_ ?_
    · intro em b' id e he hP
      have hmoved := Emitter.step_moved b' hids (hP.1 id e he)
      exact ⟨forall_update_some hP.1 (hmoved.ok (hP.1 id e he)),
        forall_update_some hP.2.emitters (hmoved.typed (hP.2.emitters id e he)),fun w hw =>
        hmoved.typedPackets hids (hP.1 id e he) (hP.2.emitters id e he) hw (hP.2.packets w hw)⟩
    · intro em b' id e he _ hP
      have hmoved := Emitter.step_moved b' hids (hP.1 id e he)
      exact ⟨forall_update_none id hP.1,forall_update_none id hP.2.emitters,fun w hw =>
        hmoved.typedPackets hids (hP.1 id e he) (hP.2.emitters id e he) hw (hP.2.packets w hw)⟩
  exact hkeep.2

variable {p : Plan}

theorem mem_wiredPorts_iff {id port : String} :
    port ∈ p.wiredPorts id ↔ ∃ w ∈ p.connections, w.source = id ∧ w.sourcePort = port := by
  rw [Plan.wiredPorts,(sortStrings_perm _).mem_iff]
  simp [and_assoc]

theorem buildEmitter_typed {c : Component} {output : Value}
    (h : buildEmitter p c output = .ok e) : e.Typed p.network := by
  simp only [buildEmitter,bind_ok] at h
  obtain ⟨streams,hstreams,he⟩ := h
  cases he
  refine ⟨?_,by simp⟩
  have hports : ∀ port ∈ p.wiredPorts c.id, targetsOf p c.id port ≠ [] := by
    intro port hport hnil
    obtain ⟨w,hw,hsource,hwp⟩ := mem_wiredPorts_iff.mp hport
    have hin := mem_targetsOf.mpr ⟨hw,hsource,hwp⟩
    simp [hnil] at hin
  generalize p.wiredPorts c.id = ports at hstreams hports
  induction ports generalizing streams with
  | nil =>
    cases hstreams
    simp
  | cons port ports ih =>
    simp only [buildStreams,bind_ok,buildStream_ok] at hstreams
    obtain ⟨s,⟨elements,_,rfl⟩,rest,hrest,hcons⟩ := hstreams
    cases hcons
    intro s hs
    cases List.mem_cons.mp hs with
    | inl heq =>
      subst heq
      refine ⟨hports port (by simp),fun t ht => ?_⟩
      obtain ⟨k,_,rfl⟩ := List.mem_map.mp ht
      rfl
    | inr hmem => exact ih rest hrest (fun q hq => hports q (by simp [hq])) s hmem

theorem Typed.step {d : Driver} {s s' : State} (hp : p.Sound) (hc : Conserved p s)
    (h : Typed p.network p.connections s.emitters s.buffers)
    (hnext : schedulerStep d p s = .next s') :
    Typed p.network p.connections s'.emitters s'.buffers := by
  cases step_advance hp hnext with
  | activated c b r e hmem hready hrec _ _ _ hbuild =>
    refine ⟨fun id e' he' => ?_,fun w hw => ?_⟩
    · by_cases hid : id = c.id
      · subst hid
        have hidle : ((s.fed p c b).answered ⟨c.id,s.requestFor p c,r⟩).emitters c.id = none :=
          hready.idle
        exact State.emitting_some hidle he' ▸ buildEmitter_typed hbuild
      · rw [State.emitting_ne e hid] at he'
        exact h.emitters id e' he'
    · simp only [State.emitting_buffers,State.answered_buffers,State.fed_buffers]
      rw [hrec.history w fun k hk heq => hp.distinct k (mem_wired.mp hk).1 w hw heq]
      exact h.packets w hw
  | passed _ _ _ => exact h.pass hp.distinct hc.carries.ok

theorem Typed.reaches {d : Driver} {s : State} (hp : p.Sound)
    (h : Reaches (schedulerStep d p) .initial s) :
    Typed p.network p.connections s.emitters s.buffers := by
  have hboth : Conserved p s ∧ Typed p.network p.connections s.emitters s.buffers :=
    Reaches.invariant
      (P := fun s => Conserved p s ∧ Typed p.network p.connections s.emitters s.buffers) h
      ⟨Conserved.initial p hp,⟨by simp [State.initial],by simp [State.initial]⟩⟩
      fun _ _ ha hab => ⟨ha.1.step hp hab,ha.2.step hp ha.1 hab⟩
  exact hboth.2

end AgentCentric.Flow

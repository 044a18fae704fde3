import AgentCentric.Flow.Plan

namespace AgentCentric.Flow
open Network Machine

@[simp] theorem State.fed_buffers (s : State) (p : Plan) (c : Component) (b : Buffers) :
    (s.fed p c b).buffers = b := rfl

@[simp] theorem State.fed_emitters (s : State) (p : Plan) (c : Component) (b : Buffers) :
    (s.fed p c b).emitters = s.emitters := rfl

@[simp] theorem State.fed_log (s : State) (p : Plan) (c : Component) (b : Buffers) :
    (s.fed p c b).log = s.log := rfl

@[simp] theorem State.answered_buffers (s : State) (a : Activation) :
    (s.answered a).buffers = s.buffers := rfl

@[simp] theorem State.answered_emitters (s : State) (a : Activation) :
    (s.answered a).emitters = s.emitters := rfl

@[simp] theorem State.answered_log (s : State) (a : Activation) :
    (s.answered a).log = s.log ++ [a] := rfl

@[simp] theorem State.emitting_buffers (s : State) (id : String) (e : Emitter) :
    (s.emitting id e).buffers = s.buffers := rfl

@[simp] theorem State.emitting_log (s : State) (id : String) (e : Emitter) :
    (s.emitting id e).log = s.log := rfl

theorem State.emitting_ne {s : State} {id id' : String} (e : Emitter) (h : id' ≠ id) :
    (s.emitting id e).emitters id' = s.emitters id' := by
  by_cases he : e.isEmpty = true
  · simp [State.emitting,he]
  · simp [State.emitting,he,h]

variable {id : String}

theorem State.emitting_some {s : State} {e e' : Emitter}
    (hidle : s.emitters id = none) (h : (s.emitting id e).emitters id = some e') : e' = e := by
  by_cases he : e.isEmpty = true
  · simp [State.emitting,he,hidle] at h
  · simpa [State.emitting,he] using h.symm

/-- A packet has been taken from each of the connections `cs`. -/
structure Received (cs : List Connection) (b b' : Buffers) : Prop where
  queue : ∀ c ∈ cs, b.queue c.id = b.front c :: b'.queue c.id
  taken : ∀ c ∈ cs, b'.taken c.id = b.taken c.id ++ [b.front c]
  frame : ∀ i, i ∉ cs.map (·.id) → b'.queue i = b.queue i ∧ b'.taken i = b.taken i

def packets (cs : List Connection) (b : Buffers) : List (String × Value) :=
  cs.map fun c => (c.targetPort,b.front c)

variable {b : Buffers}

theorem receiveAll_spec {cs : List Connection} (args : Dict String Value)
    (hids : (cs.map (·.id)).Nodup) (hfull : ∀ c ∈ cs, b.queue c.id ≠ []) :
    ∃ b', receiveAll cs b args = .ok (args.update (packets cs b),b') ∧ Received cs b b' := by
  induction cs generalizing b args with
  | nil => exact ⟨b,rfl,by simp,by simp,by simp⟩
  | cons c cs ih =>
    simp only [List.map_cons,List.nodup_cons] at hids
    have hc := hfull c (by simp)
    let b₁ : Buffers := ⟨Function.update b.queue c.id (b.queue c.id).tail,
      Function.update b.taken c.id (b.taken c.id ++ [b.front c])⟩
    have hne : ∀ k ∈ cs, k.id ≠ c.id := fun k hk heq =>
      hids.1 (heq ▸ List.mem_map_of_mem hk)
    have hqueue : ∀ k ∈ cs, b₁.queue k.id = b.queue k.id := fun k hk => by
      simp [b₁,hne k hk]
    have htaken : ∀ k ∈ cs, b₁.taken k.id = b.taken k.id := fun k hk => by
      simp [b₁,hne k hk]
    have hfront : ∀ k ∈ cs, b₁.front k = b.front k := fun k hk => by
      simp [Buffers.front,hqueue k hk]
    obtain ⟨b',hrec,hspec⟩ := ih (args.set c.targetPort (b.front c)) hids.2
      (fun k hk => by rw [hqueue k hk]; exact hfull k (by simp [hk]))
    have hpackets : packets cs b₁ = packets cs b :=
      List.map_congr_left fun k hk => by rw [hfront k hk]
    refine ⟨b',?_,?_,?_,?_⟩
    · rw [hpackets] at hrec
      rw [receiveAll,Buffers.receive_cons hc]
      exact hrec
    · intro k hk
      cases List.mem_cons.mp hk with
      | inl heq =>
        subst heq
        rw [(hspec.frame k.id hids.1).1]
        cases hq : b.queue k.id with
        | nil => exact absurd hq hc
        | cons v rest => simp [b₁,Buffers.front,hq]
      | inr hmem => rw [← hqueue k hmem,hspec.queue k hmem,hfront k hmem]
    · intro k hk
      cases List.mem_cons.mp hk with
      | inl heq =>
        subst heq
        rw [(hspec.frame k.id hids.1).2]
        simp [b₁]
      | inr hmem => rw [← htaken k hmem,hspec.taken k hmem,hfront k hmem]
    · intro i hi
      simp only [List.map_cons,List.mem_cons,not_or] at hi
      rw [(hspec.frame i hi.2).1,(hspec.frame i hi.2).2]
      simp [b₁,hi.1]

theorem Received.history {cs : List Connection} {b b' : Buffers} (h : Received cs b b')
    (w : Connection) (hids : ∀ c ∈ cs, c.id = w.id → c = w) : b'.history w = b.history w := by
  unfold Buffers.history
  by_cases hw : w.id ∈ cs.map (·.id)
  · obtain ⟨c,hc,heq⟩ := List.mem_map.mp hw
    have hcw := hids c hc heq
    subst hcw
    rw [h.taken c hc,h.queue c hc]
    simp
  · rw [(h.frame w.id hw).1,(h.frame w.id hw).2]

variable {p : Plan}

theorem mem_incoming {c : Connection} : c ∈ p.incoming id ↔ c ∈ p.connections ∧ c.target = id := by
  simp [Plan.incoming]

theorem mem_wired {c : Connection} : c ∈ wired p id ↔ c ∈ p.connections ∧ c.target = id := by
  simp [wired,feeding,List.mem_insertionSort]

theorem wired_nil : wired p id = [] ↔ p.incoming id = [] := by
  rw [← List.length_eq_zero_iff,wired,feeding,List.length_insertionSort,List.length_eq_zero_iff,
    Plan.incoming]

theorem Plan.Laid.wired_ids (h : p.Laid) (id : String) : ((wired p id).map (·.id)).Nodup := by
  have hnodup : (wired p id).Nodup :=
    (List.perm_insertionSort _ _).nodup_iff.mpr (h.nodup.filter _)
  exact hnodup.map_on fun a ha b hb heq =>
    h.distinct a (mem_wired.mp ha).1 b (mem_wired.mp hb).1 heq

theorem Plan.Sound.wired_ids (h : p.Sound) (id : String) :
    ((wired p id).map (·.id)).Nodup := h.laid.wired_ids id

structure Ready (p : Plan) (s : State) (c : Component) : Prop where
  idle : s.emitters c.id = none
  unspent : wired p c.id = [] → c.id ∉ s.spentSources
  fed : ∀ k ∈ wired p c.id, s.buffers.queue k.id ≠ []

theorem isReady_iff {s : State} {c : Component} : isReady p s c = true ↔ Ready p s c := by
  have hall : ((p.incoming c.id).all fun k => !s.buffers.isEmpty k) = true ↔
      ∀ k ∈ wired p c.id, s.buffers.queue k.id ≠ [] := by
    simp [mem_wired,mem_incoming,Buffers.isEmpty]
  have hnil : (p.incoming c.id).isEmpty = true ↔ wired p c.id = [] := by
    rw [List.isEmpty_iff,wired_nil]
  constructor
  · intro h
    simp only [isReady,Bool.and_eq_true,Bool.or_eq_true,hall,hnil,Option.isNone_iff_eq_none,
      decide_eq_true_eq] at h
    obtain ⟨hidle,hcase⟩ := h
    cases hcase with
    | inl hsource => exact ⟨hidle,fun _ => hsource.2,fun k hk => by simp [hsource.1] at hk⟩
    | inr hfed =>
      refine ⟨hidle,fun hw => ?_,hfed.2⟩
      rw [← hnil] at hw
      simp [hw] at hfed
  · intro h
    simp only [isReady,Bool.and_eq_true,Bool.or_eq_true,hall,hnil,Option.isNone_iff_eq_none,
      decide_eq_true_eq]
    refine ⟨h.idle,?_⟩
    by_cases hw : wired p c.id = []
    · exact .inl ⟨hw,h.unspent hw⟩
    · refine .inr ⟨?_,h.fed⟩
      rw [Bool.not_eq_true',Bool.eq_false_iff]
      exact fun he => hw (hnil.mp he)

theorem mem_ready {s : State} {c : Component} : c ∈ ready p s ↔ c ∈ p.order ∧ Ready p s c := by
  simp [ready,isReady_iff]

/-- What an activation of `c` asks the driver. -/
def State.requestFor (s : State) (p : Plan) (c : Component) : Request :=
  makeRequest c ((templateArgs p.network c).update (packets (wired p c.id) s.buffers))

inductive Activated (d : Driver) (p : Plan) (s : State) (c : Component) :
    Outcome State Verdict → Prop where
  | overLimit (b : Buffers) : Received (wired p c.id) s.buffers b →
      p.limit < s.activations + 1 →
      Activated d p s c (.halt
        (.failed s!"activation limit {p.limit} exceeded (fail-closed)") (s.fed p c b))
  | raised (b : Buffers) (message : String) : Received (wired p c.id) s.buffers b →
      s.activations + 1 ≤ p.limit → d s.log (s.requestFor p c) = .error message →
      Activated d p s c (.halt
        (.failed s!"component {c.id} ({c.task}) raised: {message}") (s.fed p c b))
  | unverified (b : Buffers) (r : Response) : Received (wired p c.id) s.buffers b →
      s.activations + 1 ≤ p.limit → d s.log (s.requestFor p c) = .ok r → r.verified = false →
      Activated d p s c (.halt .unverified
        ((s.fed p c b).answered ⟨c.id,s.requestFor p c,r⟩))
  | unbuilt (b : Buffers) (r : Response) (message : String) :
      Received (wired p c.id) s.buffers b → s.activations + 1 ≤ p.limit →
      d s.log (s.requestFor p c) = .ok r → r.verified = true →
      buildEmitter p c r.value = .error message →
      Activated d p s c (.halt (.failed message)
        ((s.fed p c b).answered ⟨c.id,s.requestFor p c,r⟩))
  | emits (b : Buffers) (r : Response) (e : Emitter) :
      Received (wired p c.id) s.buffers b → s.activations + 1 ≤ p.limit →
      d s.log (s.requestFor p c) = .ok r → r.verified = true →
      buildEmitter p c r.value = .ok e →
      Activated d p s c (.next
        (((s.fed p c b).answered ⟨c.id,s.requestFor p c,r⟩).emitting c.id e))

theorem activate_spec {s : State} {c : Component} (d : Driver) (hp : p.Sound)
    (hc : Ready p s c) : Activated d p s c (activate d p s c) := by
  obtain ⟨b,hrec,hspec⟩ := receiveAll_spec (templateArgs p.network c) (hp.wired_ids c.id) hc.fed
  unfold activate
  rw [hrec]
  by_cases hlimit : p.limit < s.activations + 1
  · have hover : p.limit < ((s.fed p c b).activations : Int) := hlimit
    simp only [hover,if_true]
    exact .overLimit b hspec hlimit
  · have hover : ¬ p.limit < ((s.fed p c b).activations : Int) := hlimit
    simp only [hover,if_false]
    have hle : (s.activations : Int) + 1 ≤ p.limit := by omega
    cases hd : d s.log (s.requestFor p c) with
    | error message =>
      simp only [State.requestFor] at hd
      simp only [hd]
      exact .raised b message hspec hle hd
    | ok r =>
      have hd' := hd
      simp only [State.requestFor] at hd'
      simp only [hd']
      cases hv : r.verified with
      | false =>
        simp only [if_true]
        exact .unverified b r hspec hle hd hv
      | true =>
        simp only [Bool.true_eq_false,if_false]
        cases he : buildEmitter p c r.value with
        | error message => exact .unbuilt b r message hspec hle hd hv he
        | ok e => exact .emits b r e hspec hle hd hv he

/-- The three kinds of turn. -/
inductive Turn (d : Driver) (p : Plan) (s : State) : Outcome State Verdict → Prop where
  | activation (c : Component) (o : Outcome State Verdict) :
      c ∈ p.order → Ready p s c → Activated d p s c o → Turn d p s o
  | emission : ready p s = [] → producers p s ≠ [] → Turn d p s (emit p s)
  | settled : ready p s = [] → producers p s = [] → Turn d p s (settle p s)

variable {d : Driver}

theorem schedulerStep_turn (hp : p.Sound) (s : State) : Turn d p s (schedulerStep d p s) := by
  unfold schedulerStep
  cases hready : ready p s with
  | nil =>
    by_cases hprod : producers p s = []
    · simp only [hprod,if_true]
      exact .settled hready hprod
    · simp only [hprod,if_false]
      exact .emission hready hprod
  | cons c rest =>
    have hc := mem_ready.mp (hready ▸ List.mem_cons_self : c ∈ ready p s)
    exact .activation c _ hc.1 hc.2 (activate_spec d hp hc.2)

/-- The pass over the emitters in state `s`. -/
def State.pass (s : State) (p : Plan) : Round := round (producers p s) s.emitters s.buffers

/-- The two ways a run goes on. -/
inductive Advance (d : Driver) (p : Plan) (s : State) : State → Prop where
  | activated (c : Component) (b : Buffers) (r : Response) (e : Emitter) :
      c ∈ p.order → Ready p s c → Received (wired p c.id) s.buffers b →
      s.activations + 1 ≤ p.limit → d s.log (s.requestFor p c) = .ok r → r.verified = true →
      buildEmitter p c r.value = .ok e →
      Advance d p s (((s.fed p c b).answered ⟨c.id,s.requestFor p c,r⟩).emitting c.id e)
  | passed : ready p s = [] → producers p s ≠ [] →
      (s.pass p).status = .done ∨
        ((s.pass p).status = .progress ∧ (s.passed (s.pass p)).sends ≤ p.sendLimit) →
      Advance d p s (s.passed (s.pass p))

theorem step_advance {s s' : State} (hp : p.Sound)
    (h : schedulerStep d p s = .next s') : Advance d p s s' := by
  have hturn := schedulerStep_turn (d := d) hp s
  rw [h] at hturn
  generalize ho : Outcome.next s' = o at hturn
  cases hturn with
  | activation c _ hc hready hact =>
    cases hact with
    | emits b r e hrec hlimit hanswer hverified hbuild =>
      cases ho
      exact .activated c b r e hc hready hrec hlimit hanswer hverified hbuild
    | _ => cases ho
  | emission hready hprod =>
    unfold emit at ho
    simp only at ho
    split at ho
    · cases ho
    · rename_i hstatus
      cases ho
      exact .passed hready hprod (.inl hstatus)
    · cases ho
    · rename_i hstatus
      split at ho
      · cases ho
      · rename_i hlimit
        cases ho
        exact .passed hready hprod (.inr ⟨hstatus,Int.not_lt.mp hlimit⟩)
  | settled _ _ =>
    unfold settle at ho
    split at ho <;> cases ho

variable {emitters : String → Option Emitter}

theorem round_cons_none {rest : List String} (b : Buffers) (h : emitters id = none) :
    round (id :: rest) emitters b = round rest emitters b := by
  simp [round,h]

theorem round_cons_some {rest : List String}
    {e : Emitter} (b : Buffers) (h : emitters id = some e) : round (id :: rest) emitters b =
      if (e.step b).status = .blocked then
        round rest (Function.update emitters id (some (e.step b).emitter)) (e.step b).buffers
      else ⟨(e.step b).status, Function.update emitters id
          (if (e.step b).status = .done then none else some (e.step b).emitter),
        (e.step b).buffers⟩ := by
  cases hst : e.step b with
  | mk status e' b' => cases status <;> simp [round,h,hst]

theorem forall_update_some {P : String → Emitter → Prop}
    {e : Emitter} (hold : ∀ id e, emitters id = some e → P id e) (hnew : P id e) :
    ∀ id' e', Function.update emitters id (some e) id' = some e' → P id' e' := by
  intro id' e' h
  by_cases hid : id' = id
  · subst hid
    simp only [Function.update_self,Option.some.injEq] at h
    exact h ▸ hnew
  · rw [Function.update_of_ne hid] at h
    exact hold id' e' h

theorem forall_update_none {P : String → Emitter → Prop}
    (id : String) (hold : ∀ id e, emitters id = some e → P id e) :
    ∀ id' e', Function.update emitters id none id' = some e' → P id' e' := by
  intro id' e' h
  by_cases hid : id' = id
  · simp [hid] at h
  · rw [Function.update_of_ne hid] at h
    exact hold id' e' h

/-- What every step of an emitter keeps holds after the pass. -/
theorem round_invariant {P : (String → Option Emitter) → Buffers → Prop} {ids : List String}
    (hinit : P emitters b) (hstep : ∀ em b id e, em id = some e → P em b →
      P (Function.update em id (some (e.step b).emitter)) (e.step b).buffers)
    (hdone : ∀ em b id e, em id = some e → (e.step b).status = .done → P em b →
      P (Function.update em id none) (e.step b).buffers) :
    P (round ids emitters b).emitters (round ids emitters b).buffers := by
  induction ids generalizing emitters b with
  | nil => exact hinit
  | cons id rest ih =>
    cases he : emitters id with
    | none =>
      rw [round_cons_none b he]
      exact ih hinit
    | some e =>
      rw [round_cons_some b he]
      by_cases hblocked : (e.step b).status = .blocked
      · rw [if_pos hblocked]
        exact ih (hstep _ _ _ _ he hinit)
      · rw [if_neg hblocked]
        by_cases hfinished : (e.step b).status = .done
        · simpa only [hfinished,if_true] using hdone _ _ _ _ he hfinished hinit
        · simpa only [hfinished,if_false] using hstep _ _ _ _ he hinit

theorem round_domain {ids : List String}
    (h : ((round ids emitters b).emitters id).isSome) : (emitters id).isSome := by
  have hkeep : ∀ id, ((round ids emitters b).emitters id).isSome → (emitters id).isSome := by
    refine round_invariant (P := fun em _ => ∀ id, (em id).isSome → (emitters id).isSome)
      (fun _ h => h) ?_ ?_
    · intro em b id e he hP id' h'
      by_cases hid : id' = id
      · subst hid
        exact hP id' (by simp [he])
      · rw [Function.update_of_ne hid] at h'
        exact hP id' h'
    · intro em b id e _ _ hP id' h'
      by_cases hid : id' = id
      · simp [hid] at h'
      · rw [Function.update_of_ne hid] at h'
        exact hP id' h'
  exact hkeep id h

theorem round_done {ids : List String} (h : (round ids emitters b).status = .done) :
    ∃ id ∈ ids, (emitters id).isSome ∧ (round ids emitters b).emitters id = none := by
  induction ids generalizing emitters b with
  | nil => cases h
  | cons id rest ih =>
    cases he : emitters id with
    | none =>
      rw [round_cons_none b he] at h ⊢
      obtain ⟨id',hmem,hspec⟩ := ih h
      exact ⟨id',by simp [hmem],hspec⟩
    | some e =>
      rw [round_cons_some b he] at h ⊢
      by_cases hblocked : (e.step b).status = .blocked
      · rw [if_pos hblocked] at h ⊢
        obtain ⟨id',hmem,hsome,hnone⟩ := ih h
        refine ⟨id',by simp [hmem],?_,hnone⟩
        by_cases hid : id' = id
        · simp [hid,he]
        · rwa [Function.update_of_ne hid] at hsome
      · rw [if_neg hblocked] at h ⊢
        simp only at h
        exact ⟨id,by simp,by simp [he],by simp [h]⟩

theorem mem_producers {s : State} :
    id ∈ producers p s ↔ id ∈ p.order.map (·.id) ∧ (s.emitters id).isSome := by
  rw [producers,List.mem_filter]

theorem Plan.Sound.producers_nodup (h : p.Sound) (s : State) :
    (producers p s).Nodup := h.orderNodup.filter _

def budget (p : Plan) (s : State) : Nat :=
  2 * (p.limit - s.activations).toNat + (p.sendLimit - s.sends).toNat + (producers p s).length

structure WithinLimits (p : Plan) (s : State) : Prop where
  activations : s.activations ≤ p.limit
  sends : s.sends ≤ p.sendLimit

theorem producers_emitting (s : State) (id : String) (e : Emitter) (hp : p.Sound) :
    (producers p (s.emitting id e)).length ≤ (producers p s).length + 1 := by
  have hsub : producers p (s.emitting id e) ⊆ id :: producers p s := by
    intro id' h'
    obtain ⟨horder,hsome⟩ := mem_producers.mp h'
    by_cases hid : id' = id
    · simp [hid]
    · rw [State.emitting_ne e hid] at hsome
      exact List.mem_cons_of_mem _ (mem_producers.mpr ⟨horder,hsome⟩)
  exact (List.subperm_of_subset (hp.producers_nodup _) hsub).length_le

theorem producers_passed {s : State} (hp : p.Sound) (ids : List String) :
    (producers p (s.passed (round ids s.emitters s.buffers))).length ≤ (producers p s).length := by
  have hsub : producers p (s.passed (round ids s.emitters s.buffers)) ⊆ producers p s := by
    intro id h
    obtain ⟨horder,hsome⟩ := mem_producers.mp h
    exact mem_producers.mpr ⟨horder,round_domain hsome⟩
  exact (List.subperm_of_subset (hp.producers_nodup _) hsub).length_le

theorem producers_done {s : State} (hp : p.Sound)
    (h : (round (producers p s) s.emitters s.buffers).status = .done) :
    (producers p (s.passed (round (producers p s) s.emitters s.buffers))).length <
      (producers p s).length := by
  obtain ⟨id,hmem,_,hnone⟩ := round_done h
  have hout : id ∉ producers p (s.passed (round (producers p s) s.emitters s.buffers)) := by
    intro hin
    have hsome := (mem_producers.mp hin).2
    simp [State.passed,hnone] at hsome
  have hsub : id :: producers p (s.passed (round (producers p s) s.emitters s.buffers)) ⊆
      producers p s := by
    intro id' h'
    cases List.mem_cons.mp h' with
    | inl heq => exact heq ▸ hmem
    | inr hin =>
      obtain ⟨horder,hsome⟩ := mem_producers.mp hin
      exact mem_producers.mpr ⟨horder,round_domain hsome⟩
  have hnodup := List.nodup_cons.mpr ⟨hout,hp.producers_nodup _⟩
  exact (List.subperm_of_subset hnodup hsub).length_le

theorem step_budget {s s' : State} (hp : p.Sound)
    (hs : WithinLimits p s) (h : schedulerStep d p s = .next s') :
    WithinLimits p s' ∧ budget p s' < budget p s := by
  have hact := hs.activations
  have hsend := hs.sends
  cases step_advance hp h with
  | activated c b r e _ _ _ hlimit _ _ _ =>
    have hlen := producers_emitting ((s.fed p c b).answered ⟨c.id,s.requestFor p c,r⟩) c.id e hp
    have hsame : (producers p ((s.fed p c b).answered ⟨c.id,s.requestFor p c,r⟩)).length =
        (producers p s).length := rfl
    have hact' : ((((s.fed p c b).answered ⟨c.id,s.requestFor p c,r⟩).emitting c.id
        e).activations : Int) = s.activations + 1 := rfl
    have hsend' : (((s.fed p c b).answered ⟨c.id,s.requestFor p c,r⟩).emitting c.id
        e).sends = s.sends := rfl
    refine ⟨⟨by omega,by omega⟩,?_⟩
    unfold budget
    omega
  | passed _ _ hstatus =>
    have hact' : (s.passed (s.pass p)).activations = s.activations := rfl
    have hlen := producers_passed (s := s) hp (producers p s)
    cases hstatus with
    | inl hdone =>
      have hlt := producers_done hp hdone
      have hsend' : (s.passed (s.pass p)).sends = s.sends := by simp [State.passed,hdone]
      refine ⟨⟨by omega,by omega⟩,?_⟩
      unfold budget State.pass at *
      omega
    | inr hprogress =>
      have hsend' : (s.passed (s.pass p)).sends = s.sends + 1 := by
        simp [State.passed,hprogress.1]
      have hlimit := hprogress.2
      refine ⟨⟨by omega,by omega⟩,?_⟩
      unfold budget State.pass at *
      omega

theorem runLoop_total (hp : p.Sound) : ∃ e, runLoop d p = some e := by
  have hlimit := hp.limitPos
  have hnone : producers p .initial = [] := by
    simp [producers,State.initial]
  refine run_total (budget p) (fun a b ha hab => step_budget hp ha hab)
    ⟨by simp [State.initial]; omega,by simp [State.initial,Plan.sendLimit,maxConnectionCapacity]; omega⟩ ?_
  simp only [budget,hnone,Plan.fuel]
  simp [State.initial]

/-- `run_stream` returns `ok=True` exactly when its loop ends in success. -/
theorem runStream_ok_iff {net : ComponentNetwork} {stepLimit : Option Int} :
    (runStream d net stepLimit).ok = true ↔ ∃ p s s', prepare net stepLimit = .ok p ∧
        Halts (schedulerStep d p) .initial s .success s' ∧
        runStream d net stepLimit = report ⟨s,.success,s'⟩ := by
  cases hprep : prepare net stepLimit with
  | error message => simp [runStream,hprep,refused]
  | ok p =>
    obtain ⟨e,he⟩ := runLoop_total (d := d) (prepare_sound hprep)
    have hrun : runStream d net stepLimit = report e := by simp [runStream,hprep,he]
    have hhalts := run_halts he
    constructor
    · intro h
      have hverdict : e.verdict = .success := by simpa [hrun,report] using h
      obtain ⟨s,v,s'⟩ := e
      simp only at hverdict hhalts
      subst hverdict
      exact ⟨p,s,s',rfl,hhalts,hrun⟩
    · intro h
      obtain ⟨_,s,s',_,_,heq⟩ := h
      rw [heq]
      simp [report]

end AgentCentric.Flow

namespace AgentCentric.Flow
open Network Machine

def asked (p : Plan) (s : State) : Option Request :=
  match ready p s with
  | [] => none
  | c :: _ =>
    match receiveAll (wired p c.id) s.buffers (templateArgs p.network c) with
    | .error _ => none
    | .ok (args,b) =>
      if p.limit < (s.fed p c b).activations then none else some (makeRequest c args)

def allowance (p : Plan) (s : State) : Nat := (p.limit - s.activations).toNat

theorem asked_allowance {p : Plan} {s : State} (h : (asked p s).isSome) : 0 < allowance p s := by
  rw [asked] at h
  split at h
  · cases h
  · split at h
    · cases h
    · rename_i c _ _ _ args b _
      split at h
      · cases h
      · rename_i hlimit
        have hfed : (s.fed p c b).activations = s.activations + 1 := rfl
        rw [hfed] at hlimit
        rw [allowance]
        omega

theorem step_allowance {d : Driver} {p : Plan} {s s' : State} (hp : p.Sound)
    (h : schedulerStep d p s = .next s') :
    allowance p s' + (if (asked p s).isSome then 1 else 0) ≤ allowance p s := by
  cases step_advance hp h with
  | activated c b r e _ _ _ hlimit _ _ _ =>
    have hact : ((((s.fed p c b).answered ⟨c.id,s.requestFor p c,r⟩).emitting c.id
        e).activations : Int) = s.activations + 1 := rfl
    rw [allowance,allowance]
    split <;> omega
  | passed hready _ _ =>
    have hnone : asked p s = none := by rw [asked,hready]
    have hact : (s.passed (s.pass p)).activations = s.activations := rfl
    rw [hnone,allowance,allowance,hact]
    simp

theorem prepare_limit {net : ComponentNetwork} {stepLimit : Option Int} {p : Plan}
    (h : prepare net stepLimit = .ok p) : p.limit = stepLimit.getD defaultStepLimit := by
  obtain ⟨limit,hlimit,h⟩ := bind_ok.mp h
  obtain ⟨_,-,h⟩ := bind_ok.mp h
  obtain ⟨_,-,h⟩ := bind_ok.mp h
  obtain rfl := Except.ok.inj h
  obtain ⟨_,-,hlimit⟩ := bind_ok.mp hlimit
  obtain ⟨_,-,hlimit⟩ := bind_ok.mp hlimit
  obtain ⟨_,-,hlimit⟩ := bind_ok.mp hlimit
  exact (Except.ok.inj hlimit).symm

/-- A run is refused before its loop, or the loop ends: after no more turns than the limits allow,
and with no more requests to the driver than the step limit. -/
theorem runStream_ends (d : Driver) (net : ComponentNetwork) (stepLimit : Option Int) :
    (∃ message, prepare net stepLimit = .error message ∧
      runStream d net stepLimit = refused message) ∨
    ∃ p e, prepare net stepLimit = .ok p ∧ p.limit = stepLimit.getD defaultStepLimit ∧
      Halts (schedulerStep d p) .initial e.last e.verdict e.final ∧
      runStream d net stepLimit = report e ∧
      ((turns (schedulerStep d p) p.fuel .initial).length : Int) ≤ 2 * p.limit + p.sendLimit + 4 ∧
      (((turns (schedulerStep d p) p.fuel .initial).filterMap (asked p)).length : Int) ≤
        p.limit := by
  cases hprep : prepare net stepLimit with
  | error message => exact .inl ⟨message,rfl,by simp [runStream,hprep]⟩
  | ok p =>
    have hp := prepare_sound hprep
    have hpos := hp.limitPos
    obtain ⟨e,he⟩ := runLoop_total (d := d) hp
    have hlength := length_turns (schedulerStep d p) p.fuel .initial
    have hcount : (turns (schedulerStep d p) p.fuel .initial).countP
        (fun s => (asked p s).isSome) ≤ allowance p .initial :=
      countP_turns (P := fun _ => True) (allowance p)
        (fun _ _ _ h => ⟨trivial,step_allowance hp h⟩) (fun _ _ h => asked_allowance h) p.fuel
        trivial
    refine .inr ⟨p,e,rfl,prepare_limit hprep,run_halts he,by simp [runStream,hprep,he],?_,?_⟩
    · have hfuel : p.fuel = 2 * p.limit.toNat + p.sendLimit.toNat + 4 := rfl
      have hsend : p.sendLimit = p.limit * maxConnectionCapacity := rfl
      have hsendPos : 0 ≤ p.sendLimit := by
        rw [hsend,maxConnectionCapacity]
        omega
      omega
    · rw [List.length_filterMap_eq_countP]
      have hinit : allowance p .initial = p.limit.toNat := by
        rw [allowance]
        exact congrArg Int.toNat (sub_zero p.limit)
      omega

end AgentCentric.Flow

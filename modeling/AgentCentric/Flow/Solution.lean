import AgentCentric.Flow.Delivery

namespace AgentCentric.Flow
open Network

/-! The one-packet meaning of a network: one answer for each component, one packet for
each connection -/

/-- The request of a component when connection `k` carries `packet k`. -/
def requestOf (p : Plan) (packet : Nat → Value) (c : Component) : Request :=
  makeRequest c ((templateArgs p.network c).update
    ((wired p c.id).map fun k => (k.targetPort,packet k.id)))

def activationOf (p : Plan) (answer : String → Response) (packet : Nat → Value) (c : Component) :
    Activation :=
  ⟨c.id,requestOf p packet c,answer c.id⟩

/-- The components `done` answer the requests that the packets make, and their outputs
are the packets. -/
structure SolvesOn (f : Request → Except String Response) (p : Plan) (done : List Component)
    (answer : String → Response) (packet : Nat → Value) : Prop where
  asked : ∀ c ∈ done, f (requestOf p packet c) = .ok (answer c.id)
  verified : ∀ c ∈ done, (answer c.id).verified = true
  sent : ∀ c ∈ done, ∀ w ∈ p.connections, w.source = c.id →
    extractOutput (answer c.id).value w.sourcePort (c.portNames .output) c.id =
      .ok (packet w.id)
  typed : ∀ c ∈ done, ∀ w ∈ p.connections, w.source = c.id →
    valueMatchesType (packet w.id) (requiredType p.network w) = true

theorem byTargetPort_iff {a b : Connection} :
    byTargetPort a b = true ↔ a.targetPort ≤ b.targetPort := by
  simp [byTargetPort]

theorem feeding_sorted (wires : List Connection) (id : String) :
    (feeding wires id).Pairwise fun a b => a.targetPort ≤ b.targetPort := by
  have htotal : Std.Total (fun a b : Connection => byTargetPort a b = true) :=
    ⟨fun a b => by simpa only [byTargetPort_iff] using le_total a.targetPort b.targetPort⟩
  have htrans : IsTrans Connection (fun a b : Connection => byTargetPort a b = true) :=
    ⟨fun a b c hab hbc => by
      rw [byTargetPort_iff] at *
      exact le_trans hab hbc⟩
  exact (List.pairwise_insertionSort (fun a b : Connection => byTargetPort a b = true) _).imp
    fun h => byTargetPort_iff.mp h

/-- With one wire for each in-port, the order of the connections does not matter. -/
theorem feeding_congr {wires wires' : List Connection} (hperm : wires.Perm wires')
    (hsingle : (wires.map Connection.inPort).Nodup) (id : String) :
    feeding wires id = feeding wires' id := by
  have hmem : ∀ {w}, w ∈ feeding wires id → w ∈ wires ∧ w.target = id := by
    intro w hw
    simpa [feeding,List.mem_insertionSort] using hw
  have hp : (feeding wires id).Perm (feeding wires' id) :=
    ((List.perm_insertionSort _ _).trans (hperm.filter _)).trans
      (List.perm_insertionSort _ _).symm
  refine hp.eq_of_pairwise (fun a b ha hb hab hba => ?_) (feeding_sorted wires id)
    (feeding_sorted wires' id)
  obtain ⟨ha,hta⟩ := hmem ha
  obtain ⟨hb,htb⟩ := hmem (hp.mem_iff.mpr hb)
  refine List.inj_on_of_nodup_map hsingle ha hb ?_
  rw [Connection.inPort,Connection.inPort,hta,htb,le_antisymm hab hba]

variable {b : Buffers}

theorem fill_of_receiveAll {id : String} {cs : List Connection}
    {args : Dict String Value} {r : Dict String Value × Buffers}
    (h : receiveAll cs b args = .ok r) : fill id cs b args = .ok r := by
  induction cs generalizing b args with
  | nil => exact h
  | cons k cs ih =>
    simp only [receiveAll,bind_ok] at h
    obtain ⟨⟨v,b'⟩,hreceive,hrest⟩ := h
    have hempty : b.isEmpty k = false := by
      unfold Buffers.receive at hreceive
      unfold Buffers.isEmpty
      cases hqueue : b.queue k.id with
      | nil => simp [hqueue] at hreceive
      | cons x rest => rfl
    simp only [fill,bind_ok,require_ok]
    exact ⟨(),by simp [hempty],(v,b'),hreceive,ih hrest⟩

/-- Each connection of `ks` has got one more packet. -/
structure Sent (ks : List Connection) (b b' : Buffers) (value : Connection → Value) : Prop where
  queue : ∀ k ∈ ks, b'.queue k.id = b.queue k.id ++ [value k]
  frame : ∀ i, i ∉ ks.map (·.id) → b'.queue i = b.queue i

def Fits (net : ComponentNetwork) (c : Component) (output : Value) (k : Connection)
    (v : Value) : Prop :=
  extractOutput output k.sourcePort (c.portNames .output) c.id = .ok v ∧
    valueMatchesType v (requiredType net k) = true

variable {c : Component} {net : ComponentNetwork}

theorem requiredType_eq {k : Connection}
    (hc : net.component? c.id = some c) (hk : k.source = c.id) :
    requiredType net k = effectivePortType (c.portType .output k.sourcePort)
      (((net.component? k.target).map (·.portType .input k.targetPort)).getD .any) := by
  simp [requiredType,hk,hc]

theorem deliver_ok {output : Value}
    {ks : List Connection} {b b' : Buffers} (hc : net.component? c.id = some c)
    (hks : ∀ k ∈ ks, k.source = c.id) (hids : (ks.map (·.id)).Nodup)
    (h : deliver net c output ks b = .ok b') :
    ∃ value, (∀ k ∈ ks, Fits net c output k (value k)) ∧ Sent ks b b' value := by
  induction ks generalizing b with
  | nil =>
    cases h
    exact ⟨fun _ => .null,by simp,by simp,by simp⟩
  | cons k ks ih =>
    simp only [List.map_cons,List.nodup_cons] at hids
    simp only [deliver,bind_ok,checkIP,require_ok] at h
    obtain ⟨v,hv,_,htype,b₁,hsend,hrest⟩ := h
    obtain ⟨value,hfits,hsent⟩ := ih (fun k' hk' => hks k' (by simp [hk'])) hids.2 hrest
    have hput : b₁ = b.put k v := by
      unfold Buffers.send at hsend
      split at hsend
      · cases hsend
      · cases hsend
        rfl
    subst hput
    have hne : ∀ k' ∈ ks, k'.id ≠ k.id := fun k' hk' heq =>
      hids.1 (heq ▸ List.mem_map_of_mem hk')
    refine ⟨fun k' => if k'.id = k.id then v else value k',fun k' hk' => ?_,fun k' hk' => ?_,
      fun i hi => ?_⟩
    · cases List.mem_cons.mp hk' with
      | inl heq =>
        subst heq
        simp only [if_true]
        exact ⟨hv,by rw [requiredType_eq hc (hks k' (by simp))]; exact htype⟩
      | inr hmem =>
        simp only [hne k' hmem,if_false]
        exact hfits k' hmem
    · cases List.mem_cons.mp hk' with
      | inl heq =>
        subst heq
        rw [hsent.frame k'.id hids.1]
        simp [Buffers.queue_put]
      | inr hmem => simp [hsent.queue k' hmem,Buffers.queue_put,hne k' hmem]
    · simp only [List.map_cons,List.mem_cons,not_or] at hi
      rw [hsent.frame i hi.2]
      simp [Buffers.put,hi.1]

theorem deliver_total {output : Value} {ks : List Connection} (hc : net.component? c.id = some c)
    (hks : ∀ k ∈ ks, k.source = c.id) (hids : (ks.map (·.id)).Nodup)
    (hfits : ∀ k ∈ ks, ∃ v, Fits net c output k v) (hroom : ∀ k ∈ ks, b.isFull k = false) :
    ∃ b', deliver net c output ks b = .ok b' := by
  induction ks generalizing b with
  | nil => exact ⟨b,rfl⟩
  | cons k ks ih =>
    simp only [List.map_cons,List.nodup_cons] at hids
    obtain ⟨v,hv,htype⟩ := hfits k (by simp)
    rw [requiredType_eq hc (hks k (by simp))] at htype
    have hne : ∀ k' ∈ ks, k'.id ≠ k.id := fun k' hk' heq =>
      hids.1 (heq ▸ List.mem_map_of_mem hk')
    have hroom' : ∀ k' ∈ ks, (b.put k v).isFull k' = false := by
      intro k' hk'
      rw [Buffers.isFull_put_ne v (hne k' hk')]
      exact hroom k' (by simp [hk'])
    obtain ⟨b',hb'⟩ := ih (fun k' hk' => hks k' (by simp [hk'])) hids.2
      (fun k' hk' => hfits k' (by simp [hk'])) hroom'
    refine ⟨b',?_⟩
    simp only [deliver,bind_ok,checkIP,require_ok]
    exact ⟨v,hv,(),htype,b.put k v,by simp [Buffers.send,hroom k (by simp)],hb'⟩

/-- The buffers after the components `done`: every connection out of them holds its packet
until its target has run. -/
def FlowAt (p : Plan) (done : List Component) (packet : Nat → Value) (b : Buffers) : Prop :=
  ∀ w ∈ p.connections, b.queue w.id =
    if w.source ∈ done.map (·.id) ∧ w.target ∉ done.map (·.id) then [packet w.id] else []

variable {done rest : List Component} {p : Plan} {w : Connection}

theorem source_done (hp : p.Laid) (horder : p.order = done ++ c :: rest) (hw : w ∈ p.connections)
    (htarget : w.target = c.id) : w.source ∈ done.map (·.id) := by
  have hrank : (p.order.map (·.id)).idxOf w.source < (p.order.map (·.id)).idxOf w.target :=
    hp.ranked w.source w.target (List.mem_map.mpr ⟨w,hw,rfl⟩)
  have hnodup := hp.orderNodup
  rw [horder,List.map_append,List.map_cons] at hnodup hrank
  have hc : c.id ∉ done.map (·.id) := fun hin =>
    (List.nodup_append.mp hnodup).2.2 c.id hin c.id (by simp) rfl
  by_contra hsource
  rw [htarget,List.idxOf_append_of_notMem hc,List.idxOf_append_of_notMem hsource] at hrank
  simp at hrank

theorem not_done (hp : p.Laid) (horder : p.order = done ++ c :: rest) : c.id ∉ done.map (·.id) := by
  have hnodup := hp.orderNodup
  rw [horder,List.map_append,List.map_cons] at hnodup
  exact fun hin => (List.nodup_append.mp hnodup).2.2 c.id hin c.id (by simp) rfl

variable {packet : Nat → Value}

theorem flow_fill (hp : p.Laid) (horder : p.order = done ++ c :: rest)
    (h : FlowAt p done packet b) :
    ∃ args b', fill c.id (feeding p.connections c.id) b (templateArgs p.network c) = .ok (args,b') ∧
      makeRequest c args = requestOf p packet c ∧ Received (wired p c.id) b b' := by
  have hqueue : ∀ w ∈ wired p c.id, b.queue w.id = [packet w.id] := by
    intro w hw
    obtain ⟨hmem,htarget⟩ := mem_wired.mp hw
    rw [h w hmem,if_pos ⟨source_done hp horder hmem htarget,htarget ▸ not_done hp horder⟩]
  have hfull : ∀ w ∈ wired p c.id, b.queue w.id ≠ [] := fun w hw => by simp [hqueue w hw]
  obtain ⟨b',hrec,hspec⟩ := receiveAll_spec (templateArgs p.network c) (hp.wired_ids c.id) hfull
  refine ⟨_,b',fill_of_receiveAll hrec,?_,hspec⟩
  have hpackets : packets (wired p c.id) b =
      (wired p c.id).map fun k => (k.targetPort,packet k.id) :=
    List.map_congr_left fun w hw => by simp [Buffers.front,hqueue w hw]
  rw [requestOf,hpackets]

theorem FlowAt.leaving_empty {b b' : Buffers} (h : FlowAt p done packet b)
    (hp : p.Laid) (horder : p.order = done ++ c :: rest) (hrec : Received (wired p c.id) b b')
    (hw : w ∈ p.connections) (hsource : w.source = c.id) : b'.queue w.id = [] := by
  have hqueue := h w hw
  rw [if_neg fun hin => not_done hp horder (hsource ▸ hin.1)] at hqueue
  have hframe : w.id ∉ (wired p c.id).map (·.id) := by
    intro hin
    obtain ⟨k,hk,heq⟩ := List.mem_map.mp hin
    obtain ⟨hk,htarget⟩ := mem_wired.mp hk
    have hself := hp.distinct k hk w hw heq
    subst hself
    exact not_done hp horder (hsource ▸ source_done hp horder hk htarget)
  rw [(hrec.frame w.id hframe).1,hqueue]

theorem mem_leaving {id : String} :
    w ∈ leaving p.connections id ↔ w ∈ p.connections ∧ w.source = id := by
  simp [leaving,List.mem_insertionSort]

theorem leaving_ids (hp : p.Laid) (id : String) :
    ((leaving p.connections id).map (·.id)).Nodup := by
  have hnodup : (leaving p.connections id).Nodup :=
    (List.perm_insertionSort _ _).nodup_iff.mpr (hp.nodup.filter _)
  exact hnodup.map_on fun a ha b hb heq =>
    hp.distinct a (mem_leaving.mp ha).1 b (mem_leaving.mp hb).1 heq

theorem mem_leaving_ids {id : String} (hp : p.Laid) (hw : w ∈ p.connections) :
    w.id ∈ (leaving p.connections id).map (·.id) ↔ w.source = id := by
  constructor
  · intro h
    obtain ⟨k,hk,heq⟩ := List.mem_map.mp h
    obtain ⟨hk,hsource⟩ := mem_leaving.mp hk
    exact hp.distinct k hk w hw heq ▸ hsource
  · exact fun h => List.mem_map_of_mem (mem_leaving.mpr ⟨hw,h⟩)

theorem FlowAt.turn {packet packet' : Nat → Value} {value : Connection → Value} {b b₁ b₂ : Buffers}
    (hp : p.Laid) (horder : p.order = done ++ c :: rest) (h : FlowAt p done packet b)
    (hrec : Received (wired p c.id) b b₁) (hsent : Sent (leaving p.connections c.id) b₁ b₂ value)
    (hnew : ∀ w ∈ p.connections, w.source = c.id → packet' w.id = value w)
    (hold : ∀ w ∈ p.connections, w.source ≠ c.id → packet' w.id = packet w.id) :
    FlowAt p (done ++ [c]) packet' b₂ := by
  intro w hw
  have hc := not_done hp horder
  have hqueue := h w hw
  simp only [List.map_append,List.map_singleton,List.mem_append,List.mem_singleton]
  by_cases hsource : w.source = c.id
  · have htarget : w.target ≠ c.id := fun heq =>
      hc (hsource ▸ source_done hp horder hw heq)
    have htarget' : w.target ∉ done.map (·.id) := by
      intro hin
      obtain ⟨c',hc',heq⟩ := List.mem_map.mp hin
      obtain ⟨l,r,hsplit⟩ := List.append_of_mem hc'
      have horder' : p.order = l ++ c' :: (r ++ c :: rest) := by rw [horder,hsplit]; simp
      have hbefore := source_done hp horder' hw heq.symm
      rw [hsource] at hbefore
      exact hc (by rw [hsplit,List.map_append]; exact List.mem_append_left _ hbefore)
    have hframe : w.id ∉ (wired p c.id).map (·.id) := by
      intro hin
      obtain ⟨k,hk,heq⟩ := List.mem_map.mp hin
      obtain ⟨hk,hkt⟩ := mem_wired.mp hk
      exact htarget (hp.distinct k hk w hw heq ▸ hkt)
    rw [hsent.queue w (mem_leaving.mpr ⟨hw,hsource⟩),(hrec.frame w.id hframe).1,hqueue,
      hnew w hw hsource]
    simp [hsource,hc,htarget,htarget']
  · rw [hsent.frame w.id (fun hin => hsource ((mem_leaving_ids hp hw).mp hin)),hold w hw hsource]
    by_cases htarget : w.target = c.id
    · have hin : w ∈ wired p c.id := mem_wired.mpr ⟨hw,htarget⟩
      have htaken := hrec.queue w hin
      have hdone := source_done hp horder hw htarget
      rw [if_pos ⟨hdone,htarget ▸ hc⟩] at hqueue
      rw [hqueue,List.cons.injEq] at htaken
      simp [htarget,← htaken.2]
    · have hframe : w.id ∉ (wired p c.id).map (·.id) := by
        intro hin
        obtain ⟨k,hk,heq⟩ := List.mem_map.mp hin
        obtain ⟨hk,hkt⟩ := mem_wired.mp hk
        exact htarget (hp.distinct k hk w hw heq ▸ hkt)
      rw [(hrec.frame w.id hframe).1,hqueue]
      simp [hsource,htarget]

theorem requestOf_congr {packet packet' : Nat → Value}
    (h : ∀ w ∈ wired p c.id, packet' w.id = packet w.id) :
    requestOf p packet' c = requestOf p packet c := by
  unfold requestOf
  rw [List.map_congr_left fun w hw => by rw [h w hw]]

/-- The components `done` have run with these answers, under a driver that may look at the calls
before. -/
structure RunsOn (d : Driver) (p : Plan) (done : List Component) (answer : String → Response)
    (packet : Nat → Value) : Prop where
  asked : ∀ before c after, done = before ++ c :: after →
    d (before.map (activationOf p answer packet)) (requestOf p packet c) = .ok (answer c.id)
  verified : ∀ c ∈ done, (answer c.id).verified = true
  fits : ∀ c ∈ done, ∀ w ∈ p.connections, w.source = c.id →
    Fits p.network c (answer c.id).value w (packet w.id)

variable {answer : String → Response}

theorem runsOn_function {f : Request → Except String Response} {done : List Component} :
    RunsOn (.ofFunction f) p done answer packet ↔ SolvesOn f p done answer packet := by
  constructor
  · intro h
    refine ⟨fun c hc => ?_,h.verified,fun c hc w hw hsource => (h.fits c hc w hw hsource).1,
      fun c hc w hw hsource => (h.fits c hc w hw hsource).2⟩
    obtain ⟨before,after,hsplit⟩ := List.append_of_mem hc
    exact h.asked before c after hsplit
  · intro h
    refine ⟨fun before c after hsplit => h.asked c (by rw [hsplit]; simp),h.verified,
      fun c hc w hw hsource => ⟨h.sent c hc w hw hsource,h.typed c hc w hw hsource⟩⟩

variable {d : Driver}

theorem RunsOn.extend {packet packet' : Nat → Value} {r : Response} (hp : p.Laid)
    (horder : p.order = done ++ c :: rest) (h : RunsOn d p done answer packet)
    (hasked : d (done.map (activationOf p answer packet)) (requestOf p packet c) = .ok r)
    (hverified : r.verified = true)
    (hfits : ∀ w ∈ p.connections, w.source = c.id → Fits p.network c r.value w (packet' w.id))
    (hold : ∀ w ∈ p.connections, w.source ≠ c.id → packet' w.id = packet w.id) :
    RunsOn d p (done ++ [c]) (Function.update answer c.id r) packet' ∧
      (done ++ [c]).map (activationOf p (Function.update answer c.id r) packet') =
        done.map (activationOf p answer packet) ++ [⟨c.id,requestOf p packet c,r⟩] := by
  have hc := not_done hp horder
  have hne : ∀ c' ∈ done, c'.id ≠ c.id := fun c' hc' heq => hc (heq ▸ List.mem_map_of_mem hc')
  -- the wires into an earlier component, and into `c`, come from components before `c`
  have hearlier : ∀ c' ∈ done ++ [c], requestOf p packet' c' = requestOf p packet c' := by
    intro c' hc'
    refine requestOf_congr fun w hw => ?_
    obtain ⟨hmem,htarget⟩ := mem_wired.mp hw
    refine hold w hmem fun hsource => hc ?_
    cases List.mem_append.mp hc' with
    | inl hin =>
      obtain ⟨l,r',hsplit⟩ := List.append_of_mem hin
      have horder' : p.order = l ++ c' :: (r' ++ c :: rest) := by rw [horder,hsplit]; simp
      have hbefore := source_done hp horder' hmem htarget
      rw [hsource] at hbefore
      rw [hsplit,List.map_append]
      exact List.mem_append_left _ hbefore
    | inr hin =>
      rw [List.mem_singleton.mp hin] at htarget
      exact hsource ▸ source_done hp horder hmem htarget
  have hanswer : ∀ c' ∈ done, Function.update answer c.id r c'.id = answer c'.id :=
    fun c' hc' => Function.update_of_ne (hne c' hc') _ _
  have hsame : ∀ before : List Component, (∀ c' ∈ before, c' ∈ done) →
      before.map (activationOf p (Function.update answer c.id r) packet') =
        before.map (activationOf p answer packet) := by
    intro before hbefore
    refine List.map_congr_left fun c' hc' => ?_
    have hin := hbefore c' hc'
    rw [activationOf,activationOf,hearlier c' (by simp [hin]),hanswer c' hin]
  refine ⟨⟨fun before c' after hsplit => ?_,fun c' hc' => ?_,fun c' hc' w hw hsource => ?_⟩,?_⟩
  · rcases List.eq_nil_or_concat after with rfl | ⟨after,x,rfl⟩
    · obtain ⟨rfl,hlast⟩ := List.append_inj' hsplit rfl
      cases hlast
      rw [hsame done fun _ h => h,hearlier c (by simp),Function.update_self,hasked]
    · have hsplit' : done ++ [c] = (before ++ c' :: after) ++ [x] := by simp [hsplit]
      obtain ⟨hdone,_⟩ := List.append_inj' hsplit' rfl
      have hin : c' ∈ done := by rw [hdone]; simp
      rw [hsame before fun b hb => by rw [hdone]; simp [hb],hearlier c' (by simp [hin]),
        hanswer c' hin]
      exact h.asked before c' after hdone
  · cases List.mem_append.mp hc' with
    | inl hin => rw [hanswer c' hin,h.verified c' hin]
    | inr hin => rw [List.mem_singleton.mp hin,Function.update_self,hverified]
  · cases List.mem_append.mp hc' with
    | inl hin =>
      rw [hanswer c' hin,hold w hw (hsource ▸ hne c' hin)]
      exact h.fits c' hin w hw hsource
    | inr hin =>
      rw [List.mem_singleton.mp hin] at hsource ⊢
      rw [Function.update_self]
      exact hfits w hw hsource
  · rw [List.map_append,hsame done fun _ h => h]
    simp [activationOf,hearlier c (by simp)]

theorem flowLoop_runs (hp : p.Laid)
   
    (horder : p.order = done ++ rest) (hruns : RunsOn d p done answer packet)
    (hb : FlowAt p done packet b)
    (h : (flowLoop d p rest b (done.map (activationOf p answer packet))).verdict = .success) :
    ∃ answer' packet', RunsOn d p p.order answer' packet' ∧
      (flowLoop d p rest b (done.map (activationOf p answer packet))).log =
        p.order.map (activationOf p answer' packet') := by
  induction rest generalizing done answer packet b with
  | nil =>
    rw [List.append_nil] at horder
    rw [horder]
    exact ⟨answer,packet,hruns,rfl⟩
  | cons c rest ih =>
    obtain ⟨args,b₁,hfill,hrequest,hrec⟩ := flow_fill hp horder hb
    have hcomponent := hp.component c (by rw [horder]; simp)
    simp only [flowLoop,hfill,hrequest] at h ⊢
    cases hasked : d (done.map (activationOf p answer packet)) (requestOf p packet c) with
    | error message => simp [hasked] at h
    | ok r =>
      simp only [hasked] at h ⊢
      cases hverified : r.verified with
      | false => simp [hverified] at h
      | true =>
        simp only [hverified,Bool.true_eq_false,if_false] at h ⊢
        cases hdeliver : deliver p.network c r.value (leaving p.connections c.id) b₁ with
        | error message => simp [hdeliver] at h
        | ok b₂ =>
          simp only [hdeliver] at h ⊢
          obtain ⟨value,hfits,hsent⟩ := deliver_ok hcomponent
            (fun k hk => (mem_leaving.mp hk).2) (leaving_ids hp c.id) hdeliver
          let packet' : Nat → Value := fun i =>
            if i ∈ (leaving p.connections c.id).map (·.id) then (b₂.queue i).headD .null
            else packet i
          have hold : ∀ w ∈ p.connections, w.source ≠ c.id → packet' w.id = packet w.id :=
            fun w hw hsource => if_neg fun hin => hsource ((mem_leaving_ids hp hw).mp hin)
          have hnew : ∀ w ∈ p.connections, w.source = c.id → packet' w.id = value w := by
            intro w hw hsource
            have hempty := hb.leaving_empty hp horder hrec hw hsource
            have hqueue := hsent.queue w (mem_leaving.mpr ⟨hw,hsource⟩)
            rw [hempty,List.nil_append] at hqueue
            simp only [packet',(mem_leaving_ids hp hw).mpr hsource,if_true,hqueue]
            rfl
          obtain ⟨hruns',hlog⟩ := hruns.extend hp horder hasked hverified
            (fun w hw hsource => by
              rw [hnew w hw hsource]
              exact hfits w (mem_leaving.mpr ⟨hw,hsource⟩)) hold
          rw [← hlog] at h ⊢
          exact ih (by rw [horder]; simp) hruns'
            (hb.turn hp horder hrec hsent hnew hold) h

theorem flowLoop_of_runs (hp : p.Laid) (hruns : RunsOn d p p.order answer packet)
    (horder : p.order = done ++ rest) (hb : FlowAt p done packet b) :
    flowLoop d p rest b (done.map (activationOf p answer packet)) =
      ⟨.success,p.order.map (activationOf p answer packet),p.order.length⟩ := by
  induction rest generalizing done b with
  | nil =>
    rw [List.append_nil] at horder
    rw [horder]
    simp [flowLoop]
  | cons c rest ih =>
    have hc : c ∈ p.order := by rw [horder]; simp
    obtain ⟨args,b₁,hfill,hrequest,hrec⟩ := flow_fill hp horder hb
    have hcomponent := hp.component c hc
    have hfits : ∀ k ∈ leaving p.connections c.id,
        Fits p.network c (answer c.id).value k (packet k.id) := by
      intro k hk
      obtain ⟨hk,hsource⟩ := mem_leaving.mp hk
      exact hruns.fits c hc k hk hsource
    have hempty : ∀ k ∈ leaving p.connections c.id, b₁.queue k.id = [] := by
      intro w hw
      obtain ⟨hw,hsource⟩ := mem_leaving.mp hw
      exact hb.leaving_empty hp horder hrec hw hsource
    have hroom : ∀ k ∈ leaving p.connections c.id, b₁.isFull k = false := by
      intro k hk
      have hcap := hp.capacity k (mem_leaving.mp hk).1
      simp [Buffers.isFull,hempty k hk]
      omega
    obtain ⟨b₂,hdeliver⟩ := deliver_total hcomponent (fun k hk => (mem_leaving.mp hk).2)
      (leaving_ids hp c.id) (fun k hk => ⟨_,hfits k hk⟩) hroom
    obtain ⟨value,hvalue,hsent⟩ := deliver_ok hcomponent
      (fun k hk => (mem_leaving.mp hk).2) (leaving_ids hp c.id) hdeliver
    have hnew : ∀ w ∈ p.connections, w.source = c.id → packet w.id = value w := by
      intro w hw hsource
      have hin := mem_leaving.mpr ⟨hw,hsource⟩
      have hsame := (hvalue w hin).1
      rw [(hfits w hin).1] at hsame
      exact Except.ok.inj hsame
    have hnext := ih (by rw [horder]; simp)
      (hb.turn hp horder hrec hsent hnew fun _ _ _ => rfl)
    simp only [flowLoop,hfill,hrequest,hruns.asked done c rest horder,
      hruns.verified c hc,Bool.true_eq_false,if_false,hdeliver]
    simpa [activationOf] using hnext

theorem RunsOn.none (d : Driver) (p : Plan) :
    RunsOn d p [] (fun _ => ⟨true,.null,none⟩) fun _ => .null :=
  ⟨fun before c after h => by simp at h,by simp,by simp⟩

/-- The run of the whole order succeeds exactly when every call and every packet fits. -/
theorem flow_runs (hp : p.Laid) (h : (flowLoop d p p.order .empty []).verdict = .success) :
    ∃ answer packet, RunsOn d p p.order answer packet ∧
      (flowLoop d p p.order .empty []).log = p.order.map (activationOf p answer packet) :=
  flowLoop_runs (b := .empty) hp (List.nil_append p.order).symm (RunsOn.none d p)
    (fun _ _ => by simp [Buffers.empty]) h

theorem runs_flow (hp : p.Laid) (hruns : RunsOn d p p.order answer packet) :
    flowLoop d p p.order .empty [] =
      ⟨.success,p.order.map (activationOf p answer packet),p.order.length⟩ :=
  flowLoop_of_runs (b := .empty) hp hruns (List.nil_append p.order).symm
    fun _ _ => by simp [Buffers.empty]

theorem flow_solution {f : Request → Except String Response} (hp : p.Laid)
    (h : (flowLoop (.ofFunction f) p p.order .empty []).verdict = .success) :
    ∃ answer packet, SolvesOn f p p.order answer packet := by
  obtain ⟨answer,packet,hruns,_⟩ := flow_runs hp h
  exact ⟨answer,packet,runsOn_function.mp hruns⟩

theorem solution_flow {f : Request → Except String Response} (hp : p.Laid)
   
    (hsolves : SolvesOn f p p.order answer packet) :
    flowLoop (.ofFunction f) p p.order .empty [] =
      ⟨.success,p.order.map (activationOf p answer packet),p.order.length⟩ :=
  runs_flow hp (runsOn_function.mpr hsolves)

theorem runFlow_ok_iff {stepLimit : Option Int} : (runFlow d net stepLimit).ok = true ↔
      ∃ q, prepareFlow net stepLimit = .ok q ∧
        (flowLoop d q q.order .empty []).verdict = .success := by
  cases hprep : prepareFlow net stepLimit with
  | error message => simp [runFlow,hprep,refused]
  | ok q => simp [runFlow,hprep,flowReport]

theorem activationsOf_order (hp : p.Laid) (hc : c ∈ p.order) :
    activationsOf c.id (p.order.map (activationOf p answer packet)) =
      [activationOf p answer packet c] := by
  have hnodup := hp.orderNodup
  obtain ⟨l,r,hsplit⟩ := List.append_of_mem hc
  rw [hsplit,List.map_append,List.map_cons] at hnodup
  have hl : ∀ c' ∈ l, c'.id ≠ c.id := fun c' hc' heq =>
    (List.nodup_append.mp hnodup).2.2 c'.id (List.mem_map_of_mem hc') c.id (by simp) heq
  have hr : ∀ c' ∈ r, c'.id ≠ c.id := fun c' hc' heq =>
    (List.nodup_cons.mp (List.nodup_append.mp hnodup).2.1).1 (heq ▸ List.mem_map_of_mem hc')
  have hnone : ∀ cs : List Component, (∀ c' ∈ cs, c'.id ≠ c.id) →
      activationsOf c.id (cs.map (activationOf p answer packet)) = [] := by
    intro cs hcs
    refine List.filter_eq_nil_iff.mpr fun a ha heq => ?_
    obtain ⟨c',hc',rfl⟩ := List.mem_map.mp ha
    exact hcs c' hc' (of_decide_eq_true heq)
  have hleft := hnone l hl
  have hright := hnone r hr
  unfold activationsOf at hleft hright ⊢
  rw [hsplit,List.map_append,List.map_cons,List.filter_append,hleft,List.filter_cons,hright]
  simp [activationOf]

end AgentCentric.Flow

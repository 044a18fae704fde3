import AgentCentric.Flow.FanIn
import AgentCentric.Flow.Typing
import AgentCentric.Network.Built

namespace AgentCentric.Flow
open Network Machine

inductive Event where
  | call (c : Component) (r : Request)
  | send (k : Connection) (v : Value)

/-- The packets that `deliver` sends, also when it fails after some of them. -/
def sends (net : ComponentNetwork) (c : Component) (output : Value) :
    List Connection → Buffers → List Event
  | [], _ => []
  | k :: rest, b =>
    let targetType := ((net.component? k.target).map (·.portType .input k.targetPort)).getD .any
    match extractOutput output k.sourcePort (c.portNames .output) c.id with
    | .error _ => []
    | .ok value =>
      match checkIP value (c.portType .output k.sourcePort) targetType k.text with
      | .error _ => []
      | .ok _ =>
        match b.send k value with
        | .error _ => []
        | .ok b' => .send k value :: sends net c output rest b'

/-- What `flowLoop` does on its way: the calls, answered or not, and the packets sent. -/
def flowTrace (d : Driver) (p : Plan) : List Component → Buffers → List Activation → List Event
  | [], _, _ => []
  | c :: rest, b, log =>
    match fill c.id (feeding p.connections c.id) b (templateArgs p.network c) with
    | .error _ => []
    | .ok (args,b₁) =>
      .call c (makeRequest c args) ::
        match d log (makeRequest c args) with
        | .error _ => []
        | .ok response =>
          if response.verified = false then []
          else
            sends p.network c response.value (leaving p.connections c.id) b₁ ++
              match deliver p.network c response.value (leaving p.connections c.id) b₁ with
              | .error _ => []
              | .ok b₂ => flowTrace d p rest b₂ (log ++ [⟨c.id,makeRequest c args,response⟩])

/-- The call that the scheduler makes in state `s`. -/
def asks (p : Plan) (s : State) : Option (Component × Request) :=
  match ready p s with
  | [] => none
  | c :: _ =>
    match receiveAll (wired p c.id) s.buffers (templateArgs p.network c) with
    | .error _ => none
    | .ok (args,b) =>
      if p.limit < (s.fed p c b).activations then none else some (c,makeRequest c args)

/-- What happens in a run of `run_flow`. -/
def FlowDoes (d : Driver) (net : ComponentNetwork) (stepLimit : Option Int) (ev : Event) : Prop :=
  ∃ p, prepareFlow net stepLimit = .ok p ∧ ev ∈ flowTrace d p p.order .empty []

/-- What happens in a run of `run_stream`. -/
inductive StreamDoes (d : Driver) (net : ComponentNetwork) (stepLimit : Option Int) :
    Event → Prop where
  | call {p : Plan} {s : State} {c : Component} {r : Request} (hp : prepare net stepLimit = .ok p)
      (hs : Reaches (schedulerStep d p) .initial s) (h : asks p s = some (c,r)) :
      StreamDoes d net stepLimit (.call c r)
  | send {p : Plan} {s : State} {k : Connection} {v : Value} (hp : prepare net stepLimit = .ok p)
      (hs : Visits (schedulerStep d p) .initial s) (hk : k ∈ p.connections)
      (h : v ∈ s.buffers.history k) : StreamDoes d net stepLimit (.send k v)

/-- The declared types hold: of the in-ports for the arguments of a call, of both ends for a
packet. -/
def Event.Typed (net : ComponentNetwork) : Event → Prop
  | .call c r => ∀ port ∈ c.portNames .input, ∀ v, r.args.get port = some v →
      valueMatchesType v (c.portType .input port) = true
  | .send k v => ∀ s t, net.component? k.source = some s → net.component? k.target = some t →
      valueMatchesType v (s.portType .output k.sourcePort) = true ∧
        valueMatchesType v (t.portType .input k.targetPort) = true

def TemplateTyped (net : ComponentNetwork) (c : Component) : Prop :=
  ∀ port ∈ c.portNames .input, (∀ e ∈ net.edges, inport e ≠ (c.id,port)) →
    (∀ i ∈ net.iips, i.inport ≠ (c.id,port)) → ∀ v, c.args.get port = some v →
      valueMatchesType v (c.portType .input port) = true

variable {v : Value}

theorem matches_both {source target : ValueType}
    (hcompatible : typesCompatible source target = true)
    (h : valueMatchesType v (effectivePortType source target) = true) :
    valueMatchesType v source = true ∧ valueMatchesType v target = true := by
  have hany : valueMatchesType v .any = true := by cases v <;> rfl
  unfold effectivePortType at h
  split at h
  · rename_i hsource
    exact ⟨by rw [hsource]; exact hany,h⟩
  · rename_i hsource
    simp only [typesCompatible,Bool.or_eq_true,decide_eq_true_eq] at hcompatible
    rcases hcompatible with (hsame | hsame) | htarget
    · exact ⟨h,hsame ▸ h⟩
    · exact absurd hsame hsource
    · exact ⟨h,by rw [htarget]; exact hany⟩

variable {net : ComponentNetwork} {k : Connection}

theorem send_typed (hvalid : net.validate = .ok ()) (hk : ∃ e ∈ net.edges, k = .ofEdge e k.id)
    (h : valueMatchesType v (requiredType net k) = true) : (Event.send k v).Typed net := by
  intro s t hs ht
  obtain ⟨e,he,hke⟩ := hk
  have hedge := (ComponentNetwork.validate_iff.mp hvalid).edges e he
  unfold ComponentNetwork.validateEdge at hedge
  simp only [bind_ok,expect_ok,require_ok,decide_eq_true_eq] at hedge
  obtain ⟨_,_,s',hs',t',ht',_,_,_,_,_,_,_,_,hcompatible⟩ := hedge
  rw [hke] at hs ht h ⊢
  have hs'' : net.component? e.source = some s := hs
  have ht'' : net.component? e.target = some t := ht
  rw [hs''] at hs'
  rw [ht''] at ht'
  cases hs'
  cases ht'
  refine matches_both hcompatible ?_
  simpa [requiredType,Connection.ofEdge,hs'',ht''] using h

variable {b b' : Buffers}

theorem receive_queue (h : b.receive k = .ok (v,b')) :
    v ∈ b.queue k.id ∧ ∀ i, ∀ x ∈ b'.queue i, x ∈ b.queue i := by
  unfold Buffers.receive at h
  split at h
  · cases h
  · rename_i x rest hqueue
    cases h
    refine ⟨by rw [hqueue]; simp,fun i x hx => ?_⟩
    by_cases hi : i = k.id
    · subst hi
      rw [hqueue]
      simp only [Function.update_self] at hx
      exact List.mem_cons_of_mem _ hx
    · simpa [hi] using hx

theorem fill_get {id : String} {cs : List Connection}
    {args args' : Dict String Value} (h : fill id cs b args = .ok (args',b')) (port : String) :
    ((∀ k ∈ cs, k.targetPort ≠ port) → args'.get port = args.get port) ∧
      (∀ v, args'.get port = some v → (∃ k ∈ cs, k.targetPort = port ∧ v ∈ b.queue k.id) ∨
        (∀ k ∈ cs, k.targetPort ≠ port) ∧ args.get port = some v) ∧
      ∀ i, ∀ x ∈ b'.queue i, x ∈ b.queue i := by
  induction cs generalizing b args with
  | nil =>
    cases h
    exact ⟨fun _ => rfl,fun v hv => .inr ⟨by simp,hv⟩,fun _ _ hx => hx⟩
  | cons k cs ih =>
    simp only [fill,bind_ok,require_ok] at h
    obtain ⟨_,_,⟨x,b₁⟩,hreceive,hrest⟩ := h
    obtain ⟨hx,hqueue⟩ := receive_queue hreceive
    obtain ⟨hkeep,hfrom,hshrink⟩ := ih hrest
    refine ⟨fun hports => ?_,fun v hv => ?_,fun i y hy => hqueue i y (hshrink i y hy)⟩
    · rw [hkeep fun k' hk' => hports k' (by simp [hk']),
        Dict.get_set_ne _ _ (hports k (by simp))]
    · cases hfrom v hv with
      | inl hpacket =>
        obtain ⟨k',hk',hport,hin⟩ := hpacket
        exact .inl ⟨k',by simp [hk'],hport,hqueue _ _ hin⟩
      | inr hold =>
        obtain ⟨hports,hget⟩ := hold
        by_cases hport : k.targetPort = port
        · subst hport
          rw [Dict.get_set_self,Option.some.injEq] at hget
          exact .inl ⟨k,by simp,rfl,hget ▸ hx⟩
        · rw [Dict.get_set_ne _ _ hport] at hget
          refine .inr ⟨fun k' hk' => ?_,hget⟩
          cases List.mem_cons.mp hk' with
          | inl heq => exact heq ▸ hport
          | inr hmem => exact hports k' hmem

theorem templateArgs_get (net : ComponentNetwork) (c : Component) (port : String) :
    ((∀ i ∈ net.iips, i.inport ≠ (c.id,port)) ∧ (templateArgs net c).get port = c.args.get port) ∨
      ∃ i ∈ net.iips, i.inport = (c.id,port) ∧ (templateArgs net c).get port = some i.value := by
  let packets := (net.iips.filter fun i => i.component = c.id).map fun i => (i.port,i.value)
  let bound := (Dict.empty : Dict String Value).update packets
  have hmem : ∀ v, (port,v) ∈ packets ↔ ∃ i ∈ net.iips, i.inport = (c.id,port) ∧ i.value = v := by
    intro v
    simp only [packets,List.mem_map,List.mem_filter,decide_eq_true_eq,Prod.mk.injEq,IIP.inport]
    constructor
    · rintro ⟨i,⟨hi,hc⟩,hport,hv⟩
      exact ⟨i,hi,⟨hc,hport⟩,hv⟩
    · rintro ⟨i,hi,⟨hc,hport⟩,hv⟩
      exact ⟨i,⟨hi,hc⟩,hport,hv⟩
  have hbound := Dict.get_update_cases Dict.empty packets port
  cases Dict.get_update_cases c.args bound.entries port with
  | inl hout =>
    have hnone : bound.get port = none := by
      have hsome := Dict.lookup_isSome bound.entries port
      exact Option.not_isSome_iff_eq_none.mp fun h => hout.1 (hsome.mp h)
    refine .inl ⟨fun i hi hin => ?_,hout.2⟩
    cases hbound with
    | inl hfree => exact hfree.1 (List.mem_map.mpr ⟨_,(hmem i.value).mpr ⟨i,hi,hin,rfl⟩,rfl⟩)
    | inr hheld =>
      obtain ⟨v,_,hget⟩ := hheld
      cases hnone.symm.trans hget
  | inr hin =>
    obtain ⟨v,hv,hget⟩ := hin
    have hentry : bound.get port = some v := (Dict.lookup_eq_some_iff bound.nodup).mpr hv
    cases hbound with
    | inl hfree => cases hfree.2.symm.trans hentry
    | inr hheld =>
      obtain ⟨w,hw,hgetw⟩ := hheld
      cases hgetw.symm.trans hentry
      obtain ⟨i,hi,hinport,hvalue⟩ := (hmem v).mp hw
      exact .inr ⟨i,hi,hinport,hvalue ▸ hget⟩

variable {wires : List Connection}

theorem mem_feeding (hwires : wires.Perm (connect net.edges)) {id : String} :
    k ∈ feeding wires id ↔ k ∈ connect net.edges ∧ k.target = id := by
  simp [feeding,List.mem_insertionSort,hwires.mem_iff]

variable {c : Component}

theorem call_typed_iff (hvalid : net.validate = .ok ()) (hwires : wires.Perm (connect net.edges))
    (hc : net.component? c.id = some c) {args : Dict String Value}
    (hqueue : ∀ k ∈ wires, ∀ v ∈ b.queue k.id, valueMatchesType v (requiredType net k) = true)
    (hfill : fill c.id (feeding wires c.id) b (templateArgs net c) = .ok (args,b')) :
    (Event.call c (makeRequest c args)).Typed net ↔ TemplateTyped net c := by
  have hunwired : ∀ port, (∀ e ∈ net.edges, inport e ≠ (c.id,port)) ↔
      ∀ k ∈ feeding wires c.id, k.targetPort ≠ port := by
    intro port
    constructor
    · intro h k hk hport
      obtain ⟨hk,htarget⟩ := (mem_feeding hwires).mp hk
      obtain ⟨e,he,hke⟩ := connect_mem hk
      rw [hke] at hport htarget
      exact h e he (Prod.ext htarget hport)
    · intro h e he hin
      obtain ⟨k,hk,hke⟩ := exists_connection he
      rw [inport,Prod.mk.injEq] at hin
      have htarget : k.target = c.id := by rw [hke]; exact hin.1
      refine h k ((mem_feeding hwires).mpr ⟨hk,htarget⟩) ?_
      rw [hke]
      exact hin.2
  constructor
  · intro h port hport hedges hiips v hv
    obtain ⟨hkeep,_,_⟩ := fill_get hfill port
    refine h port hport v ?_
    have htemplate : (templateArgs net c).get port = c.args.get port := by
      cases templateArgs_get net c port with
      | inl hown => exact hown.2
      | inr hpacket =>
        obtain ⟨i,hi,hin,_⟩ := hpacket
        exact absurd hin (hiips i hi)
    change args.get port = some v
    rw [hkeep ((hunwired port).mp hedges),htemplate,hv]
  · intro h port hport v hv
    obtain ⟨_,hfrom,_⟩ := fill_get hfill port
    cases hfrom v hv with
    | inl hpacket =>
      obtain ⟨k,hk,hkport,hin⟩ := hpacket
      obtain ⟨hk,htarget⟩ := (mem_feeding hwires).mp hk
      have htyped := hqueue k (hwires.mem_iff.mpr hk) v hin
      obtain ⟨e,he,hke⟩ := connect_mem hk
      have hsource := (ComponentNetwork.validated_of_validate hvalid).edge e he
      obtain ⟨s,hs⟩ := Option.isSome_iff_exists.mp (ComponentNetwork.mem_ids.mp hsource.source)
      have hks : net.component? k.source = some s := by rw [hke]; exact hs
      have hboth := send_typed hvalid ⟨e,he,hke⟩ htyped s c hks (by rw [htarget]; exact hc)
      exact hkport ▸ hboth.2
    | inr hown =>
      obtain ⟨hports,hget⟩ := hown
      cases templateArgs_get net c port with
      | inl htemplate =>
        rw [htemplate.2] at hget
        exact h port hport ((hunwired port).mpr hports) htemplate.1 v hget
      | inr hpacket =>
        obtain ⟨i,hi,hin,hvalue⟩ := hpacket
        rw [hvalue,Option.some.injEq] at hget
        have hiips := (ComponentNetwork.validate_iff.mp hvalid).iips
        obtain ⟨⟨t,ht,_,_,htyped⟩,_⟩ := (ComponentNetwork.validateIIPs_iff.mp hiips).1 i hi
        rw [IIP.inport,Prod.mk.injEq] at hin
        rw [hin.1,hc] at ht
        cases ht
        rw [hin.2,hget] at htyped
        exact htyped

def Event.Enforced (net : ComponentNetwork) : Event → Prop
  | .call c r => (Event.call c r).Typed net ↔ TemplateTyped net c
  | .send k v => (Event.send k v).Typed net

def QueueTyped (net : ComponentNetwork) (wires : List Connection) (b : Buffers) : Prop :=
  ∀ k ∈ wires, ∀ v ∈ b.queue k.id, valueMatchesType v (requiredType net k) = true

theorem QueueTyped.put {b : Buffers}
    (h : QueueTyped net wires b) (hids : DistinctIds wires) (hk : k ∈ wires)
    (hv : valueMatchesType v (requiredType net k) = true) : QueueTyped net wires (b.put k v) := by
  intro w hw x hx
  rw [Buffers.queue_put] at hx
  split at hx
  · rename_i hid
    cases List.mem_append.mp hx with
    | inl hin => exact h w hw x hin
    | inr hin => rw [hids w hw k hk hid,List.mem_singleton.mp hin]; exact hv
  · exact h w hw x hx

theorem sends_enforced (hvalid : net.validate = .ok ())
    (hc : net.component? c.id = some c) {output : Value} {ks : List Connection} {b : Buffers}
    (hks : ∀ k ∈ ks, k ∈ connect net.edges ∧ k.source = c.id) :
    ∀ ev ∈ sends net c output ks b, ev.Enforced net := by
  induction ks generalizing b with
  | nil => simp [sends]
  | cons k ks ih =>
    obtain ⟨hk,hsource⟩ := hks k (by simp)
    cases hvalue : extractOutput output k.sourcePort (c.portNames .output) c.id with
    | error _ => simp [sends,hvalue]
    | ok value =>
      cases hcheck : checkIP value (c.portType .output k.sourcePort)
          (((net.component? k.target).map (·.portType .input k.targetPort)).getD .any) k.text with
      | error _ => simp [sends,hvalue,hcheck]
      | ok _ =>
        cases hsend : b.send k value with
        | error _ => simp [sends,hvalue,hcheck,hsend]
        | ok b' =>
          simp only [sends,hvalue,hcheck,hsend,List.forall_mem_cons]
          simp only [checkIP,require_ok] at hcheck
          rw [← requiredType_eq hc hsource] at hcheck
          exact ⟨send_typed hvalid (connect_mem hk) hcheck,
            ih fun k' hk' => hks k' (by simp [hk'])⟩

theorem deliver_queueTyped (hids : DistinctIds wires) (hc : net.component? c.id = some c)
    {output : Value} {ks : List Connection}
    (hks : ∀ k ∈ ks, k ∈ wires ∧ k.source = c.id) (hb : QueueTyped net wires b)
    (h : deliver net c output ks b = .ok b') : QueueTyped net wires b' := by
  induction ks generalizing b with
  | nil =>
    cases h
    exact hb
  | cons k ks ih =>
    obtain ⟨hk,hsource⟩ := hks k (by simp)
    simp only [deliver,bind_ok,checkIP,require_ok] at h
    obtain ⟨v,_,_,htype,b₁,hsend,hrest⟩ := h
    rw [← requiredType_eq hc hsource] at htype
    have hput : b₁ = b.put k v := by
      unfold Buffers.send at hsend
      split at hsend
      · cases hsend
      · cases hsend
        rfl
    exact ih (fun k' hk' => hks k' (by simp [hk'])) (hput ▸ hb.put hids hk htype) hrest

variable {d : Driver} {p : Plan}

theorem flowTrace_enforced (hp : p.Laid) (hvalid : p.network.validate = .ok ())
    (hwires : p.connections.Perm (connect p.network.edges)) {rest : List Component}
    (hrest : ∀ c ∈ rest, c ∈ p.order) {b : Buffers} {log : List Activation}
    (hb : QueueTyped p.network p.connections b) :
    ∀ ev ∈ flowTrace d p rest b log, ev.Enforced p.network := by
  induction rest generalizing b log with
  | nil => simp [flowTrace]
  | cons c rest ih =>
    have hc := hp.component c (hrest c (by simp))
    unfold flowTrace
    split
    · simp
    · rename_i args b₁ hfill
      have hshrink : QueueTyped p.network p.connections b₁ := fun k hk v hv =>
        hb k hk v ((fill_get hfill "").2.2 k.id v hv)
      have hleaving : ∀ k ∈ leaving p.connections c.id, k ∈ p.connections ∧ k.source = c.id :=
        fun k hk => mem_leaving.mp hk
      intro ev hev
      cases List.mem_cons.mp hev with
      | inl heq =>
        rw [heq]
        exact call_typed_iff hvalid hwires hc hb hfill
      | inr hev =>
        split at hev
        · cases hev
        · split at hev
          · cases hev
          · cases List.mem_append.mp hev with
            | inl hin =>
              exact sends_enforced hvalid hc (fun k hk =>
                ⟨hwires.mem_iff.mp (hleaving k hk).1,(hleaving k hk).2⟩) ev hin
            | inr hin =>
              split at hin
              · cases hin
              · rename_i b₂ hdeliver
                exact ih (fun c' hc' => hrest c' (by simp [hc']))
                  (deliver_queueTyped hp.distinct hc hleaving hshrink hdeliver) ev hin

theorem limits_valid {stepLimit : Option Int} {limit : Int}
    (h : checkLimits net stepLimit = .ok limit) : net.validate = .ok () := by
  simp only [checkLimits,bind_ok] at h
  obtain ⟨_,hvalid,_⟩ := h
  exact hvalid

theorem flow_enforced {stepLimit : Option Int} {ev : Event}
    (h : FlowDoes d net stepLimit ev) : ev.Enforced net := by
  obtain ⟨p,hprep,hev⟩ := h
  obtain ⟨hp,_,rfl,_,hwires⟩ := prepareFlow_laid hprep
  have hvalid : p.network.validate = .ok () := by
    simp only [prepareFlow,bind_ok] at hprep
    obtain ⟨_,hlimit,_⟩ := hprep
    exact limits_valid hlimit
  exact flowTrace_enforced hp hvalid (by rw [hwires]) (fun c hc => hc)
    (fun k _ v hv => by simp [Buffers.empty] at hv) ev hev

theorem asks_fills {s : State} {r : Request} (h : asks p s = some (c,r)) :
    c ∈ p.order ∧ ∃ args b, fill c.id (feeding p.connections c.id) s.buffers
      (templateArgs p.network c) = .ok (args,b) ∧ r = makeRequest c args := by
  unfold asks at h
  split at h
  · cases h
  · rename_i c' rest hready
    split at h
    · cases h
    · rename_i args b hreceive
      split at h
      · cases h
      · cases h
        have hc := mem_ready.mp (hready ▸ List.mem_cons_self : c ∈ ready p s)
        exact ⟨hc.1,args,b,fill_of_receiveAll hreceive,rfl⟩

theorem Typed.halt {s t : State} {v : Verdict} (hp : p.Sound)
    (hc : Conserved p s) (h : Typed p.network p.connections s.emitters s.buffers)
    (hhalt : schedulerStep d p s = .halt v t) : ∀ w ∈ p.connections, ∀ x ∈ t.buffers.history w,
      valueMatchesType x (requiredType p.network w) = true := by
  have hturn := schedulerStep_turn (d := d) hp s
  rw [hhalt] at hturn
  have hreceived : ∀ (c : Component) (b : Buffers), Received (wired p c.id) s.buffers b →
      ∀ w ∈ p.connections, ∀ x ∈ b.history w,
        valueMatchesType x (requiredType p.network w) = true := by
    intro c b hrec w hw
    rw [hrec.history w fun k hk heq => hp.distinct k (mem_wired.mp hk).1 w hw heq]
    exact h.packets w hw
  generalize ho : Outcome.halt v t = o at hturn
  cases hturn with
  | activation c _ _ _ hact =>
    cases hact with
    | overLimit b hrec _ => cases ho; exact hreceived c b hrec
    | raised b _ hrec _ _ => cases ho; exact hreceived c b hrec
    | unverified b _ hrec _ _ _ => cases ho; exact hreceived c b hrec
    | unbuilt b _ _ hrec _ _ _ _ => cases ho; exact hreceived c b hrec
    | emits _ _ _ _ _ _ _ _ => cases ho
  | emission _ _ =>
    have hpass : Typed p.network p.connections (s.pass p).emitters (s.pass p).buffers :=
      h.pass hp.distinct hc.carries.ok
    have hfinal : t.buffers = (s.pass p).buffers := by
      unfold emit at ho
      simp only at ho
      split at ho
      · cases ho; rfl
      · cases ho
      · cases ho; rfl
      · split at ho
        · cases ho; rfl
        · cases ho
    rw [hfinal]
    exact hpass.packets
  | settled _ _ =>
    unfold settle at ho
    split at ho <;> cases ho <;> exact h.packets

theorem Typed.visits {s : State} (hp : p.Sound) (h : Visits (schedulerStep d p) .initial s) :
    ∀ w ∈ p.connections, ∀ x ∈ s.buffers.history w,
      valueMatchesType x (requiredType p.network w) = true := by
  cases h with
  | inl hreach => exact (Typed.reaches hp hreach).packets
  | inr hhalts =>
    obtain ⟨s₀,v,hhalt⟩ := hhalts
    have hconserved : Conserved p s₀ :=
      Reaches.invariant hhalt.reaches (Conserved.initial p hp) fun _ _ ha hab => ha.step hp hab
    exact (Typed.reaches hp hhalt.reaches).halt hp hconserved hhalt.last

theorem stream_enforced {stepLimit : Option Int}
    {ev : Event} (h : StreamDoes d net stepLimit ev) : ev.Enforced net := by
  have hplan : ∀ {p : Plan}, prepare net stepLimit = .ok p → net.validate = .ok () ∧
      p.network = net ∧ p.connections.Perm (connect net.edges) := by
    intro p hprep
    simp only [prepare,bind_ok] at hprep
    obtain ⟨_,hlimit,_,_,_,_,hp⟩ := hprep
    cases hp
    exact ⟨limits_valid hlimit,rfl,connectionsOf_perm net.edges⟩
  cases h with
  | @call p s c r hprep hs hasks =>
    obtain ⟨hvalid,hnet,hwires⟩ := hplan hprep
    have hp := prepare_sound hprep
    obtain ⟨hc,args,b,hfill,hr⟩ := asks_fills hasks
    subst hnet
    rw [hr]
    refine call_typed_iff hvalid hwires (hp.component c hc) (fun k hk v hv => ?_) hfill
    exact (Typed.reaches hp hs).packets k hk v (List.mem_append_right _ hv)
  | @send p s k v hprep hs hk hv =>
    obtain ⟨hvalid,hnet,hwires⟩ := hplan hprep
    subst hnet
    exact send_typed hvalid (connect_mem (hwires.mem_iff.mp hk))
      (Typed.visits (prepare_sound hprep) hs k hk v hv)

/-- Everything in a run of either engine is well typed exactly when the components that are called
have well typed templates. -/
theorem declared_types_iff {d : Driver} {net : ComponentNetwork} {stepLimit : Option Int} :
    (∀ ev, FlowDoes d net stepLimit ev ∨ StreamDoes d net stepLimit ev → ev.Typed net) ↔
      ∀ c r, FlowDoes d net stepLimit (.call c r) ∨ StreamDoes d net stepLimit (.call c r) →
        TemplateTyped net c := by
  have henforced : ∀ ev, FlowDoes d net stepLimit ev ∨ StreamDoes d net stepLimit ev →
      ev.Enforced net := fun ev hev => hev.elim flow_enforced stream_enforced
  constructor
  · intro h c r hcall
    exact (henforced (.call c r) hcall).mp (h _ hcall)
  · intro h ev hev
    have hev' := henforced ev hev
    cases ev with
    | call c r => exact hev'.mpr (h c r hev)
    | send k v => exact hev'

def mistyped : ComponentNetwork :=
  .mk [{ part "c" ["x"] [] [] with
    args := ⟨[("x",.str "one")],by simp⟩
    portTypes := ⟨[(.input,⟨[("x",.int)],by simp⟩)],by simp⟩ }] [] []

/-- The template is never checked. -/
theorem mistyped_called :
    mistyped.validate = .ok () ∧ ∃ d ev, FlowDoes d mistyped none ev ∧ ¬ ev.Typed mistyped := by
  refine ⟨by decide,fun _ _ => .error "",_,⟨_,rfl,List.mem_cons_self⟩,fun h => ?_⟩
  have hx := h "x" (by decide) (.str "one") rfl
  cases hx

end AgentCentric.Flow

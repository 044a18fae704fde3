import AgentCentric.Network.Document

namespace AgentCentric.Network
def IIP.inport (i : IIP) : String × String := (i.component,i.port)

variable {net : ComponentNetwork} {cs : List Component} {c : Component}

namespace ComponentNetwork

structure Accepted (levels : Nat) (net : ComponentNetwork) : Prop where
  edges : ∀ e ∈ net.edges, net.validateEdge e = .ok ()
  iips : net.validateIIPs net.iips [] = .ok ()
  oneSource : ∀ e ∈ net.edges, net.checkBothSources e = .ok ()
  streams : ∀ c ∈ net.components, ∀ port ∈ c.stream, port ∈ c.portNames .output
  plain : ∀ c ∈ net.components, c.subnet = none → c.external.entries = []
  bodies : ∀ c ∈ net.components, ∀ body, c.subnet = some body → ∃ below, levels = below + 1 ∧
    checkExternal c body = .ok () ∧ validateDepth below body = .ok ()
  acyclic : net.checkAcyclic = .ok ()

theorem validateComponent_ok {descend : Component → ComponentNetwork → Except String Unit} :
    validateComponent descend c = .ok () ↔ (∀ port ∈ c.stream, port ∈ c.portNames .output) ∧
      (c.subnet = none → c.external.entries = []) ∧
      ∀ body, c.subnet = some body → descend c body = .ok () := by
  unfold validateComponent
  simp only [bind_ok,forEach_ok,require_ok,decide_eq_true_eq]
  cases hbody : c.subnet <;> simp

theorem validateDepth_iff {levels : Nat} :
    validateDepth levels net = .ok () ↔ Accepted levels net := by
  unfold validateDepth
  simp only [bind_ok,forEach_ok,List.mem_insertionSort,validateComponent_ok]
  constructor
  · rintro ⟨_,hedges,_,hiips,_,hone,_,hcomponents,hacyclic⟩
    refine ⟨hedges,hiips,hone,fun c hc => (hcomponents c hc).1,fun c hc => (hcomponents c hc).2.1,
      fun c hc body hbody => ?_,hacyclic⟩
    have hdescend := (hcomponents c hc).2.2 body hbody
    cases levels with
    | zero => cases hdescend
    | succ below =>
      obtain ⟨_,hexternal,hbelow⟩ := bind_ok.mp hdescend
      exact ⟨below,rfl,hexternal,hbelow⟩
  · intro h
    refine ⟨(),h.edges,(),h.iips,(),h.oneSource,(),fun c hc => ⟨h.streams c hc,h.plain c hc,
      fun body hbody => ?_⟩,h.acyclic⟩
    obtain ⟨below,rfl,hexternal,hbelow⟩ := h.bodies c hc body hbody
    exact bind_ok.mpr ⟨(),hexternal,hbelow⟩

theorem validate_iff : net.validate = .ok () ↔ Accepted maxSubnetDepth net := validateDepth_iff

/-- What `validate` asks of one packet. -/
def IIPOk (net : ComponentNetwork) (i : IIP) : Prop :=
  ∃ target, net.component? i.component = some target ∧ i.port ≠ "" ∧
    i.port ∈ target.portNames .input ∧
    valueMatchesType i.value (target.portType .input i.port) = true

theorem validateIIPs_iff {iips : List IIP} {seen : List (String × String)} :
    net.validateIIPs iips seen = .ok () ↔
      (∀ i ∈ iips, IIPOk net i ∧ i.inport ∉ seen) ∧ (iips.map IIP.inport).Nodup := by
  induction iips generalizing seen with
  | nil => simp [validateIIPs]
  | cons i iips ih =>
    simp only [validateIIPs,bind_ok,expect_ok,require_ok,decide_eq_true_eq,ih,List.mem_cons,
      not_or,forall_eq_or_imp,List.map_cons,List.nodup_cons,exists_const,IIPOk]
    constructor
    · rintro ⟨target,htarget,hport,hseen,hdeclared,htype,hrest,hnodup⟩
      refine ⟨⟨⟨⟨target,htarget,hport,hdeclared,htype⟩,hseen⟩,fun j hj =>
        ⟨(hrest j hj).1,(hrest j hj).2.2⟩⟩,?_,hnodup⟩
      intro hin
      obtain ⟨j,hj,heq⟩ := List.mem_map.mp hin
      exact (hrest j hj).2.1 heq
    · rintro ⟨⟨⟨⟨target,htarget,hport,hdeclared,htype⟩,hseen⟩,hrest⟩,hnew,hnodup⟩
      exact ⟨target,htarget,hport,hseen,hdeclared,htype,fun j hj => ⟨(hrest j hj).1,
        fun heq => hnew (List.mem_map.mpr ⟨j,hj,heq⟩),(hrest j hj).2⟩,hnodup⟩

theorem checkBothSources_ok {e : Edge} :
    net.checkBothSources e = .ok () ↔ (e.target,e.targetArg) ∉ net.iips.map IIP.inport := by
  simp only [checkBothSources,require_ok,decide_eq_true_eq]
  exact Iff.rfl

/-- The acyclicity check accepts the edges that some ranking of the components respects. -/
theorem checkAcyclic_iff (h : ∀ l ∈ net.links, l.1 ∈ net.ids ∧ l.2 ∈ net.ids) :
    net.checkAcyclic = .ok () ↔ ∃ rank, Kahn.Ranked net.links rank := by
  have hsorted := Kahn.sort_sorted stack (fun n => List.Perm.refl (Kahn.successors net.links n))
    (fun l hl => (h l hl).2) net.ids_nodup (List.Perm.refl _)
  simp only [checkAcyclic,require_ok,decide_eq_true_eq]
  constructor
  · intro hlen
    have hperm := (List.subperm_of_subset hsorted.nodup hsorted.mem).perm_of_length_le
      (Nat.le_of_eq hlen.symm)
    exact ⟨_,hsorted.ranked fun l hl => hperm.mem_iff.mpr (h l hl).2⟩
  · rintro ⟨rank,hrank⟩
    exact (hsorted.perm net.ids_nodup (fun l hl => (h l hl).1) hrank).length_eq

/-- What `add_component` lets through. -/
structure Admissible (c : Component) : Prop where
  named : c.id ≠ ""
  undotted : c.id.toList.contains '.' = false
  ports : ∀ entry ∈ c.ports.entries, (∀ name ∈ entry.2, name ≠ "") ∧ entry.2.Nodup
  portTypes : ∀ entry ∈ c.portTypes.entries, ∀ typed ∈ entry.2.entries,
    typed.1 ≠ "" ∧ typed.1 ∈ c.portNames entry.1

instance (c : Component) : Decidable (Admissible c) :=
  decidable_of_iff (c.id ≠ "" ∧ c.id.toList.contains '.' = false ∧
    (∀ entry ∈ c.ports.entries, (∀ name ∈ entry.2, name ≠ "") ∧ entry.2.Nodup) ∧
    ∀ entry ∈ c.portTypes.entries, ∀ typed ∈ entry.2.entries,
      typed.1 ≠ "" ∧ typed.1 ∈ c.portNames entry.1)
    ⟨fun ⟨hnamed,hundotted,hports,htypes⟩ => ⟨hnamed,hundotted,hports,htypes⟩,
      fun ⟨hnamed,hundotted,hports,htypes⟩ => ⟨hnamed,hundotted,hports,htypes⟩⟩

theorem addComponent_ok {net net' : ComponentNetwork} : net.addComponent c = .ok net' ↔
      Admissible c ∧ net' = .mk (place c net.components) net.edges net.iips := by
  unfold addComponent checkPorts checkPortTypes
  simp only [bind_ok,require_ok,forEach_ok,decide_eq_true_eq,Bool.and_eq_true,List.all_eq_true,
    Bool.not_eq_true',exists_const]
  constructor
  · rintro ⟨hnamed,hundotted,hports,htypes,hnet⟩
    cases hnet
    exact ⟨⟨hnamed,hundotted,hports,fun entry hentry typed htyped =>
      htypes entry hentry typed htyped⟩,rfl⟩
  · rintro ⟨h,rfl⟩
    exact ⟨h.named,h.undotted,h.ports,h.portTypes,rfl⟩

inductive Built : ComponentNetwork → Prop where
  | empty : Built .empty
  | component {net net' : ComponentNetwork} {c : Component} (hnet : Built net)
      (hbody : ∀ body, c.subnet = some body → Built body) (h : net.addComponent c = .ok net') :
      Built net'
  | edge {net : ComponentNetwork} (e : Edge) (hnet : Built net) : Built (net.addEdge e)
  | iip {net : ComponentNetwork} (i : IIP) (hnet : Built net) : Built (net.addIIP i)

inductive WellFormed : ComponentNetwork → Prop where
  | mk {net : ComponentNetwork} (ids : (net.components.map (·.id)).Nodup)
      (admissible : ∀ c ∈ net.components, Admissible c)
      (bodies : ∀ c ∈ net.components, ∀ body, c.subnet = some body → WellFormed body) :
      WellFormed net

theorem WellFormed.ids (h : WellFormed net) : (net.components.map (·.id)).Nodup := by
  cases h with | mk hids _ _ => exact hids

theorem WellFormed.admissible (h : WellFormed net) : ∀ c ∈ net.components, Admissible c := by
  cases h with | mk _ hadmissible _ => exact hadmissible

theorem WellFormed.bodies (h : WellFormed net) :
    ∀ c ∈ net.components, ∀ body, c.subnet = some body → WellFormed body := by
  cases h with | mk _ _ hbodies => exact hbodies

theorem mem_place {c d : Component} (h : d ∈ place c cs) : d = c ∨ d ∈ cs := by
  induction cs with
  | nil => simpa [place] using h
  | cons x xs ih =>
    unfold place at h
    split at h
    · simp only [List.mem_cons] at h ⊢
      tauto
    · simp only [List.mem_cons] at h ⊢
      have hrest := fun hd => ih hd
      tauto

theorem ids_place (c : Component) (cs : List Component) : (place c cs).map (·.id) =
      if c.id ∈ cs.map (·.id) then cs.map (·.id) else cs.map (·.id) ++ [c.id] := by
  induction cs with
  | nil => simp [place]
  | cons x xs ih =>
    by_cases hx : x.id = c.id
    · simp [place,hx]
    · have hne : ¬ c.id = x.id := fun heq => hx heq.symm
      simp only [place,hx,if_false,List.map_cons,ih,List.mem_cons,hne,false_or]
      split <;> simp

theorem ids_place_nodup (h : (cs.map (·.id)).Nodup) : ((place c cs).map (·.id)).Nodup := by
  rw [ids_place]
  split
  · exact h
  · rename_i hnew
    exact List.nodup_append.mpr ⟨h,by simp,fun a ha b hb heq => by
      rw [List.mem_singleton.mp hb] at heq
      exact hnew (heq ▸ ha)⟩

theorem Built.wellFormed (h : Built net) : WellFormed net := by
  induction h with
  | empty => exact ⟨List.nodup_nil,fun _ hc => (by cases hc),fun _ hc => (by cases hc)⟩
  | component _ _ hadd ihnet ihbody =>
    obtain ⟨hadmissible,rfl⟩ := addComponent_ok.mp hadd
    refine ⟨ids_place_nodup ihnet.ids,fun d hd => ?_,fun d hd body hbody => ?_⟩
    · cases mem_place hd with
      | inl heq => exact heq ▸ hadmissible
      | inr hold => exact ihnet.admissible d hold
    · cases mem_place hd with
      | inl heq => exact ihbody body (heq ▸ hbody)
      | inr hold => exact ihnet.bodies d hold body hbody
  | edge _ _ ih => exact ⟨ih.ids,ih.admissible,ih.bodies⟩
  | iip _ _ ih => exact ⟨ih.ids,ih.admissible,ih.bodies⟩

theorem place_new (h : c.id ∉ cs.map (·.id)) : place c cs = cs ++ [c] := by
  induction cs with
  | nil => rfl
  | cons x xs ih =>
    simp only [List.map_cons,List.mem_cons,not_or] at h
    have hne : ¬ x.id = c.id := fun heq => h.1 heq.symm
    simp only [place,hne,if_false,ih h.2,List.cons_append]

theorem built_of_components (hids : (cs.map (·.id)).Nodup) (hadmissible : ∀ c ∈ cs, Admissible c)
    (hbodies : ∀ c ∈ cs, ∀ body, c.subnet = some body → Built body) : Built (.mk cs [] []) := by
  induction cs using List.reverseRec with
  | nil => exact .empty
  | append_singleton cs c ih =>
    rw [List.map_append,List.nodup_append] at hids
    have hbefore := ih hids.1 (fun d hd => hadmissible d (by simp [hd]))
      (fun d hd => hbodies d (by simp [hd]))
    refine .component hbefore (hbodies c (by simp)) (addComponent_ok.mpr
      ⟨hadmissible c (by simp),?_⟩)
    have hnew : c.id ∉ cs.map (·.id) := fun hin => hids.2.2 _ hin _ (by simp) rfl
    exact congrArg (fun cs => mk cs [] []) (place_new hnew).symm

theorem Built.addEdges (h : Built net) (es : List Edge) :
    Built (.mk net.components (net.edges ++ es) net.iips) := by
  induction es using List.reverseRec with
  | nil =>
    rw [List.append_nil]
    cases net
    exact h
  | append_singleton es e ih =>
    rw [← List.append_assoc]
    exact .edge e ih

theorem Built.addIIPs (h : Built net) (is : List IIP) :
    Built (.mk net.components net.edges (net.iips ++ is)) := by
  induction is using List.reverseRec with
  | nil =>
    rw [List.append_nil]
    cases net
    exact h
  | append_singleton is i ih =>
    rw [← List.append_assoc]
    exact .iip i ih

theorem built_iff : Built net ↔ WellFormed net := by
  refine ⟨Built.wellFormed,fun h => ?_⟩
  induction h with
  | @mk net ids admissible _ ih =>
    have hedges := (built_of_components ids admissible ih).addEdges net.edges
    have hiips := hedges.addIIPs net.iips
    cases net
    exact hiips

theorem component?_iff (h : (net.components.map (·.id)).Nodup) {id : String} :
    net.component? id = some c ↔ c ∈ net.components ∧ c.id = id := by
  constructor
  · intro hc
    exact ⟨List.mem_of_find?_eq_some hc,component?_id hc⟩
  · rintro ⟨hc,rfl⟩
    have hsome : (net.component? c.id).isSome := by
      rw [component?,List.find?_isSome]
      exact ⟨c,hc,by simp⟩
    obtain ⟨d,hd⟩ := Option.isSome_iff_exists.mp hsome
    have heq := List.inj_on_of_nodup_map h (List.mem_of_find?_eq_some hd) hc (component?_id hd)
    rw [hd,heq]

end ComponentNetwork
end AgentCentric.Network

namespace AgentCentric.Network
namespace ComponentNetwork

/-- `c` is a component of the network or of a body in it, at any depth. -/
inductive Inside : ComponentNetwork → Component → Prop where
  | here {net : ComponentNetwork} {c : Component} (hc : c ∈ net.components) : Inside net c
  | deeper {net body : ComponentNetwork} {c inner : Component} (hc : c ∈ net.components)
      (hbody : c.subnet = some body) (hinner : Inside body inner) : Inside net inner

/-- The reference `component.port` leads to a declared port of that direction. -/
def LeadsTo (body : ComponentNetwork) (ref : String) (side : Direction) : Prop :=
  ∃ inner id port, splitReference ref = some (id,port) ∧ body.component? id = some inner ∧
    port ∈ inner.portNames side

/-- External port `name` is backed from inside in the direction `side`. -/
def Backed (c : Component) (body : ComponentNetwork) (side : Direction) (name : String) : Prop :=
  ∃ ref, c.external.get name = some ref ∧ LeadsTo body ref side

/-- The boundary law of one composite. -/
def Faithful (c : Component) (body : ComponentNetwork) : Prop :=
  ∀ side, ∀ name ∈ c.portNames side, Backed c body side name

/-- The interior ports of the names that are declared in both directions are out-ports as well. -/
def TwoWayBacked (c : Component) (body : ComponentNetwork) : Prop :=
  ∀ name ∈ c.portNames .input, name ∈ c.portNames .output →
    ∀ ref, c.external.get name = some ref → LeadsTo body ref .output

theorem checkExternalPort_ok {c : Component} {body : ComponentNetwork} {entry : String × String}
    (h : checkExternalPort c body entry = .ok ()) :
    LeadsTo body entry.2 (if entry.1 ∈ c.portNames .input then .input else .output) := by
  unfold checkExternalPort at h
  simp only [bind_ok,expect_ok,require_ok,decide_eq_true_eq] at h
  obtain ⟨⟨id,port⟩,hsplit,inner,hinner,hport⟩ := h
  exact ⟨inner,id,port,hsplit,hinner,hport⟩

theorem checkExternal_ok {c : Component} {body : ComponentNetwork}
    (h : checkExternal c body = .ok ()) {side : Direction} {name : String}
    (hname : name ∈ c.portNames side) : ∃ ref, c.external.get name = some ref ∧
      LeadsTo body ref (if name ∈ c.portNames .input then .input else .output) := by
  unfold checkExternal at h
  simp only [bind_ok,require_ok,Bool.and_eq_true,List.all_eq_true,decide_eq_true_eq,forEach_ok,
    List.mem_insertionSort] at h
  obtain ⟨_,⟨hmapped,_⟩,hrefs⟩ := h
  have hdeclared : name ∈ (c.portNames .input ++ c.portNames .output).dedup := by
    rw [List.mem_dedup,List.mem_append]
    cases side with
    | input => exact .inl hname
    | output => exact .inr hname
  have hkey := hmapped name hdeclared
  obtain ⟨⟨key,ref⟩,hentry,rfl⟩ := List.mem_map.mp hkey
  refine ⟨ref,(Dict.lookup_eq_some_iff c.external.nodup).mpr hentry,?_⟩
  exact checkExternalPort_ok (hrefs (key,ref) hentry)

theorem checkExternal_faithful {c : Component} {body : ComponentNetwork}
    (h : checkExternal c body = .ok ()) : Faithful c body ↔ TwoWayBacked c body := by
  constructor
  · intro hfaithful name hin hout ref href
    obtain ⟨ref',href',hlead⟩ := hfaithful .output name hout
    rw [href] at href'
    cases href'
    exact hlead
  · intro htwo side name hname
    obtain ⟨ref,href,hlead⟩ := checkExternal_ok h hname
    refine ⟨ref,href,?_⟩
    cases side with
    | input => rwa [if_pos hname] at hlead
    | output =>
      by_cases hin : name ∈ c.portNames .input
      · exact htwo name hin hname ref href
      · rwa [if_neg hin] at hlead

theorem checked_inside {levels : Nat} {net : ComponentNetwork} {c : Component}
    {body : ComponentNetwork} (h : Inside net c) (hvalid : validateDepth levels net = .ok ())
    (hbody : c.subnet = some body) : checkExternal c body = .ok () := by
  induction h generalizing levels with
  | here hc =>
    obtain ⟨_,_,hexternal,_⟩ := (validateDepth_iff.mp hvalid).bodies _ hc body hbody
    exact hexternal
  | deeper hc houter _ ih =>
    obtain ⟨_,_,_,hbelow⟩ := (validateDepth_iff.mp hvalid).bodies _ hc _ houter
    exact ih hbelow hbody

def BoundaryLaw (net : ComponentNetwork) : Prop :=
  ∀ c body, Inside net c → c.subnet = some body → Faithful c body

theorem boundary_law_iff {net : ComponentNetwork} (h : net.validate = .ok ()) :
    BoundaryLaw net ↔
      ∀ c body, Inside net c → c.subnet = some body → TwoWayBacked c body := by
  unfold BoundaryLaw
  constructor
  · intro hlaw c body hc hbody
    exact (checkExternal_faithful (checked_inside hc h hbody)).mp (hlaw c body hc hbody)
  · intro htwo c body hc hbody
    exact (checkExternal_faithful (checked_inside hc h hbody)).mpr (htwo c body hc hbody)

/-- A composite that declares `x` in both directions and maps it to port `x` of `a`. -/
def mirror (outs : List String) : ComponentNetwork :=
  .mk [⟨"c","task",.empty,.null,.null,⟨[(.input,["x"]),(.output,["x"])],by simp⟩,.empty,[],
      ⟨[("x","a.x")],by simp⟩,some (.mk [⟨"a","task",.empty,.null,.null,
        ⟨[(.input,["x"]),(.output,outs)],by simp⟩,.empty,[],.empty,none⟩] [] [])⟩] [] []

theorem mirror_built (outs : List String) (h : outs = [] ∨ outs = ["x"]) : Built (mirror outs) := by
  apply built_of_components
  · simp
  · rintro c hc
    rw [List.mem_singleton.mp hc]
    cases h with
    | inl h => subst h; decide
    | inr h => subst h; decide
  · rintro c hc body hbody
    rw [List.mem_singleton.mp hc] at hbody
    cases hbody
    apply built_of_components
    · simp
    · rintro a ha
      rw [List.mem_singleton.mp ha]
      cases h with
      | inl h => subst h; decide
      | inr h => subst h; decide
    · rintro a ha body hbody
      rw [List.mem_singleton.mp ha] at hbody
      cases hbody

/-- The interior component need not have the out-port. -/
theorem mirror_not_backed :
    ∃ net, Built net ∧ net.validate = .ok () ∧ ¬ BoundaryLaw net := by
  refine ⟨mirror [],mirror_built [] (.inl rfl),by decide,fun hlaw => ?_⟩
  obtain ⟨ref,href,inner,id,port,hsplit,hinner,hport⟩ :=
    hlaw _ _ (.here (List.mem_singleton.mpr rfl)) rfl .output "x" (by decide)
  have hx : ref = "a.x" := by
    cases href
    rfl
  subst hx
  have hparts : splitReference "a.x" = some ("a","x") := by decide
  rw [hparts] at hsplit
  cases hsplit
  cases hinner
  cases hport

theorem boundary_law_iff_mirror :
    BoundaryLaw (mirror ["x"]) ↔
      ∀ c body, Inside (mirror ["x"]) c → c.subnet = some body → TwoWayBacked c body :=
  boundary_law_iff (by decide)

end ComponentNetwork
end AgentCentric.Network

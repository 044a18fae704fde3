import AgentCentric.Network.Arranged
import AgentCentric.Network.Parse

namespace AgentCentric.Network
variable {net : ComponentNetwork} {c : Component}

namespace ComponentNetwork

theorem arranged_sortedComponents (net : ComponentNetwork) :
    net.arranged.sortedComponents = net.sortedComponents.map arrangedComponent := by
  have hsort := map_sortedComponents net
  have hidem := List.pairwise_insertionSort (fun a b : Component => byName (·.id) a b = true)
    (net.components.map arrangedComponent)
  rw [sortedComponents,arranged_components,← hsort]
  exact hidem.insertionSort_eq

theorem arranged_sortedIIPs (net : ComponentNetwork) : net.arranged.sortedIIPs = net.sortedIIPs := by
  have hidem := List.pairwise_insertionSort (fun a b : IIP => byInport a b = true) net.iips
  rw [sortedIIPs,arranged_iips]
  exact hidem.insertionSort_eq

theorem toDict_arranged (h : WellFormed net) : net.arranged.toDict = net.toDict := by
  induction h with
  | @mk net _ _ _ ih =>
    have hcomponents : (net.sortedComponents.map arrangedComponent).map componentDict =
        net.sortedComponents.map componentDict := by
      rw [List.map_map]
      apply List.map_congr_left
      intro c hc
      have hbody : bodyDict (c.subnet.map arranged) = bodyDict c.subnet := by
        cases hsub : c.subnet with
        | none => rfl
        | some body =>
          simp only [Option.map_some,bodyDict,ih c (mem_sortedComponents.mp hc) body hsub]
      rw [Function.comp_apply,componentDict_eq,arrangedComponent_subnet,hbody,
        arrangedComponent_eq,componentItems_arranged,← componentDict_eq]
    rw [toDict_eq,toDict_eq,arranged_sortedComponents,arranged_sortedIIPs,arranged_edges,
      hcomponents]

theorem arranged_ids (h : (net.components.map (·.id)).Nodup) :
    (net.arranged.components.map (·.id)).Nodup := by
  rw [arranged_components,List.map_map]
  have hsame : net.sortedComponents.map ((·.id) ∘ arrangedComponent) =
      net.sortedComponents.map (·.id) :=
    List.map_congr_left fun c _ => arrangedComponent_id c
  rw [hsame]
  exact ((sortedComponents_perm net).map _).nodup_iff.mpr h

theorem arranged_component? (h : (net.components.map (·.id)).Nodup)
    (id : String) : net.arranged.component? id = (net.component? id).map arrangedComponent := by
  apply Option.ext
  intro c
  rw [component?_iff (arranged_ids h),arranged_components]
  simp only [List.mem_map,mem_sortedComponents,Option.map_eq_some_iff,component?_iff h]
  constructor
  · rintro ⟨⟨d,hd,rfl⟩,hid⟩
    exact ⟨d,⟨hd,by rw [← hid,arrangedComponent_id]⟩,rfl⟩
  · rintro ⟨d,⟨hd,hid⟩,rfl⟩
    exact ⟨⟨d,hd,rfl⟩,by rw [arrangedComponent_id,hid]⟩

theorem arranged_validateEdge (h : (net.components.map (·.id)).Nodup)
    (e : Edge) : net.arranged.validateEdge e = net.validateEdge e := by
  unfold validateEdge
  rw [arranged_component? h,arranged_component? h]
  cases net.component? e.source <;> cases net.component? e.target <;>
    simp [expect,bind,Except.bind]

theorem arranged_iipOk (h : (net.components.map (·.id)).Nodup)
    (i : IIP) : IIPOk net.arranged i ↔ IIPOk net i := by
  simp [IIPOk,arranged_component? h]

theorem arranged_checkExternalPort {body : ComponentNetwork}
    (h : (body.components.map (·.id)).Nodup) (c : Component) (entry : String × String) :
    checkExternalPort (arrangedComponent c) body.arranged entry =
      checkExternalPort c body entry := by
  unfold checkExternalPort
  cases splitReference entry.2 with
  | none => simp [expect,bind,Except.bind]
  | some ref =>
    simp only [expect,bind,Except.bind,arranged_component? h,arrangedComponent_id,
      arrangedComponent_portNames]
    cases body.component? ref.1 <;> simp

theorem arranged_checkExternal {body : ComponentNetwork}
    (hids : (body.components.map (·.id)).Nodup) (h : checkExternal c body = .ok ()) :
    checkExternal (arrangedComponent c) body.arranged = .ok () := by
  have hexternal : (arrangedComponent c).external = arrangedDict id c.external := by
    rw [arrangedComponent_eq]
    rfl
  have hkeys : ∀ name, name ∈ (arrangedDict id c.external).keys ↔ name ∈ c.external.keys := by
    intro name
    simp [Dict.keys,mem_arrangedDict]
  unfold checkExternal at h ⊢
  simp only [bind_ok,require_ok,Bool.and_eq_true,List.all_eq_true,decide_eq_true_eq,forEach_ok,
    List.mem_insertionSort,arrangedComponent_portNames,hexternal,hkeys,mem_arrangedDict,
    arranged_checkExternalPort hids] at h ⊢
  exact h

theorem arranged_links (net : ComponentNetwork) : net.arranged.links = net.links := by
  rw [links,arranged_edges,links]

theorem arranged_mem_ids (h : (net.components.map (·.id)).Nodup)
    (id : String) : id ∈ net.arranged.ids ↔ id ∈ net.ids := by
  simp [mem_ids,arranged_component? h]

theorem Accepted.links_mem {levels : Nat} (h : Accepted levels net) :
    ∀ l ∈ net.links, l.1 ∈ net.ids ∧ l.2 ∈ net.ids :=
  Validated.links_mem ⟨fun e he => edgeOk_of_validateEdge (h.edges e he),h.acyclic⟩

theorem validateDepth_arranged {levels : Nat} (hnet : WellFormed net)
    (h : validateDepth levels net = .ok ()) : validateDepth levels net.arranged = .ok () := by
  induction hnet generalizing levels with
  | @mk net ids _ bodies ih =>
    have haccepted := validateDepth_iff.mp h
    obtain ⟨hiips,hnodup⟩ := validateIIPs_iff.mp haccepted.iips
    have hperm : (net.arranged.iips.map IIP.inport).Perm (net.iips.map IIP.inport) := by
      rw [arranged_iips]
      exact (sortedIIPs_perm net).map _
    have hmem : ∀ {P : Component → Prop}, (∀ c ∈ net.components, P (arrangedComponent c)) →
        ∀ c ∈ net.arranged.components, P c := by
      intro P hP c hc
      rw [arranged_components] at hc
      obtain ⟨d,hd,rfl⟩ := List.mem_map.mp hc
      exact hP d (mem_sortedComponents.mp hd)
    apply validateDepth_iff.mpr
    refine ⟨?_,?_,?_,hmem fun c hc => ?_,hmem fun c hc => ?_,hmem fun c hc => ?_,?_⟩
    · intro e he
      rw [arranged_edges] at he
      rw [arranged_validateEdge ids]
      exact haccepted.edges e he
    · refine validateIIPs_iff.mpr ⟨fun i hi => ?_,hperm.nodup_iff.mpr hnodup⟩
      rw [arranged_iips,(sortedIIPs_perm net).mem_iff] at hi
      exact ⟨(arranged_iipOk ids i).mpr (hiips i hi).1,(hiips i hi).2⟩
    · intro e he
      rw [arranged_edges] at he
      rw [checkBothSources_ok,hperm.mem_iff,← checkBothSources_ok]
      exact haccepted.oneSource e he
    · rw [arrangedComponent_eq]
      simp only [arrangedFields_portNames]
      exact haccepted.streams c hc
    · have hplain := haccepted.plain c hc
      intro hnone
      rw [arrangedComponent_subnet,Option.map_eq_none_iff] at hnone
      rw [arrangedComponent_eq]
      simp [arrangedFields,arrangedDict,hplain hnone]
    · intro body hbody
      rw [arrangedComponent_subnet,Option.map_eq_some_iff] at hbody
      obtain ⟨inner,hinner,rfl⟩ := hbody
      obtain ⟨below,rfl,hexternal,hbelow⟩ := haccepted.bodies c hc inner hinner
      exact ⟨below,rfl,arranged_checkExternal (bodies c hc inner hinner).ids hexternal,
        ih c hc inner hinner hbelow⟩
    · rw [checkAcyclic_iff,arranged_links]
      · exact (checkAcyclic_iff haccepted.links_mem).mp haccepted.acyclic
      · intro l hl
        rw [arranged_links] at hl
        rw [arranged_mem_ids ids,arranged_mem_ids ids]
        exact haccepted.links_mem l hl

end ComponentNetwork

theorem mappingOr_dict (message : String) (items : List (String × Value)) :
    mappingOr message (some (.dict items)) = .ok items := by
  cases items <;> rfl

theorem dictOf_dict (d : Dict String Value) : dictOf (some (.dict d.entries)) = .ok d := by
  obtain ⟨entries,hnodup⟩ := d
  cases entries with
  | nil => rfl
  | cons e es => exact congrArg Except.ok (Dict.update_empty ⟨e :: es,hnodup⟩)

theorem mapM_text (xs : List String) : (xs.map Value.str).mapM Value.text = .ok xs := by
  rw [List.mapM_map]
  exact (mapM_ok fun _ _ => rfl).trans (by rw [List.map_id'])

theorem streamOf_strings (xs : List String) : streamOf (some (strings xs)) = .ok xs := by
  cases xs with
  | nil => rfl
  | cons x xs => exact mapM_text (x :: xs)

theorem roleOf_ofJson (j : Json) : roleOf (some (.ofJson j)) = .ok j := by
  rw [roleOf,Option.getD_some,Value.json_ofJson]
  rfl

theorem directionOf?_name (d : Direction) : directionOf? d.name = some d := by
  cases d <;> decide

theorem typeOf?_name (t : ValueType) : typeOf? t.name = some t := by
  cases t <;> decide

theorem mapM_items {κ α β : Type} (items : List (κ × α)) (name : κ → String) {f : α → Value}
    {read : String × Value → Except ParseError (String × β)} {g : α → β}
    (h : ∀ k a, read (k,f a) = .ok (k,g a)) :
    (items.map fun e => (name e.1,f e.2)).mapM read = .ok (items.map fun e => (name e.1,g e.2)) := by
  rw [List.mapM_map]
  exact mapM_ok fun e _ => h (name e.1) e.2

theorem portsOf_strings (k : String) (names : List String) :
    portsOf (k,strings names) = .ok (k,names) := by
  simp only [portsOf,strings,mapM_text]
  rfl

theorem textItem_str (k s : String) : textItem (k,.str s) = .ok (k,s) := rfl

def typeItems (typed : Dict String ValueType) : List (String × String) :=
  (arrangedDict id typed).entries.map fun e => (e.1,e.2.name)

theorem portTypesOf_typeNames (k : String) (typed : Dict String ValueType) :
    portTypesOf (k,typeNames typed) = .ok (k,typeItems typed) := by
  have hread := mapM_items (arrangedDict id typed).entries id
    fun k (t : ValueType) => textItem_str k t.name
  simp only [portTypesOf,typeNames,sortedItems]
  simp only [arrangedDict] at hread
  rw [hread]
  rfl

namespace ComponentNetwork

theorem Admissible.arranged (h : Admissible c) (body : Option ComponentNetwork) :
    Admissible (arrangedFields c body) := by
  refine ⟨h.named,h.undotted,fun entry hentry => h.ports entry (mem_arrangedDict.mp hentry),
    fun entry hentry typed htyped => ?_⟩
  obtain ⟨e,he,rfl⟩ := List.mem_map.mp hentry
  rw [arrangedFields_portNames]
  exact h.portTypes e (mem_arrangedDict.mp he) typed (mem_arrangedDict.mp htyped)

def bareFields (c : Component) (body : Option ComponentNetwork) : Component :=
  ⟨c.id,c.task,c.args,c.verifier,c.child,.empty,.empty,c.stream,arrangedDict id c.external,body⟩

theorem networkError_ok {α : Type} {x : Except String α} {a : α} (h : x = .ok a) :
    networkError x = .ok a := by
  rw [h]
  rfl

theorem mapM_admitPorts (h : Admissible c) (bare : Component) :
    ((arrangedDict Direction.name c.ports).entries.map fun e => (e.1.name,e.2)).mapM
      (admitPorts bare) = .ok (arrangedDict Direction.name c.ports).entries := by
  have hall : ∀ e ∈ (arrangedDict Direction.name c.ports).entries,
      admitPorts bare (e.1.name,e.2) = .ok (id e) := by
    intro e he
    have hports := h.ports e (mem_arrangedDict.mp he)
    have hcheck : checkPorts bare (e.1,e.2) = .ok () := by
      simp only [checkPorts,require_ok,Bool.and_eq_true,List.all_eq_true,decide_eq_true_eq]
      exact hports
    simp only [admitPorts,bind_ok,expect_ok,directionOf?_name]
    exact ⟨e.1,rfl,(),networkError_ok hcheck,rfl⟩
  rw [List.mapM_map]
  exact (mapM_ok hall).trans (by rw [List.map_id])

theorem mapM_admitType (h : Admissible c) {ported : Component}
    (hports : ∀ d, ported.portNames d = c.portNames d) {e : Direction × Dict String ValueType}
    (he : e ∈ c.portTypes.entries) :
    (typeItems e.2).mapM (admitType ported e.1) = .ok (arrangedDict id e.2).entries := by
  have hall : ∀ t ∈ (arrangedDict id e.2).entries,
      admitType ported e.1 (t.1,t.2.name) = .ok (id t) := by
    intro t ht
    have htype := h.portTypes e he t (mem_arrangedDict.mp ht)
    have hcheck : checkPortTypes ported (e.1,Dict.empty.set t.1 .any) = .ok () := by
      simp only [checkPortTypes,forEach_ok,bind_ok,require_ok,decide_eq_true_eq]
      intro x hx
      have hx' : x = (t.1,ValueType.any) := by simpa [Dict.set,Dict.insert,Dict.empty] using hx
      rw [hx',hports]
      exact ⟨(),htype⟩
    simp only [admitType,bind_ok,expect_ok,typeOf?_name]
    exact ⟨(),networkError_ok hcheck,t.2,rfl,rfl⟩
  rw [typeItems,List.mapM_map]
  exact (mapM_ok hall).trans (by rw [List.map_id])

theorem mapM_admitPortTypes (h : Admissible c) {ported : Component}
    (hports : ∀ d, ported.portNames d = c.portNames d) :
    ((arrangedDict Direction.name c.portTypes).entries.map fun e => (e.1.name,typeItems e.2)).mapM
        (admitPortTypes ported) =
      .ok ((arrangedDict Direction.name c.portTypes).mapValues (arrangedDict id)).entries := by
  have hall : ∀ e ∈ (arrangedDict Direction.name c.portTypes).entries,
      admitPortTypes ported (e.1.name,typeItems e.2) = .ok (e.1,arrangedDict id e.2) := by
    intro e he
    simp only [admitPortTypes,bind_ok,expect_ok,directionOf?_name]
    refine ⟨e.1,rfl,_,mapM_admitType h hports (mem_arrangedDict.mp he),?_⟩
    rw [Dict.update_empty]
    rfl
  rw [List.mapM_map]
  exact mapM_ok hall

theorem addNamed_arranged (h : Admissible c) (net : ComponentNetwork)
    (body : Option ComponentNetwork) : net.addNamed (bareFields c body)
        ((arrangedDict Direction.name c.ports).entries.map fun e => (e.1.name,e.2))
        ((arrangedDict Direction.name c.portTypes).entries.map fun e => (e.1.name,typeItems e.2)) =
      .ok (.mk (place (arrangedFields c body) net.components) net.edges net.iips) := by
  have hbare : Admissible (bareFields c body) :=
    ⟨h.named,h.undotted,fun _ he => (by cases he),fun _ he => (by cases he)⟩
  have hports : ∀ d, ({ bareFields c body with
      ports := arrangedDict Direction.name c.ports } : Component).portNames d = c.portNames d := by
    intro d
    simp only [ComponentOf.portNames,get_arrangedDict]
  simp only [addNamed,bind_ok,mapM_admitPorts h]
  refine ⟨_,networkError_ok (addComponent_ok.mpr ⟨hbare,rfl⟩),_,rfl,?_⟩
  rw [Dict.update_empty]
  refine ⟨_,mapM_admitPortTypes h hports,?_⟩
  rw [Dict.update_empty]
  exact networkError_ok (addComponent_ok.mpr ⟨h.arranged body,rfl⟩)

theorem lookup_componentItems {Net : Type} (c : ComponentOf Net) (body : Value) (key : String) :
    Dict.lookup (componentItems c body) key = if key = "id" then some (.str c.id)
      else if key = "task" then some (.str c.task)
      else if key = "args" then some (.dict c.args.entries)
      else if key = "verifier" then some (.ofJson c.verifier)
      else if key = "child" then some (.ofJson c.child)
      else if key = "ports" then some (sortedItems Direction.name c.ports.entries strings)
      else if key = "port_types" ∧ c.portTypes.entries ≠ [] then
        some (sortedItems Direction.name c.portTypes.entries typeNames)
      else if key = "stream" then some (strings c.stream)
      else if key = "external" then some (sortedItems id c.external.entries .str)
      else if key = "subnet" then some body else none := by
  by_cases htypes : c.portTypes.entries = [] <;>
    simp [componentItems,htypes,Dict.lookup,@eq_comm _ _ key]

theorem parseBody_bodyDict {descend : List (String × Value) → Except ParseError ComponentNetwork}
    {subnet : Option ComponentNetwork}
    (h : ∀ body, subnet = some body → descend body.toDict = .ok body.arranged) :
    parseBody descend (some (bodyDict subnet)) = .ok (subnet.map arranged) := by
  cases subnet with
  | none => rfl
  | some body =>
    simp only [bodyDict,parseBody,h body rfl]
    rfl

theorem parseComponent_componentDict
    {descend : List (String × Value) → Except ParseError ComponentNetwork}
    (h : Admissible c) (hbody : ∀ body, c.subnet = some body →
      descend body.toDict = .ok body.arranged) (net : ComponentNetwork) :
    parseComponent descend net (componentDict c) =
      .ok (.mk (place (arrangedComponent c) net.components) net.edges net.iips) := by
  have htypes : ∀ message, mappingOr message
      (Dict.lookup (componentItems c (bodyDict c.subnet)) "port_types") =
        .ok ((arrangedDict Direction.name c.portTypes).entries.map
          fun e => (e.1.name,typeNames e.2)) := by
    intro message
    by_cases hnil : c.portTypes.entries = []
    · simp [lookup_componentItems,hnil,mappingOr,arrangedDict]
    · simp [lookup_componentItems,hnil,sortedItems,mappingOr_dict,arrangedDict]
  have hexternal : ((arrangedDict id c.external).entries.map fun e => (id e.1,Value.str e.2)).mapM
      textItem = .ok (arrangedDict id c.external).entries := by
    rw [mapM_items _ id textItem_str]
    exact congrArg Except.ok (List.map_id _)
  rw [componentDict_eq]
  simp only [parseComponent,htypes]
  simp +decide only [lookup_componentItems,if_true,if_false,false_and,bind_ok]
  refine ⟨_,mappingOr_dict _ _,_,mapM_items _ _ portsOf_strings,_,rfl,_,
    mapM_items _ _ portTypesOf_typeNames,_,mappingOr_dict _ _,_,hexternal,_,
    parseBody_bodyDict hbody,_,rfl,_,dictOf_dict _,_,roleOf_ofJson _,_,roleOf_ofJson _,_,
    streamOf_strings _,?_⟩
  rw [Dict.update_empty,arrangedComponent_eq]
  exact addNamed_arranged h net _

theorem foldlM_components
    {descend : List (String × Value) → Except ParseError ComponentNetwork} (cs : List Component)
    (net : ComponentNetwork) (hids : ((net.components ++ cs).map (·.id)).Nodup)
    (hadmissible : ∀ c ∈ cs, Admissible c)
    (hbodies : ∀ c ∈ cs, ∀ body, c.subnet = some body → descend body.toDict = .ok body.arranged) :
    (cs.map componentDict).foldlM (parseComponent descend) net =
      .ok (.mk (net.components ++ cs.map arrangedComponent) net.edges net.iips) := by
  induction cs generalizing net with
  | nil =>
    cases net
    exact congrArg (fun cs => Except.ok (mk cs _ _)) (List.append_nil _).symm
  | cons c cs ih =>
    have hnew : (arrangedComponent c).id ∉ net.components.map (·.id) := by
      rw [arrangedComponent_id]
      rw [List.map_append,List.nodup_append] at hids
      exact fun hin => hids.2.2 _ hin _ (by simp) rfl
    have hadd := parseComponent_componentDict (hadmissible c (by simp)) (hbodies c (by simp)) net
    rw [place_new hnew] at hadd
    have hnext := ih (.mk (net.components ++ [arrangedComponent c]) net.edges net.iips)
      (by simpa [components] using hids) (fun d hd => hadmissible d (by simp [hd]))
      (fun d hd => hbodies d (by simp [hd]))
    rw [List.map_cons,List.foldlM_cons,hadd]
    refine hnext.trans ?_
    simp [components,edges,iips]

theorem parseEdge_edgeDict (e : Edge) : parseEdge (edgeDict e) = .ok e := by
  cases e
  simp +decide [parseEdge,edgeDict,Dict.lookup,capacityOf,textOr,Value.text,bind,Except.bind]
  rfl

theorem parseIIP_iipDict (i : IIP) : parseIIP (iipDict i) = .ok i := by
  cases i
  simp +decide [parseIIP,iipDict,Dict.lookup,textOr,Value.text,bind,Except.bind]
  rfl

theorem foldl_addEdge (net : ComponentNetwork) (es : List Edge) :
    es.foldl addEdge net = .mk net.components (net.edges ++ es) net.iips := by
  induction es generalizing net with
  | nil => cases net; simp [components,edges,iips]
  | cons e es ih => rw [List.foldl_cons,ih]; simp [addEdge,components,edges,iips]

theorem foldl_addIIP (net : ComponentNetwork) (is : List IIP) :
    is.foldl addIIP net = .mk net.components net.edges (net.iips ++ is) := by
  induction is generalizing net with
  | nil => cases net; simp [components,edges,iips]
  | cons i is ih => rw [List.foldl_cons,ih]; simp [addIIP,components,edges,iips]

theorem fromDictDepth_toDict {levels : Nat} (h : WellFormed net)
    (hvalid : validateDepth levels net = .ok ()) :
    fromDictDepth (levels + 1) net.toDict = .ok net.arranged := by
  induction h generalizing levels with
  | @mk net ids admissible _ ih =>
    have hperm := sortedComponents_perm net
    have hbodies : ∀ c ∈ net.sortedComponents, ∀ body, c.subnet = some body →
        fromDictDepth levels body.toDict = .ok body.arranged := by
      intro c hc body hbody
      obtain ⟨below,rfl,_,hbelow⟩ :=
        (validateDepth_iff.mp hvalid).bodies c (mem_sortedComponents.mp hc) body hbody
      exact ih c (mem_sortedComponents.mp hc) body hbody hbelow
    have hcomponents := foldlM_components net.sortedComponents .empty
      ((hperm.map _).nodup_iff.mpr ids)
      (fun c hc => admissible c (mem_sortedComponents.mp hc)) hbodies
    have hedges : (net.edges.map edgeDict).mapM parseEdge = .ok net.edges := by
      rw [List.mapM_map]
      exact (mapM_ok fun e _ => parseEdge_edgeDict e).trans (by rw [List.map_id'])
    have hiips : (net.sortedIIPs.map iipDict).mapM parseIIP = .ok net.sortedIIPs := by
      rw [List.mapM_map]
      exact (mapM_ok fun i _ => parseIIP_iipDict i).trans (by rw [List.map_id'])
    rw [toDict_eq]
    simp +decide only [fromDictDepth,Dict.lookup,if_true,if_false,bind_ok]
    refine ⟨_,hcomponents,_,rfl,_,hedges,_,rfl,_,hiips,?_⟩
    rw [foldl_addEdge,foldl_addIIP]
    have harranged : net.arranged =
        .mk (net.sortedComponents.map arrangedComponent) net.edges net.sortedIIPs := by
      rw [← arranged_components,← arranged_iips]
      cases net
      rfl
    rw [harranged]
    rfl

/-- The document of a network that was built and validated reads back as a network with the same
document, which is valid as well. -/
theorem from_dict_to_dict {net : ComponentNetwork} (hbuilt : Built net)
    (hvalid : net.validate = .ok ()) :
    ∃ net', fromDict net.toDict = .ok net' ∧ net'.validate = .ok () ∧
      net'.toDict = net.toDict ∧ ∀ sha256, net'.contentHash sha256 = net.contentHash sha256 := by
  have hwf := hbuilt.wellFormed
  have hsame := toDict_arranged hwf
  refine ⟨net.arranged,fromDictDepth_toDict hwf hvalid,validateDepth_arranged hwf hvalid,hsame,
    fun sha256 => ?_⟩
  rw [contentHash,document?,hsame,contentHash,document?]

/-- A streaming source that feeds a composite, whose second in-port has an initial packet. -/
def parcel : ComponentNetwork :=
  .mk [⟨"s","task",.empty,.null,.null,⟨[(.output,["o"])],by simp⟩,
        ⟨[(.output,⟨[("o",.int)],by simp⟩)],by simp⟩,["o"],.empty,none⟩,
      ⟨"c","task",.empty,.str "v",.null,⟨[(.input,["y","x"])],by simp⟩,.empty,[],
        ⟨[("y","a.y"),("x","a.x")],by simp⟩,some (.mk [⟨"a","task",.empty,.null,.null,
          ⟨[(.input,["x","y"])],by simp⟩,.empty,[],.empty,none⟩] [] [])⟩]
    [⟨"s","o","c","x",2⟩] [⟨"c","y",.int 1⟩]

theorem parcel_built : Built parcel := by
  apply built_iff.mpr
  refine ⟨by decide,by decide,fun c hc body hbody => ?_⟩
  rcases List.mem_cons.mp hc with rfl | hc
  · cases hbody
  · rw [List.mem_singleton.mp hc] at hbody
    cases hbody
    refine ⟨by decide,by decide,fun a ha body hbody => ?_⟩
    rw [List.mem_singleton.mp ha] at hbody
    cases hbody

theorem from_dict_to_dict_parcel :
    ∃ net', fromDict parcel.toDict = .ok net' ∧ net'.validate = .ok () ∧
      net'.toDict = parcel.toDict ∧
        ∀ sha256, net'.contentHash sha256 = parcel.contentHash sha256 :=
  from_dict_to_dict parcel_built (by decide)

end ComponentNetwork
end AgentCentric.Network

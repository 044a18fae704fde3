import AgentCentric.Network.Arranged

namespace AgentCentric.Network

def ComponentOf.outline {Net : Type} (c : ComponentOf Net) : ComponentOf Unit :=
  { c with subnet := c.subnet.map fun _ => () }

variable {net net' : ComponentNetwork}

namespace ComponentNetwork

/-- The same components, edges and packets were added, in any order at any level. -/
inductive Reordered : ComponentNetwork → ComponentNetwork → Prop where
  | mk {net net' : ComponentNetwork}
      (ids : (net.components.map (·.id)).Perm (net'.components.map (·.id)))
      (outlines : ∀ c ∈ net.components, ∀ c' ∈ net'.components, c.id = c'.id →
        c.outline = c'.outline)
      (bodies : ∀ c ∈ net.components, ∀ c' ∈ net'.components, c.id = c'.id →
        ∀ body body', c.subnet = some body → c'.subnet = some body' → Reordered body body')
      (edges : net.edges.Perm net'.edges) (iips : net.iips.Perm net'.iips) : Reordered net net'

def packetsOn (net : ComponentNetwork) (inport : String × String) : List Value :=
  (net.iips.filter fun i => i.inport = inport).map (·.value)

/-- Every value can be written, and at every level the edges, and the packets of one in-port as
far as they are written differently, were added in the same order. -/
inductive SameOrder : ComponentNetwork → ComponentNetwork → Prop where
  | mk {net net' : ComponentNetwork} (edges : net.edges = net'.edges)
      (packets : ∀ inport, List.Forall₂ Alike (net.packetsOn inport) (net'.packetsOn inport))
      (args : ∀ c ∈ net.components, ∀ e ∈ c.args.entries, Written e.2)
      (bodies : ∀ c ∈ net.components, ∀ c' ∈ net'.components, c.id = c'.id →
        ∀ body body', c.subnet = some body → c'.subnet = some body' → SameOrder body body') :
      SameOrder net net'

theorem alike_edgeDict {e f : Edge} : Alike (edgeDict e) (edgeDict f) ↔ e = f := by
  rw [edgeDict,edgeDict,alike_dict (by rfl) (by simp)]
  simp only [List.forall₂_cons,alike_str,alike_int,List.forall₂_nil_left_iff,true_and,and_true]
  cases e
  cases f
  simp only [Edge.mk.injEq]

theorem alike_edges {es fs : List Edge} :
    Alike (.list (es.map edgeDict)) (.list (fs.map edgeDict)) ↔ es = fs := by
  rw [alike_list,List.forall₂_map_left_iff,List.forall₂_map_right_iff]
  simp only [alike_edgeDict,List.forall₂_eq_eq_eq]

theorem alike_iipDict {i j : IIP} :
    Alike (iipDict i) (iipDict j) ↔ i.inport = j.inport ∧ Alike i.value j.value := by
  rw [iipDict,iipDict,alike_dict (by rfl) (by simp)]
  simp only [List.forall₂_cons,alike_str,List.forall₂_nil_left_iff,true_and,and_true,IIP.inport,
    Prod.mk.injEq,and_assoc]

def PacketsAlike (i j : IIP) : Prop := i.inport = j.inport ∧ Alike i.value j.value

theorem packetsAlike_filter {is js : List IIP} (h : List.Forall₂ PacketsAlike is js)
    (inport : String × String) : List.Forall₂ PacketsAlike (is.filter fun i => i.inport = inport)
      (js.filter fun i => i.inport = inport) :=
  List.rel_filter (fun i j hij => by simp [hij.1]) h

theorem packetsAlike_of_values (is js : List IIP) (inport : String × String)
    (his : ∀ i ∈ is, i.inport = inport) (hjs : ∀ j ∈ js, j.inport = inport)
    (h : List.Forall₂ Alike (is.map (·.value)) (js.map (·.value))) :
    List.Forall₂ PacketsAlike is js := by
  induction is generalizing js with
  | nil =>
    cases js with
    | nil => exact .nil
    | cons j js => cases h
  | cons i is ih =>
    cases js with
    | nil => cases h
    | cons j js =>
      simp only [List.map_cons,List.forall₂_cons] at h
      refine .cons ⟨?_,h.1⟩ (ih js (fun i hi => his i (by simp [hi]))
        (fun j hj => hjs j (by simp [hj])) h.2)
      rw [his i (by simp),hjs j (by simp)]

theorem sortedIIPs_filter (net : ComponentNetwork) (inport : String × String) :
    (net.sortedIIPs.filter fun i => i.inport = inport) =
      net.iips.filter fun i => i.inport = inport :=
  filter_insertionSort (fun i : IIP => toLex i.inport) (fun a b => byInport a b = true)
    (fun _ _ => byInport_iff) (toLex inport) net.iips

theorem sortedIIPs_sorted (net : ComponentNetwork) :
    net.sortedIIPs.Pairwise fun a b => toLex a.inport ≤ toLex b.inport :=
  (List.pairwise_insertionSort (fun a b : IIP => byInport a b = true) net.iips).imp
    fun h => byInport_iff.mp h

theorem alike_iips :
    Alike (.list (net.sortedIIPs.map iipDict)) (.list (net'.sortedIIPs.map iipDict)) ↔
      ∀ inport, List.Forall₂ Alike (net.packetsOn inport) (net'.packetsOn inport) := by
  rw [alike_list,List.forall₂_map_left_iff,List.forall₂_map_right_iff]
  simp only [alike_iipDict]
  constructor
  · intro h inport
    have hfilter := packetsAlike_filter h inport
    rw [sortedIIPs_filter,sortedIIPs_filter] at hfilter
    rw [packetsOn,packetsOn,List.forall₂_map_left_iff,List.forall₂_map_right_iff]
    exact hfilter.imp fun _ _ hij => hij.2
  · intro h
    apply forall₂_of_filters (fun i : IIP => toLex i.inport) (sortedIIPs_sorted net)
      (sortedIIPs_sorted net')
    intro inport
    have hleft := sortedIIPs_filter net (ofLex inport)
    have hright := sortedIIPs_filter net' (ofLex inport)
    have hvalues := packetsAlike_of_values (net.iips.filter fun i => i.inport = ofLex inport)
      (net'.iips.filter fun i => i.inport = ofLex inport) (ofLex inport) (by simp) (by simp)
      (h (ofLex inport))
    rw [← hleft,← hright] at hvalues
    exact hvalues

theorem alike_componentItems {Net : Type} (c : ComponentOf Net) (body body' : Value) :
    Alike (.dict (componentItems c body)) (.dict (componentItems c body')) ↔
      (∀ e ∈ c.args.entries, Written e.2) ∧ Alike body body' := by
  have htypes : Written (sortedItems Direction.name c.portTypes.entries typeNames) :=
    written_sortedItems _ _ fun _ => written_sortedItems _ _ fun _ => written_str _
  have hports : Written (sortedItems Direction.name c.ports.entries strings) :=
    written_sortedItems _ _ written_strings
  have hexternal : Written (sortedItems id c.external.entries .str) :=
    written_sortedItems _ _ written_str
  by_cases hnil : c.portTypes.entries = []
  · rw [alike_dict (by simp [componentItems,hnil]) (by simp [componentItems,hnil])]
    simp only [componentItems,hnil,if_true,List.append_nil,List.cons_append,List.nil_append,
      List.forall₂_cons,List.forall₂_nil_left_iff,alike_self,written_dict,written_str,
      written_ofJson,written_strings,hports,hexternal,true_and,and_true]
  · rw [alike_dict (by simp [componentItems,hnil]) (by simp [componentItems,hnil])]
    simp only [componentItems,hnil,if_false,List.cons_append,List.nil_append,
      List.forall₂_cons,List.forall₂_nil_left_iff,alike_self,written_dict,written_str,
      written_ofJson,written_strings,hports,htypes,hexternal,true_and,and_true]

theorem alike_componentDict {c c' : Component} (h : c.outline = c'.outline) :
    Alike (componentDict c) (componentDict c') ↔
      (∀ e ∈ c.args.entries, Written e.2) ∧ ∀ body body', c.subnet = some body →
        c'.subnet = some body' → Alike (.dict body.toDict) (.dict body'.toDict) := by
  have hitems : ∀ body, componentItems c' body = componentItems c body := by
    intro body
    change componentItems c'.outline body = componentItems c.outline body
    rw [h]
  have hsubnet : c.subnet.map (fun _ => ()) = c'.subnet.map fun _ => () :=
    congrArg ComponentOf.subnet h
  rw [componentDict_eq,componentDict_eq,hitems,alike_componentItems]
  apply and_congr_right'
  cases hc : c.subnet with
  | none =>
    cases hc' : c'.subnet with
    | none => exact ⟨fun _ _ _ hbody => (by cases hbody),fun _ => ⟨.null,.null,rfl,rfl,rfl⟩⟩
    | some body' => simp [hc,hc'] at hsubnet
  | some body =>
    cases hc' : c'.subnet with
    | none => simp [hc,hc'] at hsubnet
    | some body' => simp [bodyDict]

theorem sortedComponents_ids (h : (net.components.map (·.id)).Perm (net'.components.map (·.id))) :
    net.sortedComponents.map (·.id) = net'.sortedComponents.map (·.id) := by
  have hsorted : ∀ net : ComponentNetwork,
      (net.sortedComponents.map (·.id)).Pairwise (· ≤ ·) := by
    intro net
    rw [List.pairwise_map]
    exact (List.pairwise_insertionSort (fun a b : Component => byName (·.id) a b = true) _).imp
      fun h => byName_iff.mp h
  have hperm := (((sortedComponents_perm net).map (·.id)).trans h).trans
    ((sortedComponents_perm net').map (·.id)).symm
  exact hperm.eq_of_pairwise (fun _ _ _ _ hab hba => le_antisymm hab hba) (hsorted net)
    (hsorted net')

theorem alike_components (hnodup : (net.components.map (·.id)).Nodup)
    (h : (net.components.map (·.id)).Perm (net'.components.map (·.id))) :
    Alike (.list (net.sortedComponents.map componentDict))
        (.list (net'.sortedComponents.map componentDict)) ↔
      ∀ c ∈ net.components, ∀ c' ∈ net'.components, c.id = c'.id →
        Alike (componentDict c) (componentDict c') := by
  rw [alike_list,List.forall₂_map_left_iff,List.forall₂_map_right_iff,
    forall₂_iff_of_keys (sortedComponents_ids h)
      (((sortedComponents_perm net).map _).nodup_iff.mpr hnodup)]
  simp only [mem_sortedComponents]

theorem alike_toDict : Alike (.dict net.toDict) (.dict net'.toDict) ↔
      Alike (.list (net.sortedComponents.map componentDict))
        (.list (net'.sortedComponents.map componentDict)) ∧ net.edges = net'.edges ∧
      ∀ inport, List.Forall₂ Alike (net.packetsOn inport) (net'.packetsOn inport) := by
  rw [toDict_eq,toDict_eq,alike_dict (by rfl) (by simp)]
  simp only [List.forall₂_cons,List.forall₂_nil_left_iff,true_and,and_true,alike_edges,alike_iips]

/-- The documents of two networks from the same parts are written alike when the order of the
edges and of the packets is the same. -/
theorem alike_iff_sameOrder (hnet : WellFormed net) (h : Reordered net net') :
    Alike (.dict net.toDict) (.dict net'.toDict) ↔ SameOrder net net' := by
  induction hnet generalizing net' with
  | @mk net hnodup _ _ ih =>
    obtain ⟨hids,houtlines,hbodies,_,_⟩ := h
    have hmatch : ∀ c ∈ net.components, ∃ c' ∈ net'.components, c.id = c'.id := by
      intro c hc
      have hin := hids.mem_iff.mp (List.mem_map_of_mem hc)
      obtain ⟨c',hc',heq⟩ := List.mem_map.mp hin
      exact ⟨c',hc',heq.symm⟩
    rw [alike_toDict,alike_components hnodup hids]
    constructor
    · rintro ⟨hcomponents,hedges,hpackets⟩
      refine ⟨hedges,hpackets,fun c hc => ?_,fun c hc c' hc' hid body body' hbody hbody' => ?_⟩
      · obtain ⟨c',hc',hid⟩ := hmatch c hc
        exact ((alike_componentDict (houtlines c hc c' hc' hid)).mp
          (hcomponents c hc c' hc' hid)).1
      · have halike := ((alike_componentDict (houtlines c hc c' hc' hid)).mp
          (hcomponents c hc c' hc' hid)).2 body body' hbody hbody'
        exact (ih c hc body hbody (hbodies c hc c' hc' hid body body' hbody hbody')).mp halike
    · rintro ⟨hedges,hpackets,hargs,hsame⟩
      refine ⟨fun c hc c' hc' hid => ?_,hedges,hpackets⟩
      refine (alike_componentDict (houtlines c hc c' hc' hid)).mpr ⟨hargs c hc,
        fun body body' hbody hbody' => ?_⟩
      exact (ih c hc body hbody (hbodies c hc c' hc' hid body body' hbody hbody')).mpr
        (hsame c hc c' hc' hid body body' hbody hbody')

theorem outlines_agree (hnodup : (net.components.map (·.id)).Nodup)
    (h : Reordered net net') (id : String) :
    (net.component? id).map ComponentOf.outline = (net'.component? id).map ComponentOf.outline := by
  obtain ⟨hids,houtlines,_,_,_⟩ := h
  have hnodup' := hids.nodup_iff.mp hnodup
  apply Option.ext
  intro o
  simp only [Option.map_eq_some_iff,component?_iff hnodup,component?_iff hnodup']
  constructor
  · rintro ⟨c,⟨hc,rfl⟩,rfl⟩
    obtain ⟨c',hc',hid⟩ := List.mem_map.mp (hids.mem_iff.mp (List.mem_map_of_mem hc))
    exact ⟨c',⟨hc',hid⟩,(houtlines c hc c' hc' hid.symm).symm⟩
  · rintro ⟨c',⟨hc',rfl⟩,rfl⟩
    obtain ⟨c,hc,hid⟩ := List.mem_map.mp (hids.mem_iff.mpr (List.mem_map_of_mem hc'))
    exact ⟨c,⟨hc,hid⟩,houtlines c hc c' hc' hid⟩

theorem expect_outline {α : Type} {x y : Option Component} {message : String}
    {f : Component → Except String α} (hf : ∀ c d, c.outline = d.outline → f c = f d)
    (h : x.map ComponentOf.outline = y.map ComponentOf.outline) :
    (expect x message >>= f) = expect y message >>= f := by
  cases x with
  | none =>
    cases y with
    | none => rfl
    | some d => cases h
  | some c =>
    cases y with
    | none => cases h
    | some d => exact hf c d (Option.some.inj h)

theorem resolveEdge_congr {e : Edge} (h : (net.component? e.source).map ComponentOf.outline =
      (net'.component? e.source).map ComponentOf.outline) (id : String)
    (found : Dict String Value × List Wire) :
    net.resolveEdge id found e = net'.resolveEdge id found e := by
  unfold resolveEdge
  split
  · rfl
  · refine expect_outline ?_ h
    intro c d hcd
    have hargs : c.args = d.args := congrArg (fun o : ComponentOf Unit => o.args) hcd
    have hports : c.portNames .output = d.portNames .output :=
      congrArg (fun o : ComponentOf Unit => o.portNames .output) hcd
    simp only [hargs,hports]

theorem compileStep_congr (hedges : net.edges = net'.edges)
    (h : ∀ id, (net.component? id).map ComponentOf.outline =
      (net'.component? id).map ComponentOf.outline) (id : String) :
    net.compileStep id = net'.compileStep id := by
  have hresolve : net.resolveEdge id = net'.resolveEdge id := by
    funext found e
    exact resolveEdge_congr (h e.source) id found
  unfold compileStep
  rw [hresolve,hedges]
  refine expect_outline ?_ (h id)
  intro c d hcd
  have hargs : c.args = d.args := congrArg (fun o : ComponentOf Unit => o.args) hcd
  have htask : c.task = d.task := congrArg (fun o : ComponentOf Unit => o.task) hcd
  have hverifier : c.verifier = d.verifier := congrArg (fun o : ComponentOf Unit => o.verifier) hcd
  have hchild : c.child = d.child := congrArg (fun o : ComponentOf Unit => o.child) hcd
  simp only [hargs,htask,hverifier,hchild]

theorem order_congr (hids : net.ids.Perm net'.ids)
    (hedges : net.edges = net'.edges) : net.order = net'.order := by
  have hlinks : net.links = net'.links := by rw [links,links,hedges]
  have hfirst : sortStrings net.sourcesFirst = sortStrings net'.sourcesFirst := by
    refine insertionSort_congr _ ?_ fun _ _ _ _ hab hba => le_antisymm hab hba
    rw [sourcesFirst,sourcesFirst,hlinks]
    exact hids.filter _
  rw [order,order,Kahn.sort,Kahn.sort,hlinks,hfirst,hids.length_eq]

theorem compile_congr (hnodup : (net.components.map (·.id)).Nodup)
    (h : Reordered net net') (hedges : net.edges = net'.edges) (hvalid : net.validate = .ok ())
    (hvalid' : net'.validate = .ok ()) : net.compile = net'.compile := by
  have hsteps : net.compileStep = net'.compileStep := by
    funext id
    exact compileStep_congr hedges (outlines_agree hnodup h) id
  obtain ⟨hids,_,_,_,_⟩ := h
  rw [compile,compile,hvalid,hvalid',hsteps,order_congr hids.dedup hedges]

theorem contentHash_alike {sha256 : List Char → Digest}
    (h : Alike (.dict net.toDict) (.dict net'.toDict)) :
    ∃ digest, net.contentHash sha256 = some digest ∧ net'.contentHash sha256 = some digest := by
  obtain ⟨j,k,hj,hk,hjk⟩ := h
  refine ⟨sha256 j.bytes,?_,?_⟩
  · rw [contentHash,document?,hj]
    rfl
  · rw [contentHash,document?,hk,Json.bytes_inj.mpr hjk]
    rfl

/-- The hash tells the two documents apart. -/
def NoCollision (sha256 : List Char → Digest) (net net' : ComponentNetwork) : Prop :=
  ∀ j k, net.document? = some j → net'.document? = some k → sha256 j.bytes = sha256 k.bytes →
    j.bytes = k.bytes

theorem alike_of_contentHash {sha256 : List Char → Digest}
    {digest : Digest} (hinj : NoCollision sha256 net net')
    (h : net.contentHash sha256 = some digest) (h' : net'.contentHash sha256 = some digest) :
    Alike (.dict net.toDict) (.dict net'.toDict) := by
  obtain ⟨j,hj,hdigest⟩ := Option.map_eq_some_iff.mp h
  obtain ⟨k,hk,hdigest'⟩ := Option.map_eq_some_iff.mp h'
  exact ⟨j,k,hj,hk,Json.bytes_inj.mp (hinj j k hj hk (hdigest.trans hdigest'.symm))⟩

/-- Networks from the same parts have one content hash, and one plan, exactly when the order of
the edges and of the packets is the same. -/
theorem insertion_independent_iff (sha256 : List Char → Digest) {net net' : ComponentNetwork}
    (hbuilt : Built net) (h : Reordered net net') (hinj : NoCollision sha256 net net') :
    ((∃ digest, net.contentHash sha256 = some digest ∧ net'.contentHash sha256 = some digest) ∧
      (net.validate = .ok () → net'.validate = .ok () → net.compile = net'.compile)) ↔
      SameOrder net net' := by
  have hwf := hbuilt.wellFormed
  constructor
  · rintro ⟨⟨digest,hdigest,hdigest'⟩,_⟩
    exact (alike_iff_sameOrder hwf h).mp (alike_of_contentHash hinj hdigest hdigest')
  · intro hsame
    refine ⟨contentHash_alike ((alike_iff_sameOrder hwf h).mpr hsame),fun hvalid hvalid' => ?_⟩
    obtain ⟨hedges,_,_,_⟩ := hsame
    exact compile_congr hwf.ids h hedges hvalid hvalid'

def constants : List Component :=
  [⟨"a","task",⟨[("o",.int 1)],by simp⟩,.null,.null,.empty,.empty,[],.empty,none⟩,
    ⟨"b","task",⟨[("o",.int 2)],by simp⟩,.null,.null,.empty,.empty,[],.empty,none⟩,
    ⟨"c","task",.empty,.null,.null,.empty,.empty,[],.empty,none⟩]

theorem constants_plain {c : Component} (hc : c ∈ constants) : c.subnet = none := by
  simp only [constants,List.mem_cons,List.not_mem_nil,or_false] at hc
  rcases hc with rfl | rfl | rfl <;> rfl

theorem constants_ids : (constants.map (·.id)).Nodup := by decide

theorem merging_built {cs : List Component} (h : cs.Perm constants) (es : List Edge) :
    Built (.mk cs es []) := by
  have hadmissible : ∀ c ∈ constants, Admissible c := by decide
  refine (built_of_components ((h.map _).nodup_iff.mpr constants_ids)
    (fun c hc => hadmissible c (h.mem_iff.mp hc)) fun c hc body hbody => ?_).addEdges es
  rw [constants_plain (h.mem_iff.mp hc)] at hbody
  cases hbody

theorem merging_reordered {cs : List Component} (h : cs.Perm constants) {es fs : List Edge}
    (hperm : es.Perm fs) : Reordered (.mk constants es []) (.mk cs fs []) := by
  refine ⟨(h.map _).symm,fun c hc c' hc' hid => ?_,fun c hc c' hc' hid body body' hbody _ => ?_,
    hperm,List.Perm.refl _⟩
  · rw [List.inj_on_of_nodup_map constants_ids hc (h.mem_iff.mp hc') hid]
  · rw [constants_plain hc] at hbody
    cases hbody

/-- The whole number that the last step is given as `x`. -/
def lastX (plan : Except String (List PlanStep)) : Option Int := do
  let steps ← plan.toOption
  let step ← steps.getLast?
  match step.args.get "x" with
  | some (.int n) => some n
  | _ => none

/-- The document keeps the order of the edges, and in the plan the last edge wins. -/
theorem insertion_order_matters :
    ∃ net net', Built net ∧ Built net' ∧ Reordered net net' ∧ net.validate = .ok () ∧
      net'.validate = .ok () ∧ net.compile ≠ net'.compile ∧
      ∀ sha256, NoCollision sha256 net net' → net.contentHash sha256 ≠ net'.contentHash sha256 := by
  let es : List Edge := [⟨"a","o","c","x",1⟩,⟨"b","o","c","x",1⟩]
  have hself : constants.Perm constants := .refl _
  refine ⟨.mk constants es [],.mk constants es.reverse [],merging_built hself _,
    merging_built hself _,merging_reordered hself (List.reverse_perm es).symm,by decide,by decide,
    ?_,?_⟩
  · intro h
    have hvalues : lastX (compile (.mk constants es [])) ≠
        lastX (compile (.mk constants es.reverse [])) := by decide
    exact hvalues (congrArg lastX h)
  · intro sha256 hinj h
    have hsome : ∃ digest, contentHash sha256 (.mk constants es []) = some digest := ⟨_,rfl⟩
    obtain ⟨digest,hdigest⟩ := hsome
    have halike := alike_of_contentHash hinj hdigest (h ▸ hdigest)
    have hedges := (alike_toDict.mp halike).2.1
    exact absurd hedges (by decide)

theorem insertion_independent_iff_constants :
    ((∃ digest, contentHash Digest.ofChars (.mk constants [⟨"a","o","c","x",1⟩] []) = some digest ∧
        contentHash Digest.ofChars (.mk constants.reverse [⟨"a","o","c","x",1⟩] []) =
          some digest) ∧
      (validate (.mk constants [⟨"a","o","c","x",1⟩] []) = .ok () →
        validate (.mk constants.reverse [⟨"a","o","c","x",1⟩] []) = .ok () →
        compile (.mk constants [⟨"a","o","c","x",1⟩] []) =
          compile (.mk constants.reverse [⟨"a","o","c","x",1⟩] []))) ↔
      SameOrder (.mk constants [⟨"a","o","c","x",1⟩] [])
        (.mk constants.reverse [⟨"a","o","c","x",1⟩] []) := by
  have hperm : constants.reverse.Perm constants := List.reverse_perm _
  have hsame : toDict (.mk constants [⟨"a","o","c","x",1⟩] []) =
      toDict (.mk constants.reverse [⟨"a","o","c","x",1⟩] []) := rfl
  refine insertion_independent_iff Digest.ofChars (merging_built (.refl _) _)
    (merging_reordered hperm (.refl _)) fun j k hj hk _ => ?_
  rw [document?,← hsame] at hk
  rw [Option.some.inj (hj.symm.trans hk)]

theorem sorted_sortedQueue {q : List String} {x : String} {r : List String}
    (hq : q.Pairwise (· ≤ ·)) (h : sortedQueue.pop q = some (x,r)) :
    r.Pairwise (· ≤ ·) ∧ ∀ y ∈ q, x ≤ y := by
  cases q with
  | nil => cases h
  | cons y q =>
    obtain ⟨rfl,rfl⟩ := Prod.mk.inj (Option.some.inj h)
    rw [List.pairwise_cons] at hq
    refine ⟨hq.2,fun z hz => ?_⟩
    rcases List.mem_cons.1 hz with rfl | hz
    · exact le_refl _
    · exact hq.1 z hz

theorem links_forward {net : ComponentNetwork} (h : ∀ e ∈ net.edges, e.source ∈ net.ids ∧
    e.target ∈ net.ids) : ∀ l ∈ net.links, l.1 ∈ net.ids ∧ l.2 ∈ net.ids := by
  intro l hl
  obtain ⟨e,he,rfl⟩ := List.mem_map.1 hl
  exact h e he

theorem order_topological {net : ComponentNetwork} (h : ∀ e ∈ net.edges, e.source ∈ net.ids ∧
    e.target ∈ net.ids) (hacyclic : Kahn.Acyclic net.links) :
    Kahn.Topological net.links net.ids net.order := by
  have hlinks := links_forward h
  have hsorted : Kahn.Sorted net.links net.ids net.order := Kahn.sort_sorted sortedQueue
    (fun n => sortStrings_perm (Kahn.successors net.links n)) (fun l hl => (hlinks l hl).2)
    net.ids_nodup (sortStrings_perm _)
  have hlength := (hsorted.full_iff net.ids_nodup (fun l hl => (hlinks l hl).1)
    fun l hl => (hlinks l hl).2).2 hacyclic
  exact ⟨(List.subperm_of_subset hsorted.nodup hsorted.mem).perm_of_length_le hlength.ge,
    hsorted.before⟩

theorem order_least {net : ComponentNetwork} (h : ∀ e ∈ net.edges, e.source ∈ net.ids ∧
    e.target ∈ net.ids) {other : List String} (hother : Kahn.Topological net.links net.ids other) :
    net.order = other ∨ List.Lex (· < ·) net.order other :=
  Kahn.sort_least (P := fun q => q.Pairwise (· ≤ ·))
    (fun q x _ => List.pairwise_insertionSort (· ≤ ·) (q ++ [x]))
    (fun _ _ _ hq hpop => sorted_sortedQueue hq hpop)
    (fun n => sortStrings_perm (Kahn.successors net.links n)) (fun l hl => (links_forward h l hl).2)
    net.ids_nodup (List.pairwise_insertionSort (· ≤ ·) _) (sortStrings_perm _) hother

/-- The acyclicity check accepts exactly the edges without a cycle, and then the order is the least
of all in which every edge goes forward, whatever was added first. -/
theorem checkAcyclic_order {net : ComponentNetwork} (h : ∀ e ∈ net.edges, e.source ∈ net.ids ∧
    e.target ∈ net.ids) :
    (net.checkAcyclic = .ok () ↔ Kahn.Acyclic net.links) ∧
    (net.checkAcyclic = .ok () → Kahn.Topological net.links net.ids net.order ∧
      (∀ other, Kahn.Topological net.links net.ids other →
        net.order = other ∨ List.Lex (· < ·) net.order other) ∧
      ∀ net' : ComponentNetwork, net'.ids.Perm net.ids → (∀ l, l ∈ net'.links ↔ l ∈ net.links) →
        net'.order = net.order) := by
  have hlinks := links_forward h
  have hsorted := Kahn.sort_sorted stack (fun n => List.Perm.refl (Kahn.successors net.links n))
    (fun l hl => (hlinks l hl).2) net.ids_nodup (List.Perm.refl _)
  have hcheck : net.checkAcyclic = .ok () ↔ Kahn.Acyclic net.links := by
    rw [← hsorted.full_iff net.ids_nodup (fun l hl => (hlinks l hl).1) fun l hl => (hlinks l hl).2]
    simp only [checkAcyclic,require_ok,decide_eq_true_eq]
    exact Iff.rfl
  refine ⟨hcheck,fun haccepts => ?_⟩
  have hacyclic := hcheck.1 haccepts
  refine ⟨order_topological h hacyclic,fun other => order_least h,fun net' hids hsame => ?_⟩
  have h' : ∀ e ∈ net'.edges, e.source ∈ net'.ids ∧ e.target ∈ net'.ids := by
    intro e he
    have hl := hlinks _ ((hsame _).1 (List.mem_map_of_mem he))
    exact ⟨hids.mem_iff.2 hl.1,hids.mem_iff.2 hl.2⟩
  have hrelation : (fun a b => (a,b) ∈ net'.links) = fun a b => (a,b) ∈ net.links :=
    funext fun a => funext fun b => propext (hsame (a,b))
  have hacyclic' : Kahn.Acyclic net'.links := by
    rw [Kahn.Acyclic,hrelation]
    exact hacyclic
  have hours := order_topological h hacyclic
  have htheirs := order_topological h' hacyclic'
  have hle := order_least h ⟨htheirs.perm.trans hids,fun l x r heq a ha =>
    htheirs.before l x r heq a ((hsame _).2 ha)⟩
  have hge := order_least h' ⟨hours.perm.trans hids.symm,fun l x r heq a ha =>
    hours.before l x r heq a ((hsame _).1 ha)⟩
  rcases hge with hge | hge
  · exact hge
  rcases hle with hle | hle
  · exact hle.symm
  · exact absurd hge (List.lt_asymm hle)

theorem checkAcyclic_order_repeated : Kahn.Topological
    (links (.mk constants [⟨"c","o","a","x",1⟩,⟨"c","o","a","y",1⟩] []))
    (ids (.mk constants [⟨"c","o","a","x",1⟩,⟨"c","o","a","y",1⟩] []))
    (order (.mk constants [⟨"c","o","a","x",1⟩,⟨"c","o","a","y",1⟩] [])) :=
  ((checkAcyclic_order (by decide)).2 (by decide)).1

end ComponentNetwork
end AgentCentric.Network

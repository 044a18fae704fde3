import AgentCentric.Ontology.Entailment

namespace AgentCentric
variable {sha256 : List Char → HexDigest} {g : SemanticGraph} {o : Ontology}

def Ontology.directSubclasses (o : Ontology) (current : String) : List String :=
  (o.terms.filter fun t => t.kind = .kindClass ∧ current ∈ t.subClassOf).map OntologyTerm.name

/-- `subclasses_of`. Each name is entered once and puts no more names on the stack than there are
terms. -/
def Ontology.subclassesOf (o : Ontology) (name : String) : List String :=
  sortStrings (Worklist.explore o.directSubclasses
    ((o.terms.length + 1) * (o.terms.length + 1) + 2) [] [name])

def SemanticGraph.subjectsOfType (g : SemanticGraph) (typeName : String) : List String :=
  sortStrings (((g.assertions.filter fun a => a.p = coreType ∧ a.o.val = .term typeName).map
    Assertion.s).dedup)

def Ontology.Below (o : Ontology) (above below : String) : Prop :=
  ∃ t ∈ o.terms, t.name = below ∧ above ∈ t.subClassOf

theorem Ontology.mem_directSubclasses {a b : String} : b ∈ o.directSubclasses a ↔ o.Below a b := by
  simp only [directSubclasses,List.mem_map,List.mem_filter,decide_eq_true_eq]
  constructor
  · rintro ⟨t,⟨ht,_,ha⟩,rfl⟩
    exact ⟨t,ht,rfl,ha⟩
  · rintro ⟨t,ht,rfl,ha⟩
    refine ⟨t,⟨ht,?_,ha⟩,rfl⟩
    cases hkind : t.kind with
    | kindClass => rfl
    | kindProperty =>
      rw [t.property_flat hkind] at ha
      cases ha

theorem Ontology.mem_subclassesOf {name d : String} :
    d ∈ o.subclassesOf name ↔ Relation.ReflTransGen o.Below name d := by
  have hnext : ∀ a, ∀ b ∈ o.directSubclasses a, b ∈ name :: o.terms.map OntologyTerm.name := by
    intro a b hb
    obtain ⟨t,ht,rfl,_⟩ := mem_directSubclasses.mp hb
    exact List.mem_cons_of_mem _ (List.mem_map_of_mem ht)
  have hwidth : ∀ a, (o.directSubclasses a).length ≤ o.terms.length := by
    intro a
    rw [directSubclasses,List.length_map]
    exact List.length_filter_le _ _
  have hpaths : (fun a b => b ∈ o.directSubclasses a) = o.Below :=
    funext fun a => funext fun b => propext mem_directSubclasses
  have hroots : ∀ r ∈ [name], r ∈ name :: o.terms.map OntologyTerm.name := by simp
  rw [subclassesOf,(sortStrings_perm _).mem_iff,
    Worklist.mem_explore hroots (fun a _ => hnext a) hwidth (by simp),hpaths]
  simp

theorem SemanticGraph.mem_subjectsOfType {s typeName : String} :
    s ∈ g.subjectsOfType typeName ↔ (⟨s,coreType,.term typeName⟩ : Fact) ∈ g.facts := by
  simp only [subjectsOfType,(sortStrings_perm _).mem_iff,List.mem_dedup,List.mem_map,
    List.mem_filter,decide_eq_true_eq,facts,Set.mem_ofPred_eq,Assertion.fact,Fact.mk.injEq]
  constructor
  · rintro ⟨a,⟨ha,hp,ho⟩,rfl⟩
    exact ⟨a,ha,rfl,hp,ho⟩
  · rintro ⟨a,ha,rfl,hp,ho⟩
    exact ⟨a,⟨ha,hp,ho⟩,rfl⟩

open BaseRules

theorem closureModel_closed {c : Closure} (h : computeClosure sha256 g o = .ok c) {rule : Rule}
    (hrule : rule ∈ o.rules) (hpositive : ∀ a ∈ rule.body, a.negated = false) {θ : Valuation}
    (hbody : ∀ a ∈ rule.body, ∃ f ∈ closureModel g o, a.Matches θ f) {head : Fact}
    (hhead : rule.head.headAt θ = some head) : head ∈ closureModel g o := by
  obtain ⟨_,_,_,_,⟨σ,hσ⟩,_⟩ := computeClosure_ok h
  have hfires : rule.Fires (closureModel g o) (closureModel g o) θ := by
    refine ⟨fun a ha _ => hbody a ha,fun a ha hnegated => ?_⟩
    rw [hpositive a ha] at hnegated
    cases hnegated
  obtain ⟨r,hr,rfl,hpos,hneg⟩ := mem_ruleProgram hrule hhead hfires
  exact Program.closed_perfect (stratified_ruleProgram (Bound.meets_least hσ)) hr hpos hneg

theorem subclass_trans {c : Closure} (h : computeClosure sha256 g o = .ok c)
    (hrule : subclassTransitive ∈ o.rules) {a b : String} {v : Val}
    (hab : (⟨a,coreSubClassOf,.term b⟩ : Fact) ∈ closureModel g o)
    (hbv : (⟨b,coreSubClassOf,v⟩ : Fact) ∈ closureModel g o) :
    (⟨a,coreSubClassOf,v⟩ : Fact) ∈ closureModel g o := by
  let θ : Valuation := fun name =>
    if name = "x" then .term a else if name = "y" then .term b else v
  refine closureModel_closed h hrule (by decide) (θ := θ) ?_ (by rfl)
  simp only [subclassTransitive,List.mem_cons,List.not_mem_nil,or_false,forall_eq_or_imp,
    forall_eq]
  exact ⟨⟨_,hab,rfl,fun _ => rfl,fun _ => rfl⟩,⟨_,hbv,rfl,fun _ => rfl,fun _ => rfl⟩⟩

theorem type_subsumed {c : Closure} (h : computeClosure sha256 g o = .ok c)
    (hrule : typeSubsumption ∈ o.rules) {s d : String} {v : Val}
    (hsd : (⟨s,coreType,.term d⟩ : Fact) ∈ closureModel g o)
    (hdv : (⟨d,coreSubClassOf,v⟩ : Fact) ∈ closureModel g o) :
    (⟨s,coreType,v⟩ : Fact) ∈ closureModel g o := by
  let θ : Valuation := fun name =>
    if name = "x" then .term s else if name = "d" then .term d else v
  refine closureModel_closed h hrule (by decide) (θ := θ) ?_ (by rfl)
  simp only [typeSubsumption,List.mem_cons,List.not_mem_nil,or_false,forall_eq_or_imp,forall_eq]
  exact ⟨⟨_,hsd,rfl,fun _ => rfl,fun _ => rfl⟩,⟨_,hdv,rfl,fun _ => rfl,fun _ => rfl⟩⟩

theorem below_entailed {c : Closure} (h : computeClosure sha256 g o = .ok c)
    (hrule : subclassTransitive ∈ o.rules) {a b : String}
    (hpath : Relation.ReflTransGen o.Below a b) :
    b = a ∨ (⟨b,coreSubClassOf,.term a⟩ : Fact) ∈ closureModel g o := by
  have hdeclared {a b : String} (hab : o.Below a b) :
      (⟨b,coreSubClassOf,.term a⟩ : Fact) ∈ closureModel g o := by
    obtain ⟨t,ht,rfl,ha⟩ := hab
    exact Program.subset_perfect (.inr ⟨t,ht,.inr (.inl ⟨a,ha,rfl⟩)⟩)
  induction hpath with
  | refl => exact .inl rfl
  | tail _ hstep ih =>
    rcases ih with rfl | hfact
    · exact .inr (hdeclared hstep)
    · exact .inr (subclass_trans h hrule (hdeclared hstep) hfact)

theorem typed_above {c : Closure} (h : computeClosure sha256 g o = .ok c)
    (htransitive : subclassTransitive ∈ o.rules) (hsubsumption : typeSubsumption ∈ o.rules)
    {s a b : String} (hpath : Relation.ReflTransGen o.Below a b)
    (hs : (⟨s,coreType,.term b⟩ : Fact) ∈ closureModel g o) :
    (⟨s,coreType,.term a⟩ : Fact) ∈ closureModel g o := by
  rcases below_entailed h htransitive hpath with rfl | hfact
  · exact hs
  · exact type_subsumed h hsubsumption hs hfact

/-- What the two rules of the hierarchy can add to a graph that says nothing of subclasses. -/
def Subsumed (g : SemanticGraph) (o : Ontology) : Set Fact :=
  {f | f ∈ g.facts ∪ o.states ∧ f.p ≠ coreSubClassOf} ∪
  {f | ∃ a b, Relation.TransGen o.Below a b ∧ f = ⟨b,coreSubClassOf,.term a⟩} ∪
  {f | ∃ s a b, Relation.ReflTransGen o.Below a b ∧ (⟨s,coreType,.term b⟩ : Fact) ∈ g.facts ∧
    f = ⟨s,coreType,.term a⟩}

theorem states_predicate {f : Fact} (h : f ∈ o.states) : f.p ≠ coreType := by
  obtain ⟨t,_,rfl | ⟨x,_,rfl⟩ | ⟨x,_,rfl⟩ | ⟨x,_,rfl⟩⟩ := h
  · simp [coreKind,coreType]
  · simp [coreSubClassOf,coreType]
  · simp [coreDomain,coreType]
  · simp [coreRange,coreType]

theorem states_below {s : String} {v : Val} (h : (⟨s,coreSubClassOf,v⟩ : Fact) ∈ o.states) :
    ∃ a, v = .term a ∧ o.Below a s := by
  obtain ⟨t,ht,heq | ⟨x,hx,heq⟩ | ⟨x,_,heq⟩ | ⟨x,_,heq⟩⟩ := h
  · simp [coreSubClassOf,coreKind] at heq
  · simp only [Fact.mk.injEq,true_and] at heq
    obtain ⟨rfl,rfl⟩ := heq
    exact ⟨x,rfl,t,ht,rfl,hx⟩
  · simp [coreSubClassOf,coreDomain] at heq
  · simp [coreSubClassOf,coreRange] at heq

theorem Subsumed.below {s : String} {v : Val} (h : (⟨s,coreSubClassOf,v⟩ : Fact) ∈ Subsumed g o) :
    ∃ a, v = .term a ∧ Relation.TransGen o.Below a s := by
  rcases h with (⟨_,hne⟩ | ⟨a,b,hpath,heq⟩) | ⟨s',a,b,_,_,heq⟩
  · exact absurd rfl hne
  · simp only [Fact.mk.injEq,true_and] at heq
    obtain ⟨rfl,rfl⟩ := heq
    exact ⟨a,rfl,hpath⟩
  · simp [coreSubClassOf,coreType] at heq

theorem Subsumed.typed {s a : String} (h : (⟨s,coreType,.term a⟩ : Fact) ∈ Subsumed g o) :
    ∃ b, Relation.ReflTransGen o.Below a b ∧ (⟨s,coreType,.term b⟩ : Fact) ∈ g.facts := by
  rcases h with (⟨hold | hold,_⟩ | ⟨a,b,hpath,heq⟩) | ⟨s',a',b,hpath,hs,heq⟩
  · exact ⟨a,.refl,hold⟩
  · exact absurd rfl (states_predicate hold)
  · simp [coreSubClassOf,coreType] at heq
  · simp only [Fact.mk.injEq,Val.term.injEq,true_and] at heq
    obtain ⟨rfl,rfl⟩ := heq
    exact ⟨b,hpath,hs⟩

theorem subsumed_transitive {θ : Valuation} {facts : Set Fact} {head : Fact}
    (htakes : subclassTransitive.Takes θ facts) (hfacts : facts ⊆ Subsumed g o)
    (hhead : subclassTransitive.head.headAt θ = some head) : head ∈ Subsumed g o := by
  obtain ⟨f,hf,hfp,hfs,hfo⟩ := htakes.each ⟨x,coreSubClassOf,y,false,by decide,rfl⟩
    (by simp [subclassTransitive]) rfl
  obtain ⟨f',hf',hfp',hfs',hfo'⟩ := htakes.each ⟨y,coreSubClassOf,z,false,by decide,rfl⟩
    (by simp [subclassTransitive]) rfl
  obtain ⟨a,p,v⟩ := f
  obtain ⟨b,p',v'⟩ := f'
  simp only at hfp hfs hfo hfp' hfs' hfo'
  subst hfp hfp'
  have hx : θ "x" = .term a := hfs (by decide)
  have hy : θ "y" = v := hfo (by decide)
  have hy' : θ "y" = .term b := hfs' (by decide)
  have hz : θ "z" = v' := hfo' (by decide)
  obtain ⟨b',hb',hpath⟩ := Subsumed.below (hfacts hf)
  obtain ⟨e,rfl,hpath'⟩ := Subsumed.below (hfacts hf')
  obtain rfl : b' = b := Val.term.inj (hb'.symm.trans (hy.symm.trans hy'))
  have hsaid : subclassTransitive.head.headAt θ = some ⟨a,coreSubClassOf,.term e⟩ := by
    simp [RuleAtom.headAt,subclassTransitive,Pattern.subjectAt,Pattern.objectAt,x,z,hx,hz]
  obtain rfl := Option.some.inj (hsaid.symm.trans hhead)
  exact .inl (.inr ⟨e,a,hpath'.trans hpath,rfl⟩)

theorem subsumed_typed {θ : Valuation} {facts : Set Fact} {head : Fact}
    (htakes : typeSubsumption.Takes θ facts) (hfacts : facts ⊆ Subsumed g o)
    (hhead : typeSubsumption.head.headAt θ = some head) : head ∈ Subsumed g o := by
  obtain ⟨f,hf,hfp,hfs,hfo⟩ := htakes.each ⟨x,coreType,d,false,by decide,rfl⟩
    (by simp [typeSubsumption]) rfl
  obtain ⟨f',hf',hfp',hfs',hfo'⟩ := htakes.each ⟨d,coreSubClassOf,c,false,by decide,rfl⟩
    (by simp [typeSubsumption]) rfl
  obtain ⟨s,p,v⟩ := f
  obtain ⟨b,p',v'⟩ := f'
  simp only at hfp hfs hfo hfp' hfs' hfo'
  subst hfp hfp'
  have hx : θ "x" = .term s := hfs (by decide)
  have hd : θ "d" = v := hfo (by decide)
  have hd' : θ "d" = .term b := hfs' (by decide)
  have hc : θ "c" = v' := hfo' (by decide)
  obtain rfl : v = .term b := hd.symm.trans hd'
  obtain ⟨a,rfl,hpath⟩ := Subsumed.below (hfacts hf')
  obtain ⟨b',hpath',hs⟩ := Subsumed.typed (hfacts hf)
  have hsaid : typeSubsumption.head.headAt θ = some ⟨s,coreType,.term a⟩ := by
    simp [RuleAtom.headAt,typeSubsumption,Pattern.subjectAt,Pattern.objectAt,x,c,hx,hc]
  obtain rfl := Option.some.inj (hsaid.symm.trans hhead)
  exact .inr ⟨s,a,b',hpath.to_reflTransGen.trans hpath',hs,rfl⟩

theorem closureModel_subsumed (hrules : ∀ r ∈ o.rules, r = subclassTransitive ∨ r = typeSubsumption)
    (hplain : ∀ f ∈ g.facts, f.p ≠ coreSubClassOf) : closureModel g o ⊆ Subsumed g o := by
  apply Program.perfect_subset
  · rintro ⟨s,p,v⟩ hf
    by_cases hp : p = coreSubClassOf
    · subst hp
      rcases hf with hf | hf
      · exact absurd rfl (hplain _ hf)
      · obtain ⟨a,rfl,hbelow⟩ := states_below hf
        exact .inl (.inr ⟨a,s,.single hbelow,rfl⟩)
    · exact .inl (.inl ⟨hf,hp⟩)
  · rintro _ ⟨rule,hrule,θ,facts,head,hhead,htakes,rfl⟩ hfacts
    rcases hrules rule hrule with rfl | rfl
    · exact subsumed_transitive htakes hfacts hhead
    · exact subsumed_typed htakes hfacts hhead

/-- In a closure under the rules of the hierarchy, what has the type of a class below a class
has the type of that class; and under these rules alone, over a graph that says nothing of
subclasses, a class has just the subjects of the classes that the traversal finds. -/
theorem closure_subsumption {c : Closure} (h : computeClosure sha256 g o = .ok c)
    {scope : String} {g' : SemanticGraph} (hg' : closureGraph c scope = .ok g')
    (htransitive : subclassTransitive ∈ o.rules) (hsubsumption : typeSubsumption ∈ o.rules)
    (name : String) :
    (∀ d ∈ o.subclassesOf name, ∀ s ∈ g'.subjectsOfType d, s ∈ g'.subjectsOfType name) ∧
    ((∀ r ∈ o.rules, r = subclassTransitive ∨ r = typeSubsumption) →
      (∀ f ∈ g.facts, f.p ≠ coreSubClassOf) →
        ∀ s, s ∈ g'.subjectsOfType name ↔
          ∃ d ∈ o.subclassesOf name, s ∈ g.subjectsOfType d) := by
  obtain ⟨base,final,hrun,hfinal,-⟩ := computeClosure_ok h
  have hfacts : g'.facts = closureModel g o := by
    rw [← assertions_facts hrun hfinal]
    exact SemanticGraph.facts_new hg'
  simp only [SemanticGraph.mem_subjectsOfType,Ontology.mem_subclassesOf,hfacts]
  have habove {d s : String} (hpath : Relation.ReflTransGen o.Below name d)
      (hs : (⟨s,coreType,.term d⟩ : Fact) ∈ closureModel g o) :
      (⟨s,coreType,.term name⟩ : Fact) ∈ closureModel g o :=
    typed_above h htransitive hsubsumption hpath hs
  refine ⟨fun d hd s hs => habove hd hs,fun hrules hplain s => ⟨fun hs => ?_,?_⟩⟩
  · exact Subsumed.typed (closureModel_subsumed hrules hplain hs)
  · rintro ⟨d,hpath,hs⟩
    exact habove hpath (Program.subset_perfect (.inl hs))

namespace Sample

/-- One class below two others, and a fourth one above these. -/
def diamond : Ontology where
  id := "o"
  version := "1"
  imports := []
  terms := [named "Bottom" (by decide) ["Left","Right"],named "Left" (by decide) ["Top"],
    named "Right" (by decide) ["Top"],named "Top" (by decide) []]
  rules := [subclassTransitive,typeSubsumption]
  id_ne := fragment.id_ne
  version_ne := fragment.version_ne
  terms_le := by decide
  names_nodup := by decide
  imports_nodup := fragment.imports_nodup
  rules_le := by decide
  rules_nodup := by decide

def placed : SemanticGraph where
  scope := "s"
  assertions := [⟨"u",coreType,.term ⟨"Bottom",by decide⟩,u_ne,BaseRules.coreType_ne⟩,
    ⟨"v",coreType,.term ⟨"Left",by decide⟩,v_ne,BaseRules.coreType_ne⟩]
  sources := []
  scope_ne := graph.scope_ne
  sorted := by decide +kernel
  bounded := by decide

end Sample

theorem closure_subsumption_diamond : ∃ c g',
    computeClosure Sample.zeros Sample.placed Sample.diamond = .ok c ∧
      closureGraph c "closed" = .ok g' ∧ ∀ s, s ∈ g'.subjectsOfType "Top" ↔
        ∃ d ∈ Sample.diamond.subclassesOf "Top", s ∈ Sample.placed.subjectsOfType d := by
  have hreturns : (computeClosure Sample.zeros Sample.placed Sample.diamond).toOption.any
      (fun _ => true) = true := by decide +kernel
  obtain ⟨c,hc,-⟩ := ok_of_any hreturns
  obtain ⟨g',hg',-⟩ :=
    SemanticGraph.new_of_sorted (by decide : "closed" ≠ "") c.sorted c.bounded
  refine ⟨c,g',hc,hg',(closure_subsumption hc hg' (by simp [Sample.diamond])
    (by simp [Sample.diamond]) "Top").2 (by simp [Sample.diamond]) ?_⟩
  rintro f ⟨a,ha,rfl⟩
  revert a
  decide

end AgentCentric

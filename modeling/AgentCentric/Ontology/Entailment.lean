import AgentCentric.Ontology.Perfect

namespace AgentCentric
variable {sha256 : List Char → HexDigest} {g g' : SemanticGraph} {o o' : Ontology}

theorem named_iff : o.Named ↔ ∀ f ∈ o.states, f.o ≠ .term "" := by
  constructor
  · rintro h f ⟨t,ht,hf⟩ hempty
    obtain ⟨hsub,hdomain,hrange⟩ := h t ht
    rcases hf with rfl | ⟨x,hx,rfl⟩ | ⟨x,hx,rfl⟩ | ⟨x,hx,rfl⟩
    · cases hempty
    · cases hempty
      exact hsub hx
    · cases hempty
      exact hdomain hx
    · cases hempty
      exact hrange hx
  · intro h t ht
    refine ⟨fun hx => ?_,fun hx => ?_,fun hx => ?_⟩
    · exact h _ ⟨t,ht,.inr (.inl ⟨"",hx,rfl⟩)⟩ rfl
    · exact h _ ⟨t,ht,.inr (.inr (.inl ⟨"",hx,rfl⟩))⟩ rfl
    · exact h _ ⟨t,ht,.inr (.inr (.inr ⟨"",hx,rfl⟩))⟩ rfl

/-- The model depends only on what the graph and the fragment say and on how the rules are
written, whatever their order. -/
theorem closureModel_congr (hg : g'.facts = g.facts) (ho : o'.states = o.states)
    (hrules : ∀ r ∈ o.rules, ∃ s ∈ o'.rules, r.Alike s)
    (hrules' : ∀ s ∈ o'.rules, ∃ r ∈ o.rules, s.Alike r) : closureModel g' o' = closureModel g o := by
  have hprogram : ruleProgram o'.rules = ruleProgram o.rules :=
    (ruleProgram_subset hrules').antisymm (ruleProgram_subset hrules)
  have hmeets : ∀ σ, Bound.Meets (bounds o'.rules) σ ↔ Bound.Meets (bounds o.rules) σ :=
    fun σ => ⟨meets_of_alike hrules,meets_of_alike hrules'⟩
  have hleast : Bound.least (bounds o'.rules) = Bound.least (bounds o.rules) := by
    funext p
    simp only [Bound.least,hmeets]
  rw [closureModel,closureModel,hprogram,hleast,hg,ho]

theorem assertions_facts {base final : Collection} {c : Closure} (hrun : Run g o base final)
    (h : c.assertions = final.ordered) : factsOf c.assertions = closureModel g o := by
  rw [h,factsOf_ordered,hrun.facts]

/-- The returned assertions are the perfect model of the program: level by level the least
superset closed under the rules of the level, with negation read in the completed levels. Neither
the order of rules, body atoms and assertions nor duplicates change the result. -/
theorem closure_perfect {c : Closure} (h : computeClosure sha256 g o = .ok c) :
    factsOf c.assertions = closureModel g o ∧
      ∀ g' o', g'.facts = g.facts → o'.states = o.states →
        (∀ r ∈ o.rules, ∃ s ∈ o'.rules, r.Alike s) → (∀ s ∈ o'.rules, ∃ r ∈ o.rules, s.Alike r) →
        ∃ c', computeClosure sha256 g' o' = .ok c' ∧
          c'.assertions.map Assertion.key = c.assertions.map Assertion.key := by
  obtain ⟨base,final,hrun,hfinal,-,-⟩ := computeClosure_ok h
  refine ⟨assertions_facts hrun hfinal,fun g' o' hg ho hrules hrules' => ?_⟩
  have hmodel := closureModel_congr hg ho hrules hrules'
  obtain ⟨hnamed,⟨σ,hσ⟩,hsize,hresolves⟩ := (computeClosure_returns sha256).1 ⟨c,h⟩
  have hnamed' : o'.Named := by
    rw [named_iff,ho]
    exact named_iff.1 hnamed
  obtain ⟨c',hc'⟩ := (computeClosure_returns sha256).2 ⟨hnamed',
    ⟨σ,meets_of_alike hrules' hσ⟩,hmodel ▸ hsize,hmodel ▸ resolves_of_alike hrules' hresolves⟩
  obtain ⟨base',final',hrun',hfinal',-,-⟩ := computeClosure_ok hc'
  refine ⟨c',hc',?_⟩
  rw [hfinal,hfinal']
  apply Collection.keys_congr
  rw [hrun.facts,hrun'.facts,hmodel]

namespace Sample

def zeros (_ : List Char) : HexDigest := .zeros

def named (name : String) (h : name ≠ "") (parents : List String) : OntologyTerm where
  kind := .kindClass
  name := name
  subClassOf := parents
  domain := []
  range := []
  name_ne := h
  property_flat := by simp
  class_plain := by simp

def x : Pattern := BaseRules.x
def c : Pattern := BaseRules.c
def d : Pattern := BaseRules.d

theorem a_ne : "A" ≠ "" := by decide
theorem b_ne : "B" ≠ "" := by decide
theorem u_ne : "u" ≠ "" := by decide
theorem v_ne : "v" ≠ "" := by decide

def subsumption : Rule where
  id := "subsumption"
  head := ⟨x,"type",c,false,by decide,rfl⟩
  body := [⟨x,"type",d,false,by decide,rfl⟩,⟨d,coreSubClassOf,c,false,BaseRules.coreSubClassOf_ne,rfl⟩]
  id_ne := by decide
  head_positive := rfl
  body_ne := by simp
  body_le := by decide
  restricted := by decide

def source : Rule where
  id := "source"
  head := ⟨x,"role",.term "Source" (by decide),false,by decide,rfl⟩
  body := [⟨x,"type",.term "B" (by decide),false,by decide,rfl⟩,⟨x,"input",.any,true,by decide,rfl⟩]
  id_ne := by decide
  head_positive := rfl
  body_ne := by simp
  body_le := by decide
  restricted := by decide

def fragment : Ontology where
  id := "o"
  version := "1"
  imports := []
  terms := [named "A" (by decide) ["B"],named "B" (by decide) []]
  rules := [source,subsumption]
  id_ne := by decide
  version_ne := by decide
  terms_le := by decide
  names_nodup := by decide
  imports_nodup := by decide
  rules_le := by decide
  rules_nodup := by decide

def rated (value : Json) : Rule where
  id := "rated"
  head := ⟨x,"rating",.lit .float value,false,by decide,rfl⟩
  body := [⟨x,"type",.term "A" (by decide),false,by decide,rfl⟩]
  id_ne := by decide
  head_positive := rfl
  body_ne := by simp
  body_le := by decide
  restricted := by
    change ∀ y ∈ ["x"], y ∈ ["x"]
    exact fun y hy => hy

def rating (value : Json) : Ontology where
  id := "o"
  version := "1"
  imports := []
  terms := []
  rules := [rated value]
  id_ne := by decide
  version_ne := by decide
  terms_le := by simp
  names_nodup := by simp
  imports_nodup := by simp
  rules_le := by simp [maxRuleCount]
  rules_nodup := by simp

def widened : Ontology where
  id := "o"
  version := "2"
  imports := []
  terms := [named "A" (by decide) ["B"],named "B" (by decide) []]
  rules := [rated (.int 1),subsumption]
  id_ne := by decide
  version_ne := by decide
  terms_le := by decide
  names_nodup := by decide
  imports_nodup := by decide
  rules_le := by decide
  rules_nodup := by decide

/-- The constructor takes the wildcard for no variable, and it is never bound. -/
def unbound : Rule where
  id := "unbound"
  head := ⟨x,"made",.any,false,by decide,rfl⟩
  body := [⟨x,"type",.term "A" (by decide),false,by decide,rfl⟩]
  id_ne := by decide
  head_positive := rfl
  body_ne := by simp
  body_le := by decide
  restricted := by decide

def graph : SemanticGraph where
  scope := "s"
  assertions := [⟨"u","type",.term ⟨"A",by decide⟩,by decide,by decide⟩,
    ⟨"v","type",.term ⟨"A",by decide⟩,by decide,by decide⟩,
    ⟨"v","input",.term ⟨"p",by decide⟩,by decide,by decide⟩]
  sources := []
  scope_ne := by decide
  sorted := by decide +kernel
  bounded := by decide

theorem returns : ∃ c, computeClosure zeros graph fragment = .ok c := by
  have hreturns : (computeClosure zeros graph fragment).toOption.any (fun _ => true) = true := by
    decide +kernel
  obtain ⟨c,hc,-⟩ := ok_of_any hreturns
  exact ⟨c,hc⟩

end Sample

theorem closure_perfect_fragment : ∃ c, computeClosure Sample.zeros Sample.graph Sample.fragment = .ok c ∧
    factsOf c.assertions = closureModel Sample.graph Sample.fragment := by
  obtain ⟨c,hc⟩ := Sample.returns
  exact ⟨c,hc,(closure_perfect hc).1⟩

theorem values_base {c : Collection} (h : closureBase g o = .ok c) (hstates : o.states ⊆ g.facts) :
    c.values = g.assertions := by
  simp only [closureBase,bind_ok] at h
  obtain ⟨as,has,h⟩ := h
  split at h
  · cases h
  · cases h
    have hgraph : (g.assertions.foldl Collection.add .empty).values = g.assertions :=
      Collection.values_foldl Collection.add_of_fresh (fun a _ => Collection.contains_empty a.key)
        (g.sorted.imp ne_of_lt)
    have hmem : ∀ a ∈ as, a.fact ∈ (g.assertions.foldl Collection.add .empty).facts := by
      intro a ha
      rw [Collection.facts,hgraph]
      exact hstates (ontologyFacts_ok has ▸ ⟨a,ha,rfl⟩)
    have hstay : ∀ {as : List Assertion} {c : Collection}, (∀ a ∈ as, a.fact ∈ c.facts) →
        as.foldl Collection.add c = c := by
      intro as c hall
      induction as with
      | nil => rfl
      | cons a as ih =>
        rw [List.foldl_cons,Collection.add_of_mem (hall a List.mem_cons_self)]
        exact ih fun b hb => hall b (List.mem_cons_of_mem a hb)
    rw [List.foldl_append,hstay hmem,hgraph]

/-- The closure of a closure is the closure itself. -/
theorem closure_idempotent {scope : String} {c : Closure} (hscope : scope ≠ "")
    (h : computeClosure sha256 g o = .ok c) :
    ∃ g' c', closureGraph c scope = .ok g' ∧ computeClosure sha256 g' o = .ok c' ∧
      c'.assertions = c.assertions := by
  obtain ⟨base,final,hrun,hfinal,⟨σ,hσ⟩,-⟩ := computeClosure_ok h
  obtain ⟨g',hg',hassertions⟩ := SemanticGraph.new_of_sorted hscope c.sorted c.bounded
  have hfacts : g'.facts = closureModel g o := by
    rw [← assertions_facts hrun hfinal,← hassertions]
    rfl
  have hstates : o.states ⊆ closureModel g o :=
    Set.subset_union_right.trans Program.subset_perfect
  have hstratified := stratified_ruleProgram (Bound.meets_least hσ)
  have hmodel : closureModel g' o = closureModel g o := by
    rw [closureModel,hfacts,Set.union_eq_self_of_subset_right hstates]
    exact Program.perfect_perfect hstratified
  obtain ⟨hnamed,hmeets,hsize,hresolves⟩ := (computeClosure_returns sha256).1 ⟨c,h⟩
  obtain ⟨c',hc'⟩ := (computeClosure_returns sha256).2
    ⟨hnamed,hmeets,hmodel ▸ hsize,hmodel ▸ hresolves⟩
  obtain ⟨base',final',hrun',hfinal',-,-⟩ := computeClosure_ok hc'
  have hbase : base'.values = c.assertions := by
    rw [values_base hrun'.start (hfacts ▸ hstates),hassertions]
  obtain ⟨new,hnew⟩ := hrun'.kept
  have hvalues : final'.values = c.assertions := by
    have hsame : final'.size = c.assertions.length := by
      have hencard := final'.encard_facts
      rw [hrun'.facts,hmodel,← hrun.facts,final.encard_facts] at hencard
      rw [hfinal,length_ordered]
      exact (Nat.cast_inj.1 hencard).symm
    rw [Collection.size,hnew,hbase,List.length_append] at hsame
    have hnil : new = [] := List.eq_nil_of_length_eq_zero (by omega)
    rw [hnew,hnil,List.append_nil,hbase]
  refine ⟨g',c',hg',hc',?_⟩
  rw [hfinal',Collection.ordered_of_sorted,hvalues]
  rw [hvalues]
  exact c.sorted

theorem closure_idempotent_fragment : ∃ c g' c',
    computeClosure Sample.zeros Sample.graph Sample.fragment = .ok c ∧ closureGraph c "again" = .ok g' ∧
      computeClosure Sample.zeros g' Sample.fragment = .ok c' ∧ c'.assertions = c.assertions := by
  obtain ⟨c,hc⟩ := Sample.returns
  obtain ⟨g',c',hg',hc',heq⟩ := closure_idempotent (by decide : "again" ≠ "") hc
  exact ⟨c,g',c',hc,hg',hc',heq⟩

end AgentCentric

namespace AgentCentric
variable {sha256 : List Char → HexDigest}

theorem states_subset_of_kept {current : List OntologyTerm} {old : OntologyTerm}
    (h : Ontology.assertTermKept current old = .ok ()) : ∃ t ∈ current, old.states ⊆ t.states := by
  simp only [Ontology.assertTermKept] at h
  cases hfind : current.find? fun t => t.name = old.name with
  | none => simp [hfind] at h
  | some t =>
    have hname : t.name = old.name := by simpa using List.find?_some hfind
    simp only [hfind,bind_ok,require_ok,exists_const,decide_eq_true_eq,List.all_eq_true,
      Bool.and_eq_true] at h
    obtain ⟨hkind,hsub,hdomain,hrange⟩ := h
    refine ⟨t,List.mem_of_find?_eq_some hfind,?_⟩
    rintro f (rfl | ⟨x,hx,rfl⟩ | ⟨x,hx,rfl⟩ | ⟨x,hx,rfl⟩)
    · exact .inl (by rw [hname,hkind])
    · exact .inr (.inl ⟨x,hsub x hx,by rw [hname]⟩)
    · exact .inr (.inr (.inl ⟨x,hdomain x hx,by rw [hname]⟩))
    · exact .inr (.inr (.inr ⟨x,hrange x hx,by rw [hname]⟩))

theorem states_subset {new old : Ontology} (h : new.assertAdditive old = .ok ()) :
    old.states ⊆ new.states := by
  obtain ⟨_,hterms,-⟩ := bind_ok.1 h
  rintro f ⟨t,ht,hf⟩
  obtain ⟨u,hu,hsub⟩ := states_subset_of_kept (forEach_ok.1 hterms t ht)
  exact ⟨u,hu,hsub hf⟩

/-- Where the old rules are still written as they were, an accepted change takes no entailment
back. -/
theorem additive_entails {g₁ g₂ : SemanticGraph} {old new : Ontology} {c₁ c₂ : Closure}
    (hgraph : g₁.facts ⊆ g₂.facts) (hadditive : new.assertAdditive old = .ok ())
    (hpositive : ∀ r ∈ old.rules, ∀ a ∈ r.body, a.negated = false)
    (hwritten : ∀ r ∈ old.rules, ∃ s ∈ new.rules, r.Alike s)
    (h₁ : computeClosure sha256 g₁ old = .ok c₁) (h₂ : computeClosure sha256 g₂ new = .ok c₂) :
    factsOf c₁.assertions ⊆ factsOf c₂.assertions := by
  obtain ⟨base₁,final₁,hrun₁,hfinal₁,-,-⟩ := computeClosure_ok h₁
  obtain ⟨base₂,final₂,hrun₂,hfinal₂,⟨σ,hσ⟩,-⟩ := computeClosure_ok h₂
  rw [assertions_facts hrun₁ hfinal₁,assertions_facts hrun₂ hfinal₂]
  have hstratified := stratified_ruleProgram (Bound.meets_least hσ)
  apply Program.perfect_subset
  · exact (Set.union_subset_union hgraph (states_subset hadditive)).trans Program.subset_perfect
  · intro r hr hpos
    have hneg : Disjoint r.neg (closureModel g₂ new) := by
      obtain ⟨rule,hrule,θ,facts,head,-,-,rfl⟩ := hr
      rw [Set.disjoint_left]
      rintro f ⟨a,ha,hnegated,-⟩
      rw [hpositive rule hrule a ha] at hnegated
      cases hnegated
    exact Program.closed_perfect hstratified (ruleProgram_subset hwritten hr) hpos hneg

theorem additive_entails_widened : ∃ c₁ c₂,
    computeClosure Sample.zeros Sample.graph (Sample.rating (.int 1)) = .ok c₁ ∧
      computeClosure Sample.zeros Sample.graph Sample.widened = .ok c₂ ∧
      factsOf c₁.assertions ⊆ factsOf c₂.assertions := by
  have hold : (computeClosure Sample.zeros Sample.graph (Sample.rating (.int 1))).toOption.any
      (fun _ => true) = true := by decide +kernel
  have hnew : (computeClosure Sample.zeros Sample.graph Sample.widened).toOption.any
      (fun _ => true) = true := by decide +kernel
  obtain ⟨c₁,hc₁,-⟩ := ok_of_any hold
  obtain ⟨c₂,hc₂,-⟩ := ok_of_any hnew
  refine ⟨c₁,c₂,hc₁,hc₂,additive_entails subset_rfl (by decide +kernel) (by decide) ?_ hc₁ hc₂⟩
  intro r hr
  exact ⟨r,List.mem_cons.2 (.inl (List.mem_singleton.1 hr)),rfl,fun _ => Iff.rfl⟩

namespace Sample

def decimalOne : Json := .decimal ⟨['1','.','0'],by decide,by decide⟩

end Sample

/-- `1` and `1.0` are equal for Python, and are two literals for the closure. -/
theorem rewritten_literal_retracts : ¬ ∀ (sha256 : List Char → HexDigest) (g₁ g₂ : SemanticGraph)
    (old new : Ontology) (c₁ c₂ : Closure), g₁.facts ⊆ g₂.facts → new.assertAdditive old = .ok () →
    (∀ r ∈ old.rules, ∀ a ∈ r.body, a.negated = false) →
    computeClosure sha256 g₁ old = .ok c₁ → computeClosure sha256 g₂ new = .ok c₂ →
    factsOf c₁.assertions ⊆ factsOf c₂.assertions := by
  intro h
  let f : Fact := ⟨"u","rating",.lit .float ['1']⟩
  have hold : (computeClosure Sample.zeros Sample.graph (Sample.rating (.int 1))).toOption.any
      (fun c => c.assertions.any fun a => a.fact = f) = true := by decide +kernel
  have hnew : (computeClosure Sample.zeros Sample.graph (Sample.rating Sample.decimalOne)).toOption.any
      (fun c => c.assertions.all fun a => a.fact ≠ f) = true := by decide +kernel
  obtain ⟨c₁,hc₁,hin⟩ := ok_of_any hold
  obtain ⟨c₂,hc₂,hout⟩ := ok_of_any hnew
  obtain ⟨a,ha,hf⟩ := List.any_eq_true.1 hin
  obtain ⟨b,hb,hfact⟩ := h Sample.zeros Sample.graph Sample.graph (Sample.rating (.int 1))
    (Sample.rating Sample.decimalOne) c₁ c₂ subset_rfl (by decide +kernel) (by decide) hc₁ hc₂
    ⟨a,ha,rfl⟩
  have hne := List.all_eq_true.1 hout b hb
  rw [hfact] at hne
  exact of_decide_eq_true hne (of_decide_eq_true hf)

end AgentCentric

import AgentCentric.Ontology.Saturate

namespace AgentCentric

def OntologyTerm.states (t : OntologyTerm) : Set Fact :=
  {f | f = ⟨t.name,coreKind,.lit .str (Json.str t.kind.text).bytes⟩ ∨
    (∃ x ∈ t.subClassOf, f = ⟨t.name,coreSubClassOf,.term x⟩) ∨
    (∃ x ∈ t.domain, f = ⟨t.name,coreDomain,.term x⟩) ∨
    ∃ x ∈ t.range, f = ⟨t.name,coreRange,.term x⟩}

def Ontology.states (o : Ontology) : Set Fact := {f | ∃ t ∈ o.terms, f ∈ t.states}

/-- No relation of a declared term leads to an empty name. -/
def Ontology.Named (o : Ontology) : Prop :=
  ∀ t ∈ o.terms, "" ∉ t.subClassOf ∧ "" ∉ t.domain ∧ "" ∉ t.range

variable {t : OntologyTerm}

theorem relationFact_ok {p x : String} {a : Assertion}
    (h : relationFact t p x = .ok a) : x ≠ "" ∧ a.fact = ⟨t.name,p,.term x⟩ := by
  simp only [relationFact,bind_ok,Term.new,Assertion.new] at h
  obtain ⟨object,hterm,hnew⟩ := h
  split at hterm
  · rename_i hx
    cases hterm
    split at hnew
    · cases hnew
      exact ⟨hx,rfl⟩
    · cases hnew
  · cases hterm

theorem relationFact_returns {p x : String} (hp : p ≠ "") :
    (∃ a, relationFact t p x = .ok a) ↔ x ≠ "" := by
  constructor
  · rintro ⟨a,ha⟩
    exact (relationFact_ok ha).1
  · intro hx
    refine ⟨⟨t.name,p,.term ⟨x,hx⟩,t.name_ne,hp⟩,?_⟩
    simp only [relationFact,Term.new_of_ne hx]
    exact Assertion.new_of_ne _ t.name_ne hp

variable {as : List Assertion}

theorem mapM_relationFact {p : String} {xs : List String}
    (h : xs.mapM (relationFact t p) = .ok as) (f : Fact) :
    (∃ a ∈ as, a.fact = f) ↔ ∃ x ∈ xs, f = ⟨t.name,p,.term x⟩ := by
  simp only [mem_mapM h]
  constructor
  · rintro ⟨a,⟨x,hx,ha⟩,rfl⟩
    exact ⟨x,hx,(relationFact_ok ha).2⟩
  · rintro ⟨x,hx,rfl⟩
    obtain ⟨as',has'⟩ : ∃ as', xs.mapM (relationFact t p) = .ok as' := ⟨as,h⟩
    obtain ⟨a,ha⟩ := mapM_returns.1 ⟨as',has'⟩ x hx
    exact ⟨a,⟨x,hx,ha⟩,(relationFact_ok ha).2⟩

theorem mapM_relationFact_returns (t : OntologyTerm) {p : String} (hp : p ≠ "") (xs : List String) :
    (∃ as, xs.mapM (relationFact t p) = .ok as) ↔ "" ∉ xs := by
  simp only [mapM_returns,relationFact_returns hp]
  constructor
  · exact fun h hmem => h "" hmem rfl
  · rintro h x hx rfl
    exact h hx

theorem termFacts_ok (h : termFacts t = .ok as) (f : Fact) :
    (∃ a ∈ as, a.fact = f) ↔ f ∈ t.states := by
  simp only [termFacts,Assertion.new_of_ne _ t.name_ne (by decide : coreKind ≠ ""),bind_ok] at h
  obtain ⟨kind,hkind,h⟩ := h
  cases hkind
  cases hk : t.kind with
  | kindClass =>
    obtain ⟨hdomain,hrange⟩ := t.class_plain hk
    simp only [hk,bind_ok] at h
    obtain ⟨parents,hparents,h⟩ := h
    cases h
    simp only [List.mem_cons,exists_eq_or_imp,mapM_relationFact hparents]
    simp only [OntologyTerm.states,hdomain,hrange,List.not_mem_nil,false_and,exists_false,or_false,
      Set.mem_ofPred_eq,Assertion.fact,Obj.val,hk,@eq_comm Fact _ f]
  | kindProperty =>
    have hparents := t.property_flat hk
    simp only [hk,bind_ok] at h
    obtain ⟨domains,hdomains,ranges,hranges,h⟩ := h
    cases h
    simp only [List.mem_cons,List.mem_append,or_and_right,exists_or,exists_eq_left,
      mapM_relationFact hdomains,mapM_relationFact hranges]
    simp only [OntologyTerm.states,hparents,List.not_mem_nil,false_and,exists_false,false_or,
      Set.mem_ofPred_eq,Assertion.fact,Obj.val,hk,@eq_comm Fact _ f]

theorem termFacts_returns : (∃ as, termFacts t = .ok as) ↔
    "" ∉ t.subClassOf ∧ "" ∉ t.domain ∧ "" ∉ t.range := by
  have hsub := mapM_relationFact_returns t (by decide : coreSubClassOf ≠ "") t.subClassOf
  have hdomain := mapM_relationFact_returns t (by decide : coreDomain ≠ "") t.domain
  have hrange := mapM_relationFact_returns t (by decide : coreRange ≠ "") t.range
  simp only [termFacts,Assertion.new_of_ne _ t.name_ne (by decide : coreKind ≠ "")]
  cases hk : t.kind with
  | kindClass =>
    obtain ⟨hdomain',hrange'⟩ := t.class_plain hk
    rw [← hsub]
    simp only [hdomain',hrange',List.not_mem_nil,not_false_eq_true,and_true,bind_ok]
    constructor
    · rintro ⟨_,_,_,parents,hparents,-⟩
      exact ⟨parents,hparents⟩
    · rintro ⟨parents,hparents⟩
      exact ⟨_,_,rfl,parents,hparents,rfl⟩
  | kindProperty =>
    have hparents := t.property_flat hk
    rw [← hdomain,← hrange]
    simp only [hparents,List.not_mem_nil,not_false_eq_true,true_and,bind_ok]
    constructor
    · rintro ⟨_,_,_,domains,hdomains,ranges,hranges,-⟩
      exact ⟨⟨domains,hdomains⟩,ranges,hranges⟩
    · rintro ⟨⟨domains,hdomains⟩,ranges,hranges⟩
      exact ⟨_,_,rfl,domains,hdomains,ranges,hranges,rfl⟩

theorem ontologyFacts_ok {o : Ontology} (h : ontologyFacts o = .ok as) : factsOf as = o.states := by
  obtain ⟨lists,hlists,h⟩ := bind_ok.1 h
  cases h
  ext f
  constructor
  · rintro ⟨a,ha,hf⟩
    obtain ⟨list,hlist,hmem⟩ := List.mem_flatten.1 ha
    obtain ⟨t,ht,hfacts⟩ := (mem_mapM hlists).1 hlist
    exact ⟨t,ht,(termFacts_ok hfacts f).1 ⟨a,hmem,hf⟩⟩
  · rintro ⟨t,ht,hf⟩
    obtain ⟨list,hfacts⟩ := mapM_returns.1 ⟨lists,hlists⟩ t ht
    obtain ⟨a,ha,hfact⟩ := (termFacts_ok hfacts f).2 hf
    exact ⟨a,List.mem_flatten.2 ⟨list,(mem_mapM hlists).2 ⟨t,ht,hfacts⟩,ha⟩,hfact⟩

theorem ontologyFacts_returns {o : Ontology} : (∃ as, ontologyFacts o = .ok as) ↔ o.Named := by
  have hterms : (∃ lists, o.terms.mapM termFacts = .ok lists) ↔ _ := mapM_returns
  simp only [termFacts_returns] at hterms
  rw [Ontology.Named,← hterms]
  simp only [ontologyFacts,bind_ok]
  constructor
  · rintro ⟨_,lists,hlists,-⟩
    exact ⟨lists,hlists⟩
  · rintro ⟨lists,hlists⟩
    exact ⟨_,lists,hlists,rfl⟩

theorem facts_empty : Collection.empty.facts = ∅ := by
  ext f
  simp [Collection.facts,Collection.values,Collection.empty,Dict.empty]

theorem facts_base {g : SemanticGraph} {o : Ontology} (h : ontologyFacts o = .ok as) :
    ((g.assertions ++ as).foldl Collection.add .empty).facts = g.facts ∪ o.states := by
  rw [Collection.facts_foldl Collection.facts_add,facts_empty,Set.empty_union,← ontologyFacts_ok h]
  ext f
  simp only [SemanticGraph.facts,factsOf,Set.mem_union,Set.mem_ofPred_eq,List.mem_append,
    or_and_right,exists_or]

theorem closureBase_ok {g : SemanticGraph} {o : Ontology} {c : Collection}
    (h : closureBase g o = .ok c) :
    o.Named ∧ c.facts = g.facts ∪ o.states ∧ c.size ≤ maxClosureAssertions := by
  simp only [closureBase,bind_ok] at h
  obtain ⟨as,has,h⟩ := h
  split at h
  · cases h
  · rename_i hsize
    cases h
    exact ⟨ontologyFacts_returns.1 ⟨as,has⟩,facts_base has,Nat.not_lt.1 hsize⟩

theorem closureBase_returns {g : SemanticGraph} {o : Ontology} (hnamed : o.Named)
    (hsize : (g.facts ∪ o.states).encard ≤ maxClosureAssertions) :
    ∃ c, closureBase g o = .ok c := by
  obtain ⟨as,has⟩ := ontologyFacts_returns.2 hnamed
  have hle : ¬ maxClosureAssertions < ((g.assertions ++ as).foldl Collection.add .empty).size := by
    rw [Nat.not_lt,← encard_le,facts_base has]
    exact hsize
  refine ⟨(g.assertions ++ as).foldl Collection.add .empty,?_⟩
  simp only [closureBase,bind_ok]
  exact ⟨as,has,if_neg hle⟩

noncomputable def closureModel (g : SemanticGraph) (o : Ontology) : Set Fact :=
  (ruleProgram o.rules).perfect (fun f => Bound.least (bounds o.rules) f.p) (g.facts ∪ o.states)

theorem mem_predicates {c : Collection} {rules : List Rule} {rule : Rule} (h : rule ∈ rules) :
    rule.head.p ∈ predicates c rules := by
  simp only [predicates,List.mem_dedup,List.mem_append,List.mem_flatMap,List.mem_cons]
  exact .inr ⟨rule,h,.inl rfl⟩

theorem nodup_predicates (c : Collection) (rules : List Rule) : (predicates c rules).Nodup :=
  List.nodup_dedup _

theorem profile_ne (o : Ontology) : o.id ++ "@" ++ o.version ≠ "" := by
  intro h
  have hlength := congrArg String.length h
  simp [String.length_append] at hlength

theorem length_ordered (c : Collection) : c.ordered.length = c.size := c.perm_ordered.length_eq

theorem factsOf_ordered (c : Collection) : factsOf c.ordered = c.facts := by
  ext f
  simp only [factsOf,Collection.facts,Set.mem_ofPred_eq,c.perm_ordered.mem_iff]

theorem Closure.new_of_sorted {profile : String} (gh oh : HexDigest) {assertions : List Assertion}
    (hprofile : profile ≠ "") (hsorted : (assertions.map Assertion.key).Pairwise (· < ·))
    (hle : assertions.length ≤ maxClosureAssertions) :
    ∃ c, Closure.new profile gh oh assertions = .ok c ∧ c.assertions = assertions := by
  have hordered := Collection.ordered_foldl_put hsorted
  refine ⟨⟨profile,gh,oh,assertions,hprofile,hsorted,hle⟩,?_,rfl⟩
  simp [Closure.new,hprofile,hordered,hle]

variable {sha256 : List Char → HexDigest} {g : SemanticGraph} {o : Ontology}

structure Run (g : SemanticGraph) (o : Ontology) (base final : Collection) : Prop where
  start : closureBase g o = .ok base
  kept : ∃ new, final.values = base.values ++ new
  facts : final.facts = closureModel g o
  size : final.size ≤ maxClosureAssertions

theorem computeClosure_ok {c : Closure} (h : computeClosure sha256 g o = .ok c) :
    ∃ base final, Run g o base final ∧ c.assertions = final.ordered ∧
      (∃ σ, Bound.Meets (bounds o.rules) σ) ∧ Resolves o.rules (closureModel g o) := by
  simp only [computeClosure,bind_ok] at h
  obtain ⟨base,hbase,stratum,hstratum,final,hfinal,hnew⟩ := h
  obtain ⟨-,hfacts,hsize⟩ := closureBase_ok hbase
  obtain ⟨hmeets,hleast⟩ := stratify_ok hstratum
  set top := (stratum.entries.map Prod.snd).foldl max 0
  have htop : ∀ p, stratumOf stratum p < top + 1 := fun p =>
    Nat.lt_succ_of_le (stratumOf_le_max stratum p)
  rw [List.range_eq_range'] at hfinal
  obtain ⟨hmodel,hle,hkept,hresolves⟩ :=
    saturateLevels_ok (B := g.facts ∪ o.states) hmeets hfinal hfacts hsize
  have hperfect : closureModel g o = (ruleProgram o.rules).perfect
      (fun f => stratumOf stratum f.p) (g.facts ∪ o.states) := by rw [closureModel,hleast]
  rw [Nat.zero_add,← Program.perfect_eq_model fun r _ => htop r.head.p,← hperfect] at hmodel
  obtain ⟨c',hc',hassertions⟩ := Closure.new_of_sorted (g.graphHash sha256)
    (o.ontologyHash sha256) (profile_ne o) final.sorted_keys
    (by rw [length_ordered]; exact hle)
  rw [hc'] at hnew
  cases hnew
  refine ⟨base,final,⟨hbase,hkept,hmodel,hle⟩,hassertions,⟨_,hmeets⟩,?_⟩
  rw [hperfect]
  intro rule hrule θ hfires
  exact hresolves _ (Nat.zero_le _) (by have := htop rule.head.p; omega) rule
    (mem_rulesAt.2 ⟨hrule,rfl⟩) θ (hfires.model hmeets hrule)

/-- A closure is returned exactly if all names are there, the rules can be stratified, the model
is within the bound, and every rule that holds in it says a fact. -/
theorem computeClosure_returns (sha256 : List Char → HexDigest) :
    (∃ c, computeClosure sha256 g o = .ok c) ↔ o.Named ∧ (∃ σ, Bound.Meets (bounds o.rules) σ) ∧
      (closureModel g o).encard ≤ maxClosureAssertions ∧ Resolves o.rules (closureModel g o) := by
  constructor
  · rintro ⟨c,hc⟩
    obtain ⟨base,final,hrun,-,hmeets,hresolves⟩ := computeClosure_ok hc
    refine ⟨(closureBase_ok hrun.start).1,hmeets,?_,hresolves⟩
    rw [← hrun.facts,encard_le]
    exact hrun.size
  · rintro ⟨hnamed,hmeets,hsize,hresolves⟩
    obtain ⟨base,hbase⟩ := closureBase_returns (g := g) hnamed
      ((Set.encard_le_encard Program.subset_perfect).trans hsize)
    obtain ⟨-,hfacts,hbound⟩ := closureBase_ok hbase
    obtain ⟨stratum,hstratum⟩ := (stratify_returns (nodup_predicates base o.rules) fun rule hrule => mem_predicates hrule).2 hmeets
    obtain ⟨hmeets,hleast⟩ := stratify_ok hstratum
    rw [closureModel,← hleast] at hsize hresolves
    obtain ⟨final,hfinal⟩ := saturateLevels_returns
      (m := (stratum.entries.map Prod.snd).foldl max 0 + 1) (k := 0) hmeets hfacts hsize hresolves
    obtain ⟨-,hle,-⟩ := saturateLevels_ok (B := g.facts ∪ o.states) hmeets hfinal hfacts hbound
    obtain ⟨c,hc,-⟩ := Closure.new_of_sorted (g.graphHash sha256)
      (o.ontologyHash sha256) (profile_ne o) final.sorted_keys
      (by rw [length_ordered]; exact hle)
    refine ⟨c,?_⟩
    simp only [computeClosure,bind_ok]
    exact ⟨base,hbase,stratum,hstratum,final,by rw [List.range_eq_range']; exact hfinal,hc⟩

end AgentCentric

namespace AgentCentric

/-- The patterns fit the same values and say the same. -/
structure Pattern.Same (a b : Pattern) : Prop where
  vars : a.vars = b.vars
  holds : ∀ θ v, a.Holds θ v ↔ b.Holds θ v
  subject : ∀ θ, a.subjectAt θ = b.subjectAt θ
  object : ∀ θ, a.objectAt θ = b.objectAt θ

theorem Pattern.canonical_lit (datatype : Network.ValueType) (value : Json) :
    (Pattern.lit datatype value).toDict.canonical =
      .dict [("lit",.dict [("t",.str datatype.name),("v",value.canonical)])] := by
  simp [toDict,Json.canonical,Json.canonicalItems,Json.byKey]

theorem Pattern.same_of_canonical {a b : Pattern} (h : a.toDict.canonical = b.toDict.canonical) :
    a.Same b := by
  cases a with
  | var name hname =>
    cases b with
    | var name' hname' =>
      have heq : name = name' := by
        simpa [toDict,Json.canonical,Json.canonicalItems,Json.byKey] using h
      subst heq
      exact ⟨rfl,fun _ _ => Iff.rfl,fun _ => rfl,fun _ => rfl⟩
    | term name' hname' => simp [toDict,Json.canonical,Json.canonicalItems,Json.byKey] at h
    | lit datatype value =>
      rw [canonical_lit] at h
      simp [toDict,Json.canonical,Json.canonicalItems,Json.byKey] at h
  | term name hname =>
    cases b with
    | var name' hname' => simp [toDict,Json.canonical,Json.canonicalItems,Json.byKey] at h
    | term name' hname' =>
      have heq : name = name' := by
        simpa [toDict,Json.canonical,Json.canonicalItems,Json.byKey] using h
      subst heq
      exact ⟨rfl,fun _ _ => Iff.rfl,fun _ => rfl,fun _ => rfl⟩
    | lit datatype value =>
      rw [canonical_lit] at h
      simp [toDict,Json.canonical,Json.canonicalItems,Json.byKey] at h
  | lit datatype value =>
    cases b with
    | var name' hname' =>
      rw [canonical_lit] at h
      simp [toDict,Json.canonical,Json.canonicalItems,Json.byKey] at h
    | term name' hname' =>
      rw [canonical_lit] at h
      simp [toDict,Json.canonical,Json.canonicalItems,Json.byKey] at h
    | lit datatype' value' =>
      rw [canonical_lit,canonical_lit] at h
      simp only [Json.dict.injEq,List.cons.injEq,Prod.mk.injEq,true_and,and_true,Json.str.injEq,
        valueType_name_inj] at h
      obtain ⟨rfl,hvalue⟩ := h
      have hbytes := Json.bytes_inj.2 hvalue
      exact ⟨rfl,fun _ _ => by simp [Holds,hbytes],fun _ => rfl,fun _ => by simp [objectAt,hbytes]⟩

def RuleAtom.key (a : RuleAtom) : List Char := a.toDict.bytes

theorem RuleAtom.canonical_toDict (a : RuleAtom) : a.toDict.canonical =
    .dict [("negated",.bool a.negated),("o",a.o.toDict.canonical),("p",.str a.p),
      ("s",a.s.toDict.canonical)] := by
  simp [toDict,Json.canonical,Json.canonicalItems,Json.byKey]

structure RuleAtom.Same (a b : RuleAtom) : Prop where
  s : a.s.Same b.s
  p : a.p = b.p
  o : a.o.Same b.o
  negated : a.negated = b.negated

theorem RuleAtom.same_of_key {a b : RuleAtom} (h : a.key = b.key) : a.Same b := by
  rw [key,key,Json.bytes_inj,canonical_toDict,canonical_toDict] at h
  simp only [Json.dict.injEq,List.cons.injEq,Prod.mk.injEq,true_and,and_true,Json.bool.injEq,
    Json.str.injEq] at h
  obtain ⟨hnegated,ho,hp,hs⟩ := h
  exact ⟨Pattern.same_of_canonical hs,hp,Pattern.same_of_canonical ho,hnegated⟩

theorem RuleAtom.Same.vars {a b : RuleAtom} (h : a.Same b) : a.vars = b.vars := by
  rw [RuleAtom.vars,RuleAtom.vars,h.s.vars,h.o.vars]

theorem RuleAtom.Same.matches_iff {a b : RuleAtom} (h : a.Same b) (θ : Valuation) (f : Fact) :
    a.Matches θ f ↔ b.Matches θ f := by
  rw [RuleAtom.Matches,RuleAtom.Matches,h.p,h.s.holds,h.o.holds]

theorem RuleAtom.Same.headAt {a b : RuleAtom} (h : a.Same b) (θ : Valuation) :
    a.headAt θ = b.headAt θ := by
  rw [RuleAtom.headAt,RuleAtom.headAt,h.s.subject,h.o.object,h.p]

structure Rule.Alike (r s : Rule) : Prop where
  head : r.head.key = s.head.key
  body : ∀ k, k ∈ r.body.map RuleAtom.key ↔ k ∈ s.body.map RuleAtom.key

namespace Rule.Alike
variable {r s : Rule}

theorem symm (h : r.Alike s) : s.Alike r := ⟨h.head.symm,fun k => (h.body k).symm⟩

theorem atom (h : r.Alike s) {a : RuleAtom} (ha : a ∈ r.body) : ∃ b ∈ s.body, a.Same b := by
  obtain ⟨b,hb,hkey⟩ := List.mem_map.1 ((h.body a.key).1 (List.mem_map_of_mem ha))
  exact ⟨b,hb,RuleAtom.same_of_key hkey.symm⟩

theorem positiveVars (h : r.Alike s) {x : String} (hx : x ∈ positiveVars r.body) :
    x ∈ positiveVars s.body := by
  simp only [AgentCentric.positiveVars,List.mem_flatMap,List.mem_filter,Bool.not_eq_true'] at hx ⊢
  obtain ⟨a,⟨ha,hpos⟩,hvar⟩ := hx
  obtain ⟨b,hb,hsame⟩ := h.atom ha
  exact ⟨b,⟨hb,hsame.negated ▸ hpos⟩,hsame.vars ▸ hvar⟩

theorem matchesFree (h : r.Alike s) {a b : RuleAtom} (hsame : a.Same b) {θ : Valuation} {f : Fact}
    (hfree : a.MatchesFree (AgentCentric.positiveVars r.body) θ f) :
    b.MatchesFree (AgentCentric.positiveVars s.body) θ f := by
  obtain ⟨τ,hτ,hmatch⟩ := hfree
  exact ⟨τ,fun x hx => hτ x (h.symm.positiveVars hx),(hsame.matches_iff τ f).1 hmatch⟩

theorem fires (h : r.Alike s) {X N : Set Fact} {θ : Valuation} (hfires : r.Fires X N θ) :
    s.Fires X N θ := by
  constructor
  · intro b hb hpos
    obtain ⟨a,ha,hsame⟩ := h.symm.atom hb
    obtain ⟨f,hf,hmatch⟩ := hfires.pos a ha (hsame.negated ▸ hpos)
    exact ⟨f,hf,(hsame.matches_iff θ f).2 hmatch⟩
  · intro b hb hneg f hf hfree
    obtain ⟨a,ha,hsame⟩ := h.symm.atom hb
    exact hfires.neg a ha (hsame.negated ▸ hneg) f hf (h.symm.matchesFree hsame hfree)

theorem takes (h : r.Alike s) {θ : Valuation} {facts : Set Fact} (htakes : r.Takes θ facts) :
    s.Takes θ facts := by
  constructor
  · intro b hb hpos
    obtain ⟨a,ha,hsame⟩ := h.symm.atom hb
    obtain ⟨f,hf,hmatch⟩ := htakes.each a ha (hsame.negated ▸ hpos)
    exact ⟨f,hf,(hsame.matches_iff θ f).2 hmatch⟩
  · intro f hf
    obtain ⟨a,ha,hpos,hmatch⟩ := htakes.only f hf
    obtain ⟨b,hb,hsame⟩ := h.atom ha
    exact ⟨b,hb,hsame.negated ▸ hpos,(hsame.matches_iff θ f).1 hmatch⟩

theorem ground (h : r.Alike s) (θ : Valuation) (facts : Set Fact) (head : Fact) :
    r.ground θ facts head = s.ground θ facts head := by
  have hneg : ∀ {r s : Rule}, r.Alike s → ∀ f, f ∈ (r.ground θ facts head).neg →
      f ∈ (s.ground θ facts head).neg := by
    rintro r s h f ⟨a,ha,hnegated,hfree⟩
    obtain ⟨b,hb,hsame⟩ := h.atom ha
    exact ⟨b,hb,hsame.negated ▸ hnegated,h.matchesFree hsame hfree⟩
  have hsets : (r.ground θ facts head).neg = (s.ground θ facts head).neg :=
    Set.ext fun f => ⟨hneg h f,hneg h.symm f⟩
  rw [Rule.ground,Rule.ground,GroundRule.mk.injEq]
  exact ⟨rfl,rfl,hsets⟩

end Rule.Alike

section
variable {rs ss : List Rule} (h : ∀ r ∈ rs, ∃ s ∈ ss, r.Alike s)
include h

theorem ruleProgram_subset : ruleProgram rs ⊆ ruleProgram ss := by
  rintro _ ⟨r,hr,θ,facts,head,hhead,htakes,rfl⟩
  obtain ⟨s,hs,halike⟩ := h r hr
  refine ⟨s,hs,θ,facts,head,?_,halike.takes htakes,halike.ground θ facts head⟩
  rw [← (RuleAtom.same_of_key halike.head).headAt]
  exact hhead

theorem meets_of_alike {σ : String → Nat} (hσ : Bound.Meets (bounds ss) σ) :
    Bound.Meets (bounds rs) σ := by
  intro c hc e he
  obtain ⟨r,hr,rfl⟩ := List.mem_map.1 hc
  obtain ⟨a,ha,rfl⟩ := List.mem_map.1 he
  obtain ⟨s,hs,halike⟩ := h r hr
  obtain ⟨b,hb,hsame⟩ := halike.atom ha
  have hle := level_le hσ hs hb
  rw [← hsame.p,← hsame.negated,← (RuleAtom.same_of_key halike.head).p] at hle
  exact hle

theorem resolves_of_alike {X : Set Fact} (hX : Resolves ss X) : Resolves rs X := by
  intro r hr θ hfires
  obtain ⟨s,hs,halike⟩ := h r hr
  rw [(RuleAtom.same_of_key halike.head).headAt]
  exact hX s hs θ (halike.fires hfires)

end

end AgentCentric

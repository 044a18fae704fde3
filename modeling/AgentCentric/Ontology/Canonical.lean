import AgentCentric.Ontology.Entailment

namespace AgentCentric
variable {sha256 : List Char → HexDigest} {a b : Ontology}

def Ontology.Constructed (o : Ontology) : Prop :=
  ∃ imports terms rules, Ontology.new o.id o.version imports terms rules = .ok o

theorem Ontology.Constructed.sorted (h : a.Constructed) :
    (a.terms.Pairwise fun t u => t.name ≤ u.name) ∧ a.rules.Pairwise fun r s => r.id ≤ s.id := by
  obtain ⟨imports,terms,rules,hnew⟩ := h
  have hterms : IsTrans OntologyTerm fun t u => t.name ≤ u.name :=
    ⟨fun _ _ _ htu huv => le_trans (α := String) htu huv⟩
  have hterms' : Std.Total fun t u : OntologyTerm => t.name ≤ u.name :=
    ⟨fun t u => le_total t.name u.name⟩
  have hrules : IsTrans Rule fun r s => r.id ≤ s.id :=
    ⟨fun _ _ _ hrs hst => le_trans (α := String) hrs hst⟩
  have hrules' : Std.Total fun r s : Rule => r.id ≤ s.id := ⟨fun r s => le_total r.id s.id⟩
  simp only [Ontology.new] at hnew
  split at hnew; · cases hnew
  split at hnew
  · split at hnew
    · split at hnew
      · split at hnew
        · split at hnew
          · split at hnew
            · obtain ⟨_,_,hnew⟩ := bind_ok.mp hnew
              have hsame := Except.ok.inj hnew
              rw [← hsame]
              exact ⟨List.pairwise_insertionSort _ _,List.pairwise_insertionSort _ _⟩
            · cases hnew
          · cases hnew
        · cases hnew
      · cases hnew
    · cases hnew
  · cases hnew

theorem assertTermKept_ok {current : List OntologyTerm} {old : OntologyTerm}
    (h : Ontology.assertTermKept current old = .ok ()) :
    ∃ t ∈ current, t.name = old.name ∧ t.kind = old.kind := by
  simp only [Ontology.assertTermKept] at h
  cases hfind : current.find? fun t => t.name = old.name with
  | none => simp [hfind] at h
  | some t =>
    simp only [hfind,bind_ok,require_ok,exists_const,decide_eq_true_eq] at h
    exact ⟨t,List.mem_of_find?_eq_some hfind,by simpa using List.find?_some hfind,h.1⟩

theorem assertRuleKept_ok {current : List Rule} {old : Rule}
    (h : Ontology.assertRuleKept current old = .ok ()) : ∃ r ∈ current, r.id = old.id := by
  simp only [Ontology.assertRuleKept] at h
  cases hfind : current.find? fun r => r.id = old.id with
  | none => simp [hfind] at h
  | some r => exact ⟨r,List.mem_of_find?_eq_some hfind,by simpa using List.find?_some hfind⟩

theorem additive_kept (h : a.assertAdditive b = .ok ()) :
    (∀ t ∈ b.terms, ∃ u ∈ a.terms, u.name = t.name ∧ u.kind = t.kind) ∧
      ∀ r ∈ b.rules, ∃ s ∈ a.rules, s.id = r.id := by
  obtain ⟨_,hterms,hrules⟩ := bind_ok.mp h
  exact ⟨fun t ht => assertTermKept_ok (forEach_ok.mp hterms t ht),
    fun r hr => assertRuleKept_ok (forEach_ok.mp hrules r hr)⟩

/-- Fragments that each pass the gate against the other one. -/
structure Ontology.Mutual (a b : Ontology) : Prop where
  id : a.id = b.id
  version : a.version = b.version
  imports : a.imports = b.imports
  forward : a.assertAdditive b = .ok ()
  backward : b.assertAdditive a = .ok ()

theorem Ontology.Mutual.names (h : a.Mutual b) (ha : a.Constructed) (hb : b.Constructed) :
    a.terms.map OntologyTerm.name = b.terms.map OntologyTerm.name := by
  apply keys_eq_of_sorted OntologyTerm.name ha.sorted.1 hb.sorted.1 a.names_nodup b.names_nodup
  intro k
  simp only [List.mem_map]
  constructor
  · rintro ⟨t,ht,rfl⟩
    obtain ⟨u,hu,hname,-⟩ := (additive_kept h.backward).1 t ht
    exact ⟨u,hu,hname⟩
  · rintro ⟨t,ht,rfl⟩
    obtain ⟨u,hu,hname,-⟩ := (additive_kept h.forward).1 t ht
    exact ⟨u,hu,hname⟩

theorem Ontology.Mutual.ruleIds (h : a.Mutual b) (ha : a.Constructed) (hb : b.Constructed) :
    a.rules.map Rule.id = b.rules.map Rule.id := by
  apply keys_eq_of_sorted Rule.id ha.sorted.2 hb.sorted.2 a.rules_nodup b.rules_nodup
  intro k
  simp only [List.mem_map]
  constructor
  · rintro ⟨r,hr,rfl⟩
    exact (additive_kept h.backward).2 r hr
  · rintro ⟨r,hr,rfl⟩
    exact (additive_kept h.forward).2 r hr

theorem Ontology.Mutual.kinds (h : a.Mutual b) {t u : OntologyTerm} (ht : t ∈ a.terms)
    (hu : u ∈ b.terms) (hname : t.name = u.name) : t.kind = u.kind := by
  obtain ⟨v,hv,hvname,hvkind⟩ := (additive_kept h.backward).1 t ht
  obtain rfl := List.inj_on_of_nodup_map b.names_nodup hv hu (hvname.trans hname)
  exact hvkind.symm

theorem canonical_strings (xs : List String) :
    (Json.list (xs.map Json.str)).canonical = .list (xs.map Json.str) := by
  rw [Json.canonical_list,List.map_map]
  rfl

theorem strings_inj {xs ys : List String} : xs.map Json.str = ys.map Json.str ↔ xs = ys :=
  (List.map_injective_iff.mpr fun _ _ h => by injection h).eq_iff

theorem termKind_inj {k l : TermKind} : k.text = l.text ↔ k = l := by
  cases k <;> cases l <;> simp [TermKind.text]

theorem OntologyTerm.canonical_iff {t u : OntologyTerm} :
    t.toDict.canonical = u.toDict.canonical ↔ t.kind = u.kind ∧ t.name = u.name ∧
      t.subClassOf = u.subClassOf ∧ t.domain = u.domain ∧ t.range = u.range := by
  rw [OntologyTerm.toDict,OntologyTerm.toDict]
  refine (Json.canonical_dict_inj (by simp) (by simp)).trans ?_
  have hstr (s : String) : (Json.str s).canonical = .str s := by simp [Json.canonical]
  simp only [List.map_cons,List.map_nil,List.cons.injEq,Prod.mk.injEq,true_and,and_true,
    canonical_strings,Json.list.injEq,strings_inj,hstr,Json.str.injEq,termKind_inj]

theorem Ontology.canonical_iff (hid : a.id = b.id) (hversion : a.version = b.version)
    (himports : a.imports = b.imports) (hempty : a.rules = [] ↔ b.rules = []) :
    a.toDict.canonical = b.toDict.canonical ↔
      (a.terms.map fun t => t.toDict.canonical) = (b.terms.map fun t => t.toDict.canonical) ∧
      (a.rules.map fun r => r.toDict.canonical) = b.rules.map fun r => r.toDict.canonical := by
  rw [Ontology.toDict,Ontology.toDict]
  by_cases hrules : a.rules = []
  · rw [if_pos hrules,if_pos (hempty.mp hrules)]
    refine (Json.canonical_dict_inj (by simp) (by simp)).trans ?_
    simp [hid,hversion,himports,hrules,hempty.mp hrules,Json.canonical_list,Function.comp_def]
  · rw [if_neg hrules,if_neg fun h => hrules (hempty.mpr h)]
    refine (Json.canonical_dict_inj (by simp) (by simp)).trans ?_
    simp [hid,hversion,himports,Json.canonical_list,Function.comp_def]

/-- The fragments list the same at each name in the same order, and the rules with one id are the
same documents, the numbers in them with the same type. -/
structure Ontology.WrittenAlike (a b : Ontology) : Prop where
  terms : ∀ t ∈ a.terms, ∀ u ∈ b.terms, t.name = u.name →
    t.subClassOf = u.subClassOf ∧ t.domain = u.domain ∧ t.range = u.range
  rules : ∀ r ∈ a.rules, ∀ s ∈ b.rules, r.id = s.id → r.toDict.canonical = s.toDict.canonical

/-- Fragments that the gate takes for one another have one content address just where they are
written alike. -/
theorem ontologyHash_iff (ha : a.Constructed) (hb : b.Constructed) (hmutual : a.Mutual b)
    (hcollision : sha256 a.toDict.bytes = sha256 b.toDict.bytes →
      a.toDict.bytes = b.toDict.bytes) :
    a.ontologyHash sha256 = b.ontologyHash sha256 ↔ a.WrittenAlike b := by
  have hids := hmutual.ruleIds ha hb
  have hempty : a.rules = [] ↔ b.rules = [] := by
    rw [← List.map_eq_nil_iff (f := Rule.id),hids,List.map_eq_nil_iff]
  have hhash : a.ontologyHash sha256 = b.ontologyHash sha256 ↔
      a.toDict.canonical = b.toDict.canonical := by
    rw [← Json.bytes_inj]
    exact ⟨hcollision,fun h => congrArg sha256 h⟩
  rw [hhash,Ontology.canonical_iff hmutual.id hmutual.version hmutual.imports hempty,
    map_eq_iff_of_keys (hmutual.names ha hb) a.names_nodup,
    map_eq_iff_of_keys hids a.rules_nodup]
  simp only [OntologyTerm.canonical_iff]
  constructor
  · rintro ⟨hterms,hrules⟩
    exact ⟨fun t ht u hu hname => (hterms t ht u hu hname).2.2,hrules⟩
  · intro h
    exact ⟨fun t ht u hu hname => ⟨hmutual.kinds ht hu hname,hname,h.terms t ht u hu hname⟩,
      h.rules⟩

namespace Sample

def below (parents : List String) : List OntologyTerm :=
  [named "C" (by decide) parents,named "A" a_ne [],named "B" b_ne []]

def drawn (terms : List OntologyTerm) : Except OntologyError Ontology :=
  Ontology.new "o" "1" [] terms [subsumption]

theorem drawn_constructed {terms : List OntologyTerm} {o : Ontology} (h : drawn terms = .ok o)
    (hid : o.id = "o") (hversion : o.version = "1") : o.Constructed :=
  ⟨[],_,_,by rw [hid,hversion]; exact h⟩

def telling (text cs : List Char) : HexDigest :=
  if cs = text then zeros cs else .ones

theorem drawn_mutual (first second : List OntologyTerm)
    (h : ((drawn first).toOption.any fun a => (drawn second).toOption.any fun b =>
      a.id = "o" ∧ a.version = "1" ∧ b.id = "o" ∧ b.version = "1" ∧ a.imports.isEmpty ∧
        b.imports.isEmpty ∧ a.assertAdditive b = .ok () ∧ b.assertAdditive a = .ok ()) = true) :
    ∃ a b, drawn first = .ok a ∧ drawn second = .ok b ∧ a.Constructed ∧ b.Constructed ∧
      a.Mutual b := by
  obtain ⟨a,ha,h⟩ := ok_of_any h
  obtain ⟨b,hb,h⟩ := ok_of_any h
  simp only [decide_eq_true_eq,List.isEmpty_iff] at h
  obtain ⟨hid,hversion,hid',hversion',himports,himports',hab,hba⟩ := h
  exact ⟨a,b,ha,hb,drawn_constructed ha hid hversion,drawn_constructed hb hid' hversion',
    hid.trans hid'.symm,hversion.trans hversion'.symm,himports.trans himports'.symm,hab,hba⟩

end Sample

theorem ontologyHash_drawn : ∃ a b, Sample.drawn (Sample.below ["A","B"]) = .ok a ∧
    Sample.drawn (Sample.below ["A","B"]).reverse = .ok b ∧
      a.ontologyHash (Sample.telling a.toDict.bytes) =
        b.ontologyHash (Sample.telling a.toDict.bytes) := by
  obtain ⟨a,b,ha,hb,hca,hcb,hmutual⟩ :=
    Sample.drawn_mutual (Sample.below ["A","B"]) (Sample.below ["A","B"]).reverse
      (by decide +kernel)
  have halike : ((Sample.drawn (Sample.below ["A","B"])).toOption.any fun a =>
      (Sample.drawn (Sample.below ["A","B"]).reverse).toOption.any fun b =>
        a.toDict.bytes = b.toDict.bytes ∧ (∀ t ∈ a.terms, ∀ u ∈ b.terms, t.name = u.name →
          t.subClassOf = u.subClassOf ∧ t.domain = u.domain ∧ t.range = u.range) ∧
        ∀ r ∈ a.rules, ∀ s ∈ b.rules, r.id = s.id → r.toDict.bytes = s.toDict.bytes) = true := by
    decide +kernel
  simp only [ha,hb,Except.toOption,Option.any_some,decide_eq_true_eq] at halike
  obtain ⟨hbytes,hterms,hrules⟩ := halike
  exact ⟨a,b,ha,hb,(ontologyHash_iff hca hcb hmutual fun _ => hbytes).mpr
    ⟨hterms,fun r hr s hs hid => Json.bytes_inj.mp (hrules r hr s hs hid)⟩⟩

/-- The same superclasses in another order give another content address. -/
theorem reordered_superclasses : ¬∀ (sha256 : List Char → HexDigest) (a b : Ontology),
    a.Constructed → b.Constructed → a.Mutual b →
      a.ontologyHash sha256 = b.ontologyHash sha256 := by
  intro h
  obtain ⟨a,b,ha,hb,hca,hcb,hmutual⟩ :=
    Sample.drawn_mutual (Sample.below ["A","B"]) (Sample.below ["B","A"]) (by decide +kernel)
  have hbytes : ((Sample.drawn (Sample.below ["A","B"])).toOption.any fun a =>
      (Sample.drawn (Sample.below ["B","A"])).toOption.any fun b =>
        b.toDict.bytes ≠ a.toDict.bytes) = true := by
    decide +kernel
  simp only [ha,hb,Except.toOption,Option.any_some,decide_eq_true_eq] at hbytes
  have hsame := h (Sample.telling a.toDict.bytes) a b hca hcb hmutual
  simp only [Ontology.ontologyHash,Sample.telling,if_true,if_neg hbytes] at hsame
  have hdigits : String.ofList (List.replicate 64 '0') ≠ String.ofList (List.replicate 64 '1') :=
    by decide +kernel
  exact hdigits (congrArg HexDigest.text hsame)

end AgentCentric

import AgentCentric.Ontology.Matching

namespace AgentCentric

/-- A value that some assertion has: a name is not empty, and a text was written by `dumps`. -/
def Val.Sound : Val → Prop
  | .term name => name ≠ ""
  | .lit _ text => ∃ value : Json, text = value.bytes

theorem Obj.val_sound (o : Obj) : o.val.Sound := by
  cases o with
  | term t => exact t.name_ne
  | literal l => exact ⟨l.value,rfl⟩

variable {pattern : Pattern}

theorem Pattern.Holds.sound {θ : Valuation} {v : Val} {x : String}
    (h : pattern.Holds θ v) (hv : v.Sound) (hx : x ∈ pattern.vars) : (θ x).Sound := by
  cases pattern with
  | var name _ =>
    by_cases hany : name = "_"
    · simp [vars,hany] at hx
    · simp only [vars,ne_eq,hany,not_false_eq_true,if_true,List.mem_singleton] at hx
      rw [hx,h hany]
      exact hv
  | term name _ => simp [vars] at hx
  | lit datatype value => simp [vars] at hx

theorem Rule.Fires.sound {rule : Rule} {facts : List Assertion} {N : Set Fact} {θ : Valuation}
    (h : rule.Fires (factsOf facts) N θ) {x : String} (hx : x ∈ positiveVars rule.body) :
    (θ x).Sound := by
  simp only [positiveVars,List.mem_flatMap,List.mem_filter,Bool.not_eq_true'] at hx
  obtain ⟨atom,⟨hatom,hpos⟩,hvar⟩ := hx
  obtain ⟨f,⟨a,-,rfl⟩,-,hs,ho⟩ := h.pos atom hatom hpos
  rcases List.mem_append.1 hvar with hvar | hvar
  · exact hs.sound a.s_ne hvar
  · exact ho.sound a.o.val_sound hvar

theorem Pattern.not_mem_vars (pattern : Pattern) : "_" ∉ pattern.vars := by
  cases pattern with
  | var name _ =>
    by_cases h : name = "_"
    · simp [vars,h]
    · have h' : ¬ "_" = name := fun heq => h heq.symm
      simp [vars,h,h']
  | term name _ => simp [vars]
  | lit datatype value => simp [vars]

theorem not_mem_positiveVars (body : List RuleAtom) : "_" ∉ positiveVars body := by
  intro h
  simp only [positiveVars,List.mem_flatMap] at h
  obtain ⟨atom,-,hvar⟩ := h
  rcases List.mem_append.1 hvar with hvar | hvar
  · exact atom.s.not_mem_vars hvar
  · exact atom.o.not_mem_vars hvar

section
variable {θ : Valuation} {b : Bindings} (hθ : Extends θ b) (hany : ¬ Binds b "_")
include hθ hany

theorem resolveSubject_eq (hvars : ∀ x ∈ pattern.vars, Binds b x) :
    resolveSubject pattern b = pattern.subjectAt θ := by
  cases pattern with
  | var name _ =>
    by_cases h : name = "_"
    · have hfree : b.get "_" = none := by simpa [Binds] using hany
      simp [resolveSubject,Pattern.subjectAt,h,hfree]
    · have hget := hθ.get (hvars name (by simp [Pattern.vars,h]))
      simp only [resolveSubject,Pattern.subjectAt,h,if_false,hget]
      cases θ name <;> rfl
  | term name _ => rfl
  | lit datatype value => rfl

theorem resolveObject_sound {o : Obj} (h : resolveObject pattern b = .ok o)
    (hsound : ∀ x, Binds b x → (θ x).Sound) : pattern.objectAt θ = some o.val := by
  cases pattern with
  | var name _ =>
    simp only [resolveObject] at h
    cases hget : b.get name with
    | none => simp [hget] at h
    | some v =>
      have hbinds : Binds b name := by simp [Binds,hget]
      have hne : name ≠ "_" := by
        rintro rfl
        exact hany hbinds
      have hv := hsound name hbinds
      simp only [Pattern.objectAt,hne,if_false,hθ name v hget] at hv ⊢
      cases v with
      | term n =>
        simp only [hget,Term.new_of_ne hv] at h
        cases h
        rfl
      | lit type text =>
        obtain ⟨value,rfl⟩ := hv
        have hloads : Json.loads (String.ofList value.bytes) = some value.canonical :=
          Json.loads_compact value
        simp only [hget,hloads] at h
        cases h
        simp [Obj.val]
  | term name _ =>
    cases h
    rfl
  | lit datatype value =>
    cases h
    rfl

omit hany in
theorem resolveObject_complete {v : Val} (h : pattern.objectAt θ = some v)
    (hvars : ∀ x ∈ pattern.vars, Binds b x) (hsound : ∀ x, Binds b x → (θ x).Sound) :
    ∃ o, resolveObject pattern b = .ok o := by
  cases pattern with
  | var name _ =>
    by_cases hname : name = "_"
    · simp [Pattern.objectAt,hname] at h
    · have hbinds := hvars name (by simp [Pattern.vars,hname])
      have hget := hθ.get hbinds
      have hv := hsound name hbinds
      simp only [resolveObject,hget]
      cases hval : θ name with
      | term n =>
        rw [hval] at hv
        simp only [Term.new_of_ne hv]
        exact ⟨_,rfl⟩
      | lit type text =>
        rw [hval] at hv
        obtain ⟨value,rfl⟩ := hv
        have hloads : Json.loads (String.ofList value.bytes) = some value.canonical :=
          Json.loads_compact value
        simp only [hloads]
        exact ⟨_,rfl⟩
  | term name _ => exact ⟨_,rfl⟩
  | lit datatype value => exact ⟨_,rfl⟩

end

theorem ruleBindings_bound {rule : Rule} {facts : List Assertion} {b : Bindings} {θ : Valuation}
    (hb : b ∈ ruleBindings rule facts) (hθ : Extends θ b) : ¬ Binds b "_" ∧
      (∀ x, Binds b x → (θ x).Sound) ∧ ∀ x ∈ rule.head.vars, Binds b x := by
  obtain ⟨hfires,hbinds⟩ := ruleBindings_sound hb
  exact ⟨fun h => not_mem_positiveVars rule.body ((hbinds "_").1 h),
    fun x hx => (hfires θ hθ).sound ((hbinds x).1 hx),
    fun x hx => (hbinds x).2 (rule.restricted x hx)⟩

theorem derive_sound {rule : Rule} {facts : List Assertion} {b : Bindings} {θ : Valuation}
    {a : Assertion} (hb : b ∈ ruleBindings rule facts) (hθ : Extends θ b)
    (h : derive rule.head b = .ok a) : rule.head.headAt θ = some a.fact := by
  obtain ⟨hany,hsound,hhead⟩ := ruleBindings_bound hb hθ
  have hvars : ∀ x ∈ rule.head.s.vars, Binds b x := fun x hx => hhead x (List.mem_append_left _ hx)
  simp only [derive,resolveSubject_eq hθ hany hvars] at h
  cases hs : rule.head.s.subjectAt θ with
  | none => simp [hs] at h
  | some subject =>
    simp only [hs,bind_ok] at h
    obtain ⟨o,ho,hnew⟩ := h
    simp only [Assertion.new] at hnew
    split at hnew
    · cases hnew
      simp [RuleAtom.headAt,hs,resolveObject_sound hθ hany ho hsound,Assertion.fact]
    · cases hnew

theorem derive_complete {rule : Rule} {facts : List Assertion} {b : Bindings} {θ : Valuation}
    {f : Fact} (hb : b ∈ ruleBindings rule facts) (hθ : Extends θ b)
    (h : rule.head.headAt θ = some f) : ∃ a, derive rule.head b = .ok a := by
  obtain ⟨hany,hsound,hvars⟩ := ruleBindings_bound hb hθ
  have hsvars : ∀ x ∈ rule.head.s.vars, Binds b x := fun x hx => hvars x (List.mem_append_left _ hx)
  simp only [RuleAtom.headAt,Option.bind_eq_bind,Option.bind_eq_some_iff] at h
  obtain ⟨subject,hs,v,hv,-⟩ := h
  obtain ⟨o,ho⟩ := resolveObject_complete hθ hv
    (fun x hx => hvars x (List.mem_append_right _ hx)) hsound
  have hne : subject ≠ "" := by
    cases hpattern : rule.head.s with
    | var name hname =>
      rw [hpattern] at hs hsvars
      by_cases hname' : name = "_"
      · simp [Pattern.subjectAt,hname'] at hs
      · have hval := hsound name (hsvars name (by simp [Pattern.vars,hname']))
        simp only [Pattern.subjectAt,hname',if_false] at hs
        cases hθn : θ name with
        | term n =>
          rw [hθn] at hs hval
          cases hs
          exact hval
        | lit type text =>
          rw [hθn] at hs
          cases hs
    | term name hname =>
      rw [hpattern] at hs
      cases hs
      exact hname
    | lit datatype value =>
      rw [hpattern] at hs
      cases hs
  refine ⟨⟨subject,rule.head.p,o,hne,rule.head.p_ne⟩,?_⟩
  simp only [derive,resolveSubject_eq hθ hany hsvars,hs,ho]
  simp [bind,Except.bind,Assertion.new,hne,rule.head.p_ne]

/-- The heads of the rules whose bodies hold in `X`. -/
def consequences (rules : List Rule) (X : Set Fact) : Set Fact :=
  {f | ∃ rule ∈ rules, ∃ θ, rule.Fires X X θ ∧ rule.head.headAt θ = some f}

/-- Every head of a rule whose body holds in `X` says a fact. -/
def Resolves (rules : List Rule) (X : Set Fact) : Prop :=
  ∀ rule ∈ rules, ∀ θ, rule.Fires X X θ → ∃ f, rule.head.headAt θ = some f

variable {rules : List Rule}

theorem mem_instances {facts : List Assertion} {i : Rule × Bindings} :
    i ∈ instances rules facts ↔ i.1 ∈ rules ∧ i.2 ∈ ruleBindings i.1 facts := by
  simp only [instances,List.mem_flatMap,List.mem_map]
  constructor
  · rintro ⟨rule,hrule,b,hb,rfl⟩
    exact ⟨hrule,hb⟩
  · rintro ⟨hrule,hb⟩
    exact ⟨i.1,hrule,i.2,hb,rfl⟩

theorem instances_resolve {facts : List Assertion} :
    (∀ i ∈ instances rules facts, ∃ a, derive i.1.head i.2 = .ok a) ↔
      Resolves rules (factsOf facts) := by
  constructor
  · intro h rule hrule θ hfires
    obtain ⟨b,hb,hθ⟩ := ruleBindings_complete hfires
    obtain ⟨a,ha⟩ := h (rule,b) (mem_instances.2 ⟨hrule,hb⟩)
    exact ⟨a.fact,derive_sound hb hθ ha⟩
  · intro h i hi
    obtain ⟨hrule,hb⟩ := mem_instances.1 hi
    have hθ := extends_valuationOf i.2
    obtain ⟨f,hf⟩ := h i.1 hrule _ ((ruleBindings_sound hb).1 _ hθ)
    exact derive_complete hb hθ hf

theorem instances_heads {facts : List Assertion} (f : Fact) :
    (∃ i ∈ instances rules facts, ∃ a, derive i.1.head i.2 = .ok a ∧ a.fact = f) ↔
      f ∈ consequences rules (factsOf facts) := by
  constructor
  · rintro ⟨i,hi,a,ha,rfl⟩
    obtain ⟨hrule,hb⟩ := mem_instances.1 hi
    have hθ := extends_valuationOf i.2
    exact ⟨i.1,hrule,_,(ruleBindings_sound hb).1 _ hθ,derive_sound hb hθ ha⟩
  · rintro ⟨rule,hrule,θ,hfires,hf⟩
    obtain ⟨b,hb,hθ⟩ := ruleBindings_complete hfires
    obtain ⟨a,ha⟩ := derive_complete hb hθ hf
    have hfact := derive_sound hb hθ ha
    rw [hf] at hfact
    exact ⟨(rule,b),mem_instances.2 ⟨hrule,hb⟩,a,ha,(Option.some.inj hfact).symm⟩

/-- What a pass leaves: the heads are added behind what was there. -/
structure Added (heads : Set Fact) (r r' : Collection × Bool) : Prop where
  facts : r'.1.facts = r.1.facts ∪ heads
  kept : ∃ new, r'.1.values = r.1.values ++ new ∧ (r'.2 = true ↔ r.2 = true ∨ new ≠ [])

theorem deriveAll_ok {is : List (Rule × Bindings)} {r r' : Collection × Bool}
    (h : deriveAll is r = .ok r') : (∀ i ∈ is, ∃ a, derive i.1.head i.2 = .ok a) ∧
      Added {f | ∃ i ∈ is, ∃ a, derive i.1.head i.2 = .ok a ∧ a.fact = f} r r' := by
  induction is generalizing r with
  | nil =>
    cases h
    exact ⟨by simp,⟨by simp,[],by simp⟩⟩
  | cons i is ih =>
    obtain ⟨rule,b⟩ := i
    simp only [deriveAll,bind_ok] at h
    obtain ⟨a,ha,h⟩ := h
    obtain ⟨hrest,hadded⟩ := ih h
    constructor
    · intro j hj
      rcases List.mem_cons.1 hj with rfl | hj
      · exact ⟨a,ha⟩
      · exact hrest j hj
    · have hfirst : (if r.1.contains a.key then r else (r.1.put a,true)).1.facts =
          insert a.fact r.1.facts := by
        split
        · rename_i hc
          exact (Set.insert_eq_of_mem (Collection.contains_iff.1 hc)).symm
        · exact Collection.facts_put r.1 a
      constructor
      · rw [hadded.facts,hfirst]
        ext f
        simp only [Set.mem_union,Set.mem_insert_iff,Set.mem_ofPred_eq,List.mem_cons,
          exists_eq_or_imp,ha,Except.ok.injEq,exists_eq_left',@eq_comm Fact f a.fact]
        tauto
      · obtain ⟨new,hnew,hflag⟩ := hadded.kept
        split at hnew
        · rename_i hc
          exact ⟨new,hnew,by simpa [hc] using hflag⟩
        · rename_i hc
          rw [Collection.values_put (Bool.eq_false_iff.2 hc),List.append_assoc] at hnew
          exact ⟨a :: new,hnew,by simpa [hc] using hflag⟩

theorem deriveAll_returns {is : List (Rule × Bindings)}
    (h : ∀ i ∈ is, ∃ a, derive i.1.head i.2 = .ok a) (r : Collection × Bool) :
    ∃ r', deriveAll is r = .ok r' := by
  induction is generalizing r with
  | nil => exact ⟨r,rfl⟩
  | cons i is ih =>
    obtain ⟨a,ha⟩ := h i List.mem_cons_self
    obtain ⟨r',hr'⟩ := ih (fun j hj => h j (List.mem_cons_of_mem i hj))
      (if r.1.contains a.key then r else (r.1.put a,true))
    exact ⟨r',by simp only [deriveAll,bind_ok]; exact ⟨a,ha,hr'⟩⟩

structure Pass (rules : List Rule) (c : Collection) (r : Collection × Bool) : Prop where
  resolves : Resolves rules c.facts
  facts : r.1.facts = c.facts ∪ consequences rules c.facts
  kept : ∃ new, r.1.values = c.values ++ new ∧ (r.2 = true ↔ new ≠ [])

theorem pass_ok {c : Collection} {r : Collection × Bool}
    (h : deriveAll (instances rules c.values) (c,false) = .ok r) : Pass rules c r := by
  obtain ⟨hderive,hadded⟩ := deriveAll_ok h
  constructor
  · exact instances_resolve.1 hderive
  · rw [hadded.facts]
    congr 1
    ext f
    exact instances_heads f
  · simpa using hadded.kept

/-- A pass that adds something leaves more. -/
theorem Pass.grows {c : Collection} {r : Collection × Bool}
    (h : Pass rules c r) (hmore : r.2 = true) : c.size < r.1.size := by
  obtain ⟨new,hnew,hflag⟩ := h.kept
  have hpos := List.length_pos_of_ne_nil (hflag.1 hmore)
  rw [Collection.size,Collection.size,hnew,List.length_append]
  omega

/-- A pass that adds nothing leaves everything as it was, and the rules say nothing new. -/
theorem Pass.quiet {c : Collection} {r : Collection × Bool}
    (h : Pass rules c r) (hquiet : ¬ r.2 = true) :
    r.1.values = c.values ∧ consequences rules c.facts ⊆ c.facts := by
  obtain ⟨new,hnew,hflag⟩ := h.kept
  have hnil : new = [] := by
    by_contra hne
    exact hquiet (hflag.2 hne)
  rw [hnil,List.append_nil] at hnew
  have hsame : r.1.facts = c.facts := by rw [Collection.facts,Collection.facts,hnew]
  have hunion := h.facts
  rw [hsame] at hunion
  exact ⟨hnew,Set.union_eq_left.1 hunion.symm⟩

end AgentCentric

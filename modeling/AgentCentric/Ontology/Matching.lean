import AgentCentric.Library.Levels
import AgentCentric.Library.Stratified
import AgentCentric.Ontology.Closure

namespace AgentCentric

abbrev Valuation := String → Val

def Pattern.Holds (θ : Valuation) : Pattern → Val → Prop
  | .var name _, v => name ≠ "_" → θ name = v
  | .term name _, v => v = .term name
  | .lit datatype value, v => v = .lit datatype value.bytes

def RuleAtom.Matches (a : RuleAtom) (θ : Valuation) (f : Fact) : Prop :=
  a.p = f.p ∧ a.s.Holds θ (.term f.s) ∧ a.o.Holds θ f.o

/-- A match for some values of the variables outside `bound`. -/
def RuleAtom.MatchesFree (a : RuleAtom) (bound : List String) (θ : Valuation) (f : Fact) : Prop :=
  ∃ τ : Valuation, (∀ x ∈ bound, τ x = θ x) ∧ a.Matches τ f

/-- The body holds, when its negation is read in `N`. -/
structure Rule.Fires (rule : Rule) (X N : Set Fact) (θ : Valuation) : Prop where
  pos : ∀ a ∈ rule.body, a.negated = false → ∃ f ∈ X, a.Matches θ f
  neg : ∀ a ∈ rule.body, a.negated = true → ∀ f ∈ N, ¬ a.MatchesFree (positiveVars rule.body) θ f

def Pattern.subjectAt (θ : Valuation) : Pattern → Option String
  | .term name _ => some name
  | .lit _ _ => none
  | .var name _ =>
    if name = "_" then none
    else match θ name with
      | .term n => some n
      | .lit _ _ => none

def Pattern.objectAt (θ : Valuation) : Pattern → Option Val
  | .term name _ => some (.term name)
  | .lit datatype value => some (.lit datatype value.bytes)
  | .var name _ => if name = "_" then none else some (θ name)

def RuleAtom.headAt (head : RuleAtom) (θ : Valuation) : Option Fact := do
  let s ← head.s.subjectAt θ
  let o ← head.o.objectAt θ
  pure ⟨s,head.p,o⟩

/-- Facts that fit the positive atoms of a body: each atom has one, and each is for an atom. -/
structure Rule.Takes (rule : Rule) (θ : Valuation) (facts : Set Fact) : Prop where
  each : ∀ a ∈ rule.body, a.negated = false → ∃ f ∈ facts, a.Matches θ f
  only : ∀ f ∈ facts, ∃ a ∈ rule.body, a.negated = false ∧ a.Matches θ f

def Rule.ground (rule : Rule) (θ : Valuation) (facts : Set Fact) (head : Fact) :
    GroundRule Fact where
  head := head
  pos := facts
  neg := {f | ∃ a ∈ rule.body, a.negated = true ∧ a.MatchesFree (positiveVars rule.body) θ f}

def ruleProgram (rules : List Rule) : Program Fact :=
  {r | ∃ rule ∈ rules, ∃ θ facts head, rule.head.headAt θ = some head ∧ rule.Takes θ facts ∧
    r = rule.ground θ facts head}

variable {θ : Valuation}

theorem headAt_predicate {head : RuleAtom} {f : Fact}
    (h : head.headAt θ = some f) : f.p = head.p := by
  simp only [RuleAtom.headAt,Option.bind_eq_bind,Option.bind_eq_some_iff,Option.pure_def,
    Option.some.injEq] at h
  obtain ⟨_,_,_,_,rfl⟩ := h
  rfl

/-- A body holds if facts that fit it are at hand. -/
theorem Rule.fires_iff {rule : Rule} {X N : Set Fact} (head : Fact) :
    rule.Fires X N θ ↔ ∃ facts, rule.Takes θ facts ∧
      (rule.ground θ facts head).pos ⊆ X ∧ Disjoint (rule.ground θ facts head).neg N := by
  constructor
  · intro h
    refine ⟨{f | f ∈ X ∧ ∃ a ∈ rule.body, a.negated = false ∧ a.Matches θ f},⟨?_,?_⟩,?_,?_⟩
    · intro a ha hpos
      obtain ⟨f,hf,hmatch⟩ := h.pos a ha hpos
      exact ⟨f,⟨hf,a,ha,hpos,hmatch⟩,hmatch⟩
    · exact fun f hf => hf.2
    · exact fun f hf => hf.1
    · rw [Set.disjoint_left]
      rintro f ⟨a,ha,hneg,hmatch⟩ hf
      exact h.neg a ha hneg f hf hmatch
  · rintro ⟨facts,htakes,hpos,hneg⟩
    constructor
    · intro a ha h
      obtain ⟨f,hf,hmatch⟩ := htakes.each a ha h
      exact ⟨f,hpos hf,hmatch⟩
    · exact fun a ha h f hf hfree => Set.disjoint_left.1 hneg ⟨a,ha,h,hfree⟩ hf

def Rule.bound (rule : Rule) : Bound String :=
  ⟨rule.head.p,rule.body.map fun a => (a.p,if a.negated then 1 else 0)⟩

def bounds (rules : List Rule) : List (Bound String) := rules.map Rule.bound

theorem level_le {rules : List Rule} {σ : String → Nat} (hσ : Bound.Meets (bounds rules) σ)
    {rule : Rule} (hrule : rule ∈ rules) {a : RuleAtom} (ha : a ∈ rule.body) :
    σ a.p + (if a.negated then 1 else 0) ≤ σ rule.head.p :=
  hσ rule.bound (List.mem_map.2 ⟨rule,hrule,rfl⟩) (a.p,_) (List.mem_map.2 ⟨a,ha,rfl⟩)

theorem stratified_ruleProgram {rules : List Rule} {σ : String → Nat}
    (hσ : Bound.Meets (bounds rules) σ) : (ruleProgram rules).Stratified fun f => σ f.p := by
  constructor
  · rintro _ ⟨rule,hrule,θ,facts,head,hhead,htakes,rfl⟩ f hf
    obtain ⟨a,ha,-,hmatch⟩ := htakes.only f hf
    have hle := level_le hσ hrule ha
    simp only [Rule.ground,headAt_predicate hhead,← hmatch.1]
    omega
  · rintro _ ⟨rule,hrule,θ,facts,head,hhead,-,rfl⟩ f ⟨a,ha,hneg,τ,-,hp,-⟩
    have hle := level_le hσ hrule ha
    simp only [hneg,if_true] at hle
    simp only [Rule.ground,headAt_predicate hhead,← hp]
    omega

def Extends (θ : Valuation) (b : Bindings) : Prop := ∀ x v, b.get x = some v → θ x = v

def Binds (b : Bindings) (x : String) : Prop := (b.get x).isSome = true

def valuationOf (b : Bindings) : Valuation := fun x => (b.get x).getD (.term "")

theorem extends_valuationOf (b : Bindings) : Extends (valuationOf b) b := by
  intro x v h
  simp [valuationOf,h]

variable {b : Bindings}

theorem Extends.get (h : Extends θ b) {x : String} (hx : Binds b x) : b.get x = some (θ x) := by
  obtain ⟨v,hv⟩ := Option.isSome_iff_exists.1 hx
  rw [hv,h x v hv]

variable {v : Val}

theorem extends_set {x : String}
    (hfree : b.get x = none) : Extends θ (b.set x v) ↔ Extends θ b ∧ θ x = v := by
  constructor
  · intro h
    constructor
    · intro y w hy
      apply h y w
      rw [Dict.get_set_ne]
      · exact hy
      · rintro rfl
        rw [hfree] at hy
        cases hy
    · exact h x v (Dict.get_set_self b x v)
  · rintro ⟨h,hx⟩ y w hy
    rw [Dict.get_set] at hy
    split at hy
    · rename_i heq
      cases hy
      exact heq ▸ hx
    · exact h y w hy

theorem binds_set {x y : String} : Binds (b.set x v) y ↔ Binds b y ∨ y = x := by
  rw [Binds,Dict.get_set]
  by_cases h : x = y
  · simp [h]
  · have h' : ¬ y = x := fun heq => h heq.symm
    simp [h,h',Binds]

theorem unify_some {pattern : Pattern} {b b' : Bindings} (h : unify pattern v b = some b') :
    (∀ θ, Extends θ b' ↔ Extends θ b ∧ pattern.Holds θ v) ∧
      ∀ x, Binds b' x ↔ Binds b x ∨ x ∈ pattern.vars := by
  cases pattern with
  | var name hname =>
    simp only [unify] at h
    by_cases hany : name = "_"
    · simp only [hany,if_true,Option.some.injEq] at h
      subst h
      simp [Pattern.Holds,Pattern.vars,hany]
    · simp only [hany,if_false] at h
      simp only [Pattern.Holds,Pattern.vars,ne_eq,hany,not_false_eq_true,if_true,
        List.mem_singleton,forall_const]
      cases hget : b.get name with
      | none =>
        simp only [hget,Option.some.injEq] at h
        subst h
        exact ⟨fun θ => extends_set hget,fun x => binds_set⟩
      | some bound =>
        simp only [hget] at h
        split at h
        · rename_i hbound
          cases h
          subst hbound
          refine ⟨fun θ => ⟨fun hb => ⟨hb,hb _ _ hget⟩,And.left⟩,fun x => ⟨.inl,?_⟩⟩
          rintro (hx | rfl)
          · exact hx
          · simp [Binds,hget]
        · cases h
  | term name hname =>
    simp only [unify] at h
    split at h
    · rename_i hv
      cases h
      simp [Pattern.Holds,Pattern.vars,hv]
    · cases h
  | lit datatype value =>
    simp only [unify] at h
    split at h
    · rename_i hv
      cases h
      simp [Pattern.Holds,Pattern.vars,hv]
    · cases h

theorem unify_complete {pattern : Pattern}
    (hb : Extends θ b) (hv : pattern.Holds θ v) : ∃ b', unify pattern v b = some b' := by
  cases pattern with
  | var name hname =>
    simp only [unify]
    by_cases hany : name = "_"
    · simp [hany]
    · simp only [hany,if_false]
      cases hget : b.get name with
      | none => simp
      | some bound =>
        have hbound : bound = v := by rw [← hb name bound hget,hv hany]
        simp [hbound]
  | term name hname =>
    have hv' : v = .term name := hv
    simp [unify,hv']
  | lit datatype value =>
    have hv' : v = .lit datatype value.bytes := hv
    simp [unify,hv']

variable {atom : RuleAtom}

theorem atomMatches_some {a : Assertion} {b b' : Bindings} (h : atomMatches atom a b = some b') :
    (∀ θ, Extends θ b' ↔ Extends θ b ∧ atom.Matches θ a.fact) ∧
      ∀ x, Binds b' x ↔ Binds b x ∨ x ∈ atom.vars := by
  simp only [atomMatches] at h
  split at h
  · rename_i hp
    obtain ⟨c,hs,ho⟩ := Option.bind_eq_some_iff.1 h
    obtain ⟨hsθ,hsx⟩ := unify_some hs
    obtain ⟨hoθ,hox⟩ := unify_some ho
    constructor
    · intro θ
      rw [hoθ,hsθ,and_assoc]
      simp [RuleAtom.Matches,Assertion.fact,hp]
    · intro x
      rw [hox,hsx,or_assoc,RuleAtom.vars,List.mem_append]
  · cases h

theorem atomMatches_complete {a : Assertion}
    (hb : Extends θ b) (ha : atom.Matches θ a.fact) : ∃ b', atomMatches atom a b = some b' := by
  obtain ⟨hp,hs,ho⟩ := ha
  obtain ⟨c,hc⟩ := unify_complete hb hs
  have hcθ : Extends θ c := ((unify_some hc).1 θ).2 ⟨hb,hs⟩
  obtain ⟨b',hb'⟩ := unify_complete hcθ ho
  have hp' : atom.p = a.p := hp
  refine ⟨b',?_⟩
  simp only [atomMatches,hp',if_true]
  exact Option.bind_eq_some_iff.2 ⟨c,hc,hb'⟩

variable {facts : List Assertion}

theorem negatedHolds_iff : negatedHolds atom facts b = true ↔
      ∃ a ∈ facts, ∃ θ, Extends θ b ∧ atom.Matches θ a.fact := by
  rw [negatedHolds,List.any_eq_true]
  constructor
  · rintro ⟨a,ha,hsome⟩
    obtain ⟨b',hb'⟩ := Option.isSome_iff_exists.1 hsome
    exact ⟨a,ha,valuationOf b',((atomMatches_some hb').1 _).1 (extends_valuationOf b')⟩
  · rintro ⟨a,ha,θ,hb,hmatch⟩
    obtain ⟨b',hb'⟩ := atomMatches_complete hb hmatch
    exact ⟨a,ha,by simp [hb']⟩

theorem joinAtoms_sound {atoms : List RuleAtom} {b b' : Bindings}
    (h : b' ∈ joinAtoms facts atoms b) :
    (∀ θ, Extends θ b' → Extends θ b ∧ ∀ atom ∈ atoms, ∃ a ∈ facts, atom.Matches θ a.fact) ∧
      ∀ x, Binds b' x ↔ Binds b x ∨ x ∈ atoms.flatMap RuleAtom.vars := by
  induction atoms generalizing b with
  | nil =>
    simp only [joinAtoms,List.mem_singleton] at h
    subst h
    simp
  | cons atom atoms ih =>
    simp only [joinAtoms,List.mem_flatMap] at h
    obtain ⟨a,ha,hb'⟩ := h
    cases hmatch : atomMatches atom a b with
    | none => simp [hmatch] at hb'
    | some c =>
      rw [hmatch] at hb'
      obtain ⟨hjoin,hjoinx⟩ := ih hb'
      obtain ⟨hatom,hatomx⟩ := atomMatches_some hmatch
      constructor
      · intro θ hθ
        obtain ⟨hc,hrest⟩ := hjoin θ hθ
        obtain ⟨hb,hfirst⟩ := (hatom θ).1 hc
        refine ⟨hb,fun other hother => ?_⟩
        rcases List.mem_cons.1 hother with rfl | hmem
        · exact ⟨a,ha,hfirst⟩
        · exact hrest other hmem
      · intro x
        rw [hjoinx,hatomx,List.flatMap_cons,List.mem_append,or_assoc]

theorem joinAtoms_complete {atoms : List RuleAtom} (hb : Extends θ b)
    (h : ∀ atom ∈ atoms, ∃ a ∈ facts, atom.Matches θ a.fact) :
    ∃ b' ∈ joinAtoms facts atoms b, Extends θ b' := by
  induction atoms generalizing b with
  | nil => exact ⟨b,by simp [joinAtoms],hb⟩
  | cons atom atoms ih =>
    obtain ⟨a,ha,hmatch⟩ := h atom List.mem_cons_self
    obtain ⟨c,hc⟩ := atomMatches_complete hb hmatch
    have hcθ : Extends θ c := ((atomMatches_some hc).1 θ).2 ⟨hb,hmatch⟩
    obtain ⟨b',hb',hθ⟩ := ih hcθ fun other hother => h other (List.mem_cons_of_mem atom hother)
    refine ⟨b',?_,hθ⟩
    simp only [joinAtoms,List.mem_flatMap]
    exact ⟨a,ha,by simpa [hc] using hb'⟩

def factsOf (as : List Assertion) : Set Fact := {f | ∃ a ∈ as, a.fact = f}

theorem matchesFree_iff {bound : List String}
    {f : Fact} (hθ : Extends θ b) (hbound : ∀ x, Binds b x ↔ x ∈ bound) :
    atom.MatchesFree bound θ f ↔ ∃ τ, Extends τ b ∧ atom.Matches τ f := by
  constructor
  · rintro ⟨τ,hτ,hmatch⟩
    refine ⟨τ,fun x v hx => ?_,hmatch⟩
    rw [hτ x ((hbound x).1 (by simp [Binds,hx])),hθ x v hx]
  · rintro ⟨τ,hτ,hmatch⟩
    refine ⟨τ,fun x hx => ?_,hmatch⟩
    have hget := hτ.get ((hbound x).2 hx)
    rw [hθ.get ((hbound x).2 hx)] at hget
    exact (Option.some.inj hget).symm

theorem join_binds {rule : Rule}
    (h : b ∈ joinAtoms facts (rule.body.filter fun a => !a.negated) .empty) (x : String) :
    Binds b x ↔ x ∈ positiveVars rule.body := by
  rw [(joinAtoms_sound h).2 x,positiveVars]
  simp [Binds]

theorem ruleBindings_sound {rule : Rule} (h : b ∈ ruleBindings rule facts) :
    (∀ θ, Extends θ b → rule.Fires (factsOf facts) (factsOf facts) θ) ∧
      ∀ x, Binds b x ↔ x ∈ positiveVars rule.body := by
  simp only [ruleBindings,List.mem_filter,List.all_eq_true,Bool.not_eq_true'] at h
  obtain ⟨hjoin,hneg⟩ := h
  have hbinds := join_binds hjoin
  refine ⟨fun θ hθ => ⟨fun atom hatom hpos => ?_,fun atom hatom hnegated f hf hfree => ?_⟩,hbinds⟩
  · obtain ⟨a,ha,hmatch⟩ := ((joinAtoms_sound hjoin).1 θ hθ).2 atom
      (List.mem_filter.2 ⟨hatom,by simp [hpos]⟩)
    exact ⟨a.fact,⟨a,ha,rfl⟩,hmatch⟩
  · obtain ⟨a,ha,rfl⟩ := hf
    have hholds : negatedHolds atom facts b = true := by
      rw [negatedHolds_iff]
      exact ⟨a,ha,(matchesFree_iff hθ hbinds).1 hfree⟩
    have hfalse := hneg atom ⟨hatom,hnegated⟩
    rw [hholds] at hfalse
    cases hfalse

/-- Every way to make the body hold is found. -/
theorem ruleBindings_complete {rule : Rule} (h : rule.Fires (factsOf facts) (factsOf facts) θ) :
    ∃ b ∈ ruleBindings rule facts, Extends θ b := by
  have hempty : Extends θ (.empty : Bindings) := by
    intro x v hx
    cases hx
  have hpos : ∀ atom ∈ rule.body.filter fun a => !a.negated, ∃ a ∈ facts, atom.Matches θ a.fact := by
    intro atom hatom
    rw [List.mem_filter] at hatom
    obtain ⟨f,⟨a,ha,rfl⟩,hmatch⟩ := h.pos atom hatom.1 (by simpa using hatom.2)
    exact ⟨a,ha,hmatch⟩
  obtain ⟨b,hb,hθ⟩ := joinAtoms_complete hempty hpos
  refine ⟨b,?_,hθ⟩
  simp only [ruleBindings,List.mem_filter,List.all_eq_true,Bool.not_eq_true']
  refine ⟨hb,fun atom hatom => Bool.eq_false_iff.2 fun hholds => ?_⟩
  obtain ⟨a,ha,hmatch⟩ := negatedHolds_iff.1 hholds
  exact h.neg atom hatom.1 hatom.2 a.fact ⟨a,ha,rfl⟩ ((matchesFree_iff hθ (join_binds hb)).2 hmatch)

end AgentCentric

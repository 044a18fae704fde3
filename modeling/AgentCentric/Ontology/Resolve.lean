import AgentCentric.Ontology.Entailment

namespace AgentCentric

def unstratifiable : OntologyError := malformed "unstratifiable rule program (negation cycle)"

def Bounded {α : Type} (r : Except OntologyError α) : Prop :=
  (∃ a, r = .ok a) ∨ ∃ m, r = .error ⟨.closureOverflow,m⟩

variable {e : OntologyError}

theorem derive_error {head : RuleAtom} {b : Bindings}
    (h : derive head b = .error e) : e.kind = .malformedDocument ∧ e ≠ unstratifiable := by
  simp only [derive] at h
  cases hs : resolveSubject head.s b with
  | none =>
    simp only [hs] at h
    cases h
    exact ⟨rfl,by decide⟩
  | some subject =>
    simp only [hs] at h
    cases ho : resolveObject head.o b with
    | error e' =>
      rw [ho] at h
      cases h
      cases hpattern : head.o with
      | var name hname =>
        simp only [hpattern,resolveObject] at ho
        split at ho
        · cases ho
          exact ⟨rfl,by decide⟩
        · simp only [Term.new] at ho
          split at ho
          · cases ho
          · cases ho
            exact ⟨rfl,by decide⟩
        · split at ho
          · cases ho
          · cases ho
            exact ⟨rfl,by decide⟩
      | term name hname => simp [hpattern,resolveObject] at ho
      | lit datatype value => simp [hpattern,resolveObject] at ho
    | ok o =>
      rw [ho] at h
      change Assertion.new subject head.p o = .error e at h
      simp only [Assertion.new] at h
      split at h
      · cases h
      · cases h
        exact ⟨rfl,by decide⟩

theorem deriveAll_error {is : List (Rule × Bindings)} {r : Collection × Bool}
    (h : deriveAll is r = .error e) : e.kind = .malformedDocument ∧ e ≠ unstratifiable := by
  induction is generalizing r with
  | nil => cases h
  | cons i is ih =>
    obtain ⟨rule,b⟩ := i
    simp only [deriveAll] at h
    cases hd : derive rule.head b with
    | error e' =>
      rw [hd] at h
      cases h
      exact derive_error hd
    | ok a =>
      rw [hd] at h
      exact ih h

/-- What one pass after the other reaches, as long as the bound is not exceeded. -/
inductive Passes (rules : List Rule) (X : Set Fact) : Set Fact → Prop
  | start : Passes rules X X
  | pass {Y : Set Fact} : Passes rules X Y →
      (Y ∪ consequences rules Y).encard ≤ maxClosureAssertions →
      Passes rules X (Y ∪ consequences rules Y)

variable {rules : List Rule}

theorem passes_iff {X Y : Set Fact} : Passes rules X Y ↔ Y = X ∨
    (X ∪ consequences rules X).encard ≤ maxClosureAssertions ∧
      Passes rules (X ∪ consequences rules X) Y := by
  constructor
  · intro h
    induction h with
    | start => exact .inl rfl
    | pass _ hle ih =>
      rcases ih with rfl | ⟨hfirst,hrest⟩
      · exact .inr ⟨hle,.start⟩
      · exact .inr ⟨hfirst,hrest.pass hle⟩
  · rintro (rfl | ⟨hfirst,hrest⟩)
    · exact .start
    · induction hrest with
      | start => exact .pass .start hfirst
      | pass _ hle ih => exact ih.pass hle

theorem passes_closed {X Y : Set Fact} (hX : consequences rules X ⊆ X)
    (h : Passes rules X Y) : Y = X := by
  induction h with
  | start => rfl
  | pass _ _ ih => rw [ih,Set.union_eq_self_of_subset_right hX]

/-- The levels from `k` on, starting with `X`: the level and the facts at the start of a pass. -/
inductive Reaches (rules : List Rule) (σ : String → Nat) : Nat → Set Fact → Nat → Set Fact → Prop
  | within {k : Nat} {X Y : Set Fact} : Passes (rulesAt rules σ k) X Y → Reaches rules σ k X k Y
  | next {k l : Nat} {X Y Z : Set Fact} : Passes (rulesAt rules σ k) X Y →
      consequences (rulesAt rules σ k) Y ⊆ Y → Reaches rules σ (k + 1) Y l Z →
      Reaches rules σ k X l Z

theorem Bounded.not_malformed {α : Type} (h : e.kind = .malformedDocument) :
    ¬ Bounded (.error e : Except OntologyError α) := by
  rintro (⟨a,ha⟩ | ⟨m,hm⟩)
  · cases ha
  · cases hm
    cases h

variable {c : Collection}

/-- What a pass of `saturate` leads to, and what the passes reach from there. -/
theorem saturate_step (rules : List Rule) (n : Nat) (c : Collection) :
    (∃ e, saturate rules (n+1) c = .error e ∧ e.kind = .malformedDocument ∧
      ¬Resolves rules c.facts) ∨
    ∃ r, Pass rules c r ∧ ((saturate rules (n+1) c = .ok r.1 ∧ r.2 = false ∧
        ∀ Y, Passes rules c.facts Y → Y = c.facts) ∨
      ((∃ m, saturate rules (n+1) c = .error ⟨.closureOverflow,m⟩) ∧ r.2 = true ∧
        ∀ Y, Passes rules c.facts Y → Y = c.facts) ∨
      saturate rules (n+1) c = saturate rules n r.1 ∧ r.2 = true ∧
        r.1.size ≤ maxClosureAssertions ∧
          ∀ Y, Passes rules c.facts Y ↔ Y = c.facts ∨ Passes rules r.1.facts Y) := by
  cases hd : deriveAll (instances rules c.values) (c,false) with
  | error e =>
    refine .inl ⟨e,by simp [saturate,hd,bind,Except.bind],(deriveAll_error hd).1,?_⟩
    intro hresolves
    obtain ⟨r,hr⟩ := deriveAll_returns (instances_resolve.2 hresolves) (c,false)
    rw [hd] at hr
    cases hr
  | ok r =>
    have hpass := pass_ok hd
    refine .inr ⟨r,hpass,?_⟩
    by_cases hmore : r.2 = true
    · by_cases hover : maxClosureAssertions < r.1.size
      · refine .inr (.inl ⟨⟨s!"closure exceeded {maxClosureAssertions} assertions (fail-closed)",
          by simp [saturate,hd,bind,Except.bind,hmore,hover]⟩,hmore,fun Y hY => ?_⟩)
        rcases passes_iff.1 hY with rfl | ⟨hle,-⟩
        · rfl
        · rw [← hpass.facts,encard_le] at hle
          omega
      · refine .inr (.inr ⟨by simp [saturate,hd,bind,Except.bind,hmore,hover],hmore,by omega,?_⟩)
        intro Y
        rw [passes_iff,← hpass.facts,encard_le]
        exact ⟨fun h => h.imp_right And.right,fun h => h.imp_right fun hY => ⟨by omega,hY⟩⟩
    · refine .inl ⟨by simp [saturate,hd,bind,Except.bind,hmore,pure,Except.pure],
        Bool.eq_false_iff.2 hmore,fun Y hY => passes_closed (hpass.quiet hmore).2 hY⟩

theorem saturate_bounded (rules : List Rule) {n : Nat}
    (hsize : c.size ≤ maxClosureAssertions) (hn : maxClosureAssertions + 1 < c.size + n) :
    Bounded (saturate rules n c) ↔ ∀ Y, Passes rules c.facts Y → Resolves rules Y := by
  induction n generalizing c with
  | zero => omega
  | succ n ih =>
    rcases saturate_step rules n c with ⟨e,hsat,hkind,hno⟩ | ⟨r,hpass,hcase⟩
    · rw [hsat]
      exact iff_of_false (Bounded.not_malformed hkind) fun h => hno (h _ .start)
    · have hstay (honly : ∀ Y, Passes rules c.facts Y → Y = c.facts) (Y : Set Fact)
          (hY : Passes rules c.facts Y) : Resolves rules Y := honly Y hY ▸ hpass.resolves
      rcases hcase with ⟨hsat,-,honly⟩ | ⟨⟨m,hsat⟩,-,honly⟩ | ⟨hsat,hmore,hle,hboth⟩
      · rw [hsat]
        exact iff_of_true (.inl ⟨_,rfl⟩) (hstay honly)
      · rw [hsat]
        exact iff_of_true (.inr ⟨_,rfl⟩) (hstay honly)
      · have hgrows := hpass.grows hmore
        rw [hsat,ih hle (by omega)]
        simp [hboth,or_imp,forall_and,hpass.resolves]

theorem passes_trans {X Y Z : Set Fact} (hZ : Passes rules X Z)
    (hY : Passes rules X Y) (hclosed : consequences rules Y ⊆ Y) : Passes rules Z Y := by
  induction hZ with
  | start => exact hY
  | pass _ _ ih =>
    rcases passes_iff.1 ih with rfl | ⟨-,hrest⟩
    · rw [Set.union_eq_self_of_subset_right hclosed]
      exact .start
    · exact hrest

theorem passes_unique {X Y Z : Set Fact} (hY : Passes rules X Y)
    (hYclosed : consequences rules Y ⊆ Y) (hZ : Passes rules X Z)
    (hZclosed : consequences rules Z ⊆ Z) : Y = Z :=
  passes_closed hZclosed (passes_trans hZ hY hYclosed)

theorem Pass.not_closed {r : Collection × Bool}
    (h : Pass rules c r) (hmore : r.2 = true) : ¬ consequences rules c.facts ⊆ c.facts := by
  intro hclosed
  have hgrows := h.grows hmore
  have hfacts := h.facts
  rw [Set.union_eq_self_of_subset_right hclosed] at hfacts
  have hencard := r.1.encard_facts
  rw [hfacts,c.encard_facts] at hencard
  have hsize : c.size = r.1.size := Nat.cast_inj.1 hencard
  omega

/-- A saturation that returns ends where the passes end, and one that exceeds the bound does not
reach an end. -/
theorem saturate_end (rules : List Rule) {n : Nat}
    (hsize : c.size ≤ maxClosureAssertions) (hn : maxClosureAssertions + 1 < c.size + n) :
    (∀ c', saturate rules n c = .ok c' → Passes rules c.facts c'.facts) ∧
      ∀ m, saturate rules n c = .error ⟨.closureOverflow,m⟩ →
        ∀ Y, Passes rules c.facts Y → ¬ consequences rules Y ⊆ Y := by
  induction n generalizing c with
  | zero => omega
  | succ n ih =>
    rcases saturate_step rules n c with ⟨e,hsat,hkind,-⟩ | ⟨r,hpass,hcase⟩
    · rw [hsat]
      refine ⟨fun c' h => (by cases h),fun m h => ?_⟩
      cases h
      cases hkind
    rcases hcase with ⟨hsat,hquiet,-⟩ | ⟨⟨_,hsat⟩,hmore,honly⟩ | ⟨hsat,hmore,hle,hboth⟩
    · rw [hsat]
      refine ⟨fun c' h => ?_,fun m h => (by cases h)⟩
      cases h
      have hsame : r.1.facts = c.facts := by
        rw [Collection.facts,Collection.facts,(hpass.quiet (Bool.eq_false_iff.1 hquiet)).1]
      rw [hsame]
      exact .start
    · rw [hsat]
      exact ⟨fun c' h => (by cases h),fun m _ Y hY => honly Y hY ▸ hpass.not_closed hmore⟩
    · have hgrows := hpass.grows hmore
      obtain ⟨hok,hend⟩ := ih (c := r.1) hle (by omega)
      rw [hsat]
      refine ⟨fun c' h => (hboth _).2 (.inr (hok c' h)),fun m h Y hY => ?_⟩
      rcases (hboth Y).1 hY with rfl | hrest
      · exact hpass.not_closed hmore
      · exact hend m h Y hrest

theorem Reaches.le {σ : String → Nat} {k l : Nat} {X Y : Set Fact}
    (h : Reaches rules σ k X l Y) : k ≤ l := by
  induction h with
  | within _ => exact Nat.le_refl _
  | next _ _ _ ih => omega

theorem saturateLevels_bounded {stratum : Dict String Nat} {m k : Nat}
    (hsize : c.size ≤ maxClosureAssertions) :
    Bounded (saturateLevels rules stratum (List.range' k m) c) ↔
      ∀ l X, Reaches rules (stratumOf stratum) k c.facts l X → l < k + m →
        Resolves (rulesAt rules (stratumOf stratum) l) X := by
  induction m generalizing k c with
  | zero =>
    refine ⟨fun _ l X hX hl => ?_,fun _ => .inl ⟨c,rfl⟩⟩
    have hle := hX.le
    omega
  | succ m ih =>
    have hbounded := saturate_bounded (rulesAt rules (stratumOf stratum) k)
      (n := maxClosureAssertions + 2) hsize (by omega)
    obtain ⟨hreached,hend⟩ := saturate_end (rulesAt rules (stratumOf stratum) k)
      (n := maxClosureAssertions + 2) hsize (by omega)
    cases hsat : saturate (rulesAt rules (stratumOf stratum) k) (maxClosureAssertions + 2) c with
    | error e =>
      have hlevels : saturateLevels rules stratum (List.range' k (m+1)) c = .error e := by
        rw [List.range'_succ,saturateLevels]
        change (saturate (rulesAt rules (stratumOf stratum) k) _ c >>= _) = _
        rw [hsat]
        rfl
      rw [hsat] at hbounded hend
      rw [hlevels]
      constructor
      · rintro hb l X hX hl
        obtain ⟨_,ha⟩ | ⟨msg,hm⟩ := hb
        · cases ha
        · cases hm
          have hres := hbounded.1 (.inr ⟨msg,rfl⟩)
          cases hX with
          | within hpasses => exact hres X hpasses
          | next hpasses hclosed _ => exact absurd hclosed (hend msg rfl _ hpasses)
      · intro h
        have hb := hbounded.2 fun Y hY => h k Y (.within hY) (by omega)
        obtain ⟨_,ha⟩ | ⟨msg,hm⟩ := hb
        · cases ha
        · cases hm
          exact .inr ⟨msg,rfl⟩
    | ok d =>
      have hlevels : saturateLevels rules stratum (List.range' k (m+1)) c =
          saturateLevels rules stratum (List.range' (k+1) m) d := by
        rw [List.range'_succ,saturateLevels]
        change (saturate (rulesAt rules (stratumOf stratum) k) _ c >>= _) = _
        rw [hsat]
        rfl
      have hd := saturate_ok hsat hsize (by omega)
      have hpasses := hreached d hsat
      rw [hsat] at hbounded
      rw [hlevels,ih hd.size]
      constructor
      · intro h l X hX hl
        cases hX with
        | within hp => exact hbounded.1 (.inl ⟨d,rfl⟩) X hp
        | next hp hclosed hrest =>
          rw [passes_unique hp hclosed hpasses hd.closed] at hrest
          exact h l X hrest (by omega)
      · intro h l X hX hl
        exact h l X (.next hpasses hd.closed hX) (by omega)

theorem relationFact_error {t : OntologyTerm} {p x : String}
    (h : relationFact t p x = .error e) : e.kind = .malformedDocument ∧ e ≠ unstratifiable := by
  simp only [relationFact,Term.new] at h
  split at h
  · simp only [bind,Except.bind,Assertion.new] at h
    split at h
    · cases h
    · cases h
      exact ⟨rfl,by decide⟩
  · cases h
    exact ⟨rfl,by decide⟩

theorem termFacts_error {t : OntologyTerm} (h : termFacts t = .error e) :
    e.kind = .malformedDocument ∧ e ≠ unstratifiable := by
  have hmap : ∀ {p : String} {xs : List String} {e : OntologyError},
      xs.mapM (relationFact t p) = .error e → e.kind = .malformedDocument ∧ e ≠ unstratifiable := by
    intro p xs e h
    obtain ⟨x,-,hx⟩ := mapM_error h
    exact relationFact_error hx
  simp only [termFacts,Assertion.new_of_ne _ t.name_ne (by decide : coreKind ≠ "")] at h
  cases hk : t.kind with
  | kindClass =>
    rw [hk] at h
    cases hsub : t.subClassOf.mapM (relationFact t coreSubClassOf) with
    | error e' =>
      simp only [hsub,bind,Except.bind] at h
      cases h
      exact hmap hsub
    | ok parents =>
      simp only [hsub,bind,Except.bind] at h
      cases h
  | kindProperty =>
    rw [hk] at h
    cases hdomain : t.domain.mapM (relationFact t coreDomain) with
    | error e' =>
      simp only [hdomain,bind,Except.bind] at h
      cases h
      exact hmap hdomain
    | ok domains =>
      cases hrange : t.range.mapM (relationFact t coreRange) with
      | error e' =>
        simp only [hdomain,hrange,bind,Except.bind] at h
        cases h
        exact hmap hrange
      | ok ranges =>
        simp only [hdomain,hrange,bind,Except.bind] at h
        cases h

theorem ontologyFacts_error {o : Ontology} (h : ontologyFacts o = .error e) :
    e.kind = .malformedDocument ∧ e ≠ unstratifiable := by
  cases hlists : o.terms.mapM termFacts with
  | error e' =>
    simp only [ontologyFacts,hlists,bind,Except.bind] at h
    cases h
    obtain ⟨t,-,ht⟩ := mapM_error hlists
    exact termFacts_error ht
  | ok lists =>
    simp only [ontologyFacts,hlists,bind,Except.bind] at h
    cases h

theorem stratifyRounds_error {n : Nat} {stratum : Dict String Nat}
    (h : stratifyRounds rules n stratum = .error e) : e = unstratifiable := by
  induction n generalizing stratum with
  | zero =>
    cases h
    rfl
  | succ n ih =>
    simp only [stratifyRounds] at h
    split at h
    · exact ih h
    · cases h

theorem saturateLevels_error {stratum : Dict String Nat} {levels : List Nat}
    (h : saturateLevels rules stratum levels c = .error e) : e ≠ unstratifiable := by
  have hsat : ∀ {rules : List Rule} {n : Nat} {c : Collection} {e : OntologyError},
      saturate rules n c = .error e → e ≠ unstratifiable := by
    intro rules n c e h
    induction n generalizing c with
    | zero => cases h
    | succ n ih =>
      simp only [saturate] at h
      cases hd : deriveAll (instances rules c.values) (c,false) with
      | error e' =>
        rw [hd] at h
        cases h
        exact (deriveAll_error hd).2
      | ok r =>
        rw [hd] at h
        simp only [bind,Except.bind] at h
        split at h
        · split at h
          · cases h
            simp [unstratifiable,malformed]
          · exact ih h
        · cases h
  induction levels generalizing c with
  | nil => cases h
  | cons l levels ih =>
    simp only [saturateLevels] at h
    cases hd : saturate (rules.filter fun rule => stratumOf stratum rule.head.p = l)
        (maxClosureAssertions + 2) c with
    | error e' =>
      rw [hd] at h
      cases h
      exact hsat hd
    | ok d =>
      rw [hd] at h
      exact ih h

variable {g : SemanticGraph} {o : Ontology} {base : Collection} {stratum : Dict String Nat}

theorem bounded_levels (hbase : closureBase g o = .ok base)
    (hstratum : stratify o.rules (predicates base o.rules) = .ok stratum) :
    Bounded (saturateLevels o.rules stratum
        (List.range ((stratum.entries.map Prod.snd).foldl max 0 + 1)) base) ↔
      ∀ l X, Reaches o.rules (Bound.least (bounds o.rules)) 0 (g.facts ∪ o.states) l X →
        Resolves (rulesAt o.rules (Bound.least (bounds o.rules)) l) X := by
  obtain ⟨-,hfacts,hsize⟩ := closureBase_ok hbase
  obtain ⟨-,hleast⟩ := stratify_ok hstratum
  rw [List.range_eq_range',saturateLevels_bounded hsize,hfacts,hleast]
  constructor
  · intro h l X hX rule hrule
    have hle := stratumOf_le_max stratum rule.head.p
    have hlevel := (mem_rulesAt.1 hrule).2
    rw [← hleast] at hlevel
    exact h l X hX (by omega) rule hrule
  · exact fun h l X hX _ => h l X hX

theorem run_raises_iff (sha256 : List Char → HexDigest) (hbase : closureBase g o = .ok base)
    (hstratum : stratify o.rules (predicates base o.rules) = .ok stratum) :
    (Bounded (computeClosure sha256 g o) ∨ computeClosure sha256 g o = .error unstratifiable) ↔
      ∀ l X, Reaches o.rules (Bound.least (bounds o.rules)) 0 (g.facts ∪ o.states) l X →
        Resolves (rulesAt o.rules (Bound.least (bounds o.rules)) l) X := by
  rw [← bounded_levels hbase hstratum]
  cases hfinal : saturateLevels o.rules stratum
      (List.range ((stratum.entries.map Prod.snd).foldl max 0 + 1)) base with
  | error e =>
    have hrun : computeClosure sha256 g o = .error e := by
      simp only [computeClosure,hbase,hstratum,bind,Except.bind,hfinal]
    have herror := saturateLevels_error hfinal
    rw [hrun]
    constructor
    · rintro ((⟨_,h⟩ | ⟨m,h⟩) | h)
      · cases h
      · cases h
        exact .inr ⟨m,rfl⟩
      · cases h
        exact absurd rfl herror
    · rintro (⟨_,h⟩ | ⟨m,h⟩)
      · cases h
      · cases h
        exact .inl (.inr ⟨m,rfl⟩)
  | ok final =>
    obtain ⟨-,hfacts,hsize⟩ := closureBase_ok hbase
    rw [List.range_eq_range'] at hfinal
    obtain ⟨-,hle,-⟩ := saturateLevels_ok (B := g.facts ∪ o.states) (stratify_ok hstratum).1 hfinal
      hfacts hsize
    obtain ⟨c,hc,-⟩ := Closure.new_of_sorted (g.graphHash sha256)
      (o.ontologyHash sha256) (profile_ne o) final.sorted_keys
      (by rw [length_ordered]; exact hle)
    rw [← List.range_eq_range'] at hfinal
    have hrun : computeClosure sha256 g o = .ok c := by
      simp only [computeClosure,hbase,hstratum,bind,Except.bind,hfinal]
      exact hc
    rw [hrun]
    exact ⟨fun _ => .inl ⟨final,rfl⟩,fun _ => .inl (.inl ⟨c,rfl⟩)⟩

theorem base_overflow (sha256 : List Char → HexDigest) (hnamed : o.Named)
    (hover : maxClosureAssertions < (g.facts ∪ o.states).encard) :
    Bounded (computeClosure sha256 g o) := by
  obtain ⟨as,has⟩ := ontologyFacts_returns.2 hnamed
  have hsize : maxClosureAssertions < ((g.assertions ++ as).foldl Collection.add .empty).size := by
    rw [← facts_base has,← not_le,encard_le] at hover
    omega
  have hbase : ∃ m, closureBase g o = .error ⟨.closureOverflow,m⟩ := by
    simp only [closureBase,has,bind,Except.bind,hsize,if_true]
    exact ⟨_,rfl⟩
  obtain ⟨m,hm⟩ := hbase
  exact .inr ⟨m,by simp only [computeClosure,hm,bind,Except.bind]⟩

/-- A closure is returned, or the rules cannot be stratified, or the bound is exceeded, exactly if
all names are there and, unless the base is too large or the rules cannot be stratified, every rule
that holds where a pass begins has a head that says a fact. -/
theorem closure_raises_iff (sha256 : List Char → HexDigest) (g : SemanticGraph) (o : Ontology) :
    (Bounded (computeClosure sha256 g o) ∨ computeClosure sha256 g o = .error unstratifiable) ↔
      o.Named ∧ (maxClosureAssertions < (g.facts ∪ o.states).encard ∨
        (¬ ∃ σ, Bound.Meets (bounds o.rules) σ) ∨
        ∀ l X, Reaches o.rules (Bound.least (bounds o.rules)) 0 (g.facts ∪ o.states) l X →
          Resolves (rulesAt o.rules (Bound.least (bounds o.rules)) l) X) := by
  by_cases hnamed : o.Named
  · simp only [hnamed,true_and]
    by_cases hover : maxClosureAssertions < (g.facts ∪ o.states).encard
    · exact ⟨fun _ => .inl hover,fun _ => .inl (base_overflow sha256 hnamed hover)⟩
    · obtain ⟨base,hbase⟩ := closureBase_returns (g := g) hnamed (not_lt.1 hover)
      have hstrata := stratify_returns (nodup_predicates base o.rules) fun rule hrule => mem_predicates hrule
      simp only [hover,false_or]
      cases hstratum : stratify o.rules (predicates base o.rules) with
      | error e =>
        have hunstratifiable := stratifyRounds_error hstratum
        subst hunstratifiable
        have hno : ¬ ∃ σ, Bound.Meets (bounds o.rules) σ := by
          rw [← hstrata,hstratum]
          simp
        refine ⟨fun _ => .inl hno,fun _ => .inr ?_⟩
        simp only [computeClosure,hbase,hstratum,bind,Except.bind]
      | ok stratum =>
        have hsome : ∃ σ, Bound.Meets (bounds o.rules) σ := hstrata.1 ⟨stratum,hstratum⟩
        simp only [hsome,not_true_eq_false,false_or]
        exact run_raises_iff sha256 hbase hstratum
  · cases hfacts : ontologyFacts o with
    | ok as => exact absurd (ontologyFacts_returns.1 ⟨as,hfacts⟩) hnamed
    | error e =>
      have herror := ontologyFacts_error hfacts
      have hrun : computeClosure sha256 g o = .error e := by
        simp only [computeClosure,closureBase,hfacts,bind,Except.bind]
      rw [hrun]
      constructor
      · rintro (h | h)
        · exact absurd h (Bounded.not_malformed herror.1)
        · cases h
          exact absurd rfl herror.2
      · exact fun h => absurd h.1 hnamed

theorem wildcard_head_raises : ¬ ∀ (sha256 : List Char → HexDigest) (g : SemanticGraph)
    (id version : String) (imports : List ImportRef) (terms : List OntologyTerm) (rules : List Rule)
    (o : Ontology), Ontology.new id version imports terms rules = .ok o →
    Bounded (computeClosure sha256 g o) ∨ computeClosure sha256 g o = .error unstratifiable := by
  intro h
  let e : OntologyError := malformed "rule head has an unbound variable"
  have hraises : (Ontology.new "o" "1" [] [] [Sample.unbound]).toOption.any (fun o =>
      match computeClosure Sample.zeros Sample.graph o with
      | .ok _ => false
      | .error e' => e' = e) = true := by decide +kernel
  obtain ⟨o,ho,hclosure⟩ := ok_of_any hraises
  cases hrun : computeClosure Sample.zeros Sample.graph o with
  | ok c => simp [hrun] at hclosure
  | error e' =>
    simp only [hrun,decide_eq_true_eq] at hclosure
    subst hclosure
    rcases hrun ▸ h Sample.zeros Sample.graph "o" "1" [] [] [Sample.unbound] o ho with hb | hu
    · exact Bounded.not_malformed rfl hb
    · exact absurd (Except.error.inj hu) (by decide)

end AgentCentric

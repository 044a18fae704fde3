import AgentCentric.Ontology.Deriving

namespace AgentCentric

theorem requiredStratum_eq (stratum : Dict String Nat) (rule : Rule) :
    requiredStratum stratum rule = rule.bound.required (stratumOf stratum) := by
  simp only [requiredStratum,Bound.required,Rule.bound,List.foldl_map]

theorem stratumOf_set (stratum : Dict String Nat) (p : String) (n : Nat) :
    stratumOf (stratum.set p n) = fun k => if k = p then n else stratumOf stratum k := by
  funext k
  simp only [stratumOf,Dict.get_set]
  by_cases h : p = k
  · simp [h]
  · have h' : ¬ k = p := fun heq => h heq.symm
    simp [h,h']

theorem liftHead_eq (r : Dict String Nat × Bool) (rule : Rule) :
    (stratumOf (liftHead r rule).1,(liftHead r rule).2) = rule.bound.lift (stratumOf r.1,r.2) := by
  have htarget : rule.bound.target = rule.head.p := rfl
  simp only [liftHead,Bound.lift,requiredStratum_eq,htarget]
  split
  · simp only [stratumOf_set]
  · rfl

theorem foldl_liftHead (rules : List Rule) (r : Dict String Nat × Bool) :
    (stratumOf (rules.foldl liftHead r).1,(rules.foldl liftHead r).2) =
      (bounds rules).foldl (fun r c => c.lift r) (stratumOf r.1,r.2) := by
  induction rules generalizing r with
  | nil => rfl
  | cons rule rules ih =>
    simp only [List.foldl_cons,ih,liftHead_eq,bounds,List.map_cons]

theorem stratifyRounds_eq (rules : List Rule) (n : Nat) (stratum : Dict String Nat) :
    (stratifyRounds rules n stratum).toOption.map stratumOf =
      Bound.settle (bounds rules) n (stratumOf stratum) := by
  induction n generalizing stratum with
  | zero => rfl
  | succ n ih =>
    have hround := foldl_liftHead rules (stratum,false)
    have hlevels : (Bound.round (bounds rules) (stratumOf stratum)).1 =
        stratumOf (stratifyRound rules stratum).1 := (congrArg Prod.fst hround).symm
    have hflag : (Bound.round (bounds rules) (stratumOf stratum)).2 =
        (stratifyRound rules stratum).2 := (congrArg Prod.snd hround).symm
    simp only [stratifyRounds,Bound.settle,hlevels,hflag]
    split
    · exact ih _
    · rfl

theorem stratumOf_zeros (keys : List String) :
    stratumOf (Dict.empty.update (keys.map fun key => (key,0))) = fun _ => 0 := by
  have hall : ∀ stratum : Dict String Nat, stratumOf stratum = (fun _ => 0) →
      stratumOf (stratum.update (keys.map fun key => (key,0))) = fun _ => 0 := by
    induction keys with
    | nil => exact fun _ h => h
    | cons key keys ih =>
      intro stratum h
      rw [List.map_cons,Dict.update_cons]
      apply ih
      rw [stratumOf_set,h]
      simp
  exact hall .empty rfl

theorem stratify_toOption (rules : List Rule) (predicates : List String) :
    (stratify rules predicates).toOption.map stratumOf =
      Bound.settle (bounds rules) (predicates.length + 1) fun _ => 0 := by
  simp only [stratify]
  rw [stratifyRounds_eq,stratumOf_zeros,List.length_insertionSort]

/-- Strata that are returned are the least ones. -/
theorem stratify_ok {rules : List Rule} {predicates : List String} {stratum : Dict String Nat}
    (h : stratify rules predicates = .ok stratum) : Bound.Meets (bounds rules) (stratumOf stratum) ∧
      stratumOf stratum = Bound.least (bounds rules) := by
  have hsettle := stratify_toOption rules predicates
  rw [h] at hsettle
  obtain ⟨hmeets,hleast⟩ := Bound.settle_some (fun _ _ _ => Nat.zero_le _) hsettle.symm
  refine ⟨hmeets,funext fun p => Nat.le_antisymm ?_ (Bound.least_le hmeets p)⟩
  exact hleast _ (Bound.meets_least hmeets) p

theorem stratify_returns {rules : List Rule} {predicates : List String}
    (hnodup : predicates.Nodup) (hheads : ∀ rule ∈ rules, rule.head.p ∈ predicates) :
    (∃ stratum, stratify rules predicates = .ok stratum) ↔ ∃ σ, Bound.Meets (bounds rules) σ := by
  have htargets : ∀ c ∈ bounds rules, c.target ∈ predicates.toFinset := by
    intro c hc
    obtain ⟨rule,hrule,rfl⟩ := List.mem_map.1 hc
    exact List.mem_toFinset.2 (hheads rule hrule)
  have hcard : predicates.toFinset.card = predicates.length :=
    List.toFinset_card_of_nodup hnodup
  have hsettle := Bound.settle_iff htargets
  rw [hcard,← stratify_toOption] at hsettle
  rw [← hsettle]
  cases stratify rules predicates with
  | error e => simp [Except.toOption]
  | ok stratum => simp [Except.toOption]

theorem foldl_max_mem {ns : List Nat} {n m : Nat} (h : n ∈ ns ∨ n ≤ m) : n ≤ ns.foldl max m := by
  induction ns generalizing m with
  | nil => simpa using h
  | cons k ns ih =>
    apply ih
    rcases h with h | h
    · rcases List.mem_cons.1 h with rfl | h
      · exact .inr (Nat.le_max_right _ _)
      · exact .inl h
    · exact .inr (Nat.le_trans h (Nat.le_max_left _ _))

/-- `max(stratum.values(), default=0)` is above every stratum. -/
theorem stratumOf_le_max (stratum : Dict String Nat) (p : String) :
    stratumOf stratum p ≤ (stratum.entries.map Prod.snd).foldl max 0 := by
  apply foldl_max_mem
  rw [stratumOf]
  cases h : stratum.get p with
  | none => exact .inr (Nat.zero_le _)
  | some n =>
    have hmem : (p,n) ∈ stratum.entries := (Dict.lookup_eq_some_iff stratum.nodup).1 h
    exact .inl (List.mem_map.2 ⟨_,hmem,rfl⟩)

theorem encard_le {c : Collection} : c.facts.encard ≤ maxClosureAssertions ↔ c.size ≤ maxClosureAssertions := by
  rw [c.encard_facts]
  exact Nat.cast_le

structure Saturated (rules : List Rule) (c c' : Collection) : Prop where
  kept : ∃ new, c'.values = c.values ++ new
  size : c'.size ≤ maxClosureAssertions
  resolves : Resolves rules c'.facts
  closed : consequences rules c'.facts ⊆ c'.facts
  least : ∀ S, c.facts ⊆ S → (∀ X, c.facts ⊆ X → X ⊆ S → consequences rules X ⊆ S) → c'.facts ⊆ S

theorem saturate_ok {rules : List Rule} {n : Nat} {c c' : Collection}
    (h : saturate rules n c = .ok c') (hsize : c.size ≤ maxClosureAssertions)
    (hn : maxClosureAssertions + 1 < c.size + n) : Saturated rules c c' := by
  induction n generalizing c with
  | zero => omega
  | succ n ih =>
    simp only [saturate,bind_ok] at h
    obtain ⟨r,hr,h⟩ := h
    have hpass := pass_ok hr
    split at h
    · rename_i hmore
      split at h
      · cases h
      · rename_i hle
        have hgrows := hpass.grows hmore
        have hrest := ih h (by omega) (by omega)
        constructor
        · obtain ⟨new,hnew,-⟩ := hpass.kept
          obtain ⟨new',hnew'⟩ := hrest.kept
          exact ⟨new ++ new',by rw [hnew',hnew,List.append_assoc]⟩
        · exact hrest.size
        · exact hrest.resolves
        · exact hrest.closed
        · intro S hS hclosed
          have hsub : c.facts ⊆ r.1.facts := hpass.facts ▸ Set.subset_union_left
          apply hrest.least S
          · rw [hpass.facts]
            exact Set.union_subset hS (hclosed _ subset_rfl hS)
          · exact fun X hX => hclosed X (hsub.trans hX)
    · rename_i hquiet
      cases h
      obtain ⟨hvalues,hclosed⟩ := hpass.quiet hquiet
      have hsame : r.1.facts = c.facts := by rw [Collection.facts,Collection.facts,hvalues]
      constructor
      · exact ⟨[],by rw [hvalues,List.append_nil]⟩
      · rw [Collection.size,hvalues]
        exact hsize
      · rw [hsame]
        exact hpass.resolves
      · rw [hsame]
        exact hclosed
      · intro S hS _
        rw [hsame]
        exact hS

theorem saturate_returns (rules : List Rule) {c : Collection} {S : Set Fact}
    (hS : S.encard ≤ maxClosureAssertions) (hsub : c.facts ⊆ S)
    (hclosed : ∀ X, c.facts ⊆ X → X ⊆ S → consequences rules X ⊆ S ∧ Resolves rules X) (n : Nat) :
    ∃ c', saturate rules n c = .ok c' := by
  induction n generalizing c with
  | zero => exact ⟨c,rfl⟩
  | succ n ih =>
    obtain ⟨hcons,hresolves⟩ := hclosed c.facts subset_rfl hsub
    obtain ⟨r,hr⟩ := deriveAll_returns (instances_resolve.2 hresolves) (c,false)
    have hfacts := (pass_ok hr).facts
    have hbelow : r.1.facts ⊆ S := hfacts ▸ Set.union_subset hsub hcons
    have hsize : ¬ maxClosureAssertions < r.1.size :=
      Nat.not_lt.2 (encard_le.1 ((Set.encard_le_encard hbelow).trans hS))
    have hkept : c.facts ⊆ r.1.facts := hfacts ▸ Set.subset_union_left
    obtain ⟨c',hc'⟩ := ih hbelow fun X hX => hclosed X (hkept.trans hX)
    by_cases hflag : r.2 = true
    · exact ⟨c',by simpa [saturate,hr,bind,Except.bind,hflag,hsize] using hc'⟩
    · exact ⟨r.1,by simp [saturate,hr,bind,Except.bind,hflag,pure,Except.pure]⟩

def rulesAt (rules : List Rule) (σ : String → Nat) (l : Nat) : List Rule :=
  rules.filter fun rule => σ rule.head.p = l

theorem mem_rulesAt {rules : List Rule} {σ : String → Nat} {l : Nat} {rule : Rule} :
    rule ∈ rulesAt rules σ l ↔ rule ∈ rules ∧ σ rule.head.p = l := by
  simp [rulesAt]

section
variable {rules : List Rule} {σ : String → Nat} {B X : Set Fact} {l : Nat}

theorem mem_ruleProgram {rule : Rule} (hrule : rule ∈ rules) {θ : Valuation} {f : Fact}
    (hhead : rule.head.headAt θ = some f) {N : Set Fact} (hfires : rule.Fires X N θ) :
    ∃ r ∈ ruleProgram rules, r.head = f ∧ r.pos ⊆ X ∧ Disjoint r.neg N := by
  obtain ⟨facts,htakes,hpos,hneg⟩ := (Rule.fires_iff f).1 hfires
  exact ⟨_,⟨rule,hrule,θ,facts,f,hhead,htakes,rfl⟩,rfl,hpos,hneg⟩

theorem closed_of_consequences (h : consequences (rulesAt rules σ l) X ⊆ X) :
    (ruleProgram rules).Closed (fun f => σ f.p) l X X := by
  rintro _ ⟨rule,hrule,θ,facts,f,hhead,htakes,rfl⟩ hlevel hpos hneg
  have hp : σ rule.head.p = l := by
    rw [← headAt_predicate hhead]
    exact hlevel
  exact h ⟨rule,mem_rulesAt.2 ⟨hrule,hp⟩,θ,(Rule.fires_iff f).2 ⟨facts,htakes,hpos,hneg⟩,hhead⟩

theorem consequences_stratum (hB : B ⊆ X)
    (hX : X ⊆ (ruleProgram rules).stratum (fun f => σ f.p) l B) :
    consequences (rulesAt rules σ l) X ⊆ (ruleProgram rules).stratum (fun f => σ f.p) l B := by
  rintro f ⟨rule,hrule,θ,hfires,hhead⟩
  obtain ⟨hmem,hlevel⟩ := mem_rulesAt.1 hrule
  obtain ⟨r,hr,rfl,hpos,hneg⟩ := mem_ruleProgram hmem hhead hfires
  have hlevel' : σ r.head.p = l := by rw [headAt_predicate hhead,hlevel]
  exact Program.closed_stratum r hr hlevel' (hpos.trans hX) (hneg.mono_right hB)

theorem Rule.Fires.perfect (hσ : Bound.Meets (bounds rules) σ) {rule : Rule} (hrule : rule ∈ rules)
    {θ : Valuation} (h : rule.Fires X X θ)
    (hlow : (ruleProgram rules).model (fun f => σ f.p) B (σ rule.head.p) ⊆ X)
    (hX : X ⊆ (ruleProgram rules).perfect (fun f => σ f.p) B) :
    rule.Fires ((ruleProgram rules).perfect (fun f => σ f.p) B)
      ((ruleProgram rules).perfect (fun f => σ f.p) B) θ := by
  constructor
  · intro a ha hpos
    obtain ⟨f,hf,hmatch⟩ := h.pos a ha hpos
    exact ⟨f,hX hf,hmatch⟩
  · intro a ha hneg f hf hfree
    obtain ⟨τ,hτ,hmatch⟩ := hfree
    have hle := level_le hσ hrule ha
    simp only [hneg,if_true,hmatch.1] at hle
    exact h.neg a ha hneg f (hlow (Program.mem_model_of_perfect hf hle)) ⟨τ,hτ,hmatch⟩

theorem Rule.Fires.model (hσ : Bound.Meets (bounds rules) σ) {rule : Rule} (hrule : rule ∈ rules)
    {θ : Valuation} (h : rule.Fires ((ruleProgram rules).perfect (fun f => σ f.p) B)
      ((ruleProgram rules).perfect (fun f => σ f.p) B) θ) :
    rule.Fires ((ruleProgram rules).model (fun f => σ f.p) B (σ rule.head.p + 1))
      ((ruleProgram rules).model (fun f => σ f.p) B (σ rule.head.p + 1)) θ := by
  constructor
  · intro a ha hpos
    obtain ⟨f,hf,hmatch⟩ := h.pos a ha hpos
    have hle := level_le hσ hrule ha
    rw [hmatch.1] at hle
    exact ⟨f,Program.mem_model_of_perfect hf (by omega),hmatch⟩
  · exact fun a ha hneg f hf => h.neg a ha hneg f (Program.model_subset_perfect _ hf)

end

section
variable {rules : List Rule} {stratum : Dict String Nat} {B : Set Fact}
  (hσ : Bound.Meets (bounds rules) (stratumOf stratum))
include hσ

theorem saturate_level {l : Nat} {c c' : Collection}
    (h : Saturated (rulesAt rules (stratumOf stratum) l) c c') :
    c'.facts = (ruleProgram rules).stratum (fun f => stratumOf stratum f.p) l c.facts := by
  obtain ⟨new,hnew⟩ := h.kept
  have hsub : c.facts ⊆ c'.facts := by
    rintro f ⟨a,ha,rfl⟩
    exact ⟨a,by rw [hnew]; exact List.mem_append_left _ ha,rfl⟩
  apply Program.eq_stratum (stratified_ruleProgram hσ) hsub
  · exact h.least _ Program.subset_stratum fun X hX hXS => consequences_stratum hX hXS
  · exact closed_of_consequences h.closed

/-- The levels from `k` on, one after the other, give the model of the levels so far. -/
theorem saturateLevels_ok {m k : Nat} {c c' : Collection}
    (h : saturateLevels rules stratum (List.range' k m) c = .ok c')
    (hfacts : c.facts = (ruleProgram rules).model (fun f => stratumOf stratum f.p) B k)
    (hsize : c.size ≤ maxClosureAssertions) :
    c'.facts = (ruleProgram rules).model (fun f => stratumOf stratum f.p) B (k + m) ∧
      c'.size ≤ maxClosureAssertions ∧ (∃ new, c'.values = c.values ++ new) ∧
      ∀ l, k ≤ l → l < k + m → Resolves (rulesAt rules (stratumOf stratum) l)
        ((ruleProgram rules).model (fun f => stratumOf stratum f.p) B (l + 1)) := by
  induction m generalizing k c with
  | zero =>
    cases h
    exact ⟨hfacts,hsize,⟨[],by simp⟩,fun l hk hl => by omega⟩
  | succ m ih =>
    simp only [List.range'_succ,saturateLevels,bind_ok] at h
    obtain ⟨d,hd,h⟩ := h
    have hsat := saturate_ok hd hsize (by omega)
    have hmodel : d.facts = (ruleProgram rules).model (fun f => stratumOf stratum f.p) B (k + 1) := by
      rw [saturate_level hσ hsat,hfacts,Program.model]
    obtain ⟨hfinal,hbound,⟨new,hnew⟩,hresolves⟩ := ih h hmodel hsat.size
    obtain ⟨new',hnew'⟩ := hsat.kept
    refine ⟨?_,hbound,⟨new' ++ new,by rw [hnew,hnew',List.append_assoc]⟩,?_⟩
    · rw [hfinal]
      congr 1
      omega
    · intro l hk hl
      by_cases hkl : l = k
      · subst hkl
        rw [← hmodel]
        exact hsat.resolves
      · exact hresolves l (by omega) (by omega)

theorem saturateLevels_returns {m k : Nat} {c : Collection}
    (hfacts : c.facts = (ruleProgram rules).model (fun f => stratumOf stratum f.p) B k)
    (hM : ((ruleProgram rules).perfect (fun f => stratumOf stratum f.p) B).encard ≤ maxClosureAssertions)
    (hresolves : Resolves rules ((ruleProgram rules).perfect (fun f => stratumOf stratum f.p) B)) :
    ∃ c', saturateLevels rules stratum (List.range' k m) c = .ok c' := by
  induction m generalizing k c with
  | zero => exact ⟨c,rfl⟩
  | succ m ih =>
    have hnext : (ruleProgram rules).model (fun f => stratumOf stratum f.p) B (k + 1) ⊆
        (ruleProgram rules).perfect (fun f => stratumOf stratum f.p) B := Program.model_subset_perfect _
    have hsize : c.size ≤ maxClosureAssertions := by
      rw [← encard_le,hfacts]
      exact (Set.encard_le_encard (Program.model_subset_perfect k)).trans hM
    obtain ⟨d,hd⟩ := saturate_returns (rulesAt rules (stratumOf stratum) k)
      ((Set.encard_le_encard hnext).trans hM) (by rw [hfacts]; exact Program.model_mono (Nat.le_succ k))
      (by
        rw [hfacts]
        intro X hX hXS
        refine ⟨consequences_stratum hX hXS,fun rule hrule θ hfires => ?_⟩
        obtain ⟨hmem,hlevel⟩ := mem_rulesAt.1 hrule
        subst hlevel
        exact hresolves rule hmem θ (hfires.perfect hσ hmem hX (hXS.trans hnext)))
      (maxClosureAssertions + 2)
    have hmodel : d.facts = (ruleProgram rules).model (fun f => stratumOf stratum f.p) B (k + 1) := by
      rw [saturate_level hσ (saturate_ok hd hsize (by omega)),hfacts,Program.model]
    obtain ⟨c',hc'⟩ := ih hmodel
    refine ⟨c',?_⟩
    simp only [List.range'_succ,saturateLevels,bind_ok]
    exact ⟨d,hd,hc'⟩

end

section
variable {rules : List Rule} {predicates : List String}

def Stratification (rules : List Rule) (σ : String → Nat) : Prop :=
  ∀ rule ∈ rules, ∀ a ∈ rule.body, σ a.p + (if a.negated then 1 else 0) ≤ σ rule.head.p

def DependsOn (rules : List Rule) (p q : String) : Prop :=
  ∃ rule ∈ rules, rule.head.p = q ∧ ∃ a ∈ rule.body, a.p = p

def DependsOnNegation (rules : List Rule) (p q : String) : Prop :=
  ∃ rule ∈ rules, rule.head.p = q ∧ ∃ a ∈ rule.body, a.p = p ∧ a.negated = true

theorem stratification_iff {σ : String → Nat} :
    Stratification rules σ ↔ Bound.Meets (bounds rules) σ := by
  simp only [Stratification,Bound.Meets,Bound.Holds,bounds,Rule.bound,List.forall_mem_map]

theorem arc_bounds : Bound.Arc (bounds rules) = DependsOn rules := by
  funext p q
  simp [Bound.Arc,DependsOn,bounds,Rule.bound]

theorem lifts_bounds : Bound.Lifts (bounds rules) = DependsOnNegation rules := by
  funext p q
  simp only [Bound.Lifts,DependsOnNegation,bounds,List.mem_map,exists_exists_and_eq_and,Rule.bound]
  refine propext (exists_congr fun rule => and_congr_right fun _ => and_congr_right fun _ =>
    exists_congr fun a => and_congr_right fun _ => and_congr_right fun _ => ?_)
  cases a.negated <;> simp

def Stratifies (predicates : List String) (stratum : Dict String Nat) : Prop :=
  ∀ p, (stratum.get p).isSome = true ↔ p ∈ predicates

theorem stratifies_round (hheads : ∀ rule ∈ rules, rule.head.p ∈ predicates)
    {r : Dict String Nat × Bool} (h : Stratifies predicates r.1) :
    Stratifies predicates (rules.foldl liftHead r).1 := by
  induction rules generalizing r with
  | nil => exact h
  | cons rule rules ih =>
    refine ih (fun rule' hrule' => hheads rule' (List.mem_cons_of_mem rule hrule')) ?_
    unfold liftHead
    dsimp only
    split
    · intro p
      rw [Dict.get_set]
      by_cases hp : rule.head.p = p
      · subst hp
        simp [hheads rule List.mem_cons_self]
      · rw [if_neg hp]
        exact h p
    · exact h

theorem stratifies_rounds (hheads : ∀ rule ∈ rules, rule.head.p ∈ predicates) {n : Nat}
    {stratum stratum' : Dict String Nat} (h : Stratifies predicates stratum)
    (hrounds : stratifyRounds rules n stratum = .ok stratum') : Stratifies predicates stratum' := by
  induction n generalizing stratum with
  | zero => cases hrounds
  | succ n ih =>
    have hround : Stratifies predicates (stratifyRound rules stratum).1 := stratifies_round hheads h
    rw [stratifyRounds] at hrounds
    split at hrounds
    · exact ih hround hrounds
    · cases hrounds
      exact hround

theorem stratifies_start (predicates : List String) : Stratifies predicates
    (Dict.empty.update ((predicates.insertionSort (· ≤ ·)).map fun key => (key,0))) := by
  have hall : ∀ (keys : List String) (stratum : Dict String Nat) (p : String),
      ((stratum.update (keys.map fun key => (key,0))).get p).isSome = true ↔
        (stratum.get p).isSome = true ∨ p ∈ keys := by
    intro keys
    induction keys with
    | nil => simp [Dict.update]
    | cons key keys ih =>
      intro stratum p
      rw [List.map_cons,Dict.update_cons,ih,Dict.get_set,List.mem_cons]
      by_cases hp : key = p
      · simp [hp]
      · simp [hp,Ne.symm hp]
  intro p
  simp [hall,(List.perm_insertionSort (· ≤ ·) predicates).mem_iff]

/-- Strata are returned exactly if there are any, that is if no predicate depends on its own
negation, and they are the least ones. -/
theorem stratify_least (hnodup : predicates.Nodup) (hcontains : ∀ rule ∈ rules,
    rule.head.p ∈ predicates ∧ ∀ a ∈ rule.body, a.p ∈ predicates) :
    ((∃ stratum, stratify rules predicates = .ok stratum) ↔ ∃ σ, Stratification rules σ) ∧
    ((∃ σ, Stratification rules σ) ↔ ¬∃ p q, DependsOnNegation rules p q ∧
      Relation.ReflTransGen (DependsOn rules) q p) ∧
    ∀ stratum, stratify rules predicates = .ok stratum →
      (∀ p, (stratum.get p).isSome = true ↔ p ∈ predicates) ∧
      Stratification rules (stratumOf stratum) ∧
      ∀ σ, Stratification rules σ → ∀ p, stratumOf stratum p ≤ σ p := by
  simp only [stratification_iff]
  refine ⟨stratify_returns hnodup fun rule hrule => (hcontains rule hrule).1,?_,fun stratum h => ?_⟩
  · rw [← arc_bounds,← lifts_bounds]
    refine @Bound.meets_iff_no_cycle _ (bounds rules) 1 fun c hc e he => ?_
    obtain ⟨rule,-,rfl⟩ := List.mem_map.1 hc
    obtain ⟨a,-,rfl⟩ := List.mem_map.1 he
    dsimp only
    split <;> omega
  · obtain ⟨hmeets,hleast⟩ := stratify_ok h
    refine ⟨stratifies_rounds (fun rule hrule => (hcontains rule hrule).1)
      (stratifies_start predicates) h,hmeets,fun σ hσ p => ?_⟩
    rw [hleast]
    exact Bound.least_le hσ p

theorem stratify_least_base : ∃ stratum, stratify baseRules
    [coreType,coreSubClassOf,coreInput,coreOutput] = .ok stratum := by
  refine (stratify_least (by decide) ?_).1.2 ⟨fun p => if p = coreType then 1 else 0,?_⟩
  · decide +kernel
  · unfold Stratification
    decide +kernel

end

end AgentCentric

import AgentCentric.Ontology.Subsumption
import AgentCentric.Library.PostOrder

namespace AgentCentric

def BelowClass (terms : List OntologyTerm) (a b : String) : Prop :=
  (∃ t ∈ terms, t.kind = .kindClass ∧ t.name = a ∧ b ∈ t.subClassOf) ∧
    ∃ u ∈ terms, u.kind = .kindClass ∧ u.name = b

/-- `visit` as a traversal that notes the classes it is done with. -/
def hierarchy (parents : List (String × List String)) :
    Explorer String (List String) Unit OntologyError where
  resolve _ node :=
    if node ∈ parents.map Prod.fst then .ok (((Dict.lookup parents node).getD []).filter fun parent =>
      (Dict.lookup parents parent).isSome,())
    else .error (malformed "")
  children declared := declared
  cycle node := malformed s!"subClassOf cycle at {pyRepr node} (fail-closed)"

section
variable {parents : List (String × List String)} {visiting : List String}

/-- The grey classes are being visited, and the black ones are done. -/
def Shows (visiting : List String) (state : Dict String Colour)
    (stage : Explorer.Stage String (List String) Unit) : Prop :=
  ∀ a, state.get a = if a ∈ visiting then some .grey
    else if a ∈ stage.1.map Prod.fst then some .black else none

/-- Both raise the same, or both return and the colours show where the traversal is. -/
def Agrees (visiting : List String) (x : Except OntologyError (Dict String Colour))
    (y : Except OntologyError (Explorer.Stage String (List String) Unit)) : Prop :=
  (∃ state stage, x = .ok state ∧ y = .ok stage ∧ Shows visiting state stage) ∨
    ∃ node, x = .error ((hierarchy []).cycle node) ∧ y = .error ((hierarchy []).cycle node)

theorem descend_agrees {v : Dict String Colour → String → Except OntologyError (Dict String Colour)}
    {w : String → Explorer.Stage String (List String) Unit →
      Except OntologyError (Explorer.Stage String (List String) Unit)} {l : List String}
    (h : ∀ c ∈ l, ∀ state stage, Shows visiting state stage →
      Agrees visiting (v state c) (w c stage))
    {state : Dict String Colour} {stage : Explorer.Stage String (List String) Unit}
    (hs : Shows visiting state stage) :
    Agrees visiting (l.foldlM v state) (Explorer.descend w l stage) := by
  induction l generalizing state stage with
  | nil => exact .inl ⟨state,stage,rfl,rfl,hs⟩
  | cons c l ih =>
    rw [List.foldlM_cons,Explorer.descend]
    rcases h c List.mem_cons_self state stage hs with ⟨state',stage',hv,hw,hs'⟩ | ⟨node,hv,hw⟩
    · rw [hv,hw]
      exact ih (fun d hd => h d (List.mem_cons_of_mem c hd)) hs'
    · rw [hv,hw]
      exact .inr ⟨node,rfl,rfl⟩

theorem visit_agrees {n : Nat} (hnodup : visiting.Nodup)
    (hsub : ∀ a ∈ visiting, a ∈ parents.map Prod.fst) {a : String} (ha : a ∈ parents.map Prod.fst)
    (hfuel : parents.length ≤ visiting.length + n) {state : Dict String Colour}
    {stage : Explorer.Stage String (List String) Unit} (hs : Shows visiting state stage) :
    Agrees visiting (visit parents (n + 1) state a)
      ((hierarchy parents).visit n visiting a stage) := by
  induction n generalizing visiting a state stage with
  | zero =>
    -- all classes are grey
    have hall := (List.subperm_of_subset hnodup hsub).perm_of_length_le (by simpa using hfuel)
    have hmem := hall.mem_iff.2 ha
    refine .inr ⟨a,?_,?_⟩
    · rw [visit,hs a,if_pos hmem]
      rfl
    · rw [Explorer.visit,Explorer.enter,if_pos hmem]
      rfl
  | succ n ih =>
    rw [visit,hs a,Explorer.visit,Explorer.enter]
    by_cases hmem : a ∈ visiting
    · rw [if_pos hmem,if_pos hmem]
      exact .inr ⟨a,rfl,rfl⟩
    rw [if_neg hmem,if_neg hmem]
    by_cases hdone : a ∈ stage.1.map Prod.fst
    · rw [if_pos hdone,if_pos hdone]
      exact .inl ⟨state,stage,rfl,rfl,hs⟩
    rw [if_neg hdone,if_neg hdone]
    have hgrey : Shows (a :: visiting) (state.set a .grey) (stage.1,()) := by
      intro b
      rw [Dict.get_set,hs b]
      by_cases hab : a = b
      · simp [hab]
      · simp [hab,Ne.symm hab]
    have hbelow := descend_agrees (w := (hierarchy parents).visit n (a :: visiting))
      (v := visit parents (n + 1)) (l := ((Dict.lookup parents a).getD []).filter fun parent =>
        (Dict.lookup parents parent).isSome) (fun c hc state stage hs => by
          refine ih (List.nodup_cons.2 ⟨hmem,hnodup⟩) ?_ ?_ ?_ hs
          · intro b hb
            rcases List.mem_cons.1 hb with rfl | hb
            · exact ha
            · exact hsub b hb
          · exact (Dict.lookup_isSome _ _).1 (List.mem_filter.1 hc).2
          · rw [List.length_cons]
            omega) hgrey
    rcases hbelow with ⟨state',stage',hv,hw,hs'⟩ | ⟨node,hv,hw⟩
    · refine .inl ⟨state'.set a .black,(stage'.1 ++ [(a,_)],stage'.2),bind_ok.2 ⟨state',hv,rfl⟩,
        bind_ok.2 ⟨_,if_pos ha,bind_ok.2 ⟨stage',hw,rfl⟩⟩,?_⟩
      intro b
      rw [Dict.get_set]
      by_cases hab : a = b
      · subst hab
        simp [hmem]
      · rw [if_neg hab,hs' b]
        have hlater (declared : List String) : b ∈ (stage'.1 ++ [(a,declared)]).map Prod.fst ↔
            b ∈ stage'.1.map Prod.fst := by simp [Ne.symm hab]
        simp only [hlater,List.mem_cons,Ne.symm hab,false_or]
    · exact .inr ⟨node,bind_error.2 (.inl hv),bind_error.2 (.inr ⟨_,if_pos ha,bind_error.2 (.inl hw)⟩)⟩

end

/-- Distinct classes have one entry each. -/
theorem lookup_classParents {terms : List OntologyTerm}
    (hnames : (terms.map OntologyTerm.name).Nodup) {a : String} {above : List String} :
    Dict.lookup (classParents terms) a = some above ↔
      ∃ t ∈ terms, t.kind = .kindClass ∧ t.name = a ∧ t.subClassOf = above := by
  have hkeys : ((classParents terms).map Prod.fst).Nodup := by
    rw [classParents,List.map_map]
    exact hnames.sublist (List.filter_sublist.map _)
  rw [Dict.lookup_eq_some_iff hkeys]
  simp only [classParents,List.mem_map,List.mem_filter,decide_eq_true_eq,Prod.mk.injEq,and_assoc]

theorem mem_declared {terms : List OntologyTerm} (hnames : (terms.map OntologyTerm.name).Nodup)
    {a b : String} : (b ∈ ((Dict.lookup (classParents terms) a).getD []).filter fun parent =>
      (Dict.lookup (classParents terms) parent).isSome) ↔ BelowClass terms a b := by
  rw [List.mem_filter,BelowClass,Option.isSome_iff_exists]
  simp only [lookup_classParents hnames]
  refine and_congr ⟨?_,?_⟩ ⟨?_,?_⟩
  · intro hb
    cases habove : Dict.lookup (classParents terms) a with
    | none => simp [habove] at hb
    | some above =>
      rw [habove] at hb
      obtain ⟨t,ht,hkind,hname,rfl⟩ := (lookup_classParents hnames).1 habove
      exact ⟨t,ht,hkind,hname,hb⟩
  · rintro ⟨t,ht,hkind,hname,hb⟩
    rw [(lookup_classParents hnames).2 ⟨t,ht,hkind,hname,rfl⟩]
    exact hb
  · rintro ⟨-,u,hu,hkind,hname,-⟩
    exact ⟨u,hu,hkind,hname⟩
  · rintro ⟨u,hu,hkind,hname⟩
    exact ⟨_,u,hu,hkind,hname,rfl⟩

def Cyclic (terms : List OntologyTerm) : Prop := ∃ a, Relation.TransGen (BelowClass terms) a a

def cycleAt (node : String) : OntologyError :=
  malformed s!"subClassOf cycle at {pyRepr node} (fail-closed)"

theorem assertAcyclic_cases {terms : List OntologyTerm}
    (hnames : (terms.map OntologyTerm.name).Nodup) :
    (Cyclic terms ∧ ∃ node, assertAcyclic terms = .error (cycleAt node)) ∨
      ¬Cyclic terms ∧ assertAcyclic terms = .ok () := by
  have hresolve : ∀ (s : Unit) (a : String) (node : List String) (s' : Unit), True →
      (hierarchy (classParents terms)).resolve s a = .ok (node,s') →
      True ∧ ∀ c, c ∈ node ↔ BelowClass terms a c := by
    intro s a node s' _ h
    simp only [hierarchy] at h
    split at h
    · obtain ⟨rfl,-⟩ := Prod.mk.inj (Except.ok.inj h)
      exact ⟨trivial,fun c => mem_declared hnames⟩
    · cases h
  have hedge : ∀ (a : String) (node : List String), (∀ c, c ∈ node ↔ BelowClass terms a c) →
      ∀ c ∈ (hierarchy (classParents terms)).children node, BelowClass terms a c :=
    fun a node h c hc => (h c).1 hc
  have hdeclared {a : String} (h : ∃ t ∈ terms, t.kind = .kindClass ∧ t.name = a) :
      a ∈ (classParents terms).map Prod.fst := by
    obtain ⟨t,ht,hkind,rfl⟩ := h
    exact (Dict.lookup_isSome _ _).1 (Option.isSome_iff_exists.2
      ⟨_,(lookup_classParents hnames).2 ⟨t,ht,hkind,rfl,rfl⟩⟩)
  have hempty : Shows [] .empty (([],()) : Explorer.Stage String (List String) Unit) := by
    intro a
    simp
  have hloop := descend_agrees (l := (classParents terms).map Prod.fst)
    (v := visit (classParents terms) ((classParents terms).length + 1))
    (w := (hierarchy (classParents terms)).visit (classParents terms).length [])
    (fun c hc state stage hs => visit_agrees List.nodup_nil (by simp) hc (by simp) hs) hempty
  rcases hloop with ⟨state,stage,hv,hw,-⟩ | ⟨node,hv,hw⟩
  · refine .inr ⟨?_,bind_ok.2 ⟨state,hv,rfl⟩⟩
    rintro ⟨a,ha⟩
    have hexplored := Explorer.descend_explored
      (Explorer.visit_explored hresolve hedge (classParents terms).length []) trivial .nil hw
    obtain ⟨fresh,hfresh,hall⟩ := hexplored.added
    obtain ⟨b,⟨⟨t,ht,hkind,hname,-⟩,-⟩,-⟩ := Relation.TransGen.head'_iff.1 ha
    refine hexplored.ordered.irrefl ?_ (hexplored.reached a (hdeclared ⟨t,ht,hkind,hname⟩)) ha
    intro entry hentry c hc
    rw [hfresh] at hentry
    exact ((hall entry hentry).2.1 c).2 hc
  · refine .inl ⟨?_,node,bind_error.2 (.inl hv)⟩
    have hgood : ∀ (a : String) (stage stage' : Explorer.Stage String (List String) Unit),
        Explorer.PostOrder (hierarchy (classParents terms)).children stage.1 →
        (hierarchy (classParents terms)).visit (classParents terms).length [] a stage = .ok stage' →
        Explorer.PostOrder (hierarchy (classParents terms)).children stage'.1 :=
      fun a stage stage' hstage hvisit => (Explorer.visit_explored hresolve hedge
        (classParents terms).length [] a stage stage' trivial hstage hvisit).ordered
    obtain ⟨c,hc,stage,hstage,hvisit⟩ := Explorer.descend_error hgood .nil hw
    have hfound : ∀ (s : Unit) (a : String) (node : List String) (s' : Unit),
        (hierarchy (classParents terms)).resolve s a = .ok (node,s') →
        a ∈ (classParents terms).map Prod.fst := by
      intro s a node s' h
      simp only [hierarchy] at h
      split at h
      · assumption
      · cases h
    obtain ⟨b,hcb,hb⟩ := Explorer.visit_raises hresolve hedge hfound List.nodup_nil (by simp)
      (by simp) trivial hstage hvisit
    rcases hb with hb | ⟨s,e,-,hb⟩ | hb
    · cases hb
    · -- whatever is reached is declared
      have hmem : b ∈ (classParents terms).map Prod.fst := by
        rcases Relation.ReflTransGen.cases_tail hcb with rfl | ⟨d,-,-,u,hu,hkind,hname⟩
        · exact hc
        · exact hdeclared ⟨u,hu,hkind,hname⟩
      simp only [hierarchy,if_pos hmem] at hb
      cases hb
    · exact ⟨b,hb⟩

namespace Ontology

/-- What the constructor checks besides the names and the hierarchy. -/
structure Admits (id version : String) (imports : List ImportRef)
    (terms : List OntologyTerm) (rules : List Rule) (schema : String) : Prop where
  known : schema = ontologySchema
  named : id ≠ "" ∧ version ≠ ""
  terms_le : terms.length ≤ maxFragmentTerms
  imports_nodup : (imports.map ImportRef.id).Nodup
  rules_le : rules.length ≤ maxRuleCount
  rules_nodup : (rules.map Rule.id).Nodup

theorem cycleAt_ne {node : String} {e : OntologyError}
    (h : e.kind ≠ .malformedDocument ∨ e.message.toList.head? ≠ some 's') : e ≠ cycleAt node := by
  rintro rfl
  rcases h with h | h
  · exact h rfl
  · refine h ?_
    simp only [cycleAt,malformed,String.toList_append,List.append_assoc]
    rfl

section
variable {id version : String} {imports : List ImportRef} {terms : List OntologyTerm}
  {rules : List Rule} {schema : String}

/-- The constructor is as good as the check of the hierarchy, once nothing else is wrong. -/
theorem new_cases (hnames : (terms.map OntologyTerm.name).Nodup) :
    (∃ e, Ontology.new id version imports terms rules schema = .error e ∧
      (∀ node, e ≠ cycleAt node) ∧ ¬Admits id version imports terms rules schema) ∨
    Admits id version imports terms rules schema ∧ ((∃ e, assertAcyclic terms = .error e ∧
      Ontology.new id version imports terms rules schema = .error e) ∨
      assertAcyclic terms = .ok () ∧
      ∃ o, Ontology.new id version imports terms rules schema = .ok o ∧ o.terms.Perm terms) := by
  unfold Ontology.new
  split
  · rename_i h
    refine .inl ⟨_,rfl,fun node => cycleAt_ne (.inr ?_),fun hadmits => h hadmits.known⟩
    simp only [malformed,String.toList_append]
    show some 'u' ≠ some 's'
    decide
  split
  case isFalse h =>
    exact .inl ⟨_,rfl,fun node => cycleAt_ne (.inr (by decide)),fun hadmits => h hadmits.named⟩
  split
  case isFalse h =>
    exact .inl ⟨_,rfl,fun node => cycleAt_ne (.inl fun h => by cases h),fun hadmits => h hadmits.terms_le⟩
  split
  case isFalse h =>
    exact .inl ⟨_,rfl,fun node => cycleAt_ne (.inr (by decide)),fun hadmits => h hadmits.imports_nodup⟩
  split
  case isFalse h =>
    exact .inl ⟨_,rfl,fun node => cycleAt_ne (.inl fun h => by cases h),fun hadmits => h hadmits.rules_le⟩
  split
  case isFalse h =>
    exact .inl ⟨_,rfl,fun node => cycleAt_ne (.inr (by decide)),fun hadmits => h hadmits.rules_nodup⟩
  rename_i hschema hid hterms himports hrules hids
  refine .inr ⟨⟨not_not.1 hschema,hid,hterms,himports,hrules,hids⟩,?_⟩
  cases hacyclic : assertAcyclic terms with
  | error e => exact .inl ⟨e,rfl,rfl⟩
  | ok u => exact .inr ⟨rfl,_,rfl,List.perm_insertionSort _ _⟩

/-- The constructor raises the error about a cycle exactly where nothing else is wrong and a class
is below itself, and of what it returns the subclasses are those that lead up to the class. -/
theorem new_cycle_iff (hnames : (terms.map OntologyTerm.name).Nodup) :
    ((∃ node, Ontology.new id version imports terms rules schema = .error (cycleAt node)) ↔
      Admits id version imports terms rules schema ∧ Cyclic terms) ∧
    ((∃ o, Ontology.new id version imports terms rules schema = .ok o) ↔
      Admits id version imports terms rules schema ∧ ¬Cyclic terms) ∧
    ∀ o, Ontology.new id version imports terms rules schema = .ok o → ∀ name d,
      d ∈ o.subclassesOf name ↔ Relation.ReflTransGen
        (fun above below => ∃ t ∈ terms, t.name = below ∧ above ∈ t.subClassOf) name d := by
  have hcases := assertAcyclic_cases hnames
  rcases @new_cases id version imports terms rules schema hnames with
    ⟨e,hnew,hother,hnot⟩ | ⟨hadmits,⟨e,hcheck,hnew⟩ | ⟨hcheck,o,hnew,hperm⟩⟩
  · rw [hnew]
    refine ⟨⟨?_,fun h => absurd h.1 hnot⟩,⟨nofun,fun h => absurd h.1 hnot⟩,nofun⟩
    rintro ⟨node,h⟩
    exact absurd (Except.error.inj h) (hother node)
  · rcases hcases with ⟨hcyclic,node,hnode⟩ | ⟨-,hok⟩
    · obtain rfl := Except.error.inj (hcheck.symm.trans hnode)
      rw [hnew]
      exact ⟨⟨fun _ => ⟨hadmits,hcyclic⟩,fun _ => ⟨node,rfl⟩⟩,
        ⟨nofun,fun h => absurd hcyclic h.2⟩,nofun⟩
    · cases hcheck.symm.trans hok
  · rcases hcases with ⟨-,node,hnode⟩ | ⟨hacyclic,-⟩
    · cases hcheck.symm.trans hnode
    · rw [hnew]
      refine ⟨⟨nofun,fun h => absurd h.2 hacyclic⟩,⟨fun _ => ⟨hadmits,hacyclic⟩,fun _ => ⟨o,rfl⟩⟩,?_⟩
      rintro o' ho' name d
      obtain rfl := Except.ok.inj ho'
      have hbelow : o.Below = fun above below => ∃ t ∈ terms, t.name = below ∧
          above ∈ t.subClassOf := by
        funext above below
        simp only [Below,hperm.mem_iff]
      rw [mem_subclassesOf,hbelow]

end

theorem new_cycle_iff_self : ∃ node, Ontology.new "o" "1" []
    [Sample.named "A" (by decide) ["A"]] [] = .error (cycleAt node) := by
  refine (new_cycle_iff (by decide)).1.2 ⟨⟨rfl,by decide,by decide,by simp,by decide,by simp⟩,?_⟩
  exact ⟨"A",.single ⟨⟨_,List.mem_singleton_self _,rfl,rfl,by simp [Sample.named]⟩,
    _,List.mem_singleton_self _,rfl,rfl⟩⟩

/-- Too many terms are refused before the hierarchy is looked at. -/
theorem cycle_of_many : ∃ terms : List OntologyTerm,
    (terms.map OntologyTerm.name).Nodup ∧ Cyclic terms ∧
      ¬∃ node, Ontology.new "o" "1" [] terms [] = .error (cycleAt node) := by
  let name (i : Nat) : String := String.ofList (List.replicate (i + 1) 'a')
  let terms : List OntologyTerm := (List.range (maxFragmentTerms + 1)).map fun i =>
    Sample.named (name i) (by simp [name]) [name i]
  have hnodup : (terms.map OntologyTerm.name).Nodup := by
    rw [List.map_map]
    refine List.Nodup.map ?_ List.nodup_range
    intro i j h
    have hlength := congrArg (fun s : String => s.toList.length) h
    simpa [Sample.named,name] using hlength
  have hmem : Sample.named (name 0) (by simp [name]) [name 0] ∈ terms :=
    List.mem_map.2 ⟨0,by simp,rfl⟩
  refine ⟨terms,hnodup,⟨name 0,.single ⟨⟨_,hmem,rfl,rfl,by simp [Sample.named]⟩,_,hmem,rfl,rfl⟩⟩,?_⟩
  have hlong : ¬terms.length ≤ maxFragmentTerms := by simp [terms]
  rintro ⟨node,h⟩
  rw [Ontology.new,if_neg (by simp),dif_pos (by decide),dif_neg hlong] at h
  exact cycleAt_ne (.inl fun h => by cases h) (Except.error.inj h)

end Ontology
end AgentCentric

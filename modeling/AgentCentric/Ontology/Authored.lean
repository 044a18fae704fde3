import AgentCentric.Ontology.Matching
import AgentCentric.Ontology.Store

namespace AgentCentric
open JsonLines

namespace IndexRow

theorem map_bytes_lt {xs ys : List (List Char)} (h : xs < ys) :
    xs.map Utf8.bytes < ys.map Utf8.bytes := by
  induction xs generalizing ys with
  | nil =>
    cases ys with
    | nil => exact absurd h (lt_irrefl _)
    | cons y ys => exact List.nil_lt_cons _ _
  | cons x xs ih =>
    cases ys with
    | nil => exact absurd h (List.not_lt_nil _)
    | cons y ys =>
      rw [List.map_cons,List.map_cons]
      rcases List.cons_lt_cons_iff.1 h with hxy | ⟨rfl,hrest⟩
      · exact List.cons_lt_cons_iff.2 (.inl (Utf8.bytes_lt hxy))
      · exact List.cons_lt_cons_iff.2 (.inr ⟨rfl,ih hrest⟩)

theorem byBytes_iff (r q : IndexRow) : byBytes r q ↔ byTuple r q := by
  have hle : ∀ xs ys : List (List Char), xs.map Utf8.bytes ≤ ys.map Utf8.bytes ↔ xs ≤ ys := by
    intro xs ys
    constructor
    · intro h
      by_contra hne
      exact absurd (map_bytes_lt (not_le.1 hne)) (not_lt.2 h)
    · intro h
      rcases lt_or_eq_of_le h with hlt | rfl
      · exact le_of_lt (map_bytes_lt hlt)
      · exact le_refl _
  exact hle r.columns q.columns

theorem insertionSort_byBytes (rows : List IndexRow) :
    rows.insertionSort byBytes = rows.insertionSort byTuple := by
  have hinsert : ∀ (r : IndexRow) (qs : List IndexRow),
      qs.orderedInsert byBytes r = qs.orderedInsert byTuple r := by
    intro r qs
    induction qs with
    | nil => rfl
    | cons q qs ih => simp only [List.orderedInsert,byBytes_iff,ih]
  induction rows with
  | nil => rfl
  | cons r rows ih => rw [List.insertionSort_cons,List.insertionSort_cons,ih,hinsert]

end IndexRow

variable {as : List Assertion} {store : OntologyStore}

namespace OntologyStore
variable {sha256 : List Char → HexDigest}

def Keeps (store : OntologyStore) (as : List Assertion) : Prop :=
  store.log.getD [] = (as.flatMap fun a => a.key ++ ['\n']) ∧ (as.map Assertion.key).Nodup

theorem key_unbroken (a : Assertion) : a.key.all (!isBreak ·) = true :=
  unbroken_of_printable (bytes_printable a.toDict)

theorem splitLines_keys (as : List Assertion) :
    splitLines (as.flatMap fun a => a.key ++ ['\n']) = as.map Assertion.key := by
  induction as with
  | nil => rfl
  | cons a as ih =>
    have hline := splitLines_line (as.flatMap fun a => a.key ++ ['\n']) (key_unbroken a)
    rw [List.map_cons,← ih,← hline,List.flatMap_cons,List.append_assoc]
    rfl

theorem key_ne_nil (a : Assertion) : a.key ≠ [] := by
  rw [Assertion.key,Json.bytes,Assertion.canonical_toDict]
  simp [Json.render]

theorem mem_keys_iff {a : Assertion} : a.key ∈ as.map Assertion.key ↔ a.fact ∈ factsOf as := by
  rw [List.mem_map]
  simp only [Assertion.key_inj,factsOf,Set.mem_ofPred_eq]

theorem factsOf_concat (as : List Assertion) (a : Assertion) :
    factsOf (as ++ [a]) = insert a.fact (factsOf as) := by
  ext f
  simp only [factsOf,List.mem_append,List.mem_singleton,Set.mem_ofPred_eq,Set.mem_insert_iff,
    or_and_right,exists_or,exists_eq_left]
  constructor
  · rintro (h | rfl)
    · exact .inr h
    · exact .inl rfl
  · rintro (rfl | h)
    · exact .inr rfl
    · exact .inl h

/-- A new assertion goes last, and one that is there is not written again. -/
theorem Keeps.append (h : store.Keeps as)
    (a : Assertion) : ((store.append a).1 = true ↔ a.fact ∉ factsOf as) ∧
      ∃ after, as <+: after ∧ (store.append a).2.Keeps after ∧
        factsOf after = insert a.fact (factsOf as) := by
  have hlines : splitLines (store.log.getD []) = as.map Assertion.key := by
    rw [h.1,splitLines_keys]
  by_cases hold : a.key ∈ as.map Assertion.key
  · have hfact := mem_keys_iff.1 hold
    have hcall : store.append a = (false,{ store with log := some (store.log.getD []) }) := by
      rw [OntologyStore.append]
      simp only [hlines,if_pos hold]
    rw [hcall]
    exact ⟨by simp [hfact],as,List.prefix_rfl,h,(Set.insert_eq_of_mem hfact).symm⟩
  · have hfact : a.fact ∉ factsOf as := fun hf => hold (mem_keys_iff.2 hf)
    have hcall : store.append a =
        (true,{ store with log := some (store.log.getD [] ++ a.key ++ ['\n']) }) := by
      rw [OntologyStore.append]
      simp only [hlines,if_neg hold]
    rw [hcall]
    refine ⟨by simp [hfact],as ++ [a],List.prefix_append _ _,⟨?_,?_⟩,factsOf_concat as a⟩
    · show store.log.getD [] ++ a.key ++ ['\n'] = _
      rw [h.1,List.flatMap_append]
      simp
    · rw [List.map_append,List.nodup_append]
      refine ⟨h.2,by simp,fun k hk k' hk' heq => hold ?_⟩
      rw [List.map_cons,List.map_nil,List.mem_singleton] at hk'
      rw [← hk',← heq]
      exact hk

def read (as : List Assertion) : List Assertion :=
  ((as.map Assertion.plain).foldl Collection.put .empty).ordered

theorem map_plain_key (as : List Assertion) :
    (as.map Assertion.plain).map Assertion.key = as.map Assertion.key := by
  rw [List.map_map]
  exact List.map_congr_left fun a _ => a.plain_key

theorem read_perm (h : (as.map Assertion.key).Nodup) : (read as).Perm (as.map Assertion.plain) := by
  refine (Collection.perm_ordered _).trans ?_
  rw [Collection.values_foldl (fun _ _ _ => rfl) (fun a _ => Collection.contains_empty a.key)
    (by rw [map_plain_key]; exact h)]
  exact List.Perm.refl _

theorem read_length (h : (as.map Assertion.key).Nodup) : (read as).length = as.length := by
  rw [(read_perm h).length_eq,List.length_map]

theorem read_facts (h : (as.map Assertion.key).Nodup) : factsOf (read as) = factsOf as := by
  ext f
  simp only [factsOf,Set.mem_ofPred_eq,(read_perm h).mem_iff,List.mem_map,exists_exists_and_eq_and,
    Assertion.plain_fact]

theorem read_sorted (as : List Assertion) : ((read as).map Assertion.key).Pairwise (· < ·) :=
  Collection.sorted_keys _

theorem mapM_readLine (as : List Assertion) :
    (as.map Assertion.key).mapM Stored.readLine = .ok (as.map Assertion.plain) := by
  induction as with
  | nil => rfl
  | cons a as ih =>
    rw [List.map_cons,List.mapM_cons,Stored.readLine_key,ih]
    rfl

theorem Keeps.assertions (h : store.Keeps as) : store.assertions =
      if as.length ≤ maxClosureAssertions then .ok (read as)
      else .error (.ontology (overflow as.length)) := by
  have hkeys : (as.map Assertion.key).filter (· ≠ []) = as.map Assertion.key := by
    rw [List.filter_eq_self]
    intro k hk
    obtain ⟨a,_,rfl⟩ := List.mem_map.1 hk
    simp [key_ne_nil a]
  cases hlog : store.log with
  | none =>
    have hempty : as = [] := by
      have htext := h.1
      rw [hlog,Option.getD_none] at htext
      cases as with
      | nil => rfl
      | cons a as => simp [key_ne_nil a] at htext
    subst hempty
    rw [OntologyStore.assertions,hlog,if_pos (by decide)]
    rfl
  | some text =>
    have htext := h.1
    rw [hlog,Option.getD_some] at htext
    rw [OntologyStore.assertions,hlog]
    simp only [htext,splitLines_keys,hkeys,mapM_readLine]
    have hlength : ((as.map Assertion.plain).foldl Collection.put .empty).ordered.length =
        as.length := read_length h.2
    show (require (((as.map Assertion.plain).foldl Collection.put .empty).ordered.length ≤
        maxClosureAssertions) (StoreRaise.ontology
          (overflow ((as.map Assertion.plain).foldl Collection.put .empty).ordered.length)) >>=
      fun _ => pure (read as)) = _
    rw [hlength]
    by_cases hle : as.length ≤ maxClosureAssertions
    · simp [require,hle,bind,Except.bind,pure,Except.pure]
    · simp [require,hle,bind,Except.bind]

theorem read_keys {as bs : List Assertion} (h : factsOf as = factsOf bs) :
    (read as).map Assertion.key = (read bs).map Assertion.key := by
  have hfacts : ∀ cs : List Assertion,
      ((cs.map Assertion.plain).foldl Collection.put .empty).facts = factsOf cs := by
    intro cs
    rw [Collection.facts_foldl Collection.facts_put]
    ext f
    simp [Collection.facts,Collection.values,Collection.empty,Dict.empty,factsOf,
      Assertion.plain_fact]
  exact Collection.keys_congr (by rw [hfacts,hfacts,h])

theorem canonical_of_keys {as bs : List Assertion}
    (h : as.map Assertion.key = bs.map Assertion.key) :
    (as.map Assertion.toDict).map Json.canonical =
      (bs.map Assertion.toDict).map Json.canonical := by
  induction as generalizing bs with
  | nil =>
    cases bs with
    | nil => rfl
    | cons b bs => simp at h
  | cons a as ih =>
    cases bs with
    | nil => simp at h
    | cons b bs =>
      simp only [List.map_cons,List.cons.injEq] at h ⊢
      exact ⟨Json.bytes_inj.1 h.1,ih h.2⟩

theorem bytes_of_keys {as bs : List Assertion} (h : as.map Assertion.key = bs.map Assertion.key) :
    (Json.list (as.map Assertion.toDict)).bytes = (Json.list (bs.map Assertion.toDict)).bytes := by
  rw [Json.bytes_inj,Json.canonical_list,Json.canonical_list,canonical_of_keys h]

def hashOf (sha256 : List Char → HexDigest) (as : List Assertion) : HexDigest :=
  sha256 (Json.list ((read as).map Assertion.toDict)).bytes

theorem Keeps.contentHash (h : store.Keeps as) : store.contentHash sha256 =
      if as.length ≤ maxClosureAssertions then .ok (hashOf sha256 as)
      else .error (.ontology (overflow as.length)) := by
  rw [OntologyStore.contentHash,h.assertions]
  split <;> rfl

/-- The address depends on what is said only. -/
theorem hashOf_congr {as bs : List Assertion} (h : factsOf as = factsOf bs) :
    hashOf sha256 as = hashOf sha256 bs := by
  rw [hashOf,hashOf,bytes_of_keys (read_keys h)]

theorem encard_factsOf (h : (as.map Assertion.key).Nodup) : (factsOf as).encard = as.length := by
  have hnodup : (as.map Assertion.fact).Nodup := by
    rw [List.Nodup,List.pairwise_map]
    exact (List.pairwise_map.1 h).imp fun hne heq => hne (Assertion.key_inj.2 heq)
  have hfacts : factsOf as = ((as.map Assertion.fact).toFinset : Set Fact) := by
    ext f
    simp [factsOf]
  rw [hfacts,Set.encard_coe_eq_coe_finsetCard,List.toFinset_card_of_nodup hnodup,List.length_map]

def rowsOf (sha256 : List Char → HexDigest) (g : SemanticGraph) (as : List Assertion) :
    List IndexRow :=
  (read as).map (rowOf (g.graphHash sha256))

theorem Keeps.graph (h : store.Keeps as)
    (hle : as.length ≤ maxClosureAssertions) : ∃ g : SemanticGraph,
      SemanticGraph.new store.owner (read as) [("assertion_log_sha256",(hashOf sha256 as).text)] =
        .ok g ∧ store.graph sha256 = .ok g := by
  have hordered := Collection.ordered_foldl_put (read_sorted as)
  have hbound : (read as).length ≤ maxClosureAssertions := by rw [read_length h.2]; exact hle
  refine ⟨⟨store.owner,read as,[("assertion_log_sha256",(hashOf sha256 as).text)],store.owner_ne,
    read_sorted as,hbound⟩,?_,?_⟩
  · simp [SemanticGraph.new,store.owner_ne,hordered,hbound]
  · rw [OntologyStore.graph,h.assertions,h.contentHash,if_pos hle,if_pos hle]
    simp [bind,Except.bind,SemanticGraph.new,store.owner_ne,hordered,hbound,Except.mapError]

theorem rowOf_inj {hash : HexDigest} {a b : Assertion} (h : rowOf hash a = rowOf hash b) :
    a.key = b.key := by
  simp only [rowOf,IndexRow.mk.injEq,and_true] at h
  obtain ⟨hs,hp,ho⟩ := h
  have hval : a.o.val = b.o.val :=
    Obj.val_inj.1 (Json.bytes_inj.1 (String.ofList_injective ho))
  exact Assertion.key_inj.2 (by rw [Assertion.fact,Assertion.fact,hs,hp,hval])

theorem foldl_insertOrIgnore {qs rows : List IndexRow} (h : (qs ++ rows).Nodup) :
    rows.foldl insertOrIgnore qs = qs ++ rows := by
  induction rows generalizing qs with
  | nil => simp
  | cons r rows ih =>
    have hfresh : r ∉ qs := by
      intro hmem
      exact (List.nodup_append.1 h).2.2 r hmem r List.mem_cons_self rfl
    rw [List.foldl_cons,insertOrIgnore,if_neg hfresh,ih]
    · simp
    · simpa using h

theorem rowsOf_nodup (g : SemanticGraph) (as : List Assertion) : (rowsOf sha256 g as).Nodup := by
  have hkeys : ((read as).map Assertion.key).Nodup := (read_sorted as).imp fun h => ne_of_lt h
  rw [List.Nodup,List.pairwise_map] at hkeys
  rw [rowsOf,List.Nodup,List.pairwise_map]
  exact hkeys.imp fun hne heq => hne (rowOf_inj heq)

end OntologyStore
end AgentCentric

import AgentCentric.Ontology.Authored

namespace AgentCentric

inductive StoreCall where
  | append (a : Assertion)
  | index : StoreCall

def appended (calls : List StoreCall) : Set Fact := {f | ∃ a, .append a ∈ calls ∧ a.fact = f}

@[simp] theorem appended_nil : appended [] = ∅ := by
  ext f
  simp [appended]

@[simp] theorem appended_append (a : Assertion) (calls : List StoreCall) :
    appended (.append a :: calls) = insert a.fact (appended calls) := by
  ext f
  simp only [appended,List.mem_cons,StoreCall.append.injEq,or_and_right,exists_or,exists_eq_left,
    Set.mem_ofPred_eq,Set.mem_insert_iff]
  exact or_congr_left eq_comm

@[simp] theorem appended_index (calls : List StoreCall) :
    appended (.index :: calls) = appended calls := by
  ext f
  simp [appended]

theorem appended_cons (c : StoreCall) (calls : List StoreCall) :
    appended (c :: calls) = appended [c] ∪ appended calls := by
  cases c with
  | append a =>
    rw [appended_append,appended_append,appended_nil,Set.insert_union,Set.empty_union]
  | index => simp

theorem appended_concat (before since : List StoreCall) :
    appended (before ++ since) = appended before ∪ appended since := by
  induction before with
  | nil => simp
  | cons c before ih =>
    rw [List.cons_append,appended_cons,ih,appended_cons c before,Set.union_assoc]

variable {store : OntologyStore} {as : List Assertion}

namespace OntologyStore
variable (sha256 : List Char → HexDigest)

def fresh (owner : {name : String // name ≠ ""}) : OntologyStore := ⟨owner,owner.2,none,none⟩

def call (store : OntologyStore) : StoreCall → OntologyStore
  | .append a => (store.append a).2
  | .index => (store.index sha256).toOption.getD store

def run (store : OntologyStore) (calls : List StoreCall) : OntologyStore :=
  calls.foldl (call sha256) store

theorem run_append (store : OntologyStore) (before since : List StoreCall) :
    run sha256 store (before ++ since) = run sha256 (run sha256 store before) since :=
  List.foldl_append

variable {sha256}

theorem fresh_keeps (owner : {name : String // name ≠ ""}) : (fresh owner).Keeps [] :=
  ⟨rfl,List.nodup_nil⟩

theorem append_table (store : OntologyStore) (a : Assertion) :
    (store.append a).2.table = store.table := by
  simp only [OntologyStore.append]
  split <;> rfl

theorem append_owner (store : OntologyStore) (a : Assertion) :
    (store.append a).2.owner = store.owner := by
  simp only [OntologyStore.append]
  split <;> rfl

theorem Keeps.index_ok (h : store.Keeps as)
    (hle : as.length ≤ maxClosureAssertions) : ∃ g : SemanticGraph,
      SemanticGraph.new store.owner (read as) [("assertion_log_sha256",(hashOf sha256 as).text)] =
        .ok g ∧ store.index sha256 = .ok { store with table := some (rowsOf sha256 g as) } := by
  obtain ⟨g,hnew,hgraph⟩ := h.graph hle
  have hrows : (rowsOf sha256 g as).foldl insertOrIgnore [] = rowsOf sha256 g as := by
    rw [foldl_insertOrIgnore (by simpa using rowsOf_nodup g as),List.nil_append]
  refine ⟨g,hnew,?_⟩
  rw [OntologyStore.index,hgraph,h.assertions,if_pos hle]
  simp only [bind,Except.bind,pure,Except.pure]
  rw [← hrows]
  rfl

theorem Keeps.graph_error (h : store.Keeps as) (hover : ¬as.length ≤ maxClosureAssertions) :
    store.graph sha256 = .error (.ontology (overflow as.length)) := by
  rw [OntologyStore.graph,h.assertions,if_neg hover]
  rfl

theorem Keeps.index_error (h : store.Keeps as) (hover : ¬as.length ≤ maxClosureAssertions) :
    store.index sha256 = .error (.ontology (overflow as.length)) := by
  rw [OntologyStore.index,h.graph_error hover]
  rfl

theorem Keeps.verify_error (h : store.Keeps as)
    (hover : ¬as.length ≤ maxClosureAssertions) : store.verifyIndex sha256 ≠ .ok () := by
  unfold OntologyStore.verifyIndex
  split
  · simp
  · rw [h.graph_error hover]
    simp [bind,Except.bind]

theorem Keeps.verify_iff {as before : List Assertion} {g : SemanticGraph}
    (h : store.Keeps as) (hle : as.length ≤ maxClosureAssertions) (hbefore : before <+: as)
    (hnew : SemanticGraph.new store.owner (read before)
      [("assertion_log_sha256",(hashOf sha256 before).text)] = .ok g)
    (hnodup : (before.map Assertion.key).Nodup)
    (htable : store.table = some (rowsOf sha256 g before)) :
    store.verifyIndex sha256 = .ok () ↔ before = as := by
  obtain ⟨g',hnew',hgraph⟩ := h.graph hle
  have hverify : store.verifyIndex sha256 = .ok () ↔
      (rowsOf sha256 g before).insertionSort IndexRow.byBytes =
        (rowsOf sha256 g' as).insertionSort IndexRow.byTuple := by
    rw [OntologyStore.verifyIndex,htable,hgraph,h.assertions,if_pos hle]
    simp only [bind,Except.bind]
    exact require_ok.trans decide_eq_true_iff
  rw [hverify]
  constructor
  · intro heq
    have hlength := congrArg List.length heq
    rw [List.length_insertionSort,List.length_insertionSort,rowsOf,rowsOf,List.length_map,
      List.length_map,read_length hnodup,read_length h.2] at hlength
    exact hbefore.eq_of_length hlength
  · rintro rfl
    rw [hnew] at hnew'
    cases hnew'
    exact IndexRow.insertionSort_byBytes _

theorem call_index (store : OntologyStore) : (store.call sha256 .index).log = store.log ∧
    (store.call sha256 .index).owner = store.owner := by
  rw [call,OntologyStore.index]
  cases store.graph sha256 with
  | error e => exact ⟨rfl,rfl⟩
  | ok g =>
    cases store.assertions with
    | error e => exact ⟨rfl,rfl⟩
    | ok as => exact ⟨rfl,rfl⟩

theorem Keeps.call (h : store.Keeps as)
    (c : StoreCall) : ∃ after, as <+: after ∧ (store.call sha256 c).Keeps after ∧
      factsOf after = factsOf as ∪ appended [c] := by
  cases c with
  | append a =>
    obtain ⟨-,after,hfront,hkeeps,hfacts⟩ := h.append a
    refine ⟨after,hfront,hkeeps,?_⟩
    rw [hfacts,appended_append,appended_nil,Set.insert_eq,Set.union_comm,insert_empty_eq]
  | index =>
    refine ⟨as,List.prefix_rfl,⟨?_,h.2⟩,by simp⟩
    rw [(call_index store).1]
    exact h.1

theorem Keeps.run (h : store.Keeps as)
    (calls : List StoreCall) : ∃ after, as <+: after ∧ (run sha256 store calls).Keeps after ∧
      factsOf after = factsOf as ∪ appended calls := by
  induction calls generalizing store as with
  | nil => exact ⟨as,List.prefix_rfl,h,by simp⟩
  | cons c calls ih =>
    obtain ⟨mid,hmid,hkeeps,hfacts⟩ := h.call c
    obtain ⟨after,hafter,hkeeps',hfacts'⟩ := ih hkeeps
    refine ⟨after,hmid.trans hafter,hkeeps',?_⟩
    rw [hfacts',hfacts,Set.union_assoc]
    rw [← appended_cons]

theorem run_owner (store : OntologyStore) (calls : List StoreCall) :
    (run sha256 store calls).owner = store.owner := by
  induction calls generalizing store with
  | nil => rfl
  | cons c calls ih =>
    have hstep : (store.call sha256 c).owner = store.owner := by
      cases c with
      | append a => exact append_owner store a
      | index => exact (call_index store).2
    exact (ih _).trans hstep

theorem run_table (store : OntologyStore) {calls : List StoreCall} (h : .index ∉ calls) :
    (run sha256 store calls).table = store.table := by
  induction calls generalizing store with
  | nil => rfl
  | cons c calls ih =>
    have hrest : StoreCall.index ∉ calls := fun hmem => h (List.mem_cons_of_mem _ hmem)
    cases c with
    | append a => exact (ih _ hrest).trans (append_table store a)
    | index => exact absurd List.mem_cons_self h

theorem run_keeps (owner : {name : String // name ≠ ""}) (calls : List StoreCall) :
    ∃ as, (run sha256 (fresh owner) calls).Keeps as ∧ factsOf as = appended calls := by
  obtain ⟨as,-,hkeeps,hfacts⟩ := (fresh_keeps owner).run calls
  refine ⟨as,hkeeps,hfacts.trans ?_⟩
  rw [show factsOf [] = ∅ from by ext f; simp [factsOf],Set.empty_union]

theorem Keeps.length_le (h : store.Keeps as) :
    as.length ≤ maxClosureAssertions ↔ (factsOf as).encard ≤ maxClosureAssertions := by
  rw [encard_factsOf h.2,Nat.cast_le]

theorem verify_since (owner : {name : String // name ≠ ""}) (before since : List StoreCall)
    (hlast : .index ∉ since)
    (hle : (appended (before ++ .index :: since)).encard ≤ maxClosureAssertions) :
    (run sha256 (fresh owner) (before ++ .index :: since)).verifyIndex sha256 = .ok () ↔
      appended since ⊆ appended before := by
  obtain ⟨old,hold,hfacts⟩ := run_keeps owner before
  rw [appended_concat,appended_index] at hle
  have hsmall : old.length ≤ maxClosureAssertions := by
    rw [hold.length_le,hfacts]
    exact (Set.encard_le_encard Set.subset_union_left).trans hle
  obtain ⟨g,hnew,hindex⟩ := hold.index_ok hsmall
  set indexed : OntologyStore :=
    { run sha256 (fresh owner) before with table := some (rowsOf sha256 g old) } with hindexed
  have hkeeps : indexed.Keeps old := hold
  have hrun : run sha256 (fresh owner) (before ++ .index :: since) = run sha256 indexed since := by
    rw [run_append]
    show run sha256 (OntologyStore.call sha256 _ .index) since = _
    rw [call,hindex]
    rfl
  obtain ⟨as,hfront,hafter,hall⟩ := hkeeps.run since
  have hlength : as.length ≤ maxClosureAssertions := by
    rw [hafter.length_le,hall,hfacts]
    exact hle
  have howner : (run sha256 indexed since).owner = (run sha256 (fresh owner) before).owner :=
    run_owner indexed since
  rw [hrun,hafter.verify_iff hlength hfront (by rw [howner]; exact hnew) hold.2
    (run_table indexed hlast),← hfacts]
  constructor
  · rintro rfl
    rw [hall]
    exact Set.subset_union_right
  · intro hsub
    have hcard : (factsOf old).encard = (factsOf as).encard := by
      rw [hall,Set.union_eq_self_of_subset_right hsub]
    rw [encard_factsOf hold.2,encard_factsOf hafter.2,Nat.cast_inj] at hcard
    exact hfront.eq_of_length hcard

/-- Over any history the store is the set of what was appended, up to the bound it reads. -/
theorem store_is_set (sha256 : List Char → HexDigest) (owner : {name : String // name ≠ ""})
    (calls : List StoreCall) :
    (∀ a, ((run sha256 (fresh owner) calls).append a).1 = true ↔ a.fact ∉ appended calls) ∧
    ((appended calls).encard ≤ maxClosureAssertions →
      (∃ as, (run sha256 (fresh owner) calls).assertions = .ok as ∧
        factsOf as = appended calls ∧ (as.map Assertion.key).Pairwise (· < ·)) ∧
      (∃ hash, ∀ owner' others, appended others = appended calls →
        (run sha256 (fresh owner') others).contentHash sha256 = .ok hash) ∧
      ∀ before since, calls = before ++ .index :: since → .index ∉ since →
        ((run sha256 (fresh owner) calls).verifyIndex sha256 = .ok () ↔
          appended since ⊆ appended before)) ∧
    (maxClosureAssertions < (appended calls).encard → ∃ count,
      (run sha256 (fresh owner) calls).assertions = .error (.ontology (overflow count)) ∧
      (run sha256 (fresh owner) calls).contentHash sha256 = .error (.ontology (overflow count)) ∧
      (run sha256 (fresh owner) calls).index sha256 = .error (.ontology (overflow count)) ∧
      (run sha256 (fresh owner) calls).verifyIndex sha256 ≠ .ok ()) := by
  obtain ⟨as,hkeeps,hfacts⟩ := run_keeps owner calls
  refine ⟨fun a => ?_,fun hle => ⟨?_,?_,?_⟩,fun hover => ?_⟩
  · rw [(hkeeps.append a).1,hfacts]
  · rw [← hfacts,← hkeeps.length_le] at hle
    refine ⟨read as,?_,(read_facts hkeeps.2).trans hfacts,read_sorted as⟩
    rw [hkeeps.assertions,if_pos hle]
  · refine ⟨hashOf sha256 as,fun owner' others hothers => ?_⟩
    obtain ⟨bs,hkeeps',hfacts'⟩ := run_keeps owner' others
    have hsame : factsOf bs = factsOf as := by rw [hfacts',hothers,hfacts]
    have hlength : bs.length ≤ maxClosureAssertions := by
      rw [hkeeps'.length_le,hsame,hfacts]
      exact hle
    rw [hkeeps'.contentHash,if_pos hlength,hashOf_congr hsame]
  · rintro before since rfl hlast
    exact verify_since owner before since hlast hle
  · have hlong : ¬as.length ≤ maxClosureAssertions := by
      rw [hkeeps.length_le,hfacts]
      exact not_le.2 hover
    refine ⟨as.length,?_,?_,hkeeps.index_error hlong,hkeeps.verify_error hlong⟩
    · rw [hkeeps.assertions,if_neg hlong]
    · rw [hkeeps.contentHash,if_neg hlong]

namespace Crowded

def zeros (_ : List Char) : HexDigest := .zeros

def owner : {name : String // name ≠ ""} := ⟨"catalog",by decide⟩

def numbered (n : Nat) : Assertion := ⟨"item","number",.literal ⟨.int,.int n⟩,by decide,by decide⟩

def calls : List StoreCall := (List.range 100001).map fun n => .append (numbered n)

theorem numbered_keys : (((List.range 100001).map numbered).map Assertion.key).Nodup := by
  rw [List.map_map]
  refine List.nodup_range.map fun n m heq => ?_
  have hval : (numbered n).o.val = (numbered m).o.val :=
    congrArg Fact.o (Assertion.key_inj.1 heq)
  have hbytes : (Json.int n).bytes = (Json.int m).bytes := (Val.lit.inj hval).2
  have hcanonical := Json.bytes_inj.1 hbytes
  simpa [Json.canonical] using hcanonical

theorem calls_facts : appended calls = factsOf ((List.range 100001).map numbered) := by
  ext f
  simp only [appended,factsOf,calls,List.mem_map,Set.mem_ofPred_eq,StoreCall.append.injEq]

/-- More assertions than the bound are appended, and none of them is read. -/
theorem crowded_log_unread :
    ¬∃ as, (run zeros (fresh owner) calls).assertions = .ok as ∧ factsOf as = appended calls := by
  rintro ⟨as,hread,-⟩
  obtain ⟨bs,hkeeps,hfacts⟩ := run_keeps owner calls
  have hcard := congrArg Set.encard (hfacts.trans calls_facts)
  rw [encard_factsOf hkeeps.2,encard_factsOf numbered_keys,Nat.cast_inj,List.length_map,
    List.length_range] at hcard
  rw [hkeeps.assertions,if_neg (by rw [hcard]; decide)] at hread
  cases hread

end Crowded
end OntologyStore
end AgentCentric

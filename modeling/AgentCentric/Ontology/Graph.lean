import AgentCentric.Library.Checked
import AgentCentric.Library.Json
import AgentCentric.Network.Value
import Mathlib.Data.Set.Card

namespace AgentCentric
open Network (ValueType)

inductive ErrorKind where
  | undeclaredTerm | missingImport | versionConflict | nonAdditiveChange | shapeViolation
  | closureOverflow | fragmentOverflow | malformedDocument | scopeEscape
  deriving DecidableEq

def ErrorKind.text : ErrorKind → String
  | .undeclaredTerm => "undeclared-term"
  | .missingImport => "missing-import"
  | .versionConflict => "version-conflict"
  | .nonAdditiveChange => "non-additive-change"
  | .shapeViolation => "shape-violation"
  | .closureOverflow => "closure-overflow"
  | .fragmentOverflow => "fragment-overflow"
  | .malformedDocument => "malformed-document"
  | .scopeEscape => "scope-escape"

structure OntologyError where
  kind : ErrorKind
  message : String
  deriving DecidableEq

/-- `str(error)`. -/
def OntologyError.text (e : OntologyError) : String := e.kind.text ++ ": " ++ e.message

def malformed (message : String) : OntologyError := ⟨.malformedDocument,message⟩

def maxClosureAssertions : Nat := 100000

def graphSchema : String := "semantic-graph.v1"

@[ext]
structure Term where
  name : String
  name_ne : name ≠ ""

instance : DecidableEq Term := fun _ _ => decidable_of_iff _ Term.ext_iff.symm

def Term.new (name : String) : Except OntologyError Term :=
  if h : name ≠ "" then .ok ⟨name,h⟩ else .error (malformed "term name is empty")

theorem Term.new_of_ne {name : String} (h : name ≠ "") : Term.new name = .ok ⟨name,h⟩ := dif_pos h

def Term.toDict (t : Term) : Json := .dict [("k",.str "t"),("n",.str t.name)]

/-- A literal of an unknown type cannot be expressed here: `ValueType` lists the known ones. -/
structure Literal where
  type : ValueType
  value : Json

def Literal.toDict (l : Literal) : Json :=
  .dict [("k",.str "l"),("t",.str l.type.name),("v",l.value)]

inductive Obj where
  | term : Term → Obj
  | literal : Literal → Obj

def Obj.toDict : Obj → Json
  | .term t => t.toDict
  | .literal l => l.toDict

structure Assertion where
  s : String
  p : String
  o : Obj
  s_ne : s ≠ ""
  p_ne : p ≠ ""

namespace Assertion

def new (s p : String) (o : Obj) : Except OntologyError Assertion :=
  if h : s ≠ "" ∧ p ≠ "" then .ok ⟨s,p,o,h.1,h.2⟩
  else .error (malformed "assertion subject/predicate is empty")

theorem new_of_ne {s p : String} (o : Obj) (hs : s ≠ "") (hp : p ≠ "") :
    new s p o = .ok ⟨s,p,o,hs,hp⟩ := dif_pos ⟨hs,hp⟩

def toDict (a : Assertion) : Json := .dict [("s",.str a.s),("p",.str a.p),("o",a.o.toDict)]

/-- `_assertion_key`. -/
def key (a : Assertion) : List Char := a.toDict.bytes

end Assertion

/-- `_val_term`, `_val_obj`: a value as the rules see it. The value of a literal is its
`_canonical_value`. -/
inductive Val where
  | term : String → Val
  | lit : ValueType → List Char → Val
  deriving DecidableEq

def Obj.val : Obj → Val
  | .term t => .term t.name
  | .literal l => .lit l.type l.value.bytes

structure Fact where
  s : String
  p : String
  o : Val
  deriving DecidableEq

def Assertion.fact (a : Assertion) : Fact := ⟨a.s,a.p,a.o.val⟩

theorem valueType_name_inj {a b : ValueType} : a.name = b.name ↔ a = b := by
  constructor
  · cases a <;> cases b <;> simp [ValueType.name]
  · rintro rfl
    rfl

theorem Term.canonical_toDict (t : Term) :
    t.toDict.canonical = .dict [("k",.str "t"),("n",.str t.name)] := by
  simp [toDict,Json.canonical,Json.canonicalItems,Json.byKey]

theorem Literal.canonical_toDict (l : Literal) : l.toDict.canonical =
    .dict [("k",.str "l"),("t",.str l.type.name),("v",l.value.canonical)] := by
  simp [toDict,Json.canonical,Json.canonicalItems,Json.byKey]

theorem Assertion.canonical_toDict (a : Assertion) : a.toDict.canonical =
    .dict [("o",a.o.toDict.canonical),("p",.str a.p),("s",.str a.s)] := by
  simp [toDict,Json.canonical,Json.canonicalItems,Json.byKey]

theorem Obj.val_inj {a b : Obj} : a.toDict.canonical = b.toDict.canonical ↔ a.val = b.val := by
  cases a with
  | term t =>
    cases b with
    | term u => simp [toDict,val,Term.canonical_toDict]
    | literal m => simp [toDict,val,Term.canonical_toDict,Literal.canonical_toDict]
  | literal l =>
    cases b with
    | term u => simp [toDict,val,Term.canonical_toDict,Literal.canonical_toDict]
    | literal m =>
      simp [toDict,val,Literal.canonical_toDict,valueType_name_inj,Json.bytes_inj]

theorem Assertion.key_inj {a b : Assertion} : a.key = b.key ↔ a.fact = b.fact := by
  rw [key,key,Json.bytes_inj,canonical_toDict,canonical_toDict]
  simp only [Json.dict.injEq,List.cons.injEq,Prod.mk.injEq,Obj.val_inj,Json.str.injEq,fact,
    Fact.mk.injEq]
  tauto

structure Collection where
  entries : Dict (List Char) Assertion
  keyed : ∀ e ∈ entries.entries, e.1 = e.2.key

variable {c : Collection} {a : Assertion}

namespace Collection

def empty : Collection := ⟨.empty,by simp [Dict.empty]⟩

def values (c : Collection) : List Assertion := c.entries.entries.map Prod.snd

def size (c : Collection) : Nat := c.values.length

def contains (c : Collection) (key : List Char) : Bool := (c.entries.get key).isSome

theorem keyed_set {entries : Dict (List Char) Assertion}
    (h : ∀ e ∈ entries.entries, e.1 = e.2.key) (a : Assertion) :
    ∀ e ∈ (entries.set a.key a).entries, e.1 = e.2.key := by
  rintro ⟨k,b⟩ he
  rw [← Dict.lookup_eq_some_iff (entries.set a.key a).nodup] at he
  change (entries.set a.key a).get k = some b at he
  rw [Dict.get_set] at he
  split at he
  · rename_i hk
    cases he
    exact hk.symm
  · exact h _ ((Dict.lookup_eq_some_iff entries.nodup).1 he)

/-- `collection[key] = assertion`: the last of several assertions with one key stays. -/
def put (c : Collection) (a : Assertion) : Collection := ⟨c.entries.set a.key a,keyed_set c.keyed a⟩

/-- `collection.setdefault(key, assertion)`: the first one stays. -/
def add (c : Collection) (a : Assertion) : Collection := if c.contains a.key then c else c.put a

/-- `collection[key] for key in sorted(collection)`. -/
def ordered (c : Collection) : List Assertion :=
  (c.entries.entries.insertionSort fun a b => a.1 ≤ b.1).map Prod.snd

def facts (c : Collection) : Set Fact := {f | ∃ a ∈ c.values, a.fact = f}

theorem mem_values : a ∈ c.values ↔ c.entries.get a.key = some a := by
  rw [Dict.get,Dict.lookup_eq_some_iff c.entries.nodup]
  constructor
  · intro h
    obtain ⟨e,he,rfl⟩ := List.mem_map.1 h
    rw [← c.keyed e he]
    exact he
  · exact fun h => List.mem_map.2 ⟨_,h,rfl⟩

theorem keys_eq (c : Collection) : c.entries.entries.map Prod.fst = c.values.map Assertion.key := by
  rw [values,List.map_map]
  exact List.map_congr_left c.keyed

theorem nodup_keys (c : Collection) : (c.values.map Assertion.key).Nodup :=
  keys_eq c ▸ c.entries.nodup

theorem contains_iff : c.contains a.key = true ↔ a.fact ∈ c.facts := by
  rw [contains,Dict.get,Dict.lookup_isSome,keys_eq,List.mem_map]
  simp only [Assertion.key_inj,facts,Set.mem_ofPred_eq]

theorem values_put (h : c.contains a.key = false) : (c.put a).values = c.values ++ [a] := by
  have hkey : a.key ∉ c.entries.entries.map Prod.fst := by
    rw [← Dict.lookup_isSome]
    exact Bool.eq_false_iff.1 h
  simp only [values,put,Dict.set,Dict.insert_of_notMem a hkey,List.map_append,List.map_cons,
    List.map_nil]

theorem facts_put (c : Collection) (a : Assertion) : (c.put a).facts = insert a.fact c.facts := by
  have hget : ∀ b : Assertion, b ∈ (c.put a).values ↔
      (if a.key = b.key then some a else c.entries.get b.key) = some b := by
    intro b
    rw [mem_values,put,Dict.get_set]
  ext f
  simp only [facts,Set.mem_ofPred_eq,Set.mem_insert_iff,hget]
  constructor
  · rintro ⟨b,hb,rfl⟩
    split at hb
    · cases hb
      exact .inl rfl
    · exact .inr ⟨b,mem_values.2 hb,rfl⟩
  · rintro (rfl | ⟨b,hb,rfl⟩)
    · exact ⟨a,by simp,rfl⟩
    · by_cases hk : a.key = b.key
      · exact ⟨a,by simp,Assertion.key_inj.1 hk⟩
      · exact ⟨b,by simp [hk,mem_values.1 hb],rfl⟩

theorem facts_add (c : Collection) (a : Assertion) : (c.add a).facts = insert a.fact c.facts := by
  unfold add
  split
  · rename_i h
    exact (Set.insert_eq_of_mem (contains_iff.1 h)).symm
  · exact facts_put c a

theorem values_foldl {f : Collection → Assertion → Collection}
    (hf : ∀ c a, c.contains a.key = false → f c a = c.put a) {as : List Assertion}
    (hnew : ∀ a ∈ as, c.contains a.key = false) (hnodup : (as.map Assertion.key).Nodup) :
    (as.foldl f c).values = c.values ++ as := by
  induction as generalizing c with
  | nil => simp
  | cons a as ih =>
    rw [List.map_cons,List.nodup_cons] at hnodup
    have ha := hnew a List.mem_cons_self
    rw [List.foldl_cons,hf c a ha,ih _ hnodup.2,values_put ha,List.append_assoc]
    · rfl
    · intro b hb
      have hne : ¬ b.key = a.key := fun heq => hnodup.1 (heq ▸ List.mem_map_of_mem hb)
      have hold := hnew b (List.mem_cons_of_mem a hb)
      rw [← Bool.not_eq_true,contains_iff] at hold ⊢
      rw [facts_put,Set.mem_insert_iff,← Assertion.key_inj]
      tauto

theorem add_of_fresh (c : Collection) (a : Assertion) (h : c.contains a.key = false) :
    c.add a = c.put a := by simp [add,h]

theorem add_of_mem (h : a.fact ∈ c.facts) : c.add a = c := by
  simp [add,contains_iff.2 h]

theorem facts_foldl {f : Collection → Assertion → Collection}
    (hf : ∀ c a, (f c a).facts = insert a.fact c.facts) (c : Collection) (as : List Assertion) :
    (as.foldl f c).facts = c.facts ∪ {g | ∃ a ∈ as, a.fact = g} := by
  induction as generalizing c with
  | nil => simp
  | cons a as ih =>
    rw [List.foldl_cons,ih,hf]
    ext g
    simp only [Set.mem_union,Set.mem_insert_iff,Set.mem_ofPred_eq,List.mem_cons,exists_eq_or_imp]
    tauto

theorem encard_facts (c : Collection) : c.facts.encard = c.size := by
  have hnodup : (c.values.map Assertion.fact).Nodup := by
    rw [List.Nodup,List.pairwise_map]
    apply (List.pairwise_map.1 c.nodup_keys).imp
    exact fun hne heq => hne (Assertion.key_inj.2 heq)
  have hfacts : c.facts = ((c.values.map Assertion.fact).toFinset : Set Fact) := by
    ext f
    simp [facts]
  rw [hfacts,Set.encard_coe_eq_coe_finsetCard,List.toFinset_card_of_nodup hnodup,List.length_map,
    size]

theorem perm_ordered (c : Collection) : c.ordered.Perm c.values :=
  (List.perm_insertionSort _ _).map Prod.snd

theorem keys_ordered (c : Collection) : c.ordered.map Assertion.key =
    (c.entries.entries.insertionSort fun a b => a.1 ≤ b.1).map Prod.fst := by
  rw [ordered,List.map_map]
  apply List.map_congr_left
  intro e he
  exact (c.keyed e ((List.mem_insertionSort _).1 he)).symm

theorem sorted_keys (c : Collection) : (c.ordered.map Assertion.key).Pairwise (· < ·) := by
  have hle : (c.ordered.map Assertion.key).Pairwise (· ≤ ·) := by
    rw [keys_ordered,List.pairwise_map]
    exact List.pairwise_insertionSort _ _
  have hnodup : (c.ordered.map Assertion.key).Nodup :=
    (c.perm_ordered.map Assertion.key).nodup_iff.2 c.nodup_keys
  exact (List.Pairwise.and hle hnodup).imp fun h => lt_of_le_of_ne h.1 h.2

/-- Values that are in order already stay so. -/
theorem ordered_of_sorted (h : (c.values.map Assertion.key).Pairwise (· < ·)) :
    c.ordered = c.values := by
  rw [ordered,values]
  congr 1
  apply List.Pairwise.insertionSort_eq
  rw [← keys_eq,List.pairwise_map] at h
  exact h.imp le_of_lt

/-- The keys in order depend only on what is said. -/
theorem keys_congr {c d : Collection} (h : c.facts = d.facts) :
    c.ordered.map Assertion.key = d.ordered.map Assertion.key := by
  apply List.Perm.eq_of_pairwise (fun a b _ _ hab hba => absurd hab (lt_asymm hba)) c.sorted_keys
    d.sorted_keys
  rw [List.perm_ext_iff_of_nodup (c.sorted_keys.imp ne_of_lt) (d.sorted_keys.imp ne_of_lt)]
  intro k
  have hmem : ∀ e : Collection, k ∈ e.ordered.map Assertion.key ↔
      ∃ a : Assertion, a.key = k ∧ a.fact ∈ e.facts := by
    intro e
    rw [(e.perm_ordered.map Assertion.key).mem_iff,List.mem_map]
    constructor
    · rintro ⟨a,ha,rfl⟩
      exact ⟨a,rfl,a,ha,rfl⟩
    · rintro ⟨a,rfl,b,hb,hfact⟩
      exact ⟨b,hb,Assertion.key_inj.2 hfact⟩
  rw [hmem,hmem,h]

theorem contains_empty (key : List Char) : empty.contains key = false := rfl

theorem ordered_foldl_put {as : List Assertion} (h : (as.map Assertion.key).Pairwise (· < ·)) :
    (as.foldl put .empty).ordered = as := by
  have hvalues : (as.foldl put .empty).values = as :=
    values_foldl (fun _ _ _ => rfl) (fun a _ => contains_empty a.key) (h.imp ne_of_lt)
  rw [ordered_of_sorted,hvalues]
  rw [hvalues]
  exact h

end Collection

structure SemanticGraph where
  scope : String
  assertions : List Assertion
  sources : List (String × String)
  scope_ne : scope ≠ ""
  sorted : (assertions.map Assertion.key).Pairwise (· < ·)
  bounded : assertions.length ≤ maxClosureAssertions

namespace SemanticGraph

def bySource (a b : String × String) : Bool := a.1 < b.1 ∨ a.1 = b.1 ∧ a.2 ≤ b.2

def new (scope : String) (assertions : List Assertion) (sources : List (String × String))
    (schema : String := graphSchema) : Except OntologyError SemanticGraph :=
  if schema ≠ graphSchema then
    .error (malformed s!"unsupported graph schema {pyRepr schema}")
  else if hscope : scope ≠ "" then
    let unique := assertions.foldl Collection.put .empty
    if h : unique.ordered.length ≤ maxClosureAssertions then
      .ok ⟨scope,unique.ordered,sources.insertionSort (bySource · ·),hscope,unique.sorted_keys,h⟩
    else
      .error ⟨.closureOverflow,s!"graph has {unique.ordered.length} assertions, exceeding " ++
        s!"{maxClosureAssertions} (fail-closed)"⟩
  else .error (malformed "graph scope is empty")

def toDict (g : SemanticGraph) : Json :=
  .dict [("schema",.str graphSchema),("scope",.str g.scope),
    ("sources",.dict ((Dict.empty.update (g.sources.map fun e => (e.1,Json.str e.2))).entries)),
    ("assertions",.list (g.assertions.map Assertion.toDict))]

def graphHash (sha256 : List Char → HexDigest) (g : SemanticGraph) : HexDigest := sha256 g.toDict.bytes

def facts (g : SemanticGraph) : Set Fact := {f | ∃ a ∈ g.assertions, a.fact = f}

/-- A graph says what its assertions say, in whatever order and however often. -/
theorem facts_new {scope schema : String} {assertions : List Assertion}
    {sources : List (String × String)} {g : SemanticGraph}
    (h : new scope assertions sources schema = .ok g) :
    g.facts = {f | ∃ a ∈ assertions, a.fact = f} := by
  simp only [new] at h
  split at h
  · cases h
  · split at h
    · split at h
      · cases h
        have hfold := Collection.facts_foldl Collection.facts_put .empty assertions
        have hempty : Collection.empty.facts = ∅ := by
          ext f
          simp [Collection.facts,Collection.values,Collection.empty,Dict.empty]
        rw [hempty,Set.empty_union] at hfold
        rw [← hfold]
        ext f
        simp only [facts,Collection.facts,Set.mem_ofPred_eq,
          (Collection.perm_ordered _).mem_iff]
      · cases h
    · cases h

theorem new_of_sorted {scope : String} {assertions : List Assertion} (hscope : scope ≠ "")
    (hsorted : (assertions.map Assertion.key).Pairwise (· < ·))
    (hle : assertions.length ≤ maxClosureAssertions) :
    ∃ g, new scope assertions [] = .ok g ∧ g.assertions = assertions := by
  have hordered := Collection.ordered_foldl_put hsorted
  refine ⟨⟨scope,assertions,[],hscope,hsorted,hle⟩,?_,rfl⟩
  simp [new,hscope,hordered,hle]

end SemanticGraph
end AgentCentric

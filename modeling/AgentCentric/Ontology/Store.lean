import AgentCentric.Library.JsonAccess
import AgentCentric.Library.JsonLines
import AgentCentric.Library.Names
import AgentCentric.Ontology.Graph

namespace AgentCentric
open JsonLines
open Network (ValueType)

inductive StoreRaise where
  | ontology (e : OntologyError)
  | keyError (name : String)
  | typeError : StoreRaise
  | state (message : String)
  deriving DecidableEq

structure IndexRow where
  s : String
  p : String
  o : String
  graph : String
  deriving DecidableEq

namespace IndexRow

def columns (r : IndexRow) : List (List Char) :=
  [r.s.toList,r.p.toList,r.o.toList,r.graph.toList]

def byTuple (r q : IndexRow) : Prop := r.columns ≤ q.columns

/-- `ORDER BY s, p, o, graph`, by the bytes of the columns. -/
def byBytes (r q : IndexRow) : Prop := r.columns.map Utf8.bytes ≤ q.columns.map Utf8.bytes

instance : DecidableRel byTuple := fun r q => inferInstanceAs (Decidable (r.columns ≤ q.columns))

instance : DecidableRel byBytes := fun r q =>
  inferInstanceAs (Decidable (r.columns.map Utf8.bytes ≤ q.columns.map Utf8.bytes))

end IndexRow

structure OntologyStore where
  owner : String
  owner_ne : owner ≠ ""
  log : Option (List Char)
  table : Option (List IndexRow)

namespace Stored

/-- `data[key]`. -/
def item (data : Json) (key : String) : Except StoreRaise Json :=
  match data with
  | .dict items => expect (Dict.lookup items key) (.keyError key)
  | _ => .error .typeError

def itemText (data : Json) (key : String) : Except StoreRaise String := do
  let value ← item data key
  pure value.text

def typeNamed (name : String) : Option ValueType :=
  [ValueType.str,.int,.float,.bool,.dict,.list,.null,.any].find? fun t => t.name = name

def get (items : List (String × Json)) (key : String) : Json :=
  (Dict.lookup items key).getD .null

/-- `object_from_dict`. -/
def objectOf (data : Json) : Except StoreRaise Obj :=
  match data with
  | .dict items =>
    match get items "k" with
    | .str kind =>
      if kind = "t" then do
        let name ← itemText data "n"
        let term ← (Term.new name).mapError .ontology
        pure (.term term)
      else if kind = "l" then do
        let name ← itemText data "t"
        let type ← expect (typeNamed name)
          (.ontology (malformed s!"unknown literal datatype {pyRepr name}"))
        pure (.literal ⟨type,get items "v"⟩)
      else .error (.ontology (malformed s!"unknown object kind {pyRepr kind}"))
    | other => .error (.ontology (malformed ("unknown object kind " ++ other.repr)))
  | _ => .error (.ontology (malformed "object must be a mapping"))

def readLine (line : List Char) : Except StoreRaise Assertion := do
  let data ← expect (Json.loadsChars line) (.ontology (malformed "malformed assertion log line"))
  let s ← itemText data "s"
  let p ← itemText data "p"
  let o ← item data "o"
  let o ← objectOf o
  let assertion ← (Assertion.new s p o).mapError .ontology
  require (assertion.key = line)
    (.ontology (malformed "non-canonical assertion log line (fail-closed)"))
  pure assertion

end Stored

/-- An object as it is read again: what its value is made of stands in order. -/
def Obj.plain : Obj → Obj
  | .term t => .term t
  | .literal l => .literal ⟨l.type,l.value.canonical⟩

def Assertion.plain (a : Assertion) : Assertion := ⟨a.s,a.p,a.o.plain,a.s_ne,a.p_ne⟩

theorem Obj.plain_val (o : Obj) : o.plain.val = o.val := by
  cases o with
  | term t => rfl
  | literal l => simp [plain,val,Json.bytes,Json.canonical_canonical]

theorem Assertion.plain_fact (a : Assertion) : a.plain.fact = a.fact := by
  simp [plain,fact,Obj.plain_val]

theorem Assertion.plain_key (a : Assertion) : a.plain.key = a.key :=
  key_inj.2 a.plain_fact

namespace Stored

theorem typeNamed_name (t : ValueType) : typeNamed t.name = some t := by
  cases t <;> decide

theorem objectOf_canonical (o : Obj) : objectOf o.toDict.canonical = .ok o.plain := by
  cases o with
  | term t =>
    have hname := Term.new_of_ne t.name_ne
    simp [Obj.toDict,Term.canonical_toDict,objectOf,get,Dict.lookup,itemText,item,expect,bind,
      Except.bind,pure,Except.pure,hname,Except.mapError,Obj.plain]
  | literal l =>
    simp [Obj.toDict,Literal.canonical_toDict,objectOf,get,Dict.lookup,itemText,item,expect,bind,
      Except.bind,pure,Except.pure,typeNamed_name,Obj.plain]

theorem readLine_key (a : Assertion) : readLine a.key = .ok a.plain := by
  have hdata : Json.loadsChars a.key = some (.dict [("o",a.o.toDict.canonical),("p",.str a.p),
      ("s",.str a.s)]) := by
    rw [Assertion.key,Json.loadsChars_bytes,Assertion.canonical_toDict]
  have hnew : Assertion.new a.s a.p a.o.plain = .ok a.plain :=
    Assertion.new_of_ne a.o.plain a.s_ne a.p_ne
  rw [readLine,hdata]
  simp [expect,itemText,item,Dict.lookup,bind,Except.bind,pure,Except.pure,objectOf_canonical,hnew,
    Except.mapError,a.plain_key,require]

end Stored

namespace OntologyStore
variable (sha256 : List Char → HexDigest)

def append (store : OntologyStore) (a : Assertion) : Bool × OntologyStore :=
  let text := store.log.getD []
  if a.key ∈ splitLines text then (false,{ store with log := some text })
  else (true,{ store with log := some (text ++ a.key ++ ['\n']) })

def overflow (count : Nat) : OntologyError :=
  ⟨.closureOverflow,s!"authored log has {count} assertions, exceeding {maxClosureAssertions} " ++
    "(fail-closed)"⟩

def assertions (store : OntologyStore) : Except StoreRaise (List Assertion) :=
  match store.log with
  | none => .ok []
  | some text => do
    let parsed ← ((splitLines text).filter (· ≠ [])).mapM Stored.readLine
    let unique := parsed.foldl Collection.put .empty
    require (unique.ordered.length ≤ maxClosureAssertions)
      (.ontology (overflow unique.ordered.length))
    pure unique.ordered

def contentHash (store : OntologyStore) : Except StoreRaise HexDigest := do
  let assertions ← store.assertions
  pure (sha256 (Json.list (assertions.map Assertion.toDict)).bytes)

def graph (store : OntologyStore) : Except StoreRaise SemanticGraph := do
  let assertions ← store.assertions
  let hash ← store.contentHash sha256
  (SemanticGraph.new store.owner assertions [("assertion_log_sha256",hash.text)]).mapError .ontology

def rowOf (graphHash : HexDigest) (a : Assertion) : IndexRow :=
  ⟨a.s,a.p,a.o.toDict.compact,graphHash.text⟩

/-- `INSERT OR IGNORE`: all columns together are the key. -/
def insertOrIgnore (rows : List IndexRow) (row : IndexRow) : List IndexRow :=
  if row ∈ rows then rows else rows ++ [row]

def index (store : OntologyStore) : Except StoreRaise OntologyStore := do
  let graph ← store.graph sha256
  let assertions ← store.assertions
  let rows := assertions.map (rowOf (graph.graphHash sha256))
  pure { store with table := some (rows.foldl insertOrIgnore []) }

def verifyIndex (store : OntologyStore) : Except StoreRaise Unit :=
  match store.table with
  | none => .error (.state "no index (fail-closed)")
  | some rows => do
    let graph ← store.graph sha256
    let assertions ← store.assertions
    let expected := (assertions.map (rowOf (graph.graphHash sha256))).insertionSort
      IndexRow.byTuple
    require (rows.insertionSort IndexRow.byBytes = expected) (.ontology (malformed
      "the derived assertion index disagrees with the canonical log (fail-closed)"))

end OntologyStore
end AgentCentric

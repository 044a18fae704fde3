import AgentCentric.Library.JsonAccess
import AgentCentric.Ontology.Graph

namespace AgentCentric
open Network (ValueType)

def maxFragmentTerms : Nat := 10000
def maxRuleCount : Nat := 1000
def maxRuleBody : Nat := 64

def rulesSchema : String := "ontology.rules.v1"
def ontologySchema : String := "ontology.v1"

/-- A pattern of an unknown kind or datatype cannot be expressed here. -/
inductive Pattern where
  | var (name : String) (name_ne : name ≠ "") : Pattern
  | term (name : String) (name_ne : name ≠ "") : Pattern
  | lit (datatype : ValueType) (value : Json) : Pattern

namespace Pattern

def any : Pattern := .var "_" (by decide)

def isLit : Pattern → Bool
  | .lit _ _ => true
  | _ => false

def vars : Pattern → List String
  | .var name _ => if name ≠ "_" then [name] else []
  | _ => []

def toDict : Pattern → Json
  | .var name _ => .dict [("var",.str name)]
  | .term name _ => .dict [("term",.str name)]
  | .lit datatype value => .dict [("lit",.dict [("t",.str datatype.name),("v",value)])]

end Pattern

structure RuleAtom where
  s : Pattern
  p : String
  o : Pattern
  negated : Bool
  p_ne : p ≠ ""
  subject : s.isLit = false

namespace RuleAtom

def new (s : Pattern) (p : String) (o : Pattern) (negated : Bool := false) :
    Except OntologyError RuleAtom :=
  if hp : p ≠ "" then
    if hs : s.isLit = false then .ok ⟨s,p,o,negated,hp,hs⟩
    else .error (malformed "atom subject cannot be a literal")
  else .error (malformed "atom predicate is empty")

def vars (a : RuleAtom) : List String := a.s.vars ++ a.o.vars

def toDict (a : RuleAtom) : Json :=
  .dict [("s",a.s.toDict),("p",.str a.p),("o",a.o.toDict),("negated",.bool a.negated)]

end RuleAtom

def positiveVars (body : List RuleAtom) : List String :=
  (body.filter fun a => !a.negated).flatMap RuleAtom.vars

structure Rule where
  id : String
  head : RuleAtom
  body : List RuleAtom
  id_ne : id ≠ ""
  head_positive : head.negated = false
  body_ne : body ≠ []
  body_le : body.length ≤ maxRuleBody
  restricted : ∀ x ∈ head.vars, x ∈ positiveVars body

namespace Rule

def new (id : String) (head : RuleAtom) (body : List RuleAtom) (schema : String := rulesSchema) :
    Except OntologyError Rule :=
  if schema ≠ rulesSchema then .error (malformed s!"unsupported rule schema {pyRepr schema}")
  else if hid : id ≠ "" then
    if hhead : head.negated = false then
      if hbody : body ≠ [] then
        if hle : body.length ≤ maxRuleBody then
          match hfind : head.vars.find? fun x => x ∉ positiveVars body with
          | some x => .error (malformed s!"unbound head variable {pyRepr x} (not range-restricted)")
          | none => .ok ⟨id,head,body,hid,hhead,hbody,hle,by
              simpa using List.find?_eq_none.1 hfind⟩
        else .error (malformed s!"rule body has {body.length} atoms, exceeding {maxRuleBody}")
      else .error (malformed "rule body is empty")
    else .error (malformed "rule head cannot be negated")
  else .error (malformed "rule id is empty")

def toDict (r : Rule) : Json :=
  .dict [("schema",.str rulesSchema),("id",.str r.id),("head",r.head.toDict),
    ("body",.list (r.body.map RuleAtom.toDict))]

end Rule

/-- `KIND_CLASS`, `KIND_PROPERTY`. -/
inductive TermKind where
  | kindClass | kindProperty
  deriving DecidableEq

def TermKind.text : TermKind → String
  | .kindClass => "class"
  | .kindProperty => "property"

structure OntologyTerm where
  kind : TermKind
  name : String
  subClassOf : List String
  domain : List String
  range : List String
  name_ne : name ≠ ""
  property_flat : kind = .kindProperty → subClassOf = []
  class_plain : kind = .kindClass → domain = [] ∧ range = []

namespace OntologyTerm

def new (kind : TermKind) (name : String) (subClassOf domain range : List String := []) :
    Except OntologyError OntologyTerm :=
  if hname : name ≠ "" then
    if hproperty : kind = .kindProperty → subClassOf = [] then
      if hclass : kind = .kindClass → domain = [] ∧ range = [] then
        .ok ⟨kind,name,subClassOf,domain,range,hname,hproperty,hclass⟩
      else .error (malformed "a class cannot declare domain/range")
    else .error (malformed "a property cannot declare sub_class_of")
  else .error (malformed "term name is empty")

def toDict (t : OntologyTerm) : Json :=
  .dict [("kind",.str t.kind.text),("name",.str t.name),
    ("sub_class_of",.list (t.subClassOf.map Json.str)),("domain",.list (t.domain.map Json.str)),
    ("range",.list (t.range.map Json.str))]

end OntologyTerm

structure ImportRef where
  id : String
  version : String
  hash : Digest
  id_ne : id ≠ ""
  version_ne : version ≠ ""

namespace ImportRef

def toDict (i : ImportRef) : Json :=
  .dict [("id",.str i.id),("version",.str i.version),("hash",.str i.hash.text)]

/-- The order of `(id, version, hash)`. -/
def le (a b : ImportRef) : Bool :=
  a.id < b.id ∨ a.id = b.id ∧ (a.version < b.version ∨ a.version = b.version ∧ a.hash.text ≤ b.hash.text)

end ImportRef

inductive Colour where
  | grey | black

def classParents (terms : List OntologyTerm) : List (String × List String) :=
  (terms.filter fun t => t.kind = .kindClass).map fun t => (t.name,t.subClassOf)

/-- `visit`. Each step down colours one more class grey, so with one step more than there are
classes the first case is never reached. -/
def visit (parents : List (String × List String)) :
    Nat → Dict String Colour → String → Except OntologyError (Dict String Colour)
  | 0, state, _ => .ok state
  | n+1, state, node =>
    match state.get node with
    | some .grey => .error (malformed s!"subClassOf cycle at {pyRepr node} (fail-closed)")
    | some .black => .ok state
    | none => do
        let declared := ((Dict.lookup parents node).getD []).filter fun parent =>
          (Dict.lookup parents parent).isSome
        let state ← declared.foldlM (visit parents n) (state.set node .grey)
        pure (state.set node .black)

def assertAcyclic (terms : List OntologyTerm) : Except OntologyError Unit := do
  let parents := classParents terms
  let _ ← (parents.map Prod.fst).foldlM (visit parents (parents.length + 1)) .empty
  pure ()

/-- A fragment as it is kept, in the order of names and ids. -/
structure Ontology where
  id : String
  version : String
  imports : List ImportRef
  terms : List OntologyTerm
  rules : List Rule
  id_ne : id ≠ ""
  version_ne : version ≠ ""
  terms_le : terms.length ≤ maxFragmentTerms
  names_nodup : (terms.map OntologyTerm.name).Nodup
  imports_nodup : (imports.map ImportRef.id).Nodup
  rules_le : rules.length ≤ maxRuleCount
  rules_nodup : (rules.map Rule.id).Nodup

namespace Ontology

theorem nodup_map_insertionSort {α β : Type} {f : α → β} {r : α → α → Prop} [DecidableRel r]
    {xs : List α} (h : (xs.map f).Nodup) : ((xs.insertionSort r).map f).Nodup :=
  ((List.perm_insertionSort r xs).map f).nodup_iff.2 h

theorem nonempty_left {x y : String} (h : x ≠ "" ∧ y ≠ "") : x ≠ "" := h.1

theorem nonempty_right {x y : String} (h : x ≠ "" ∧ y ≠ "") : y ≠ "" := h.2

def new (id version : String) (imports : List ImportRef) (terms : List OntologyTerm)
    (rules : List Rule) (schema : String := ontologySchema) : Except OntologyError Ontology :=
  if schema ≠ ontologySchema then
    .error (malformed s!"unsupported ontology schema {pyRepr schema}")
  else if hid : id ≠ "" ∧ version ≠ "" then
    if hterms : terms.length ≤ maxFragmentTerms then
      if hnames : (terms.map OntologyTerm.name).Nodup then
        if himports : (imports.map ImportRef.id).Nodup then
          if hrules : rules.length ≤ maxRuleCount then
            if hids : (rules.map Rule.id).Nodup then do
              assertAcyclic terms
              pure {
                id, version
                imports := imports.insertionSort (ImportRef.le · ·)
                terms := terms.insertionSort fun a b => a.name ≤ b.name
                rules := rules.insertionSort fun a b => a.id ≤ b.id
                id_ne := nonempty_left hid
                version_ne := nonempty_right hid
                terms_le := by simpa using hterms
                names_nodup := nodup_map_insertionSort hnames
                imports_nodup := nodup_map_insertionSort himports
                rules_le := by simpa using hrules
                rules_nodup := nodup_map_insertionSort hids }
            else .error (malformed "duplicate rule id")
          else .error ⟨.fragmentOverflow,s!"ontology has {rules.length} rules, exceeding {maxRuleCount}"⟩
        else .error (malformed "duplicate import id")
      else .error (malformed "duplicate term name")
    else .error ⟨.fragmentOverflow,s!"fragment has {terms.length} terms, exceeding " ++
      s!"{maxFragmentTerms} (fail-closed)"⟩
  else .error (malformed "ontology id/version empty")

def toDict (o : Ontology) : Json :=
  .dict ([("schema",.str ontologySchema),("id",.str o.id),("version",.str o.version),
    ("imports",.list (o.imports.map ImportRef.toDict)),
    ("terms",.list (o.terms.map OntologyTerm.toDict))] ++
    (if o.rules = [] then [] else [("rules",.list (o.rules.map Rule.toDict))]))

def ontologyHash (sha256 : List Char → HexDigest) (o : Ontology) : HexDigest := sha256 o.toDict.bytes

def nonAdditive (message : String) : OntologyError := ⟨.nonAdditiveChange,message⟩

def assertTermKept (current : List OntologyTerm) (old : OntologyTerm) : Except OntologyError Unit :=
  match current.find? fun t => t.name = old.name with
  | none => .error (nonAdditive s!"term {pyRepr old.name} was removed")
  | some new => do
      require (new.kind = old.kind) (nonAdditive (s!"term {pyRepr old.name} changed kind " ++
        s!"{pyRepr old.kind.text} -> {pyRepr new.kind.text}"))
      require (old.subClassOf.all (· ∈ new.subClassOf))
        (nonAdditive s!"term {pyRepr old.name} lost a superclass")
      require (old.domain.all (· ∈ new.domain) && old.range.all (· ∈ new.range))
        (nonAdditive s!"property {pyRepr old.name} lost domain/range")

/-- The change of one rule. The documents are compared with `!=`. -/
def assertRuleKept (current : List Rule) (old : Rule) : Except OntologyError Unit :=
  match current.find? fun r => r.id = old.id with
  | none => .error (nonAdditive s!"rule {pyRepr old.id} was removed")
  | some new => require (new.toDict.pyEq old.toDict) (nonAdditive s!"rule {pyRepr old.id} changed")

def assertAdditive (self previous : Ontology) : Except OntologyError Unit := do
  forEach (assertTermKept self.terms) previous.terms
  forEach (assertRuleKept self.rules) previous.rules

end Ontology
end AgentCentric

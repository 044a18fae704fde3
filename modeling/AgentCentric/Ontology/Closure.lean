import AgentCentric.Ontology.Rules

namespace AgentCentric
open Network (ValueType)

def closureSchema : String := "closure.v1"

def coreKind : String := "urn:cbp:core/kind"
def coreSubClassOf : String := "urn:cbp:core/subClassOf"
def coreDomain : String := "urn:cbp:core/domain"
def coreRange : String := "urn:cbp:core/range"

abbrev Bindings := Dict String Val

/-- `_unify`. The bindings that a failed match leaves behind are a copy that nobody reads. -/
def unify (pattern : Pattern) (value : Val) (bindings : Bindings) : Option Bindings :=
  match pattern with
  | .var name _ =>
    if name = "_" then some bindings
    else match bindings.get name with
      | none => some (bindings.set name value)
      | some bound => if bound = value then some bindings else none
  | .term name _ => if value = .term name then some bindings else none
  | .lit datatype v => if value = .lit datatype v.bytes then some bindings else none

def atomMatches (atom : RuleAtom) (assertion : Assertion) (bindings : Bindings) :
    Option Bindings :=
  if atom.p = assertion.p then do
    let bindings ← unify atom.s (.term assertion.s) bindings
    unify atom.o assertion.o.val bindings
  else none

def negatedHolds (atom : RuleAtom) (facts : List Assertion) (bindings : Bindings) : Bool :=
  facts.any fun assertion => (atomMatches atom assertion bindings).isSome

/-- `recurse`: one atom after the other, each against all facts. -/
def joinAtoms (facts : List Assertion) : List RuleAtom → Bindings → List Bindings
  | [], bindings => [bindings]
  | atom :: atoms, bindings =>
    facts.flatMap fun assertion =>
      match atomMatches atom assertion bindings with
      | some extended => joinAtoms facts atoms extended
      | none => []

def ruleBindings (rule : Rule) (facts : List Assertion) : List Bindings :=
  let positives := rule.body.filter fun a => !a.negated
  let negatives := rule.body.filter fun a => a.negated
  (joinAtoms facts positives .empty).filter fun bindings =>
    negatives.all fun atom => !negatedHolds atom facts bindings

def resolveSubject (pattern : Pattern) (bindings : Bindings) : Option String :=
  match pattern with
  | .term name _ => some name
  | .var name _ =>
    match bindings.get name with
    | some (.term n) => some n
    | _ => none
  | .lit _ _ => none

/-- A text that is not JSON would raise in `loads`, but every bound text was written by `dumps`. -/
def resolveObject (pattern : Pattern) (bindings : Bindings) : Except OntologyError Obj :=
  match pattern with
  | .term name h => .ok (.term ⟨name,h⟩)
  | .lit datatype value => .ok (.literal ⟨datatype,value⟩)
  | .var name _ =>
    match bindings.get name with
    | none => .error (malformed "rule head has an unbound variable")
    | some (.term n) => (Term.new n).map .term
    | some (.lit type text) =>
      match Json.loads (String.ofList text) with
      | some value => .ok (.literal ⟨type,value⟩)
      | none => .error (malformed "Expecting value")

def derive (head : RuleAtom) (bindings : Bindings) : Except OntologyError Assertion :=
  match resolveSubject head.s bindings with
  | none => .error (malformed "rule head subject does not resolve to a term")
  | some subject => do
      let object ← resolveObject head.o bindings
      Assertion.new subject head.p object

def stratumOf (stratum : Dict String Nat) (p : String) : Nat := (stratum.get p).getD 0

def requiredStratum (stratum : Dict String Nat) (rule : Rule) : Nat :=
  rule.body.foldl
    (fun n atom => max n (stratumOf stratum atom.p + if atom.negated then 1 else 0)) 0

def liftHead (r : Dict String Nat × Bool) (rule : Rule) : Dict String Nat × Bool :=
  let required := requiredStratum r.1 rule
  if stratumOf r.1 rule.head.p < required then (r.1.set rule.head.p required,true) else r

def stratifyRound (rules : List Rule) (stratum : Dict String Nat) : Dict String Nat × Bool :=
  rules.foldl liftHead (stratum,false)

def stratifyRounds (rules : List Rule) :
    Nat → Dict String Nat → Except OntologyError (Dict String Nat)
  | 0, _ => .error (malformed "unstratifiable rule program (negation cycle)")
  | n+1, stratum =>
    let r := stratifyRound rules stratum
    if r.2 then stratifyRounds rules n r.1 else .ok r.1

/-- `_stratify`. The list holds each predicate once. -/
def stratify (rules : List Rule) (predicates : List String) :
    Except OntologyError (Dict String Nat) :=
  let keys := predicates.insertionSort (· ≤ ·)
  stratifyRounds rules (keys.length + 1) (Dict.empty.update (keys.map fun key => (key,0)))

def relationFact (term : OntologyTerm) (p name : String) : Except OntologyError Assertion := do
  let object ← Term.new name
  Assertion.new term.name p (.term object)

def termFacts (term : OntologyTerm) : Except OntologyError (List Assertion) := do
  let kind ← Assertion.new term.name coreKind (.literal ⟨.str,.str term.kind.text⟩)
  match term.kind with
  | .kindClass => do
      let parents ← term.subClassOf.mapM (relationFact term coreSubClassOf)
      pure (kind :: parents)
  | .kindProperty => do
      let domains ← term.domain.mapM (relationFact term coreDomain)
      let ranges ← term.range.mapM (relationFact term coreRange)
      pure (kind :: (domains ++ ranges))

def ontologyFacts (o : Ontology) : Except OntologyError (List Assertion) := do
  let facts ← o.terms.mapM termFacts
  pure facts.flatten

structure Closure where
  profile : String
  graphHash : HexDigest
  ontologyHash : HexDigest
  assertions : List Assertion
  profile_ne : profile ≠ ""
  sorted : (assertions.map Assertion.key).Pairwise (· < ·)
  bounded : assertions.length ≤ maxClosureAssertions

def Closure.new (profile : String) (graphHash ontologyHash : HexDigest)
    (assertions : List Assertion) (schema : String := closureSchema) :
    Except OntologyError Closure :=
  if schema ≠ closureSchema then
    .error (malformed s!"unsupported closure schema {pyRepr schema}")
  else if hprofile : profile ≠ "" then
    let unique := assertions.foldl Collection.put .empty
    if h : unique.ordered.length ≤ maxClosureAssertions then
      .ok ⟨profile,graphHash,ontologyHash,unique.ordered,hprofile,unique.sorted_keys,h⟩
    else
      .error ⟨.closureOverflow,s!"closure has {unique.ordered.length} assertions, exceeding " ++
        s!"{maxClosureAssertions} (fail-closed)"⟩
  else .error (malformed "closure profile is empty")

/-- The heads of a pass, one instance after the other, and whether one was new. -/
def deriveAll : List (Rule × Bindings) → Collection × Bool → Except OntologyError (Collection × Bool)
  | [], r => .ok r
  | (rule,bindings) :: rest, r => do
      let assertion ← derive rule.head bindings
      deriveAll rest
        (if r.1.contains assertion.key then r else (r.1.put assertion,true))

def instances (rules : List Rule) (snapshot : List Assertion) : List (Rule × Bindings) :=
  rules.flatMap fun rule => (ruleBindings rule snapshot).map fun bindings => (rule,bindings)

/-- `while True`. Each pass but the last adds an assertion, so with two passes more than the
bound the first case is never reached. -/
def saturate (rules : List Rule) : Nat → Collection → Except OntologyError Collection
  | 0, collection => .ok collection
  | n+1, collection => do
      let r ← deriveAll (instances rules collection.values) (collection,false)
      if r.2 then
        if maxClosureAssertions < r.1.size then
          .error ⟨.closureOverflow,s!"closure exceeded {maxClosureAssertions} assertions (fail-closed)"⟩
        else saturate rules n r.1
      else pure r.1

def saturateLevels (rules : List Rule) (stratum : Dict String Nat) :
    List Nat → Collection → Except OntologyError Collection
  | [], collection => .ok collection
  | level :: levels, collection => do
      let levelRules := rules.filter fun rule => stratumOf stratum rule.head.p = level
      let collection ← saturate levelRules (maxClosureAssertions + 2) collection
      saturateLevels rules stratum levels collection

def predicates (collection : Collection) (rules : List Rule) : List String :=
  (collection.values.map Assertion.p ++
    rules.flatMap fun rule => rule.head.p :: rule.body.map RuleAtom.p).dedup

def closureBase (graph : SemanticGraph) (o : Ontology) : Except OntologyError Collection := do
  let facts ← ontologyFacts o
  let collection := (graph.assertions ++ facts).foldl Collection.add .empty
  if maxClosureAssertions < collection.size then
    .error ⟨.closureOverflow,s!"closure base has {collection.size} assertions, exceeding " ++
      s!"{maxClosureAssertions} (fail-closed)"⟩
  else pure collection

def computeClosure (sha256 : List Char → HexDigest) (graph : SemanticGraph) (o : Ontology) :
    Except OntologyError Closure := do
  let collection ← closureBase graph o
  let stratum ← stratify o.rules (predicates collection o.rules)
  let maxStratum := (stratum.entries.map Prod.snd).foldl max 0
  let collection ← saturateLevels o.rules stratum (List.range (maxStratum + 1)) collection
  Closure.new (o.id ++ "@" ++ o.version) (graph.graphHash sha256) (o.ontologyHash sha256)
    collection.ordered

def closureGraph (closure : Closure) (scope : String) : Except OntologyError SemanticGraph :=
  SemanticGraph.new scope closure.assertions []

end AgentCentric

namespace AgentCentric

def coreType : String := "urn:cbp:core/type"
def coreHasCapability : String := "urn:cbp:core/hasCapability"
def coreImplements : String := "urn:cbp:core/implements"
def coreInput : String := "urn:cbp:core/input"
def coreOutput : String := "urn:cbp:core/output"
def corePortType : String := "urn:cbp:core/portType"
def coreDirection : String := "urn:cbp:core/direction"
def coreFeeds : String := "urn:cbp:core/feeds"

def classComponent : Term := ⟨"urn:cbp:core/Component",by decide⟩
def classAtomic : Term := ⟨"urn:cbp:core/AtomicComponent",by decide⟩
def classComposite : Term := ⟨"urn:cbp:core/CompositeComponent",by decide⟩
def classModel : Term := ⟨"urn:cbp:core/ModelComponent",by decide⟩
def classSource : Term := ⟨"urn:cbp:core/SourceComponent",by decide⟩
def classSink : Term := ⟨"urn:cbp:core/SinkComponent",by decide⟩
def classInputPort : Term := ⟨"urn:cbp:core/InputPort",by decide⟩
def classOutputPort : Term := ⟨"urn:cbp:core/OutputPort",by decide⟩

namespace BaseRules

theorem coreType_ne : coreType ≠ "" := by decide
theorem coreSubClassOf_ne : coreSubClassOf ≠ "" := by decide

def x : Pattern := .var "x" (by decide)
def y : Pattern := .var "y" (by decide)
def z : Pattern := .var "z" (by decide)
def d : Pattern := .var "d" (by decide)
def c : Pattern := .var "c" (by decide)

def subclassTransitive : Rule where
  id := "urn:cbp:core/rule/subclass-transitive"
  head := ⟨x,coreSubClassOf,z,false,by decide,rfl⟩
  body := [⟨x,coreSubClassOf,y,false,by decide,rfl⟩,⟨y,coreSubClassOf,z,false,by decide,rfl⟩]
  id_ne := by decide
  head_positive := rfl
  body_ne := by simp
  body_le := by decide
  restricted := by decide

def typeSubsumption : Rule where
  id := "urn:cbp:core/rule/type-subsumption"
  head := ⟨x,coreType,c,false,by decide,rfl⟩
  body := [⟨x,coreType,d,false,by decide,rfl⟩,⟨d,coreSubClassOf,c,false,by decide,rfl⟩]
  id_ne := by decide
  head_positive := rfl
  body_ne := by simp
  body_le := by decide
  restricted := by decide

def closedWorld (id : String) (h : id ≠ "") (head : Term) (port : String) (hport : port ≠ "") :
    Rule where
  id := id
  head := ⟨x,coreType,.term head.name head.name_ne,false,by decide,rfl⟩
  body := [⟨x,coreType,.term classComponent.name classComponent.name_ne,false,by decide,rfl⟩,
    ⟨x,port,.any,true,hport,rfl⟩]
  id_ne := h
  head_positive := rfl
  body_ne := by simp
  body_le := by simp [maxRuleBody]
  restricted := by simp [RuleAtom.vars,Pattern.vars,positiveVars,x]

def source : Rule :=
  closedWorld "urn:cbp:core/rule/source" (by decide) classSource coreInput (by decide)

def sink : Rule :=
  closedWorld "urn:cbp:core/rule/sink" (by decide) classSink coreOutput (by decide)

end BaseRules

def baseRules : List Rule :=
  [BaseRules.subclassTransitive,BaseRules.typeSubsumption,BaseRules.source,BaseRules.sink]

end AgentCentric

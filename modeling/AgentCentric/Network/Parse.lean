import AgentCentric.Network.Serial

namespace AgentCentric.Network

/-- What `network_from_dict` may raise. `foreign` stands for results outside this model: an
object that is no JSON value where the parser needs its text or its items. -/
inductive ParseError where
  | network (message : String)
  | type : ParseError
  | value : ParseError
  | overflow : ParseError
  | foreign : ParseError
  deriving DecidableEq, Repr

namespace Value

def typeName : Value → String
  | .null => "NoneType"
  | .bool _ => "bool"
  | .int _ => "int"
  | .float _ => "float"
  | .str _ => "str"
  | .list _ => "list"
  | .dict _ => "dict"
  | .iterable _ => "iterator"

/-- `bool(value)`. -/
def truthy : Value → Bool
  | .null => false
  | .bool b => b
  | .int n => n ≠ 0
  | .float text => text ≠ "0.0" && text ≠ "-0.0"
  | .str s => s ≠ ""
  | .list xs => !xs.isEmpty
  | .dict items => !items.isEmpty
  | .iterable _ => true

mutual

/-- `repr(value)` of a JSON value. -/
def repr? : Value → Option String
  | .null => some "None"
  | .bool b => some (if b then "True" else "False")
  | .int n => some (toString n)
  | .float text => some text
  | .str s => some (pyRepr s)
  | .list xs => (reprs? xs).map fun ts => "[" ++ String.intercalate ", " ts ++ "]"
  | .dict items =>
      (reprItems? items).map fun ts => "\x7b" ++ String.intercalate ", " ts ++ "\x7d"
  | .iterable _ => none

def reprs? : List Value → Option (List String)
  | [] => some []
  | x :: xs => do
      let t ← repr? x
      let ts ← reprs? xs
      pure (t :: ts)

def reprItems? : List (String × Value) → Option (List String)
  | [] => some []
  | (k,v) :: items => do
      let t ← repr? v
      let ts ← reprItems? items
      pure ((pyRepr k ++ ": " ++ t) :: ts)

end

/-- `str(value)`. -/
def text : Value → Except ParseError String
  | .str s => .ok s
  | other => expect other.repr? .foreign

end Value

/-- The characters that `strip` takes away. -/
def pySpace (c : Char) : Bool :=
  let n := c.toNat
  (9 ≤ n ∧ n ≤ 13) ∨ (28 ≤ n ∧ n ≤ 32) ∨ n = 133 ∨ n = 160 ∨ n = 5760 ∨ (8192 ≤ n ∧ n ≤ 8202) ∨
    n = 8232 ∨ n = 8233 ∨ n = 8239 ∨ n = 8287 ∨ n = 12288

def strip (cs : List Char) : List Char :=
  (((cs.dropWhile pySpace).reverse).dropWhile pySpace).reverse

def digitsOf (cs : List Char) : Option Int :=
  let groups := cs.splitOn '_'
  if groups.all fun ds => !ds.isEmpty && ds.all Char.isDigit then
    some (Nat.ofDigitChars 10 groups.flatten 0)
  else none

def intOfText (s : String) : Option Int :=
  match strip s.toList with
  | '-' :: ds => (digitsOf ds).map fun n => -n
  | '+' :: ds => digitsOf ds
  | ds => digitsOf ds

/-- The capacity of an edge: `int(value)`, where a `TypeError` or a `ValueError` becomes a
`NetworkError`, an `OverflowError` does not. -/
def capacityOf : Value → Except ParseError Int
  | .int n => .ok n
  | .bool b => .ok (if b then 1 else 0)
  | .float text =>
    match floatJson text with
    | some (.decimal d) => .ok (d.double.num.tdiv d.double.den)
    | some .nan => .error (.network
        "edge capacity must be an integer: cannot convert float NaN to integer")
    | _ => .error .overflow
  | .str s => expect (intOfText s) (.network (s!"edge capacity must be an integer: " ++
      s!"invalid literal for int() with base 10: {pyRepr s}"))
  | .iterable _ => .error .foreign
  | other => .error (.network (s!"edge capacity must be an integer: int() argument must be a " ++
      s!"string, a bytes-like object or a real number, not '{other.typeName}'"))

/-- `d.get(key) or {}`, which must be a mapping. -/
def mappingOr (message : String) : Option Value → Except ParseError (List (String × Value))
  | none => .ok []
  | some v =>
    if v.truthy then
      match v with
      | .dict items => .ok items
      | _ => .error (.network message)
    else .ok []

/-- `str(d.get(key, ""))`. -/
def textOr : Option Value → Except ParseError String
  | none => .ok ""
  | some v => v.text

/-- `d.get(key)`, whatever it is. -/
def roleOf (value : Option Value) : Except ParseError Json :=
  expect (value.getD .null).json? .foreign

/-- The two items of an element that `dict` takes for a pair. A key that is no text can be hashed
or not; what stands under it is looked up nowhere and left out. -/
def pairOf : Value → Except ParseError (Option (String × Value))
  | .list [k,v] =>
    match k with
    | .str s => .ok (some (s,v))
    | .list _ => .error .type
    | .dict _ => .error .type
    | .iterable _ => .error .foreign
    | _ => .ok none
  | .list _ => .error .value
  | .dict [(k,_),(k',_)] => .ok (some (k,.str k'))
  | .dict _ => .error .value
  | .str s =>
    match s.toList with
    | [a,b] => .ok (some (String.singleton a,.str (String.singleton b)))
    | _ => .error .value
  | .iterable _ => .error .foreign
  | _ => .error .type

/-- `dict(d.get(key) or {})`. -/
def dictOf : Option Value → Except ParseError (Dict String Value)
  | none => .ok .empty
  | some v =>
    if v.truthy then
      match v with
      | .dict items => .ok (Dict.empty.update items)
      | .list xs => do
          let pairs ← xs.mapM pairOf
          pure (Dict.empty.update pairs.reduceOption)
      | .str _ => .error .value
      | .iterable _ => .error .foreign
      | _ => .error .type
    else .ok .empty

/-- `tuple(str(s) for s in (d.get(key) or []))`. -/
def streamOf : Option Value → Except ParseError (List String)
  | none => .ok []
  | some v =>
    if v.truthy then
      match v with
      | .list xs => xs.mapM Value.text
      | .dict items => .ok (items.map Prod.fst)
      | .str s => .ok (s.toList.map String.singleton)
      | .iterable _ => .error .foreign
      | _ => .error .type
    else .ok []

def portsOf (entry : String × Value) : Except ParseError (String × List String) :=
  match entry.2 with
  | .list names => do
      let names ← names.mapM Value.text
      pure (entry.1,names)
  | _ => .error (.network "component port names must be a list")

def textItem (entry : String × Value) : Except ParseError (String × String) := do
  let v ← entry.2.text
  pure (entry.1,v)

def portTypesOf (entry : String × Value) : Except ParseError (String × List (String × String)) :=
  match entry.2 with
  | .dict typed => do
      let typed ← typed.mapM textItem
      pure (entry.1,typed)
  | _ => .error (.network "component 'port_types' entries must be mappings")

def directionOf? (name : String) : Option Direction :=
  if name = "in" then some .input else if name = "out" then some .output else none

def typeOf? (name : String) : Option ValueType :=
  [ValueType.str,.int,.float,.bool,.dict,.list,.null,.any].find? fun t => t.name = name

/-- A `NetworkError`. -/
def networkError {α : Type} (x : Except String α) : Except ParseError α := x.mapError .network

namespace ComponentNetwork

def admitPorts (c : Component) (entry : String × List String) :
    Except ParseError (Direction × List String) := do
  let d ← expect (directionOf? entry.1)
    (.network s!"component {pyRepr c.id}: unknown port direction {pyRepr entry.1}")
  networkError (checkPorts c (d,entry.2))
  pure (d,entry.2)

def admitType (c : Component) (d : Direction) (entry : String × String) :
    Except ParseError (String × ValueType) := do
  networkError (checkPortTypes c (d,Dict.empty.set entry.1 .any))
  let t ← expect (typeOf? entry.2) (.network
    (s!"component {pyRepr c.id}: port {pyRepr entry.1} has unknown type {pyRepr entry.2} " ++
      "(fail-closed)"))
  pure (entry.1,t)

def admitPortTypes (c : Component) (entry : String × List (String × String)) :
    Except ParseError (Direction × Dict String ValueType) := do
  let d ← expect (directionOf? entry.1) (.network
    s!"component {pyRepr c.id}: unknown port direction {pyRepr entry.1} in port_types")
  let typed ← entry.2.mapM (admitType c d)
  pure (d,Dict.empty.update typed)

/-- `add_component`, where the checks meet the names of directions and types as they come. -/
def addNamed (net : ComponentNetwork) (bare : Component) (rawPorts : List (String × List String))
    (rawTypes : List (String × List (String × String))) :
    Except ParseError ComponentNetwork := do
  let _ ← networkError (net.addComponent bare)
  let ports ← rawPorts.mapM (admitPorts bare)
  let ported := { bare with ports := Dict.empty.update ports }
  let types ← rawTypes.mapM (admitPortTypes ported)
  networkError (net.addComponent { ported with portTypes := Dict.empty.update types })

def parseBody (descend : List (String × Value) → Except ParseError ComponentNetwork) :
    Option Value → Except ParseError (Option ComponentNetwork)
  | none => .ok none
  | some .null => .ok none
  | some (.dict data) => do
      let net ← descend data
      pure (some net)
  | some _ => .error (.network "component 'subnet' must be a mapping")

def parseComponent (descend : List (String × Value) → Except ParseError ComponentNetwork)
    (net : ComponentNetwork) : Value → Except ParseError ComponentNetwork
  | .dict items =>
    match Dict.lookup items "id" with
    | some (.str id) => do
        let rawPorts ← mappingOr "component 'ports' must be a mapping" (Dict.lookup items "ports")
        let ports ← rawPorts.mapM portsOf
        let rawTypes ← mappingOr "component 'port_types' must be a mapping"
          (Dict.lookup items "port_types")
        let portTypes ← rawTypes.mapM portTypesOf
        let rawExternal ← mappingOr "component 'external' must be a mapping"
          (Dict.lookup items "external")
        let external ← rawExternal.mapM textItem
        let subnet ← parseBody descend (Dict.lookup items "subnet")
        let task ← textOr (Dict.lookup items "task")
        let args ← dictOf (Dict.lookup items "args")
        let verifier ← roleOf (Dict.lookup items "verifier")
        let child ← roleOf (Dict.lookup items "child")
        let stream ← streamOf (Dict.lookup items "stream")
        net.addNamed ⟨id,task,args,verifier,child,.empty,.empty,stream,
          Dict.empty.update external,subnet⟩ ports portTypes
    | _ => .error (.network "each component needs an 'id' string")
  | _ => .error (.network "each component needs an 'id' string")

def parseEdge : Value → Except ParseError Edge
  | .dict items => do
      let capacity ← capacityOf ((Dict.lookup items "capacity").getD (.int 1))
      let source ← textOr (Dict.lookup items "source")
      let sourceField ← textOr (Dict.lookup items "source_field")
      let target ← textOr (Dict.lookup items "target")
      let targetArg ← textOr (Dict.lookup items "target_arg")
      pure ⟨source,sourceField,target,targetArg,capacity⟩
  | _ => .error (.network "each edge must be a dict")

def parseIIP : Value → Except ParseError IIP
  | .dict items => do
      let component ← textOr (Dict.lookup items "component")
      let port ← textOr (Dict.lookup items "port")
      pure ⟨component,port,(Dict.lookup items "value").getD .null⟩
  | _ => .error (.network "each IIP must be a dict")

def optionalList (message : String) : Option Value → Except ParseError (List Value)
  | none => .ok []
  | some .null => .ok []
  | some (.list xs) => .ok xs
  | some _ => .error (.network message)

/-- `network_from_dict(data, _depth)` with `levels - 1` levels to go. -/
def fromDictDepth : Nat → List (String × Value) → Except ParseError ComponentNetwork
  | 0, _ => .error (.network
      s!"subnet nesting exceeds the depth limit {maxSubnetDepth} (fail-closed)")
  | levels+1, data =>
    match Dict.lookup data "components" with
    | some (.list comps) => do
        let net ← comps.foldlM (parseComponent (fromDictDepth levels)) .empty
        let rawEdges ← optionalList "'edges' must be a list" (Dict.lookup data "edges")
        let edges ← rawEdges.mapM parseEdge
        let rawIIPs ← optionalList "'iips' must be a list" (Dict.lookup data "iips")
        let iips ← rawIIPs.mapM parseIIP
        pure (iips.foldl addIIP (edges.foldl addEdge net))
    | _ => .error (.network "network must define a 'components' list")

def fromDict (data : List (String × Value)) : Except ParseError ComponentNetwork :=
  fromDictDepth (maxSubnetDepth + 1) data

end ComponentNetwork
end AgentCentric.Network

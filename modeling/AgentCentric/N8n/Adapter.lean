import AgentCentric.Boot.Design

namespace AgentCentric.N8n
open Boot (RequestedComponent EnvelopeGrant)

def designSchema : String := "design.v1"

/-- A network as it is written. A dictionary has each key once, and so have those that a list of the
network has for elements. -/
structure Graph where
  entries : Dict String Json
  keyed : ∀ key rows, entries.get key = some (.list rows) →
    ∀ items, .dict items ∈ rows → (items.map Prod.fst).Nodup

def Graph.rows (network : Graph) (key : String) : List Json :=
  match network.entries.get key with
  | some (.list rows) => rows
  | _ => []

structure Design where
  id : String
  network : Graph
  title : String
  components : List RequestedComponent
  metadata : Dict String Json
  envelopes : List EnvelopeGrant
  named : id ≠ ""
  requestedOnce : (components.map RequestedComponent.name).Nodup
  grantedOnce : (envelopes.map EnvelopeGrant.component).Nodup

def newRequested (name requested : String) : Except String RequestedComponent :=
  if h : name = "" then .error "Requested component name must be non-empty."
  else if h' : requested = "" then .error "Requested component ref must be non-empty."
  else .ok ⟨name,requested,h,h'⟩

def requestedToDict (c : RequestedComponent) : Json :=
  .dict [("name",.str c.name),("requested",.str c.requested)]

def requestedFromDict (data : List (String × Json)) : Except String RequestedComponent := do
  let name ← expect (Dict.lookup data "name") "'name'"
  let requested ← expect (Dict.lookup data "requested") "'requested'"
  newRequested name.text requested.text

def pairOf (entry : Json) : Except String (String × Json) :=
  match entry.iterate with
  | some [.str key,value] => .ok (key,value)
  | some _ => .error "dictionary update sequence element has another length; 2 is required"
  | none => .error "cannot convert dictionary update sequence element to a sequence"

/-- `dict(value)`. -/
def dictOf (value : Json) : Except String (Dict String Json) :=
  match value with
  | .dict items => .ok (Dict.empty.update items)
  | _ => do
    let entries ← expect value.iterate "object is not iterable"
    let items ← entries.mapM pairOf
    pure (Dict.empty.update items)

def grantToDict (e : EnvelopeGrant) : Json :=
  .dict [("component",.str e.component),("bounds",.dict e.bounds.entries)]

def grantFromDict (data : List (String × Json)) : Except String EnvelopeGrant := do
  let component := ((Dict.lookup data "component").getD (.str "")).text
  let bounds := (Dict.lookup data "bounds").getD .null
  let bounds ← dictOf (if bounds.truthy then bounds else .dict [])
  if h : component = "" then .error "Envelope grant component must be non-empty."
  else .ok ⟨component,bounds,h⟩

namespace Design

def new (id : String) (network : Graph) (title : String) (components : List RequestedComponent)
    (metadata : Dict String Json) (envelopes : List EnvelopeGrant) (schema : String) :
    Except String Design :=
  if schema ≠ designSchema then .error ("Unsupported design schema: " ++ pyRepr schema)
  else if hid : id = "" then .error "Design id must be non-empty."
  else if hnames : (components.map RequestedComponent.name).Nodup then
    if hgrants : (envelopes.map EnvelopeGrant.component).Nodup then
      .ok ⟨id,network,title,components,metadata,envelopes,hid,hnames,hgrants⟩
    else .error "Design envelope components must be unique."
  else .error "Design requested component names must be unique."

def toDict (design : Design) : Json :=
  .dict ([("schema",.str designSchema),("id",.str design.id),("title",.str design.title),
    ("network",.dict design.network.entries.entries),
    ("components",.list (design.components.map requestedToDict)),
    ("metadata",.dict design.metadata.entries)] ++
    if design.envelopes = [] then []
    else [("envelopes",.list (design.envelopes.map grantToDict))])

def designHash (sha256 : List Char → HexDigest) (design : Design) : String :=
  (sha256 design.toDict.bytes).text

end Design

theorem requestedFromDict_toDict (c : RequestedComponent) :
    requestedFromDict [("name",.str c.name),("requested",.str c.requested)] = .ok c := by
  rw [requestedFromDict]
  simp [Dict.lookup,expect,bind,Except.bind,newRequested,c.named,c.given]

theorem dictOf_dict (d : Dict String Json) : dictOf (.dict d.entries) = .ok d := by
  rw [dictOf,Dict.update_empty]

theorem grantFromDict_toDict (e : EnvelopeGrant) :
    grantFromDict [("component",.str e.component),("bounds",.dict e.bounds.entries)] = .ok e := by
  have hbounds : dictOf (if (Json.dict e.bounds.entries).truthy then .dict e.bounds.entries
      else .dict []) = .ok e.bounds := by
    split
    · exact dictOf_dict e.bounds
    · rename_i hfalse
      rw [Json.truthy,decide_eq_true_eq,not_not] at hfalse
      rw [← hfalse]
      exact dictOf_dict e.bounds
  rw [grantFromDict]
  simp only [Dict.lookup,Option.getD_some,if_true,Json.text_str,if_neg (show "component" ≠ "bounds"
    by decide),hbounds,bind,Except.bind]
  rw [dif_neg e.named]

/-- A digest tells two designs apart that are not written alike. -/
theorem Design.hash_iff {a b : Design} : (∀ sha256, a.designHash sha256 = b.designHash sha256) ↔
    a.toDict.canonical = b.toDict.canonical := by
  rw [← Json.bytes_inj]
  constructor
  · intro h
    by_contra hne
    let zero : HexDigest := ⟨String.ofList (List.replicate 64 '0'),by decide⟩
    let one : HexDigest := ⟨String.ofList (List.replicate 64 '1'),by decide⟩
    have htext := h fun cs => if cs = a.toDict.bytes then zero else one
    rw [designHash,designHash,if_pos rfl,if_neg fun heq => hne heq.symm] at htext
    exact absurd htext (by decide)
  · intro h sha256
    rw [designHash,designHash,h]

end AgentCentric.N8n

namespace AgentCentric.N8n
open Boot (RequestedComponent EnvelopeGrant)

def projection : String := "cbp.n8n.projection/v1"

def nodeType : String := "cbp.component"

def networkKeys : List String := ["components","edges","iips"]

def componentRequired : List String := ["id","task"]

def componentOptional : List String :=
  ["args","verifier","child","ports","port_types","stream","external"]

def edgeRequired : List String := ["source","source_field","target","target_arg"]

def edgeOptional : List String := ["capacity"]

def iipRequired : List String := ["component","port","value"]

/-- What the two functions raise: `N8nAdapterError`, or an error that nobody catches. -/
inductive N8nError where
  | adapter (message : String)
  | typeError

def asDict (value : Json) (what : String) : Except N8nError (List (String × Json)) :=
  match value with
  | .dict items => .ok items
  | _ => .error (.adapter (what ++ " must be an object"))

def asList (value : Json) (message : String) : Except N8nError (List Json) :=
  match value with
  | .list xs => .ok xs
  | _ => .error (.adapter message)

/-- `sorted(set(obj) - set(known))`. -/
def unsupported (items : List (String × Json)) (known : List String) : List String :=
  sortStrings ((items.map Prod.fst).filter fun key => key ∉ known)

def knownKeys (items : List (String × Json)) (required optional : List String) (what : String) :
    Except N8nError Unit := do
  forEach (fun key => require (key ∈ items.map Prod.fst)
    (.adapter (what ++ " is missing required key " ++ pyRepr key))) required
  let unknown := unsupported items (required ++ optional)
  require (unknown = [])
    (N8nError.adapter (what ++ " has unsupported key(s) " ++ pyReprList unknown))

/-- `obj[key]`, where the key is there. -/
def field (items : List (String × Json)) (key : String) : Json :=
  (Dict.lookup items key).getD .null

/-- `value == text`. -/
def isText (value : Json) (text : String) : Bool :=
  match value with
  | .str s => s = text
  | _ => false

def optionsOf (items : List (String × Json)) (keys : List String) : List (String × Json) :=
  keys.filterMap fun key => (Dict.lookup items key).map fun value => (key,value)

theorem optionsOf_keys (items : List (String × Json)) (keys : List String) :
    ((optionsOf items keys).map Prod.fst).Sublist keys := by
  induction keys with
  | nil => exact .slnil
  | cons key keys ih =>
    rw [optionsOf,List.filterMap_cons]
    cases Dict.lookup items key with
    | none => exact ih.cons key
    | some value => exact ih.cons_cons key

structure Part where
  id : Json
  task : Json
  options : List (String × Json)
  known : (options.map Prod.fst).Sublist componentOptional

structure Wire where
  source : Json
  sourceField : Json
  target : String
  targetArg : Json
  capacity : Option Json

structure Packet where
  component : Json
  port : Json
  value : Json

def optional (key : String) (value : Option Json) : List (String × Json) :=
  (value.map fun value => (key,value)).toList

def Part.items (p : Part) : List (String × Json) := ("id",p.id) :: ("task",p.task) :: p.options

def Wire.items (w : Wire) : List (String × Json) :=
  [("source",w.source),("source_field",w.sourceField),("target",.str w.target),
    ("target_arg",w.targetArg)] ++ optional "capacity" w.capacity

def Packet.items (p : Packet) : List (String × Json) :=
  [("component",p.component),("port",p.port),("value",p.value)]

def Part.read (component : Json) : Except N8nError Part := do
  let items ← asDict component "network component"
  require ("subnet" ∉ items.map Prod.fst)
    (N8nError.adapter "nested subnets are not supported by the n8n adapter")
  knownKeys items componentRequired componentOptional "network component"
  pure ⟨field items "id",field items "task",optionsOf items componentOptional,
    optionsOf_keys items componentOptional⟩

def targetOf (items : List (String × Json)) : Except N8nError String :=
  match Dict.lookup items "target" with
  | some (.str target) => .ok target
  | _ => .error (.adapter "edge target must be a string")

def Wire.read (edge : Json) : Except N8nError Wire := do
  let items ← asDict edge "network edge"
  knownKeys items edgeRequired edgeOptional "network edge"
  let target ← targetOf items
  pure ⟨field items "source",field items "source_field",target,field items "target_arg",
    Dict.lookup items "capacity"⟩

def Packet.read (iip : Json) : Except N8nError Packet := do
  let items ← asDict iip "network IIP"
  knownKeys items iipRequired [] "network IIP"
  pure ⟨field items "component",field items "port",field items "value"⟩

def slot (targets : List String) : Json :=
  .dict [("main",.list [.list ((enumerate 0 targets).map fun e =>
    .dict [("node",.str e.2),("type",.str "main"),("index",.int e.1)])])]

def connect (wires : List Wire) : Json :=
  .dict ((Dict.group (fun w => w.source.text) Wire.target wires).mapValues slot).entries

def inputEntry (order : Nat) (w : Wire) : Json :=
  .dict ([("from",w.source),("field",w.sourceField),("arg",w.targetArg)] ++
    optional "capacity" w.capacity ++ [("cbp_order",.int order)])

def iipEntry (order : Nat) (p : Packet) : Json :=
  .dict [("port",p.port),("value",p.value),("cbp_order",.int order)]

def position (index : Nat) : Json :=
  .list [.int (index % 6 * 220 : Nat),.int (index / 6 * 140 : Nat)]

def bodyOf (p : Part) (inputs iips : List Json) : List (String × Json) :=
  ("task",p.task) :: p.options ++ [("inputs",.list inputs),("iips",.list iips)]

def node (index : Nat) (p : Part) (inputs iips : List Json) : Json :=
  .dict [("id",.str ("cbp-" ++ p.id.text)),("name",.str p.id.text),("type",.str nodeType),
    ("typeVersion",.int 1),("position",position index),
    ("parameters",.dict [("cbp",.dict (bodyOf p inputs iips))])]

def nodesOf (parts : List Part) (wires : List Wire) (packets : List Packet) : List Json :=
  let inputsByTarget := Dict.group (fun e => e.2.target) (fun e => inputEntry e.1 e.2)
    (enumerate 0 wires)
  let iipsByTarget := Dict.group (fun e => e.2.component.text) (fun e => iipEntry e.1 e.2)
    (enumerate 0 packets)
  (enumerate 0 parts).map fun e => node e.1 e.2 ((inputsByTarget.get e.2.id.text).getD [])
    ((iipsByTarget.get e.2.id.text).getD [])

def metaOf (design : Design) : Json :=
  .dict ([("projection",.str projection),("schema",.str designSchema),("id",.str design.id),
    ("title",.str design.title),("components",.list (design.components.map requestedToDict)),
    ("metadata",.dict design.metadata.entries),
    ("network_keys",.list ((networkKeys.filter fun key =>
      key ∈ design.network.entries.keys).map .str))] ++
    if design.envelopes = [] then []
    else [("envelopes",.list (design.envelopes.map grantToDict))])

def workflowOf (design : Design) (parts : List Part) (wires : List Wire) (packets : List Packet) :
    Json :=
  .dict [("name",.str (if design.title = "" then design.id else design.title)),
    ("nodes",.list (nodesOf parts wires packets)),("connections",connect wires),
    ("settings",.dict []),("meta",.dict [("cbp",metaOf design)])]

def toN8n (design : Design) : Except N8nError Json := do
  let network := design.network.entries
  let unknown := unsupported network.entries networkKeys
  require (unknown = [])
    (N8nError.adapter ("design network has unsupported key(s) " ++ pyReprList unknown))
  let components ← asList ((network.get "components").getD .null)
    "design network must declare a components list"
  let edges ← asList ((network.get "edges").getD (.list []))
    "design network edges/iips must be lists"
  let iips ← asList ((network.get "iips").getD (.list []))
    "design network edges/iips must be lists"
  let parts ← components.mapM Part.read
  let wires ← edges.mapM Wire.read
  let packets ← iips.mapM Packet.read
  pure (workflowOf design parts wires packets)

def edgeOrder (items : List (String × Json)) (index : Nat) : Except N8nError Nat :=
  match Dict.lookup items "cbp_order" with
  | none => .ok index
  | some (.int order) =>
    if 0 ≤ order then .ok order.toNat
    else .error (.adapter "edge cbp_order must be a non-negative integer")
  | some _ => .error (.adapter "edge cbp_order must be a non-negative integer")

def readEntries {α : Type} (what : String) (required optional : List String)
    (read : List (String × Json) → α) : Nat → List Json → Except N8nError (List (Nat × α))
  | _, [] => .ok []
  | index, entry :: entries => do
    let items ← asDict entry what
    knownKeys items required optional what
    let order ← edgeOrder items index
    let rest ← readEntries what required optional read (index + 1) entries
    pure ((order,read items) :: rest)

def wireAt (name : String) (items : List (String × Json)) : Wire :=
  ⟨field items "from",field items "field",name,field items "arg",Dict.lookup items "capacity"⟩

def packetAt (name : String) (items : List (String × Json)) : Packet :=
  ⟨.str name,field items "port",field items "value"⟩

structure NodeRead where
  part : Part
  name : String
  inputs : List (Nat × Wire)
  iips : List (Nat × Packet)

def elements (value : Json) : Except N8nError (List Json) := expect value.iterate .typeError

def nameOf (items : List (String × Json)) : Except N8nError String :=
  match Dict.lookup items "name" with
  | some (.str name) =>
    if name = "" then .error (.adapter "workflow node name must be a non-empty string")
    else .ok name
  | _ => .error (.adapter "workflow node name must be a non-empty string")

def readNode (seen : List String) (value : Json) : Except N8nError NodeRead := do
  let items ← asDict value "workflow node"
  require (isText (field items "type") nodeType)
    (N8nError.adapter ("unsupported node type " ++ (field items "type").repr))
  let name ← nameOf items
  require (name ∉ seen) (N8nError.adapter ("duplicate node name " ++ pyRepr name))
  let params ← asDict (field items "parameters") "node parameters"
  let body ← asDict (field params "cbp") "node parameters.cbp"
  let unknown := unsupported body ("task" :: "inputs" :: "iips" :: componentOptional)
  require (unknown = []) (N8nError.adapter
    ("node " ++ pyRepr name ++ " has unsupported cbp key(s) " ++ pyReprList unknown))
  require ("task" ∈ body.map Prod.fst)
    (N8nError.adapter ("node " ++ pyRepr name ++ " is missing a task"))
  let inputs ← elements ((Dict.lookup body "inputs").getD (.list []))
  let inputs ← readEntries "node input" ["from","field","arg"] ["capacity","cbp_order"]
    (wireAt name) 0 inputs
  let iips ← elements ((Dict.lookup body "iips").getD (.list []))
  let iips ← readEntries "node iip" ["port","value"] ["cbp_order"] (packetAt name) 0 iips
  pure ⟨⟨.str name,field body "task",optionsOf body componentOptional,
    optionsOf_keys body componentOptional⟩,name,inputs,iips⟩

/-- The loop over the nodes, `seen` being the names so far. -/
def readNodes : List String → List Json → Except N8nError (List NodeRead)
  | _, [] => .ok []
  | seen, value :: values => do
    let read ← readNode seen value
    let rest ← readNodes (read.name :: seen) values
    pure (read :: rest)

def byOrder {α : Type} (rows : List (Nat × α)) : List (Nat × α) :=
  rows.insertionSort fun a b => a.1 ≤ b.1

/-- The rows in their order, which must be `0..n-1`. -/
def inOrder {α : Type} (rows : List (Nat × α)) (message : String) :
    Except N8nError (List α) := do
  require ((byOrder rows).map Prod.fst = List.range rows.length) (N8nError.adapter message)
  pure ((byOrder rows).map Prod.snd)

def checkEdge (seen : List String) (edge : Wire) : Except N8nError Unit :=
  match edge.source with
  | .list _ | .dict _ => .error .typeError
  | .str source => require (source ∈ seen ∧ edge.target ∈ seen)
      (.adapter "edge references an unknown component")
  | _ => .error (.adapter "edge references an unknown component")

def networkItems (parts : List Part) (edges : List Wire) (iips : List Packet)
    (keys : List String) : List (String × Json) :=
  [("components",.list (parts.map fun p => .dict p.items))] ++
  (if "edges" ∈ keys then [("edges",.list (edges.map fun w => .dict w.items))] else []) ++
  if "iips" ∈ keys then [("iips",.list (iips.map fun p => .dict p.items))] else []

theorem Part.items_nodup (p : Part) : (p.items.map Prod.fst).Nodup := by
  rw [Part.items,List.map_cons,List.map_cons]
  have hknown : ("id" :: "task" :: p.options.map Prod.fst).Sublist
      ("id" :: "task" :: componentOptional) := (p.known.cons_cons _).cons_cons _
  exact hknown.nodup (by decide)

theorem Wire.items_nodup (w : Wire) : (w.items.map Prod.fst).Nodup := by
  rw [Wire.items]
  cases w.capacity <;> simp [optional]

theorem Packet.items_nodup (p : Packet) : (p.items.map Prod.fst).Nodup := by
  simp [Packet.items]

theorem networkItems_nodup (parts : List Part) (edges : List Wire) (iips : List Packet)
    (keys : List String) : ((networkItems parts edges iips keys).map Prod.fst).Nodup := by
  rw [networkItems]
  split <;> split <;> simp

theorem networkItems_keyed {parts : List Part} {edges : List Wire} {iips : List Packet}
    {keys : List String} {key : String} {rows : List Json}
    (h : (key,.list rows) ∈ networkItems parts edges iips keys) {items : List (String × Json)}
    (hitems : .dict items ∈ rows) : (items.map Prod.fst).Nodup := by
  rw [networkItems,List.mem_append,List.mem_append,List.mem_singleton] at h
  rcases h with (h | h) | h
  · cases h
    obtain ⟨p,-,hp⟩ := List.mem_map.1 hitems
    cases hp
    exact p.items_nodup
  · split at h
    · cases List.mem_singleton.1 h
      obtain ⟨w,-,hw⟩ := List.mem_map.1 hitems
      cases hw
      exact w.items_nodup
    · cases h
  · split at h
    · cases List.mem_singleton.1 h
      obtain ⟨p,-,hp⟩ := List.mem_map.1 hitems
      cases hp
      exact p.items_nodup
    · cases h

def networkOf (parts : List Part) (edges : List Wire) (iips : List Packet) (keys : List String) :
    Graph where
  entries := ⟨networkItems parts edges iips keys,networkItems_nodup parts edges iips keys⟩
  keyed _ _ hget _ hitems := networkItems_keyed
    ((Dict.lookup_eq_some_iff (networkItems_nodup parts edges iips keys)).1 hget) hitems

def memberDict (what : String) (value : Json) : Except String (List (String × Json)) :=
  match value with
  | .dict items => .ok items
  | _ => .error (what ++ " must be an object")

def readRequested (value : Json) : Except String RequestedComponent := do
  let data ← memberDict "requested component" value
  requestedFromDict data

def readGrant (value : Json) : Except String EnvelopeGrant := do
  let data ← memberDict "envelope grant" value
  grantFromDict data

/-- The design that is imported, from what `meta.cbp` holds. -/
def designOf (cbp : List (String × Json)) (network : Graph) (components : List Json)
    (metadata : List (String × Json)) (envelopes : List Json) : Except String Design := do
  let components ← components.mapM readRequested
  let envelopes ← envelopes.mapM readGrant
  Design.new ((Dict.lookup cbp "id").getD (.str "")).text network
    ((Dict.lookup cbp "title").getD (.str "")).text components (Dict.empty.update metadata)
    envelopes ((Dict.lookup cbp "schema").getD (.str "")).text

def keysOf (cbp : List (String × Json)) : Except N8nError (List String) := do
  let keys ← asList (field cbp "network_keys") "meta.cbp.network_keys must include 'components'"
  require (keys.any (isText · "components"))
    (N8nError.adapter "meta.cbp.network_keys must include 'components'")
  require (keys.all Json.isStr) N8nError.typeError
  require (keys.map Json.text).Nodup (N8nError.adapter "meta.cbp.network_keys must be unique")
  pure (keys.map Json.text)

def asConnections (value : Json) : Except N8nError (List (String × Json)) :=
  match value with
  | .dict connections => .ok connections
  | _ => .error (.adapter "workflow must declare nodes (list) and connections (object)")

def fromN8n (workflow : Json) : Except N8nError Design := do
  let workflow ← asDict workflow "workflow"
  let nodes ← asList (field workflow "nodes")
    "workflow must declare nodes (list) and connections (object)"
  let connections ← asConnections (field workflow "connections")
  let metaItems ← asDict (field workflow "meta") "workflow meta"
  let cbp ← asDict (field metaItems "cbp") "workflow meta.cbp"
  require (isText (field cbp "projection") projection)
    (N8nError.adapter ("not a " ++ projection ++ " workflow"))
  let keys ← keysOf cbp
  let reads ← readNodes [] nodes
  let edges ← inOrder (reads.flatMap NodeRead.inputs)
    "edge cbp_order must be a permutation of 0..n-1"
  let iips ← inOrder (reads.flatMap NodeRead.iips) "IIP cbp_order must be a permutation of 0..n-1"
  forEach (checkEdge (reads.map NodeRead.name)) edges
  require ((Json.dict connections).pyEq (connect edges))
    (N8nError.adapter "connections do not match the component edge topology")
  let components ← asList ((Dict.lookup cbp "components").getD (.list []))
    "meta.cbp.components must be a list"
  let metadata ← asDict ((Dict.lookup cbp "metadata").getD (.dict [])) "meta.cbp.metadata"
  let envelopes ← asList ((Dict.lookup cbp "envelopes").getD (.list []))
    "meta.cbp.envelopes must be a list"
  let network := networkOf (reads.map NodeRead.part) edges iips keys
  (designOf cbp network components metadata envelopes).mapError fun e =>
    .adapter ("imported design is invalid: " ++ e)

end AgentCentric.N8n

import AgentCentric.Ui.Tree

namespace AgentCentric.Ui
open Json

inductive UITarget where
  | web | cli | os | embedded
  deriving DecidableEq

def UITarget.text : UITarget → String
  | .web => "web"
  | .cli => "cli"
  | .os => "os"
  | .embedded => "embedded"

/-- The honest status of a projection, the strongest first. -/
inductive Assurance where
  | verified | model | unverified | refused
  deriving DecidableEq

def Assurance.text : Assurance → String
  | .verified => "verified"
  | .model => "model"
  | .unverified => "unverified"
  | .refused => "refused"

def Assurance.severity : Assurance → Nat
  | .verified => 0
  | .model => 1
  | .unverified => 2
  | .refused => 3

/-- Where a component came from, the best first. -/
inductive Provenance where
  | trusted | appointed | discovered
  deriving DecidableEq

def Provenance.text : Provenance → String
  | .trusted => "trusted"
  | .appointed => "appointed"
  | .discovered => "discovered"

def Provenance.severity : Provenance → Nat
  | .trusted => 0
  | .appointed => 1
  | .discovered => 2

structure DirectiveBinding where
  name : String
  requiresApproval : Bool

structure Capability where
  name : String
  version : String

structure SecretRef where
  name : String
  path : String
  key : String

def SecretRef.toDict (s : SecretRef) : Json :=
  .dict ([("name",.str s.name),("path",.str s.path)] ++
    if s.key = "" then [] else [("key",.str s.key)])

/-- A manifest, its collections in canonical order. -/
structure UIComponent where
  id : String
  abiVersion : String
  targets : List UITarget
  projections : List String
  directives : List DirectiveBinding
  capabilities : List Capability
  slots : List String
  tokens : List (String × Json)
  secrets : List SecretRef
  metadata : List (String × Json)

def uiAbiVersion : String := "1.0.0"

namespace UIComponent

def toDict (c : UIComponent) : Json :=
  .dict [("schema",.str "ui.v1"),("id",.str c.id),("abi_version",.str c.abiVersion),
    ("targets",.list (c.targets.map fun t => .str t.text)),
    ("projections",.list (c.projections.map .str)),
    ("directives",.list (c.directives.map fun b =>
      .dict [("name",.str b.name),("requires_approval",.bool b.requiresApproval)])),
    ("capabilities",.list (c.capabilities.map fun a =>
      .dict [("name",.str a.name),("version",.str a.version)])),
    ("slots",.list (c.slots.map .str)),("tokens",.dict c.tokens),
    ("secrets",.list (c.secrets.map SecretRef.toDict)),("metadata",.dict c.metadata)]

def uiHash (sha256 : String → HexDigest) (c : UIComponent) : String :=
  (sha256 c.toDict.compact).text

end UIComponent

/-- The errors of `validate_ui`. -/
def validateUi (c : UIComponent) (requiredTargets : List UITarget) : List String :=
  (if c.abiVersion ≠ uiAbiVersion then
    ["unsupported ui abi version " ++ pyRepr c.abiVersion ++ "; supported: " ++
      pyReprList [uiAbiVersion]] else []) ++
  (if c.targets = [] then ["a UI component must target at least one UI target"] else []) ++
  (requiredTargets.filter (· ∉ c.targets)).map (fun t =>
    "UI component does not target required target " ++ pyRepr t.text) ++
  (if c.projections = [] then ["a UI component must declare at least one projection"] else [])

/-- A pinned document that a component may display. -/
structure Projection where
  schema : String
  data : Json
  assurance : Assurance

namespace Projection

def contentHash (sha256 : String → HexDigest) (p : Projection) : String :=
  (sha256 (Json.dict [("schema",.str p.schema),("data",p.data)]).compact).text

def toDict (sha256 : String → HexDigest) (p : Projection) : Json :=
  .dict [("schema",.str p.schema),("content_hash",.str (p.contentHash sha256)),
    ("assurance",.str p.assurance.text),("data",p.data)]

end Projection

/-- What a view returns: a value that `json` can write, or another one, a mapping with the node
`view` or not. -/
inductive Viewed where
  | json : Json → Viewed
  | foreign (isView : Bool) : Viewed

structure UIRef where
  component : UIComponent
  view : Projection → Except Raised Viewed
  provenance : Provenance

structure UISection where
  componentId : String
  uiHash : String
  provenance : Provenance
  capabilities : List String
  projectionSchema : String
  projectionHash : String
  assurance : Assurance
  treeHash : String
  tree : List (String × Json)

/-- `assert_projection_granted` raises a `ValueError`, which is no `UIError`. -/
def assertProjectionGranted (c : UIComponent) (schema : String) : Except Raised Unit :=
  require (schema ∈ c.projections) (.escaped ("projection " ++ pyRepr schema ++
    " is not declared by UI component " ++ pyRepr c.id ++ " (default deny)."))

/-- `sandbox_policy`: the capabilities that are held. -/
def sandboxPolicy (provenance : Provenance) (c : UIComponent) (allowDiscovered : Bool) :
    Except Raised (List String) := do
  require (provenance ≠ .discovered ∨ allowDiscovered) (.refused
    ("discovered UI is never auto-trusted; refusing (fail-closed). " ++
      "Pass allow_discovered=True only under an explicit operator gate."))
  pure (if provenance = .trusted then sortStrings (c.capabilities.map Capability.name) else [])

/-- A mapping with the node `view`. -/
def isView : Json → Bool
  | .dict node => kindOf node = some .view
  | _ => false

namespace UIRef

def identity (sha256 : String → HexDigest) (r : UIRef) : Json :=
  .dict [("id",.str r.component.id),("ui_hash",.str (r.component.uiHash sha256)),
    ("targets",.list (r.component.targets.map fun t => .str t.text)),
    ("provenance",.str r.provenance.text)]

def validate (r : UIRef) (target : UITarget) (allowDiscovered : Bool) :
    Except Raised (List String) := do
  require (target ∈ r.component.targets) (.refused ("UI component " ++ pyRepr r.component.id ++
    " does not target " ++ pyRepr target.text))
  require (validateUi r.component [target] = [])
    (.refused (joined "; " (validateUi r.component [target])))
  sandboxPolicy r.provenance r.component allowDiscovered

/-- The labels of the returned tree itself are overridden. -/
def relabel (r : UIRef) (p : Projection) (node : List (String × Json)) : List (String × Json) :=
  Dict.insert (Dict.insert node "provenance" (.str r.provenance.text)) "assurance"
    (.str p.assurance.text)

def toSection (sha256 : String → HexDigest) (r : UIRef) (p : Projection)
    (capabilities : List String) (node : List (String × Json)) : UISection where
  componentId := r.component.id
  uiHash := r.component.uiHash sha256
  provenance := r.provenance
  capabilities := capabilities
  projectionSchema := p.schema
  projectionHash := p.contentHash sha256
  assurance := p.assurance
  treeHash := (sha256 (Json.dict (r.relabel p node)).compact).text
  tree := r.relabel p node

def malformed (r : UIRef) : Raised :=
  .refused ("UI component " ++ pyRepr r.component.id ++ " produced a malformed tree")

/-- The tree that a view returned. Hashing a value that `json` cannot write raises. -/
def checkTree (r : UIRef) : Viewed → Except Raised (List (String × Json))
  | .json (.dict node) => if isView (.dict node) then .ok node else .error r.malformed
  | .json _ => .error r.malformed
  | .foreign true => .error (.escaped "Object of type object is not JSON serializable")
  | .foreign false => .error r.malformed

def renderSection (sha256 : String → HexDigest) (r : UIRef) (p : Projection) (target : UITarget)
    (allowDiscovered : Bool) : Except Raised UISection := do
  let capabilities ← r.validate target allowDiscovered
  assertProjectionGranted r.component p.schema
  let viewed ← r.view p
  let node ← r.checkTree viewed
  pure (r.toSection sha256 p capabilities node)

end UIRef

structure UIAssembly where
  refs : List UIRef
  name : String

structure Skipped where
  component : String
  reason : String

structure UISurfaceResult where
  target : UITarget
  rendered : Bool
  output : String
  compositionHash : String
  assurance : Assurance
  sections : List UISection
  skipped : List Skipped
  degraded : Bool

/-- `max(candidates, key=severity)`: the first of the greatest. -/
def weakest {α : Type} (severity : α → Nat) (fallback : α) : List α → α
  | [] => fallback
  | x :: xs => xs.foldl (fun best y => if severity best < severity y then y else best) x

def treeView (title schema : String) (assurance : Assurance) (provenance : Provenance)
    (children : List (List (String × Json))) : List (String × Json) :=
  [("node",.str "view"),("title",.str title),("schema",.str schema),
    ("assurance",.str assurance.text),("provenance",.str provenance.text),
    ("children",.list (children.map .dict))]

/-- `target_binding`, and what the target makes of a tree. -/
def binding (intOf : String → Option Int) : UITarget → Except Raised (Json → Except Raised String)
  | .web => .ok fun tree => (webFragment intOf "#38bdf8" tree).map fun fragment =>
      "<!doctype html>\n<html lang=\"en\"><head><meta charset=\"utf-8\"><title>CBP UI</title>\n" ++
      "<style>body\x7bfont-family:sans-serif;background:#ffffff;color:#0f172a;margin:2rem\x7d" ++
      ".cbp-view\x7bborder-left:4px solid var(--cbp-accent,#38bdf8);padding-left:1rem;" ++
      "margin-bottom:2rem\x7d" ++
      "table\x7bborder-collapse:collapse\x7d" ++
      "th,td\x7bborder:1px solid #cbd5e1;padding:2px 8px\x7d" ++
      ".cbp-assurance\x7bcolor:#64748b;font-size:.85rem\x7d</style></head>\n<body>\n" ++
      fragment ++ "\n</body></html>\n"
  | .cli => .ok fun tree => (cliLines intOf tree).map fun lines => joined "\n" lines ++ "\n"
  | target => .error (.refused ("UI target " ++ pyRepr target.text ++
      " is not implemented in core; available: " ++ pyReprList ["web","cli"]))

namespace UIAssembly

def new (sha256 : String → HexDigest) (refs : List UIRef) (name : String) : UIAssembly where
  refs := refs.insertionSort fun a b => a.component.id < b.component.id ∨
    (a.component.id = b.component.id ∧ a.component.uiHash sha256 ≤ b.component.uiHash sha256)
  name := name

def compositionHash (sha256 : String → HexDigest) (a : UIAssembly) : String :=
  (sha256 (Json.dict [("schema",.str "cbp.ui.composition.v1"),("name",.str a.name),
    ("components",.list (a.refs.map fun r => r.identity sha256))]).compact).text

def grantedTo (projections : Dict String Projection) (r : UIRef) : Option Projection :=
  (r.component.projections.filterMap projections.get).head?

/-- What one component comes to. -/
inductive Attempt where
  | rendered : UISection → Attempt
  | skipped : Skipped → Attempt

def attempt (sha256 : String → HexDigest) (projections : Dict String Projection)
    (target : UITarget) (allowDiscovered : Bool) (r : UIRef) : Except Raised Attempt :=
  match grantedTo projections r with
  | none => .ok (.skipped ⟨r.component.id,"no granted projection"⟩)
  | some p =>
    match r.renderSection sha256 p target allowDiscovered with
    | .ok s => .ok (.rendered s)
    | .error (.refused reason) => .ok (.skipped ⟨r.component.id,reason⟩)
    | .error e => .error e

def Attempt.section? : Attempt → Option UISection
  | .rendered s => some s
  | .skipped _ => none

def Attempt.skipped? : Attempt → Option Skipped
  | .rendered _ => none
  | .skipped s => some s

def raw (sha256 : String → HexDigest) (projections : Dict String Projection) : String :=
  (Json.dict [("schema",.str "cbp.projection.v1"),("projections",.list
    ((sortStrings projections.keys).filterMap fun name =>
      (projections.get name).map fun p => p.toDict sha256))]).compact

def surfaceAssurance (sections : List UISection) : Assurance :=
  weakest Assurance.severity .verified (sections.map UISection.assurance)

def surfaceProvenance (sections : List UISection) : Provenance :=
  weakest Provenance.severity .trusted (sections.map UISection.provenance)

def root (a : UIAssembly) (sections : List UISection) : List (String × Json) :=
  treeView a.name "cbp.ui.surface.v1" (surfaceAssurance sections) (surfaceProvenance sections)
    (sections.map UISection.tree)

def renderDocument (sha256 : String → HexDigest) (intOf : String → Option Int) (a : UIAssembly)
    (target : UITarget) (projections : Dict String Projection) (allowDiscovered : Bool) :
    Except Raised UISurfaceResult := do
  let render ← binding intOf target
  let attempts ← a.refs.mapM (attempt sha256 projections target allowDiscovered)
  let sections := attempts.filterMap Attempt.section?
  let skipped := attempts.filterMap Attempt.skipped?
  if sections.isEmpty then
    pure ⟨target,false,raw sha256 projections,a.compositionHash sha256,.unverified,[],skipped,true⟩
  else do
    let output ← render (.dict (a.root sections))
    pure ⟨target,true,output,a.compositionHash sha256,surfaceAssurance sections,sections,skipped,
      !skipped.isEmpty⟩

end UIAssembly

end AgentCentric.Ui

import AgentCentric.Boot.Component
import AgentCentric.Library.Numerals

namespace AgentCentric.Boot
open ComponentManifest

inductive Number where
  | int (n : Int)
  | bool (b : Bool)
  | float (x : PyFloat)

/-- The place of a number on the line. -/
inductive Size where
  | below
  | finite (r : Rat)
  | above

def Size.lt : Size → Size → Bool
  | below, below => false
  | below, _ => true
  | finite r, finite s => r < s
  | finite _, above => true
  | _, _ => false

namespace Number

def json : Number → Json
  | int n => .int n
  | bool b => .bool b
  | float x => x.json

def size : Number → Option Size
  | int n => some (.finite n)
  | bool b => some (.finite b.toNat)
  | float (.decimal d) => some (.finite d.double)
  | float .nan => none
  | float .infinity => some .above
  | float .negInfinity => some .below

/-- `a < b`. Nothing is less than `nan`, and `nan` is not less than anything. -/
def lt (a b : Number) : Bool :=
  match a.size, b.size with
  | some x, some y => x.lt y
  | _, _ => false

/-- `a <= b`. -/
def le (a b : Number) : Bool :=
  match a.size, b.size with
  | some x, some y => !y.lt x
  | _, _ => false

/-- `bool(number)`. -/
def truthy (a : Number) : Bool := !((a.le (int 0)) && ((int 0).le a))

def isFloat : Number → Bool
  | float _ => true
  | _ => false

end Number

/-- What `int` and `float` raise. -/
def Raise.ofNumber : NumberError → Raise
  | .value m => .valueError m
  | .type _ => .typeError
  | .overflow m => .other m

def workSchema : String := "work.v1"

inductive WorkOrigin where
  | obtain | generate
  deriving DecidableEq

def WorkOrigin.name : WorkOrigin → String
  | obtain => "obtain"
  | generate => "generate"

inductive WorkSourceKind where
  | git | directory | binary
  deriving DecidableEq

namespace WorkSourceKind

def name : WorkSourceKind → String
  | git => "git"
  | directory => "directory"
  | binary => "binary"

def ofName (s : String) : Except Raise WorkSourceKind :=
  if s = "git" then .ok .git
  else if s = "directory" then .ok .directory
  else if s = "binary" then .ok .binary
  else .error (.valueError ("Unsupported source kind: " ++ pyRepr s))

end WorkSourceKind

structure SourceRef where
  repoUrl : String
  commit : String
  digest : String
  kind : WorkSourceKind
  given : repoUrl ≠ ""
  pinned : isCommit commit = true
  hashed : isSha256 digest = true

namespace SourceRef

def new (repoUrl commit digest kind : String) : Except Raise SourceRef :=
  if hgiven : repoUrl = "" then .error (.valueError "SourceRef repo_url must be non-empty.")
  else if hpinned : isCommit commit then
    if hhashed : isSha256 digest then do
      let kind ← WorkSourceKind.ofName kind
      pure ⟨repoUrl,commit,digest,kind,hgiven,hpinned,hhashed⟩
    else .error (.valueError ("SourceRef digest must be 64-hex sha256: " ++ pyRepr digest))
  else .error (.valueError ("SourceRef commit must be 40/64-hex: " ++ pyRepr commit))

def toDict (source : SourceRef) : Json :=
  .dict [("repo_url",.str source.repoUrl),("commit",.str source.commit),
    ("digest",.str source.digest),("kind",.str source.kind.name)]

def fromDict (data : Json) : Except Raise SourceRef := do
  let repoUrl ← itemText data "repo_url"
  let commit ← itemText data "commit"
  let digest ← itemText data "digest"
  let kind ← textOr data "kind" "directory"
  new repoUrl commit digest kind

end SourceRef

structure GeneratorRef where
  ref : String
  digest : String
  prompt : String
  seed : Nat
  model : String
  given : ref ≠ ""
  hashed : isSha256 digest = true
  asked : prompt ≠ ""

namespace GeneratorRef

def new (ref digest prompt : String) (seed : Json) (model : String) :
    Except Raise GeneratorRef :=
  if hgiven : ref = "" then .error (.valueError "GeneratorRef ref must be non-empty.")
  else if hhashed : isSha256 digest then
    if hasked : prompt = "" then
      .error (.valueError "GeneratorRef prompt must be non-empty.")
    else
      match seed with
      | .int (.ofNat n) => .ok ⟨ref,digest,prompt,n,model,hgiven,hhashed,hasked⟩
      | _ => .error (.valueError "GeneratorRef seed must be a non-negative integer.")
  else .error (.valueError ("GeneratorRef digest must be 64-hex sha256: " ++ pyRepr digest))

def toDict (generator : GeneratorRef) : Json :=
  .dict [("ref",.str generator.ref),("digest",.str generator.digest),
    ("prompt",.str generator.prompt),("seed",.int generator.seed),
    ("model",.str generator.model)]

def fromDict (data : Json) : Except Raise GeneratorRef := do
  let ref ← itemText data "ref"
  let digest ← itemText data "digest"
  let prompt ← itemText data "prompt"
  let seed ← item data "seed"
  let model ← textOr data "model" ""
  new ref digest prompt seed model

end GeneratorRef

structure BuildRecipe where
  language : String
  runtime : RuntimeKind
  toolchain : List String
  given : language ≠ ""
  stated : "" ∉ toolchain
  once : toolchain.Nodup

namespace BuildRecipe

def new (language runtime : String) (toolchain : List String) : Except Raise BuildRecipe :=
  if hgiven : language = "" then .error (.valueError "BuildRecipe language must be non-empty.")
  else do
    let kind ←
      if runtime = "python" then .ok RuntimeKind.python
      else if runtime = "process" then .ok .process
      else .error (.valueError
        ("BuildRecipe runtime must be 'python' or 'process': " ++ pyRepr runtime))
    if hstated : "" ∉ toolchain then
      if honce : toolchain.Nodup then .ok ⟨language,kind,toolchain,hgiven,hstated,honce⟩
      else .error (.valueError "BuildRecipe toolchain entries must be unique.")
    else .error (.valueError "BuildRecipe toolchain entries must be non-empty strings.")

def toDict (build : BuildRecipe) : Json :=
  .dict [("language",.str build.language),("runtime",.str build.runtime.name),
    ("toolchain",.list (build.toolchain.map .str))]

def fromDict (data : Json) : Except Raise BuildRecipe := do
  let toolchain ← getOr data "toolchain" (.list [])
  match toolchain with
  | .list entries => do
      let language ← itemText data "language"
      let runtime ← itemText data "runtime"
      new language runtime (entries.map Json.text)
  | _ => .error (.valueError "BuildRecipe toolchain must be a list.")

end BuildRecipe

/-- What a work item must pass before it may execute. -/
structure VerifierSpec where
  ref : String
  digest : String
  conformance : Bool
  given : ref ≠ ""
  hashed : isSha256 digest = true

namespace VerifierSpec

def new (ref digest : String) (conformance : Bool) : Except Raise VerifierSpec :=
  if hgiven : ref = "" then .error (.valueError "VerifierSpec ref must be non-empty.")
  else if hhashed : isSha256 digest then .ok ⟨ref,digest,conformance,hgiven,hhashed⟩
  else .error (.valueError ("VerifierSpec digest must be 64-hex sha256: " ++ pyRepr digest))

def toDict (verifier : VerifierSpec) : Json :=
  .dict [("ref",.str verifier.ref),("digest",.str verifier.digest),
    ("conformance",.bool verifier.conformance)]

def fromDict (data : Json) : Except Raise VerifierSpec := do
  let ref ← itemText data "ref"
  let digest ← itemText data "digest"
  let conformance ← getOr data "conformance" (.bool false)
  new ref digest conformance.truthy

end VerifierSpec

/-- The bounds that a compiled work item runs under. -/
structure WorkEnvelope where
  timeoutSeconds : Number
  maxSteps : Int
  maxStepSeconds : Number
  timed : timeoutSeconds.le (.int 0) = false
  stepped : 0 < maxSteps
  started : maxStepSeconds.lt (.int 0) = false
  within : maxStepSeconds.truthy = true → timeoutSeconds.lt maxStepSeconds = false

def zeroSeconds : Decimal := .zero

namespace WorkEnvelope

def new (timeoutSeconds : Number) (maxSteps : Int) (maxStepSeconds : Number) :
    Except Raise WorkEnvelope :=
  if htimed : timeoutSeconds.le (.int 0) = false then
    if hstepped : 0 < maxSteps then
      if hstarted : maxStepSeconds.lt (.int 0) = false then
        if hwithin : maxStepSeconds.truthy = true → timeoutSeconds.lt maxStepSeconds = false then
          .ok ⟨timeoutSeconds,maxSteps,maxStepSeconds,htimed,hstepped,hstarted,hwithin⟩
        else .error (.valueError
          "WorkEnvelope max_step_seconds must not exceed timeout_seconds.")
      else .error (.valueError "WorkEnvelope max_step_seconds must not be negative.")
    else .error (.valueError "WorkEnvelope max_steps must be a positive integer.")
  else .error (.valueError "WorkEnvelope timeout_seconds must be positive.")

def toDict (envelope : WorkEnvelope) : Json :=
  .dict [("timeout_seconds",envelope.timeoutSeconds.json),("max_steps",.int envelope.maxSteps),
    ("max_step_seconds",envelope.maxStepSeconds.json)]

def fromDict (numerals : Numerals) (data : Json) : Except Raise WorkEnvelope := do
  let timeoutRaw ← getOr data "timeout_seconds" (.int 0)
  let timeoutSeconds ← (numerals.floatOf timeoutRaw).mapError Raise.ofNumber
  let stepsRaw ← getOr data "max_steps" (.int 0)
  let maxSteps ← (numerals.intOf stepsRaw).mapError Raise.ofNumber
  let stepSecondsRaw ← getOr data "max_step_seconds" (.decimal zeroSeconds)
  let maxStepSeconds ← (numerals.floatOf stepSecondsRaw).mapError Raise.ofNumber
  new (.float timeoutSeconds) maxSteps (.float maxStepSeconds)

end WorkEnvelope

structure WorkRecipe where
  id : String
  build : BuildRecipe
  verifier : VerifierSpec
  envelope : WorkEnvelope
  source : Option SourceRef
  generator : Option GeneratorRef
  grants : List Capability
  metadata : Dict String Json
  named : id ≠ ""
  single : source.isNone ≠ generator.isNone
  granted : (grants.map Capability.name).Nodup
  sorted : grants.Pairwise fun a b => a.name ≤ b.name

namespace WorkRecipe

def byName (a b : Capability) : Prop := a.name ≤ b.name

instance : DecidableRel byName := fun a b => inferInstanceAs (Decidable (a.name ≤ b.name))

def new (id : String) (build : BuildRecipe) (verifier : VerifierSpec) (envelope : WorkEnvelope)
    (source : Option SourceRef) (generator : Option GeneratorRef) (grants : List Capability)
    (metadata : Dict String Json) (schema : String) : Except Raise WorkRecipe := do
  require (schema = workSchema) (.valueError ("Unsupported work schema: " ++ pyRepr schema))
  if hnamed : id = "" then .error (.valueError "WorkRecipe id must be non-empty.")
  else if hsingle : source.isNone ≠ generator.isNone then
    if hgranted : (grants.map Capability.name).Nodup then
      .ok ⟨id,build,verifier,envelope,source,generator,grants.insertionSort byName,metadata,
        hnamed,hsingle,
        ((List.perm_insertionSort byName grants).map Capability.name).nodup_iff.mpr hgranted,
        sorted_grants grants⟩
    else .error (.valueError "WorkRecipe grant names must be unique.")
  else .error (.valueError ("a work recipe must declare exactly one of source (obtain) or " ++
    "generator (create/generate)."))
where
  sorted_grants (grants : List Capability) :
      (grants.insertionSort byName).Pairwise fun a b => a.name ≤ b.name := by
    have : IsTrans Capability byName := ⟨fun _ _ _ h h' => le_trans (α := String) h h'⟩
    have : Std.Total byName := ⟨fun a b => le_total a.name b.name⟩
    exact List.pairwise_insertionSort byName grants

def origin (recipe : WorkRecipe) : WorkOrigin :=
  if recipe.generator.isSome then .generate else .obtain

def grantDict (grant : Capability) : Json :=
  .dict [("name",.str grant.name),("version",.str grant.version)]

def optionDict {α : Type} (toDict : α → Json) (part : Option α) : Json :=
  (part.map toDict).getD .null

def toDict (recipe : WorkRecipe) : Json :=
  .dict [("schema",.str workSchema),("id",.str recipe.id),
    ("source",optionDict SourceRef.toDict recipe.source),
    ("generator",optionDict GeneratorRef.toDict recipe.generator),
    ("build",recipe.build.toDict),("verifier",recipe.verifier.toDict),
    ("envelope",recipe.envelope.toDict),
    ("grants",.list ((recipe.grants.insertionSort byName).map grantDict)),
    ("metadata",.dict recipe.metadata.entries)]

def recipeHash (sha256 : List Char → HexDigest) (recipe : WorkRecipe) : HexDigest :=
  sha256 recipe.toDict.bytes

/-- `dict(metadata)`, of `data.get("metadata") or {}`. -/
def metadataOf (value : Json) : Except Raise (Dict String Json) :=
  if value.truthy then
    match value with
    | .dict items => .ok (Dict.empty.update items)
    | _ => .error (.valueError "WorkRecipe metadata must be a mapping.")
  else .ok Dict.empty

def fromDict (numerals : Numerals) (data : Json) : Except Raise WorkRecipe := do
  let rawSource ← getOr data "source" .null
  let rawGenerator ← getOr data "generator" .null
  let rawMetadata ← getOr data "metadata" .null
  let metadata ← metadataOf rawMetadata
  let rawGrants ← getOr data "grants" (.list [])
  match rawGrants with
  | .list items => do
      let id ← itemText data "id"
      let rawBuild ← item data "build"
      let build ← BuildRecipe.fromDict rawBuild
      let rawVerifier ← item data "verifier"
      let verifier ← VerifierSpec.fromDict rawVerifier
      let rawEnvelope ← item data "envelope"
      let envelope ← WorkEnvelope.fromDict numerals rawEnvelope
      let source ← optional SourceRef.fromDict rawSource
      let generator ← optional GeneratorRef.fromDict rawGenerator
      let grants ← items.mapM capabilityOf
      let schema ← textOr data "schema" workSchema
      new id build verifier envelope source generator grants metadata schema
  | _ => .error (.valueError "WorkRecipe grants must be a list.")

end WorkRecipe

namespace StateDescriptor

def toDict (state : StateDescriptor) : Json :=
  .dict [("kind",.str "sqlite"),("path",.str state.path),("single_writer",.bool true)]

end StateDescriptor

namespace Provenance

def toDict (provenance : Provenance) : Json :=
  .dict [("repo_url",.str provenance.repoUrl),("commit_sha",.str provenance.commitSha),
    ("tree_sha256",.str provenance.treeSha256),("signature",.str provenance.signature)]

end Provenance

namespace ComponentManifest

def entryDict (entry : EntryDescriptor) : Json :=
  .dict [("runtime",.str entry.runtime.name),("entrypoint",.str entry.entrypoint)]

def childDict (child : ChildRef) : Json := .dict [(child.mode.name,.str child.target)]

def toDict (manifest : ComponentManifest) : Json :=
  .dict [("version",.str "component.v1"),("name",.str manifest.name),
    ("kind",.str manifest.kind.name),("implements",.list (manifest.implements.map .str)),
    ("state",WorkRecipe.optionDict StateDescriptor.toDict manifest.state),
    ("entry",entryDict manifest.entry),("children",.list (manifest.children.map childDict)),
    ("directive",.str manifest.directive),
    ("capabilities",.list (manifest.capabilities.map WorkRecipe.grantDict)),
    ("provenance",WorkRecipe.optionDict Provenance.toDict manifest.provenance),
    ("ports",.dict (manifest.ports.entries.map fun port =>
      (port.1,.list (port.2.map Json.str))))]

end ComponentManifest

/-- A compiled recipe. It runs at most at A0 and is announced over the control channel. -/
structure WorkCompilation where
  recipeHash : String
  component : ComponentManifest
  origin : WorkOrigin
  hashed : isSha256 recipeHash = true

namespace WorkCompilation

def new (recipeHash : String) (component : ComponentManifest) (origin : WorkOrigin) :
    Except Raise WorkCompilation :=
  if hhashed : isSha256 recipeHash then .ok ⟨recipeHash,component,origin,hhashed⟩
  else .error (.valueError
    ("WorkCompilation recipe_hash must be 64-hex sha256: " ++ pyRepr recipeHash))

def toDict (compilation : WorkCompilation) : Json :=
  .dict [("schema",.str workSchema),("recipe_hash",.str compilation.recipeHash),
    ("origin",.str compilation.origin.name),("assurance",.str "A0"),("channel",.str "control"),
    ("component",compilation.component.toDict)]

def artifactHash (sha256 : List Char → HexDigest) (compilation : WorkCompilation) : HexDigest :=
  sha256 compilation.toDict.bytes

end WorkCompilation

def sourceProvenance (recipe : WorkRecipe) : Except Raise (Option Provenance) :=
  match recipe.source with
  | none => .ok none
  | some source => do
      let provenance ← Provenance.new source.repoUrl source.commit source.digest ""
      pure (some provenance)

def compileWork (sha256 : List Char → HexDigest) (recipe : WorkRecipe) :
    Except Raise WorkCompilation := do
  let entry ← EntryDescriptor.new recipe.build.runtime.name ("work:" ++ recipe.id)
  let provenance ← sourceProvenance recipe
  let component ← ComponentManifest.new "component.v1" recipe.id "atomic" entry ["component.v1"]
    none [] "" recipe.grants provenance Dict.empty
  WorkCompilation.new (recipe.recipeHash sha256).text component recipe.origin

end AgentCentric.Boot

import AgentCentric.Library.JsonAccess

namespace AgentCentric.Boot

abbrev Bytes := List UInt8

def encode (s : String) : Bytes := s.toByteArray.data.toList

/-- What the functions of this directory raise. -/
inductive Raise where
  | keyError (name : String)
  | typeError : Raise
  | attributeError : Raise
  | valueError (message : String)
  | bundle (message : String)
  | lock (message : String)
  | pin (message : String)
  | git (message : String)
  | resolve (message : String)
  | graph (message : String)
  | boot (message : String)
  | cache (message : String)
  | state (message : String)
  | signature (message : String)
  | transparency (message : String)
  | entryNotAllowed (message : String)
  | work (message : String)
  | other (message : String)
  deriving DecidableEq

namespace Raise

/-- `str(exc)` of the exceptions that are told on. -/
def text : Raise → String
  | keyError name => pyRepr name
  | typeError => ""
  | attributeError => ""
  | valueError m | bundle m | lock m | pin m | git m | resolve m | graph m | boot m | cache m
  | state m | signature m | transparency m | entryNotAllowed m | work m | other m => m

end Raise

def isHexOf (n : Nat) (cs : List Char) : Bool :=
  cs.length = n && cs.all fun c =>
    (decide ('0' ≤ c) && decide (c ≤ '9')) || (decide ('a' ≤ c) && decide (c ≤ 'f'))

/-- 40 or 64 hexadecimal digits, before a line break at the end too. -/
def isCommit (s : String) : Bool :=
  let matches? (cs : List Char) := isHexOf 40 cs || isHexOf 64 cs
  matches? s.toList || (s.toList.getLast? = some '\n' && matches? s.toList.dropLast)

structure Capability where
  name : String
  version : String
  named : name ≠ ""
  versioned : version ≠ ""
  deriving DecidableEq

def Capability.new (name version : String) : Except Raise Capability :=
  if hname : name = "" then .error (.valueError "Capability name must be non-empty.")
  else if hversion : version = "" then .error (.valueError "Capability version must be non-empty.")
  else .ok ⟨name,version,hname,hversion⟩

inductive ComponentKind where
  | atomic | composite | model
  deriving DecidableEq

def ComponentKind.name : ComponentKind → String
  | atomic => "atomic"
  | composite => "composite"
  | model => "model"

def ComponentKind.ofName (s : String) : Except Raise ComponentKind :=
  if s = "atomic" then .ok .atomic
  else if s = "composite" then .ok .composite
  else if s = "model" then .ok .model
  else .error (.valueError ("Unsupported component kind: " ++ pyRepr s))

inductive RuntimeKind where
  | python | process
  deriving DecidableEq

def RuntimeKind.name : RuntimeKind → String
  | python => "python"
  | process => "process"

/-- Where a component keeps its state: a SQLite file with one writer. -/
structure StateDescriptor where
  path : String
  given : path ≠ ""
  deriving DecidableEq

def StateDescriptor.new (kind path : String) (singleWriter : Bool) :
    Except Raise StateDescriptor :=
  if kind ≠ "sqlite" then .error (.valueError ("Unsupported state kind: " ++ pyRepr kind))
  else if hpath : path = "" then .error (.valueError "State path must be non-empty.")
  else if ¬ singleWriter then .error (.valueError "Component state must be single-writer.")
  else .ok ⟨path,hpath⟩

structure EntryDescriptor where
  runtime : RuntimeKind
  entrypoint : String
  given : entrypoint ≠ ""
  deriving DecidableEq

def EntryDescriptor.new (runtime entrypoint : String) : Except Raise EntryDescriptor := do
  let kind ←
    if runtime = "python" then .ok RuntimeKind.python
    else if runtime = "process" then .ok .process
    else .error (.valueError ("Unsupported runtime: " ++ pyRepr runtime))
  if hpoint : entrypoint = "" then
    .error (.valueError "Entry descriptor entrypoint must be non-empty.")
  else .ok ⟨kind,entrypoint,hpoint⟩

inductive ChildMode where
  | embed | ref
  deriving DecidableEq

def ChildMode.name : ChildMode → String
  | embed => "embed"
  | ref => "ref"

/-- A child that is contained, or one that has its own entry in the lock. -/
structure ChildRef where
  mode : ChildMode
  target : String
  given : target ≠ ""
  deriving DecidableEq

def ChildRef.new (embed ref : String) : Except Raise ChildRef :=
  if hembed : embed = "" then
    if href : ref = "" then .error (.valueError "A child must be exactly one of embed/ref.")
    else .ok ⟨.ref,ref,href⟩
  else if ref = "" then .ok ⟨.embed,embed,hembed⟩
  else .error (.valueError "A child must be exactly one of embed/ref.")

@[ext]
structure Provenance where
  repoUrl : String
  commitSha : String
  treeSha256 : String
  signature : String
  given : repoUrl ≠ ""
  commit : isCommit commitSha = true
  hash : isSha256 treeSha256 = true

instance : DecidableEq Provenance := fun _ _ => decidable_of_iff _ Provenance.ext_iff.symm

def Provenance.new (repoUrl commitSha treeSha256 signature : String) :
    Except Raise Provenance :=
  if hgiven : repoUrl = "" then .error (.valueError "Provenance repo_url must be non-empty.")
  else if hcommit : isCommit commitSha then
    if hhash : isSha256 treeSha256 then
      .ok ⟨repoUrl,commitSha,treeSha256,signature,hgiven,hcommit,hhash⟩
    else .error (.valueError ("Provenance tree_sha256 must be 64-hex: " ++ pyRepr treeSha256))
  else .error (.valueError ("Provenance commit_sha must be 40/64-hex: " ++ pyRepr commitSha))

structure ComponentManifest where
  name : String
  kind : ComponentKind
  entry : EntryDescriptor
  implements : List String
  state : Option StateDescriptor
  children : List ChildRef
  directive : String
  capabilities : List Capability
  provenance : Option Provenance
  ports : Dict String (List String)
  named : name ≠ ""
  parent : children ≠ [] → kind = .composite
  conforming : implements ≠ []

namespace ComponentManifest

def new (version name kind : String) (entry : EntryDescriptor) (implements : List String)
    (state : Option StateDescriptor) (children : List ChildRef) (directive : String)
    (capabilities : List Capability) (provenance : Option Provenance)
    (ports : Dict String (List String)) : Except Raise ComponentManifest := do
  require (version = "component.v1")
    (.valueError ("Unsupported component version: " ++ pyRepr version))
  if hnamed : name = "" then .error (.valueError "Component name must be non-empty.")
  else do
    let kind ← ComponentKind.ofName kind
    if hparent : children ≠ [] → kind = .composite then
      if hconforming : implements = [] then
        .error (.valueError "A component must implement at least one harness contract.")
      else .ok ⟨name,kind,entry,implements,state,children,directive,capabilities,provenance,
        ports,hnamed,hparent,hconforming⟩
    else .error (.valueError "Only a composite component may declare children.")

/-- `data[key]`. -/
def item : Json → String → Except Raise Json
  | .dict items, key => expect (Dict.lookup items key) (.keyError key)
  | _, _ => .error .typeError

def itemText (data : Json) (key : String) : Except Raise String := do
  let value ← item data key
  pure value.text

/-- `data.get(key, default)`. -/
def getOr : Json → String → Json → Except Raise Json
  | .dict items, key, default => .ok ((Dict.lookup items key).getD default)
  | _, _, _ => .error .attributeError

def textOr (data : Json) (key : String) (default : String) : Except Raise String := do
  let value ← getOr data key (.str default)
  pure value.text

/-- `for x in data.get(key, ())`. -/
def itemsOf (data : Json) (key : String) : Except Raise (List Json) := do
  let value ← getOr data key (.list [])
  expect value.iterate .typeError

def entryOf (data : Json) : Except Raise EntryDescriptor := do
  let runtime ← itemText data "runtime"
  let entrypoint ← itemText data "entrypoint"
  EntryDescriptor.new runtime entrypoint

def stateOf (data : Json) : Except Raise StateDescriptor := do
  let kind ← itemText data "kind"
  let path ← itemText data "path"
  let singleWriter ← getOr data "single_writer" (.bool true)
  StateDescriptor.new kind path singleWriter.truthy

def childOf (data : Json) : Except Raise ChildRef := do
  let embed ← textOr data "embed" ""
  let ref ← textOr data "ref" ""
  ChildRef.new embed ref

def capabilityOf (data : Json) : Except Raise Capability := do
  let name ← itemText data "name"
  let version ← textOr data "version" "1"
  Capability.new name version

def provenanceOf (data : Json) : Except Raise Provenance := do
  let repoUrl ← itemText data "repo_url"
  let commitSha ← itemText data "commit_sha"
  let treeSha256 ← itemText data "tree_sha256"
  let signature ← textOr data "signature" ""
  Provenance.new repoUrl commitSha treeSha256 signature

def portOf (entry : String × Json) : Except Raise (String × List String) := do
  let names ← expect entry.2.iterate .typeError
  pure (entry.1,names.map Json.text)

def portsOf : Json → Except Raise (Dict String (List String))
  | .dict items => do
      let ports ← items.mapM portOf
      pure (Dict.empty.update ports)
  | _ => .error .attributeError

def optional {α : Type} (read : Json → Except Raise α) (value : Json) :
    Except Raise (Option α) :=
  if value.truthy then do
    let part ← read value
    pure (some part)
  else .ok none

/-- The edges that a component at rest must not declare. -/
def smuggled (items : List (String × Json)) : List String :=
  ["connections","edges","wires"].filter fun key => (Dict.lookup items key).isSome

def fromFields (items : List (String × Json)) : Except Raise ComponentManifest := do
  require (smuggled items = []) (.valueError ("A component at rest declares no edges; remove [" ++
    String.intercalate ", " ((smuggled items).map pyRepr) ++
    "] (dependency belongs in a network document, SPEC-0009)."))
  let data := Json.dict items
  let stateRaw ← getOr data "state" .null
  let provRaw ← getOr data "provenance" .null
  let version ← itemText data "version"
  let name ← itemText data "name"
  let kind ← itemText data "kind"
  let entryRaw ← item data "entry"
  let entry ← entryOf entryRaw
  let implements ← itemsOf data "implements"
  let state ← optional stateOf stateRaw
  let childrenRaw ← itemsOf data "children"
  let children ← childrenRaw.mapM childOf
  let directive ← textOr data "directive" ""
  let capabilitiesRaw ← itemsOf data "capabilities"
  let capabilities ← capabilitiesRaw.mapM capabilityOf
  let provenance ← optional provenanceOf provRaw
  let portsRaw ← getOr data "ports" (.dict [])
  let ports ← portsOf portsRaw
  new version name kind entry (implements.map Json.text) state children directive capabilities
    provenance ports

def fromDict : Json → Except Raise ComponentManifest
  | .dict items => fromFields items
  | .list _ => .error .attributeError
  | .str _ => .error .attributeError
  | _ => .error .typeError

end ComponentManifest

structure Member where
  name : String
  regular : Bool
  data : Bytes

/-- What the standard library makes of bytes: the hash, the members of a tar file, and the
characters that a JSON reader takes them for. -/
structure Codec where
  sha256 : Bytes → HexDigest
  members : Bytes → Except Raise (List Member)
  decode : Bytes → Option (List Char)

namespace Codec
variable (codec : Codec)

/-- `_check_name`. -/
def safeName (name : String) : Bool :=
  name ≠ "" && name.toList.head? ≠ some '/' && ['.','.'] ∉ name.toList.splitOn '/'

def listMembers (bundle : Bytes) : Except Raise (List String) := do
  let members ← codec.members bundle
  pure (((members.filter Member.regular).map Member.name).insertionSort fun a b => a ≤ b)

def readMember (bundle : Bytes) (name : String) : Except Raise Bytes := do
  require (safeName name) (.bundle ("unsafe bundle member name: " ++ pyRepr name))
  let members ← codec.members bundle
  let member ← expect (members.reverse.find? fun m => m.name = name)
    (.bundle ("bundle has no member " ++ pyRepr name))
  require member.regular
    (.bundle ("bundle member " ++ pyRepr name ++ " is not a regular file"))
  pure member.data

/-- `json.loads`, and `from_dict` of what it gives. -/
def manifestOf (data : Bytes) : Except Raise ComponentManifest := do
  let text ← expect (codec.decode data) (.valueError "invalid text")
  let json ← expect (Json.loadsChars text) (.valueError "invalid JSON")
  ComponentManifest.fromDict json

def loadManifest (bundle : Bytes) : Except Raise ComponentManifest := do
  let data ← codec.readMember bundle "component.json"
  codec.manifestOf data

def bundleSha256 (bundle : Bytes) : String := (codec.sha256 bundle).text

end Codec

/-- A pinned, signed component. An empty envelope bounds nothing. -/
structure LockEntry where
  name : String
  repoUrl : String
  commitSha : String
  treeSha256 : String
  implements : List String
  capabilities : List String
  signature : String
  envelope : Dict String Json
  named : name ≠ ""
  located : repoUrl ≠ ""
  commit : isCommit commitSha = true
  hash : isSha256 treeSha256 = true
  conforming : implements ≠ []

namespace LockEntry

def new (name repoUrl commitSha treeSha256 : String) (implements capabilities : List String)
    (signature : String) (envelope : Dict String Json) : Except Raise LockEntry :=
  if hname : name = "" then .error (.lock "Lock entry name must be non-empty.")
  else if hrepo : repoUrl = "" then .error (.lock (name ++ ": repo_url must be non-empty."))
  else if hcommit : isCommit commitSha then
    if hhash : isSha256 treeSha256 then
      if himpl : implements = [] then
        .error (.lock (name ++ ": implements must be non-empty."))
      else .ok ⟨name,repoUrl,commitSha,treeSha256,implements,capabilities,signature,envelope,
        hname,hrepo,hcommit,hhash,himpl⟩
    else .error (.lock (name ++ ": tree_sha256 must be 64-hex."))
  else .error (.lock (name ++ ": commit_sha must be 40/64-hex."))

def strings (xs : List String) : Json := .list (xs.map .str)

def fields (e : LockEntry) : List (String × Json) :=
  [("name",.str e.name),("repo_url",.str e.repoUrl),("commit_sha",.str e.commitSha),
    ("tree_sha256",.str e.treeSha256),("implements",strings e.implements),
    ("capabilities",strings e.capabilities),("signature",.str e.signature)] ++
  if e.envelope.entries = [] then [] else [("envelope",.dict e.envelope.entries)]

def toDict (e : LockEntry) : Json := .dict e.fields

theorem new_ok {name repoUrl commitSha treeSha256 signature : String}
    {implements capabilities : List String} {envelope : Dict String Json} {e : LockEntry}
    (h : new name repoUrl commitSha treeSha256 implements capabilities signature envelope = .ok e) :
    e.name = name ∧ e.treeSha256 = treeSha256 ∧ e.implements = implements ∧
      e.signature = signature ∧ e.envelope = envelope := by
  unfold new at h
  split at h; · cases h
  split at h; · cases h
  split at h
  · split at h
    · split at h
      · cases h
      · cases h
        exact ⟨rfl,rfl,rfl,rfl,rfl⟩
    · cases h
  · cases h

theorem lookup_envelope {e : LockEntry} (h : e.envelope.entries ≠ []) :
    Dict.lookup e.fields "envelope" = some (.dict e.envelope.entries) := by
  simp [fields,h,Dict.lookup]

end LockEntry

structure ComponentsLock where
  root : String
  entries : List LockEntry
  harnessContracts : List String
  contracted : harnessContracts ≠ []
  unique : (entries.map LockEntry.name).Nodup
  rooted : root ∈ entries.map LockEntry.name

namespace ComponentsLock

def new (root : String) (entries : List LockEntry) (harnessContracts : List String) :
    Except Raise ComponentsLock :=
  if root = "" then .error (.lock "Lock root must be non-empty.")
  else if entries = [] then .error (.lock "Lock must contain at least one entry.")
  else if hcontracts : harnessContracts = [] then
    .error (.lock "Lock must declare harness_contracts.")
  else if hunique : (entries.map LockEntry.name).Nodup then
    if hroot : root ∈ entries.map LockEntry.name then
      .ok ⟨root,entries,harnessContracts,hcontracts,hunique,hroot⟩
    else .error (.lock ("Lock root " ++ pyRepr root ++ " is not among the entries."))
  else .error (.lock "Lock entry names must be unique.")

def toDict (lock : ComponentsLock) : Json :=
  .dict [("schema",.str "components.lock/v1"),
    ("harness_contracts",LockEntry.strings lock.harnessContracts),("root",.str lock.root),
    ("entries",.list (lock.entries.map LockEntry.toDict))]

def canonicalBytes (lock : ComponentsLock) : Bytes := encode lock.toDict.compact

def lockHash (lock : ComponentsLock) (codec : Codec) : String :=
  (codec.sha256 lock.canonicalBytes).text

def entryNamed (lock : ComponentsLock) (name : String) : Option LockEntry :=
  lock.entries.find? fun e => e.name = name

def entry (lock : ComponentsLock) (name : String) : Except Raise LockEntry :=
  expect (lock.entryNamed name) (.lock ("No lock entry named " ++ pyRepr name ++ "."))

theorem new_ok {root : String} {entries : List LockEntry} {contracts : List String}
    {lock : ComponentsLock} (h : new root entries contracts = .ok lock) :
    lock.root = root ∧ lock.entries = entries ∧ lock.harnessContracts = contracts := by
  unfold new at h
  split at h; · cases h
  split at h; · cases h
  split at h; · cases h
  split at h
  · split at h
    · cases h
      exact ⟨rfl,rfl,rfl⟩
    · cases h
  · cases h

theorem entryNamed_eq_some {lock : ComponentsLock} {name : String} {e : LockEntry} :
    lock.entryNamed name = some e ↔ e ∈ lock.entries ∧ e.name = name := by
  constructor
  · intro h
    exact ⟨List.mem_of_find?_eq_some h,by simpa using List.find?_some h⟩
  · rintro ⟨hmem,rfl⟩
    have hsome : (lock.entryNamed e.name).isSome := by
      rw [entryNamed,List.find?_isSome]
      exact ⟨e,hmem,by simp⟩
    obtain ⟨e',he'⟩ := Option.isSome_iff_exists.mp hsome
    have hmem' := List.mem_of_find?_eq_some he'
    have hname : e'.name = e.name := by simpa using List.find?_some he'
    rw [he',List.inj_on_of_nodup_map lock.unique hmem' hmem hname]

theorem entry_ok {lock : ComponentsLock} {name : String} {e : LockEntry} :
    lock.entry name = .ok e ↔ e ∈ lock.entries ∧ e.name = name := by
  rw [entry,expect_ok,entryNamed_eq_some]

end ComponentsLock
end AgentCentric.Boot

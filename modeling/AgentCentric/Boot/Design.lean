import AgentCentric.Agent.Message
import AgentCentric.Boot.Component
import AgentCentric.Network.Parse

namespace AgentCentric.Boot
open Network

/-- A component that a design asks for: a name, and a tag, range or commit. -/
@[ext]
structure RequestedComponent where
  name : String
  requested : String
  named : name ≠ ""
  given : requested ≠ ""

instance : DecidableEq RequestedComponent := fun _ _ => decidable_of_iff _ RequestedComponent.ext_iff.symm

structure EnvelopeGrant where
  component : String
  bounds : Dict String Json
  named : component ≠ ""

structure Design where
  network : List (String × Value)
  components : List RequestedComponent
  envelopes : List EnvelopeGrant
  requestedOnce : (components.map RequestedComponent.name).Nodup
  grantedOnce : (envelopes.map EnvelopeGrant.component).Nodup

structure DesignReport where
  ok : Bool
  errors : List String
  componentIds : List String

def maxComponents : Nat := 512

def envelopeBoundKeys : List String := ["step_limit","size_cap","latency_seconds","child_limit"]

def boundsError (label : String) (bounds : Dict String Json) : Option String :=
  let unknown := (bounds.keys.filter fun key =>
    key ∉ envelopeBoundKeys ∧ key ≠ "extra").insertionSort fun a b => a ≤ b
  if unknown ≠ [] then
    some (label ++ " has unsupported bound key(s) [" ++
      String.intercalate ", " (unknown.map pyRepr) ++ "]")
  else if envelopeBoundKeys.all fun key => ((bounds.get key).getD .null).isNull then
    some (label ++ " declares no resource bounds")
  else
    match bounds.get "extra" with
    | none => invalid
    | some (.dict _) => invalid
    | some _ => some (label ++ ".extra must be a mapping")
where
  invalid : Option String :=
    match ResourceEnvelope.fromPayload bounds.entries with
    | .ok _ => none
    | .error e => some (label ++ ": " ++ e.text)

/-- The loop over the grants, `seen` being the components granted so far. -/
def grantErrors (ids : List String) : List String → List EnvelopeGrant → List String
  | _, [] => []
  | seen, grant :: grants =>
    let label := "envelope for " ++ pyRepr grant.component
    (if grant.component ∈ ids then [] else [label ++ " references an unknown component"]) ++
    (if grant.component ∈ seen then ["duplicate " ++ label] else []) ++
    (boundsError label grant.bounds).toList ++
    grantErrors ids (grant.component :: seen) grants

def networkErrors (net : ComponentNetwork) : List String :=
  match (do net.validate; let _ ← net.compile; pure () : Except String Unit) with
  | .ok () => []
  | .error m => ["network: " ++ m]

def designErrors (design : Design) (net : ComponentNetwork) : List String :=
  let count := net.components.length
  (if count = 0 then ["network has no components"] else []) ++
  (if count > maxComponents then ["network has " ++ toString count ++
    " components, exceeding the " ++ toString maxComponents ++ "-component limit"] else []) ++
  ((design.components.filter fun c => (strip c.name.toList).isEmpty).map fun _ =>
    "requested component name is blank") ++
  grantErrors (net.components.map fun c => c.id) [] design.envelopes ++
  networkErrors net

/-- `validate_design`. An exception that is no `NetworkError` goes through. -/
def validateDesign (design : Design) : Except ParseError DesignReport :=
  match ComponentNetwork.fromDict design.network with
  | .error (.network m) => .ok ⟨false,["network: " ++ m],[]⟩
  | .error e => .error e
  | .ok net =>
    let errors := designErrors design net
    .ok ⟨errors.isEmpty,errors,net.sortedComponents.map fun c => c.id⟩

theorem boundsError_none {label : String} {bounds : Dict String Json}
    (h : boundsError label bounds = none) : bounds.entries ≠ [] := by
  intro hnil
  have hbounds : bounds = .empty := by
    cases bounds
    simp only at hnil
    subst hnil
    rfl
  rw [hbounds] at h
  revert h
  simp [boundsError,Dict.keys,Dict.empty,Dict.get,Dict.lookup,envelopeBoundKeys,Json.isNull]

theorem grantErrors_nil {ids seen : List String} {grants : List EnvelopeGrant}
    (h : grantErrors ids seen grants = []) :
    ∀ grant ∈ grants, grant.component ∈ ids ∧ grant.bounds.entries ≠ [] := by
  induction grants generalizing seen with
  | nil => simp
  | cons grant grants ih =>
    simp only [grantErrors,List.append_eq_nil_iff] at h
    obtain ⟨⟨⟨hknown,_⟩,hbounds⟩,hrest⟩ := h
    have hnone := Option.toList_eq_nil_iff.mp hbounds
    have hmem : grant.component ∈ ids := by
      by_contra hnot
      simp [hnot] at hknown
    intro g hg
    rcases List.mem_cons.mp hg with rfl | hg
    · exact ⟨hmem,boundsError_none hnone⟩
    · exact ih hrest g hg

theorem validateDesign_ok {design : Design} {report : DesignReport}
    (h : validateDesign design = .ok report) (hok : report.ok = true) :
    ∃ net, ComponentNetwork.fromDict design.network = .ok net ∧ designErrors design net = [] := by
  unfold validateDesign at h
  split at h
  · cases h
    cases hok
  · cases h
  · rename_i net hnet
    cases h
    exact ⟨net,hnet,List.isEmpty_iff.mp hok⟩

theorem validateDesign_grants {design : Design} {report : DesignReport}
    (h : validateDesign design = .ok report) (hok : report.ok = true) :
    ∃ net, ComponentNetwork.fromDict design.network = .ok net ∧
      ∀ grant ∈ design.envelopes, (grant.component ∈ net.components.map fun c => c.id) ∧
        grant.bounds.entries ≠ [] := by
  obtain ⟨net,hnet,herrors⟩ := validateDesign_ok h hok
  simp only [designErrors,List.append_eq_nil_iff] at herrors
  exact ⟨net,hnet,grantErrors_nil herrors.1.2⟩

end AgentCentric.Boot

namespace AgentCentric.Boot

/-- Where a requested component is pinned from: a local git repository, or a directory. -/
inductive SourceKind where
  | repository | directory
  deriving DecidableEq

/-- `ComponentPin` and `DirectoryPin`. -/
structure PinSource where
  kind : SourceKind
  path : String
  repoUrl : String
  signature : String
  located : repoUrl ≠ ""

/-- The host that a design is pinned on. `git` gives the commit of a ref and the bundle at it. -/
structure Workshop where
  codec : Codec
  isDir : String → Bool
  bundleDir : String → Except Raise Bytes
  git : String → String → Except Raise (String × Bytes)

structure PinnedComponent where
  commitSha : String
  treeSha256 : String
  bundle : Bytes

namespace Workshop
variable (shop : Workshop)

def pinFromGit (repo ref : String) : Except Raise PinnedComponent := do
  let (commit,bundle) ← shop.git repo ref
  pure ⟨commit,shop.codec.bundleSha256 bundle,bundle⟩

/-- A directory has no commit: its content address stands for it. -/
def pinFromDir (directory : String) : Except Raise PinnedComponent := do
  let bundle ← shop.bundleDir directory
  pure ⟨shop.codec.bundleSha256 bundle,shop.codec.bundleSha256 bundle,bundle⟩

def asPinError (name what : String) : Raise → Raise
  | .bundle m => .pin (name ++ ": cannot bundle " ++ what ++ ": " ++ m)
  | .git m => .pin (name ++ ": cannot resolve " ++ pyRepr what ++ ": " ++ m)
  | e => e

def pinSource (component : RequestedComponent) (source : PinSource) :
    Except Raise PinnedComponent :=
  match source.kind with
  | .directory => do
      require (shop.isDir source.path)
        (.pin (component.name ++ ": source directory " ++ source.path ++ " does not exist"))
      (shop.pinFromDir source.path).mapError (asPinError component.name source.path)
  | .repository => do
      require (shop.isDir source.path)
        (.pin (component.name ++ ": source repository " ++ source.path ++ " does not exist"))
      (shop.pinFromGit source.path component.requested).mapError
        (asPinError component.name component.requested)

def checkProvenance (name : String) (kind : SourceKind) (pinned : PinnedComponent) :
    Option Provenance → Except Raise Unit
  | none => .ok ()
  | some provenance => do
      require (provenance.treeSha256 = pinned.treeSha256)
        (.pin (name ++ ": manifest provenance tree does not match the pinned tree"))
      require (kind = .directory ∨ provenance.commitSha = pinned.commitSha)
        (.pin (name ++ ": manifest provenance does not match the pinned commit"))

def signatureOf (source : PinSource) (provenance : Option Provenance) : String :=
  if source.signature ≠ "" then source.signature
  else (provenance.map Provenance.signature).getD ""

/-- One round of the loop of `pin_design`. -/
def pinEntry (supported : List String) (envelopes : Dict String (Dict String Json))
    (sources : Dict String PinSource) (component : RequestedComponent) :
    Except Raise LockEntry := do
  let name := component.name
  let source ← expect (sources.get name)
    (.pin ("no source configured for requested component " ++ pyRepr name))
  let pinned ← shop.pinSource component source
  let manifest ← shop.codec.loadManifest pinned.bundle
  require (manifest.name = name) (.pin (name ++ ": pinned manifest is named " ++
    pyRepr manifest.name ++ " (identity mismatch)"))
  forEach (fun contract => require (contract ∈ supported)
    (.pin (name ++ ": implements unpinned contract " ++ pyRepr contract))) manifest.implements
  checkProvenance name source.kind pinned manifest.provenance
  let signature := signatureOf source manifest.provenance
  require (signature ≠ "") (.pin (name ++
    ": unsigned component; a design cannot introduce unsigned code"))
  LockEntry.new name source.repoUrl pinned.commitSha pinned.treeSha256 manifest.implements
    (manifest.capabilities.map Capability.name) signature ((envelopes.get name).getD .empty)

def byName (a b : RequestedComponent) : Prop := a.name ≤ b.name

instance : DecidableRel byName := fun a b => inferInstanceAs (Decidable (a.name ≤ b.name))

def requestedOf (design : Design) : List RequestedComponent :=
  design.components.insertionSort byName

def envelopesByComponent (design : Design) : Dict String (Dict String Json) :=
  Dict.empty.update (design.envelopes.map fun grant => (grant.component,grant.bounds))

def pinDesign (design : Design) (sources : Dict String PinSource) (root : String)
    (harnessContracts : List String) : Except Raise ComponentsLock := do
  let report ← (validateDesign design).mapError fun _ => Raise.other "invalid network"
  require report.ok (.pin ("invalid design: " ++ String.intercalate "; " report.errors))
  require (¬ design.components.isEmpty) (.pin "design requests no components")
  let requested := requestedOf design
  require (root ∈ requested.map RequestedComponent.name)
    (.pin ("lock root " ++ pyRepr root ++ " is not among the requested components"))
  let entries ← requested.mapM
    (shop.pinEntry harnessContracts (envelopesByComponent design) sources)
  ComponentsLock.new root entries harnessContracts

end Workshop

variable {shop : Workshop} {supported : List String} {envelopes : Dict String (Dict String Json)}
  {sources : Dict String PinSource} {component : RequestedComponent} {e : LockEntry}

def Workshop.Bundles (shop : Workshop) (sources : Dict String PinSource)
    (component : RequestedComponent) (bundle : Bytes) : Prop :=
  ∃ source pinned, sources.get component.name = some source ∧
    shop.pinSource component source = .ok pinned ∧ pinned.bundle = bundle

structure Pinned (shop : Workshop) (supported : List String)
    (envelopes : Dict String (Dict String Json)) (sources : Dict String PinSource)
    (component : RequestedComponent) (bundle : Bytes) (manifest : ComponentManifest)
    (e : LockEntry) : Prop where
  name : e.name = component.name
  bundles : shop.Bundles sources component bundle
  hash : shop.codec.bundleSha256 bundle = e.treeSha256
  loads : shop.codec.loadManifest bundle = .ok manifest
  named : manifest.name = e.name
  implements : e.implements = manifest.implements
  supported : ∀ contract ∈ manifest.implements, contract ∈ supported
  signed : e.signature ≠ ""
  envelope : e.envelope = (envelopes.get e.name).getD .empty

theorem pinSource_hash {source : PinSource} {pinned : PinnedComponent}
    (h : shop.pinSource component source = .ok pinned) :
    shop.codec.bundleSha256 pinned.bundle = pinned.treeSha256 := by
  unfold Workshop.pinSource at h
  split at h
  all_goals
    obtain ⟨_,_,hpin⟩ := bind_ok.mp h
  · obtain ⟨bundle,_,hmk⟩ := bind_ok.mp (mapError_ok.mp hpin)
    cases hmk
    rfl
  · obtain ⟨pair,_,hmk⟩ := bind_ok.mp (mapError_ok.mp hpin)
    cases hmk
    rfl

theorem pinEntry_pinned (h : shop.pinEntry supported envelopes sources component = .ok e) :
    ∃ bundle manifest, Pinned shop supported envelopes sources component bundle manifest e := by
  simp only [Workshop.pinEntry] at h
  obtain ⟨source,hsource,h⟩ := bind_ok.mp h
  obtain ⟨pinned,hpinned,h⟩ := bind_ok.mp h
  obtain ⟨manifest,hmanifest,h⟩ := bind_ok.mp h
  obtain ⟨_,hname,h⟩ := bind_ok.mp h
  obtain ⟨_,hcontracts,h⟩ := bind_ok.mp h
  obtain ⟨_,_,h⟩ := bind_ok.mp h
  obtain ⟨_,hsigned,h⟩ := bind_ok.mp h
  obtain ⟨hen,heh,hei,hes,hee⟩ := LockEntry.new_ok h
  refine ⟨pinned.bundle,manifest,hen,⟨source,pinned,expect_ok.mp hsource,hpinned,rfl⟩,?_,hmanifest,?_,hei,?_,?_,?_⟩
  · rw [heh]
    exact pinSource_hash hpinned
  · rw [hen]
    simpa using hname
  · intro contract hmem
    simpa using forEach_ok.mp hcontracts contract hmem
  · rw [hes]
    simpa using hsigned
  · rw [hee,hen]

variable {design : Design} {root : String} {contracts : List String} {lock : ComponentsLock}

structure PinnedLock (shop : Workshop) (design : Design) (sources : Dict String PinSource)
    (root : String) (contracts : List String) (lock : ComponentsLock) : Prop where
  valid : ∃ report, validateDesign design = .ok report ∧ report.ok = true
  entries : (Workshop.requestedOf design).mapM
    (shop.pinEntry contracts (Workshop.envelopesByComponent design) sources) = .ok lock.entries
  root : lock.root = root
  contracts : lock.harnessContracts = contracts

theorem pinDesign_pinned (h : shop.pinDesign design sources root contracts = .ok lock) :
    PinnedLock shop design sources root contracts lock := by
  unfold Workshop.pinDesign at h
  obtain ⟨report,hreport,h⟩ := bind_ok.mp h
  obtain ⟨_,hok,h⟩ := bind_ok.mp h
  obtain ⟨_,_,h⟩ := bind_ok.mp h
  obtain ⟨_,_,h⟩ := bind_ok.mp h
  obtain ⟨entries,hentries,h⟩ := bind_ok.mp h
  obtain ⟨hroot,hes,hcontracts⟩ := ComponentsLock.new_ok h
  exact ⟨⟨report,mapError_ok.mp hreport,by simpa using hok⟩,hes ▸ hentries,hroot,hcontracts⟩

theorem mem_requestedOf {design : Design} {c : RequestedComponent} :
    c ∈ Workshop.requestedOf design ↔ c ∈ design.components :=
  List.mem_insertionSort _

theorem PinnedLock.mem_names (h : PinnedLock shop design sources root contracts lock)
    (name : String) :
    (∃ e ∈ lock.entries, e.name = name) ↔ ∃ c ∈ design.components, c.name = name := by
  constructor
  · rintro ⟨e,hmem,rfl⟩
    obtain ⟨c,hc,hpin⟩ := (mem_mapM h.entries).mp hmem
    obtain ⟨_,_,hpinned⟩ := pinEntry_pinned hpin
    exact ⟨c,mem_requestedOf.mp hc,hpinned.name.symm⟩
  · rintro ⟨c,hc,rfl⟩
    obtain ⟨e,hpin⟩ := mapM_returns.mp ⟨_,h.entries⟩ c (mem_requestedOf.mpr hc)
    obtain ⟨_,_,hpinned⟩ := pinEntry_pinned hpin
    exact ⟨e,(mem_mapM h.entries).mpr ⟨c,mem_requestedOf.mpr hc,hpin⟩,hpinned.name⟩

theorem PinnedLock.pinned (h : PinnedLock shop design sources root contracts lock)
    (hmem : e ∈ lock.entries) :
    ∃ component ∈ design.components, ∃ bundle manifest, Pinned shop contracts
      (Workshop.envelopesByComponent design) sources component bundle manifest e := by
  obtain ⟨c,hc,hpin⟩ := (mem_mapM h.entries).mp hmem
  exact ⟨c,mem_requestedOf.mp hc,pinEntry_pinned hpin⟩

theorem envelopesByComponent_get {grant : EnvelopeGrant} (hmem : grant ∈ design.envelopes) :
    (Workshop.envelopesByComponent design).get grant.component = some grant.bounds := by
  unfold Workshop.envelopesByComponent
  apply Dict.get_update_of_mem
  · rw [List.map_map]
    exact design.grantedOnce
  · exact List.mem_map_of_mem hmem

end AgentCentric.Boot

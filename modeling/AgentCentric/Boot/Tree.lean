import AgentCentric.Boot.Grants
import AgentCentric.Boot.Log
import AgentCentric.Boot.Resolve

namespace AgentCentric.Boot

structure BootedComponent where
  name : String
  digest : String
  manifest : ComponentManifest
  entry : Entry
  statePath : Option String

structure BootedTree where
  lockHash : String
  root : String
  components : List BootedComponent
  lockVerified : Bool

/-- `by_name`: the last component of a name. -/
def BootedTree.byName (tree : BootedTree) (name : String) : Option BootedComponent :=
  tree.components.reverse.find? fun c => c.name = name

/-- What `boot_from_lock` is called with. `materialize` makes the state file of a component. -/
structure BootCall where
  resolver : Resolver
  cache : ContentAddressedCache
  harness : Harness
  materialize : String → StateDescriptor → Except Raise String
  expectedLockHash : Option String
  allowSubprocess : Bool
  lockSignature : Option String
  lockVerifier : Option SignatureVerifier
  transparency : Option TransparencyLog
  expectedTransparencyHead : Option String

namespace BootCall
variable (b : BootCall)

def unverified : Raise → Raise
  | .signature m => .boot ("lock signature verification failed: " ++ m)
  | e => e

def verifyLockSignature (lockHash signature : String) : Except Raise Unit := do
  let verify ← expect b.lockVerifier
    (.boot "a lock signature was provided but no lock verifier is configured")
  require (signature ≠ "") (.boot "a lock verifier is configured but the lock is unsigned")
  (verify (encode lockHash) (encode signature)).mapError unverified

def unpublished : Raise → Raise
  | .transparency m => .boot ("transparency log verification failed: " ++ m)
  | e => e

def verifyTransparency (log : TransparencyLog) (lockHash : String) : Except Raise Unit := do
  let verify ← expect b.lockVerifier
    (.boot "a transparency log was provided but no lock verifier is configured")
  let entries ← (log.verify b.resolver.codec verify b.expectedTransparencyHead).mapError
    unpublished
  require (entries.any fun e => e.lockHash = lockHash)
    (.boot "lock is not published in the transparency log")

def checkSigned (lockHash : String) : Except Raise Bool :=
  match b.lockSignature with
  | some signature => do
      b.verifyLockSignature lockHash signature
      pure true
  | none => do
      require (b.lockVerifier.isNone || b.transparency.isSome)
        (.boot "a lock verifier is configured but the lock is unsigned")
      pure false

def checkPublished (lockHash : String) (verified : Bool) : Except Raise Bool :=
  match b.transparency with
  | none => pure verified
  | some log => do
      b.verifyTransparency log lockHash
      pure true

def checkExpected (lockHash : String) : Option String → Except Raise Unit
  | none => .ok ()
  | some expected => require (lockHash = expected) (.boot ("lock hash mismatch: expected " ++
      expected ++ ", got " ++ lockHash))

def sortedText (xs : List String) : String :=
  "[" ++ String.intercalate ", " ((xs.dedup.insertionSort fun a b => a ≤ b).map pyRepr) ++ "]"

def checkConformance (node : ResolvedNode) (supported : List String) : Except Raise Unit := do
  require (node.manifest.name = node.name) (.boot (node.name ++ ": manifest names " ++
    pyRepr node.manifest.name ++ " (component identity mismatch)"))
  let undeclared := node.manifest.implements.filter (· ∉ node.entry.implements)
  require (undeclared.isEmpty) (.boot (node.name ++ ": manifest implements " ++
    sortedText undeclared ++ " not pinned by the lock entry"))
  let unknown := node.entry.implements.filter (· ∉ supported)
  require (unknown.isEmpty) (.boot (node.name ++
    ": lock entry implements unknown contract(s) " ++ sortedText unknown))

def stateOf (name : String) : Option StateDescriptor → Except Raise (Option String)
  | none => .ok none
  | some descriptor => do
      let path ← b.materialize name descriptor
      pure (some path)

def resolveEntry (cache : ContentAddressedCache) (node : ResolvedNode) : Except Raise Entry :=
  b.harness.entryOf b.allowSubprocess
    (fun m => .boot (node.name ++ ": entry not executable: " ++ m))
    (do
      let cached ← cache.get b.resolver.codec node.digest
      expect cached (.boot (node.name ++ ": verified bundle missing from the cache")))
    node.manifest.entry

def bootNode (cache : ContentAddressedCache) (node : ResolvedNode) :
    Except Raise BootedComponent := do
  checkConformance node b.resolver.lock.harnessContracts
  let statePath ← b.stateOf node.name node.manifest.state
  let entry ← b.resolveEntry cache node
  pure ⟨node.name,node.digest,node.manifest,entry,statePath⟩

def bootFromLock : Except Raise BootedTree := do
  let lock := b.resolver.lock
  let lockHash := lock.lockHash b.resolver.codec
  let signed ← b.checkSigned lockHash
  let verified ← b.checkPublished lockHash signed
  checkExpected lockHash b.expectedLockHash
  let (nodes,cache) ← b.resolver.resolveGraph b.cache lock.root
  require (¬ nodes.isEmpty) (.boot "resolved component graph is empty")
  require (nodes.getLast?.any fun node => node.name = lock.root)
    (.boot ("resolved graph does not end at the lock root " ++ pyRepr lock.root))
  let components ← nodes.mapM (b.bootNode cache)
  pure ⟨lockHash,lock.root,components,verified⟩

structure FromPin (e : LockEntry) (data : Bytes) (c : BootedComponent) : Prop where
  accepted : b.resolver.Accepted e data
  entry : e.name = c.name
  digest : c.digest = b.resolver.codec.bundleSha256 data
  loads : b.resolver.codec.loadManifest data = .ok c.manifest
  named : c.manifest.name = e.name
  implements : ∀ contract ∈ c.manifest.implements, contract ∈ e.implements
  runs : b.harness.Runs c.manifest.entry data c.entry

/-- The signature over the hash of the lock that `lock_verifier` accepted. -/
structure LockSigned (lockHash : String) : Prop where
  given : b.lockSignature.isSome ∨ b.transparency.isSome
  verifier : ∃ verify, b.lockVerifier = some verify ∧
    (∀ signature ∈ b.lockSignature, verify (encode lockHash) (encode signature) = .ok ()) ∧
    ∀ log ∈ b.transparency, ∃ entries, TransparencyLog.Verified b.resolver.codec log verify
      b.expectedTransparencyHead entries ∧ ∃ e ∈ entries, e.lockHash = lockHash

structure Trusted (tree : BootedTree) : Prop where
  lockHash : tree.lockHash = b.resolver.lock.lockHash b.resolver.codec
  root : tree.root = b.resolver.lock.root
  expected : ∀ expected ∈ b.expectedLockHash, tree.lockHash = expected
  once : (tree.components.map BootedComponent.name).Nodup
  reachable : ∀ name, name ∈ tree.components.map BootedComponent.name ↔
    Relation.ReflTransGen b.resolver.RefChild b.resolver.lock.root name
  components : ∀ c ∈ tree.components, ∃ e data, b.FromPin e data c
  verified : tree.lockVerified = true → b.LockSigned tree.lockHash

variable {b} {lockHash : String}

theorem verifyLockSignature_ok {signature : String} {u : Unit}
    (h : b.verifyLockSignature lockHash signature = .ok u) :
    ∃ verify, b.lockVerifier = some verify ∧
      verify (encode lockHash) (encode signature) = .ok () := by
  unfold verifyLockSignature at h
  obtain ⟨verify,hverify,h⟩ := bind_ok.mp h
  obtain ⟨_,_,h⟩ := bind_ok.mp h
  exact ⟨verify,expect_ok.mp hverify,mapError_ok.mp h⟩

theorem verifyTransparency_ok {log : TransparencyLog} {u : Unit}
    (h : b.verifyTransparency log lockHash = .ok u) :
    ∃ verify, b.lockVerifier = some verify ∧ ∃ entries, TransparencyLog.Verified
      b.resolver.codec log verify b.expectedTransparencyHead entries ∧
        ∃ e ∈ entries, e.lockHash = lockHash := by
  unfold verifyTransparency at h
  obtain ⟨verify,hverify,h⟩ := bind_ok.mp h
  obtain ⟨entries,hentries,h⟩ := bind_ok.mp h
  refine ⟨verify,expect_ok.mp hverify,entries,
    TransparencyLog.verify_ok (mapError_ok.mp hentries),?_⟩
  simpa using h

theorem lockSigned_of_checks {signed verified : Bool}
    (hsigned : b.checkSigned lockHash = .ok signed)
    (hpublished : b.checkPublished lockHash signed = .ok verified) (hverified : verified = true) :
    b.LockSigned lockHash := by
  have hsignature : ∀ signature ∈ b.lockSignature, ∃ verify, b.lockVerifier = some verify ∧
      verify (encode lockHash) (encode signature) = .ok () := by
    intro signature hmem
    rw [Option.mem_def] at hmem
    unfold checkSigned at hsigned
    rw [hmem] at hsigned
    obtain ⟨_,hsigned,_⟩ := bind_ok.mp hsigned
    exact verifyLockSignature_ok hsigned
  have hlog : ∀ log ∈ b.transparency, ∃ verify, b.lockVerifier = some verify ∧
      ∃ entries, TransparencyLog.Verified b.resolver.codec log verify
        b.expectedTransparencyHead entries ∧ ∃ e ∈ entries, e.lockHash = lockHash := by
    intro log hmem
    rw [Option.mem_def] at hmem
    unfold checkPublished at hpublished
    rw [hmem] at hpublished
    obtain ⟨_,hpublished,_⟩ := bind_ok.mp hpublished
    exact verifyTransparency_ok hpublished
  have hgiven : b.lockSignature.isSome ∨ b.transparency.isSome := by
    cases hs : b.lockSignature with
    | some _ => exact .inl rfl
    | none =>
      cases ht : b.transparency with
      | some _ => exact .inr rfl
      | none =>
        unfold checkSigned at hsigned
        unfold checkPublished at hpublished
        rw [hs] at hsigned
        rw [ht] at hpublished
        obtain ⟨_,_,hsigned⟩ := bind_ok.mp hsigned
        cases hsigned
        cases hpublished
        cases hverified
  have hverifier : ∃ verify, b.lockVerifier = some verify := by
    rcases hgiven with hgiven | hgiven
    · obtain ⟨signature,hmem⟩ := Option.isSome_iff_exists.mp hgiven
      obtain ⟨verify,hverify,_⟩ := hsignature signature hmem
      exact ⟨verify,hverify⟩
    · obtain ⟨log,hmem⟩ := Option.isSome_iff_exists.mp hgiven
      obtain ⟨verify,hverify,_⟩ := hlog log hmem
      exact ⟨verify,hverify⟩
  obtain ⟨verify,hverify⟩ := hverifier
  refine ⟨hgiven,verify,hverify,?_,?_⟩
  · intro signature hmem
    obtain ⟨w,hw,haccepted⟩ := hsignature signature hmem
    obtain rfl : verify = w := Option.some.inj (hverify.symm.trans hw)
    exact haccepted
  · intro log hmem
    obtain ⟨w,hw,hentries⟩ := hlog log hmem
    obtain rfl : verify = w := Option.some.inj (hverify.symm.trans hw)
    exact hentries

theorem checkConformance_ok {node : ResolvedNode} {supported : List String} {u : Unit}
    (h : checkConformance node supported = .ok u) : node.manifest.name = node.name ∧
      ∀ contract ∈ node.manifest.implements, contract ∈ node.entry.implements := by
  unfold checkConformance at h
  obtain ⟨_,hname,h⟩ := bind_ok.mp h
  obtain ⟨_,hdeclared,_⟩ := bind_ok.mp h
  refine ⟨by simpa using hname,fun contract hmem => ?_⟩
  by_contra hout
  have hfilter : contract ∈ node.manifest.implements.filter (· ∉ node.entry.implements) := by
    simp [hmem,hout]
  simp only [require_ok,List.isEmpty_iff] at hdeclared
  rw [hdeclared] at hfilter
  cases hfilter

theorem bootNode_name {cache : ContentAddressedCache} {node : ResolvedNode} {c : BootedComponent}
    (h : b.bootNode cache node = .ok c) : c.name = node.name := by
  unfold bootNode at h
  obtain ⟨_,_,h⟩ := bind_ok.mp h
  obtain ⟨_,_,h⟩ := bind_ok.mp h
  obtain ⟨_,_,h⟩ := bind_ok.mp h
  cases h
  rfl

theorem bootNode_ok {cache : ContentAddressedCache} {node : ResolvedNode} {data : Bytes}
    {c : BootedComponent} (hfree : b.resolver.CollisionFree b.cache)
    (hcache : b.resolver.CacheHandled b.cache cache)
    (hnode : b.resolver.ResolvedFrom node.name node data) (h : b.bootNode cache node = .ok c) :
    b.FromPin node.entry data c := by
  unfold bootNode at h
  obtain ⟨_,hconforms,h⟩ := bind_ok.mp h
  obtain ⟨path,_,h⟩ := bind_ok.mp h
  obtain ⟨entry,hentry,h⟩ := bind_ok.mp h
  cases h
  obtain ⟨hname,himplements⟩ := checkConformance_ok hconforms
  have hpinned := (ComponentsLock.entryNamed_eq_some.mp hnode.entry).2
  refine ⟨hnode.accepted,hpinned,hnode.digest,hnode.loads,hname.trans hpinned.symm,himplements,?_⟩
  rcases b.harness.entryOf_ok hentry with ⟨rfl,hallowed⟩ | ⟨bundle,hbundle,_,rfl⟩
  · exact .installed hallowed
  · obtain ⟨cached,hcached,hbundle⟩ := bind_ok.mp hbundle
    rw [expect_ok.mp hbundle,hnode.digest] at hcached
    obtain rfl := Resolver.get_accepted hfree hcache hnode.accepted hcached
    exact .isolated

/-- The components of a booted tree are those that the lock pins below its root, each with what
its own pinned bytes say. -/
theorem bootFromLock_trusted {tree : BootedTree} (hfree : b.resolver.CollisionFree b.cache)
    (h : b.bootFromLock = .ok tree) : b.Trusted tree := by
  unfold bootFromLock at h
  obtain ⟨signed,hsigned,h⟩ := bind_ok.mp h
  obtain ⟨verified,hpublished,h⟩ := bind_ok.mp h
  obtain ⟨_,hexpected,h⟩ := bind_ok.mp h
  obtain ⟨⟨nodes,cache⟩,hgraph,h⟩ := bind_ok.mp h
  obtain ⟨_,_,h⟩ := bind_ok.mp h
  obtain ⟨_,_,h⟩ := bind_ok.mp h
  obtain ⟨components,hcomponents,h⟩ := bind_ok.mp h
  cases h
  obtain ⟨hcache,hnodup,hnodes,hreach⟩ := Resolver.resolveGraph_resolved hfree hgraph
  have hnames : components.map BootedComponent.name = nodes.map ResolvedNode.name :=
    map_of_mapM (fun _ _ hboot => bootNode_name hboot) hcomponents
  refine ⟨rfl,rfl,?_,hnames ▸ hnodup,fun name => hnames ▸ hreach name,?_,
    lockSigned_of_checks hsigned hpublished⟩
  · intro expected hmem
    rw [Option.mem_def] at hmem
    rw [hmem] at hexpected
    simpa [checkExpected] using hexpected
  · intro c hc
    obtain ⟨node,hnode,hboot⟩ := (mem_mapM hcomponents).mp hc
    obtain ⟨data,hdata⟩ := hnodes node hnode
    exact ⟨node.entry,data,bootNode_ok hfree hcache hdata hboot⟩

end BootCall

namespace Scene

def compositeOf (name child : String) : Json :=
  .dict [("version",.str "component.v1"),("name",.str name),("kind",.str "composite"),
    ("entry",.dict [("runtime",.str "python"),("entrypoint",.str "tools:run")]),
    ("implements",.list [.str "component.v1"]),("children",.list [.dict [("ref",.str child)]])]

def shellBundle : Bytes :=
  tarOf "component.json" (encode (compositeOf "shell" "worker").compact)

def pinOf (name : String) (h : name ≠ "") (bundle : Bytes) : LockEntry where
  name := name
  repoUrl := "ssh://localhost/" ++ name
  commitSha := String.ofList (List.replicate 40 '0')
  treeSha256 := codec.bundleSha256 bundle
  implements := ["component.v1"]
  capabilities := []
  signature := "good"
  envelope := .empty
  named := h
  located := by simp
  commit := by decide
  hash := ContentAddressedCache.isSha256_bundle codec bundle
  conforming := by simp

def lock : ComponentsLock where
  root := "shell"
  entries := [pinOf "shell" shell_ne shellBundle,pinOf "worker" worker_ne (bundleOf "worker")]
  harnessContracts := ["component.v1"]
  contracted := by simp
  unique := by simp [pinOf]
  rooted := by simp [pinOf]

def call : BootCall where
  resolver := ⟨codec,lock,fun e => .ok (if e.name = "shell" then shellBundle
    else bundleOf "worker"),some verifier⟩
  cache := ⟨.empty⟩
  harness := harness
  materialize := fun name _ => .ok name
  expectedLockHash := none
  allowSubprocess := false
  lockSignature := some "good"
  lockVerifier := some verifier
  transparency := none
  expectedTransparencyHead := none

theorem handled {data : Bytes} (h : call.resolver.Handled call.cache data) :
    data = shellBundle ∨ data = bundleOf "worker" := by
  rcases h with ⟨e,_,he⟩ | ⟨digest,he⟩
  · simp only [call,Except.ok.injEq] at he
    split at he
    · exact .inl he.symm
    · exact .inr he.symm
  · cases he

theorem collisionFree : call.resolver.CollisionFree call.cache := by
  have hne : checksum shellBundle ≠ checksum (bundleOf "worker") := by decide +kernel
  intro a b ha hb hsame
  rcases handled ha with rfl | rfl <;> rcases handled hb with rfl | rfl
  · rfl
  · exact absurd hsame hne
  · exact absurd hsame hne.symm
  · rfl

end Scene

theorem BootCall.bootFromLock_trusted_shell : ∃ tree, Scene.call.bootFromLock = .ok tree ∧
    tree.components.map BootedComponent.name = ["worker","shell"] ∧ Scene.call.Trusted tree := by
  have hboot : (Scene.call.bootFromLock.toOption.any fun tree =>
      tree.components.map BootedComponent.name = ["worker","shell"]) = true := by decide +kernel
  obtain ⟨tree,htree,hnames⟩ := ok_of_any hboot
  exact ⟨tree,htree,by simpa using hnames,bootFromLock_trusted Scene.collisionFree htree⟩

end AgentCentric.Boot

import AgentCentric.Boot.Runtime
import AgentCentric.Library.PostOrder

namespace AgentCentric.Boot

abbrev ComponentSource := LockEntry → Except Raise Bytes

structure ResolvedComponent where
  entry : LockEntry
  digest : String
  size : Nat

/-- `Resolver`, without the cache that it writes to. -/
structure Resolver where
  codec : Codec
  lock : ComponentsLock
  source : ComponentSource
  verifier : Option SignatureVerifier

inductive ResolvedChild where
  | embed (target : String) (manifest : ComponentManifest)
  | ref (target : String) (entry : LockEntry)

def ResolvedChild.refTarget : ResolvedChild → Option String
  | embed _ _ => none
  | ref target _ => some target

structure ResolvedNode where
  name : String
  entry : LockEntry
  digest : String
  manifest : ComponentManifest
  children : List ResolvedChild

variable {before : ContentAddressedCache} {e : LockEntry} {data : Bytes}

namespace Resolver
variable (r : Resolver)

def checkSignature (name : String) (data : Bytes) (e : LockEntry) : Except Raise Unit :=
  match r.verifier with
  | none => .error (.resolve
      (name ++ ": signature verification required but no verifier configured"))
  | some verify =>
    (verify data (encode e.signature)).mapError (rejected name)
where
  rejected (name : String) : Raise → Raise
    | .signature m => .resolve (name ++ ": signature verification failed: " ++ m)
    | e => e

def resolve (cache : ContentAddressedCache) (name : String) :
    Except Raise (ResolvedComponent × ContentAddressedCache) := do
  let entry ← r.lock.entry name
  let data ← r.source entry
  let digest := r.codec.bundleSha256 data
  require (digest = entry.treeSha256) (.resolve (name ++ ": tree hash mismatch (expected " ++
    entry.treeSha256 ++ ", got " ++ digest ++ ")"))
  forEach (fun contract => require (contract ∈ r.lock.harnessContracts)
    (.resolve (name ++ ": implements unknown contract " ++ pyRepr contract))) entry.implements
  r.checkSignature name data entry
  pure (⟨entry,digest,data.length⟩,cache.put r.codec data)

def resolveEach : ContentAddressedCache → List LockEntry →
    Except Raise (List ResolvedComponent × ContentAddressedCache)
  | cache, [] => .ok ([],cache)
  | cache, e :: es => do
      let (first,cache) ← r.resolve cache e.name
      let (rest,cache) ← resolveEach cache es
      pure (first :: rest,cache)

/-- `resolve_all`, in the order of the names. -/
def resolveAll (cache : ContentAddressedCache) :
    Except Raise (List ResolvedComponent × ContentAddressedCache) :=
  r.resolveEach cache (r.lock.entries.insertionSort fun a b => a.name ≤ b.name)

/-- `target.rstrip("/")`. -/
def withoutSlashes (target : String) : String :=
  String.ofList (target.toList.reverse.dropWhile fun c => c = '/').reverse

def invalidEmbedded (parent target : String) : Raise → Raise
  | .attributeError => .attributeError
  | e => .graph (parent ++ ": embedded child " ++ pyRepr target ++
      " is not a valid component.v1: " ++ e.text)

def missingManifest (parent target : String) : Raise → Raise
  | .bundle _ => .graph (parent ++ ": embedded child " ++ pyRepr target ++
      " has no component.json")
  | e => e

def embeddedManifest (parent : String) (bundle : Bytes) (child : ChildRef) :
    Except Raise ComponentManifest := do
  let target := withoutSlashes child.target
  let start := target ++ "/"
  let members ← r.codec.listMembers bundle
  require (members.any fun m => start.toList.isPrefixOf m.toList)
    (.graph (parent ++ ": embedded child " ++ pyRepr target ++ " is absent from the bundle"))
  let raw ← (r.codec.readMember bundle (start ++ "component.json")).mapError
    (missingManifest parent target)
  let embedded ← (r.codec.manifestOf raw).mapError (invalidEmbedded parent target)
  require (embedded.children.isEmpty ∧ embedded.kind ≠ .composite) (.graph (parent ++
    ": embedded child " ++ pyRepr target ++
    " is a nested composite; not supported in Phase 1b"))
  pure embedded

def childBefore (a b : ChildRef) : Prop :=
  a.mode.name < b.mode.name ∨ a.mode.name = b.mode.name ∧ a.target ≤ b.target

instance : DecidableRel childBefore := fun a b =>
  inferInstanceAs (Decidable (a.mode.name < b.mode.name ∨
    a.mode.name = b.mode.name ∧ a.target ≤ b.target))

def resolveChild (name : String) (bundle : Bytes) (child : ChildRef) :
    Except Raise ResolvedChild :=
  match child.mode with
  | .ref => do
      let entry ← expect (r.lock.entryNamed child.target) (.graph (name ++
        ": referenced child " ++ pyRepr child.target ++ " is not in the lock"))
      pure (.ref child.target entry)
  | .embed => do
      let manifest ← r.embeddedManifest name bundle child
      pure (.embed child.target manifest)

def resolveChildren (name : String) (bundle : Bytes) (manifest : ComponentManifest) :
    Except Raise (List ResolvedChild) :=
  (manifest.children.insertionSort childBefore).mapM (r.resolveChild name bundle)

def resolveNode (cache : ContentAddressedCache) (name : String) :
    Except Raise (ResolvedNode × ContentAddressedCache) := do
  let entry ← expect (r.lock.entryNamed name)
    (.graph ("referenced component " ++ pyRepr name ++ " is not in the lock"))
  let (resolved,cache) ← r.resolve cache name
  let cached ← cache.get r.codec resolved.digest
  let bundle ← expect cached (.graph (name ++ ": verified bundle missing from the cache"))
  let manifest ← r.codec.loadManifest bundle
  let children ← r.resolveChildren name bundle manifest
  pure (⟨name,entry,resolved.digest,manifest,children⟩,cache)

/-- `ComponentGraphResolver`: leaves first. -/
def explorer : Explorer String ResolvedNode ContentAddressedCache Raise where
  resolve := r.resolveNode
  children := fun node => node.children.filterMap ResolvedChild.refTarget
  cycle := fun name => .graph ("component reference cycle detected at " ++ pyRepr name)

/-- `resolve_graph`. A path without a cycle is no longer than the lock. -/
def resolveGraph (cache : ContentAddressedCache) (root : String) :
    Except Raise (List ResolvedNode × ContentAddressedCache) := do
  let (done,cache) ← r.explorer.visit r.lock.entries.length [] root ([],cache)
  pure (done.map Prod.snd,cache)

def Handled (cache : ContentAddressedCache) (data : Bytes) : Prop :=
  (∃ e ∈ r.lock.entries, r.source e = .ok data) ∨
    ∃ digest, cache.files.get digest = some data

/-- No two of the bytes in play have the same hash. -/
def CollisionFree (cache : ContentAddressedCache) : Prop :=
  ∀ a b, r.Handled cache a → r.Handled cache b → r.codec.sha256 a = r.codec.sha256 b → a = b

/-- The artifact of an entry, with all that is checked of it before its manifest is read. -/
structure Accepted (e : LockEntry) (data : Bytes) : Prop where
  pinned : e ∈ r.lock.entries
  fetched : r.source e = .ok data
  hash : r.codec.bundleSha256 data = e.treeSha256
  supported : ∀ contract ∈ e.implements, contract ∈ r.lock.harnessContracts
  accepted : ∃ verify, r.verifier = some verify ∧ verify data (encode e.signature) = .ok ()

def RefChild (parent child : String) : Prop :=
  ∃ e data manifest, r.lock.entryNamed parent = some e ∧ r.source e = .ok data ∧
    r.codec.loadManifest data = .ok manifest ∧
      ∃ ref ∈ manifest.children, ref.mode = .ref ∧ ref.target = child

structure ResolvedFrom (name : String) (node : ResolvedNode) (data : Bytes) : Prop where
  called : node.name = name
  entry : r.lock.entryNamed name = some node.entry
  accepted : r.Accepted node.entry data
  digest : node.digest = r.codec.bundleSha256 data
  loads : r.codec.loadManifest data = .ok node.manifest
  children : ∀ c, c ∈ node.children.filterMap ResolvedChild.refTarget ↔
    ∃ ref ∈ node.manifest.children, ref.mode = .ref ∧ ref.target = c

variable {r} {cache cache' : ContentAddressedCache} {name : String}

theorem checkSignature_ok {u : Unit} (h : r.checkSignature name data e = .ok u) :
    ∃ verify, r.verifier = some verify ∧ verify data (encode e.signature) = .ok () := by
  unfold checkSignature at h
  split at h
  · cases h
  · rename_i verify hverify
    exact ⟨verify,hverify,mapError_ok.mp h⟩

theorem resolve_ok {c : ResolvedComponent} (h : r.resolve cache name = .ok (c,cache')) :
    ∃ data, r.lock.entryNamed name = some c.entry ∧ r.Accepted c.entry data ∧
      c.digest = r.codec.bundleSha256 data ∧ cache' = cache.put r.codec data := by
  unfold resolve at h
  obtain ⟨e,he,h⟩ := bind_ok.mp h
  obtain ⟨data,hdata,h⟩ := bind_ok.mp h
  obtain ⟨_,hhash,h⟩ := bind_ok.mp h
  obtain ⟨_,hcontracts,h⟩ := bind_ok.mp h
  obtain ⟨_,hsigned,h⟩ := bind_ok.mp h
  cases h
  have hnamed := expect_ok.mp he
  refine ⟨data,hnamed,⟨(ComponentsLock.entryNamed_eq_some.mp hnamed).1,hdata,by simpa using hhash,
    fun contract hmem => ?_,checkSignature_ok hsigned⟩,rfl,rfl⟩
  simpa using forEach_ok.mp hcontracts contract hmem

theorem resolveChildren_refs {bundle : Bytes} {manifest : ComponentManifest}
    {children : List ResolvedChild}
    (h : r.resolveChildren name bundle manifest = .ok children) (c : String) :
    c ∈ children.filterMap ResolvedChild.refTarget ↔
      ∃ ref ∈ manifest.children, ref.mode = .ref ∧ ref.target = c := by
  have hone : ∀ (ref : ChildRef) child, r.resolveChild name bundle ref = .ok child →
      (child.refTarget = some c ↔ ref.mode = .ref ∧ ref.target = c) := by
    intro ref child hchild
    unfold resolveChild at hchild
    split at hchild
    · rename_i hmode
      obtain ⟨_,_,hchild⟩ := bind_ok.mp hchild
      cases hchild
      simp [ResolvedChild.refTarget,hmode]
    · rename_i hmode
      obtain ⟨_,_,hchild⟩ := bind_ok.mp hchild
      cases hchild
      simp [ResolvedChild.refTarget,hmode]
  rw [List.mem_filterMap]
  constructor
  · rintro ⟨child,hmem,htarget⟩
    obtain ⟨ref,href,hchild⟩ := (mem_mapM h).mp hmem
    exact ⟨ref,(List.mem_insertionSort _).mp href,(hone ref child hchild).mp htarget⟩
  · rintro ⟨ref,href,hc⟩
    have hsorted := (List.mem_insertionSort childBefore).mpr href
    obtain ⟨child,hchild⟩ := mapM_returns.mp ⟨_,h⟩ ref hsorted
    exact ⟨child,(mem_mapM h).mpr ⟨ref,hsorted,hchild⟩,(hone ref child hchild).mpr hc⟩

def CacheHandled (r : Resolver) (before cache : ContentAddressedCache) : Prop :=
  ∀ digest data, cache.files.get digest = some data → r.Handled before data

theorem put_handled (hcache : r.CacheHandled before cache) (haccepted : r.Accepted e data) :
    r.CacheHandled before (cache.put r.codec data) := by
  intro digest found hfound
  by_cases hdigest : r.codec.bundleSha256 data = digest
  · subst hdigest
    obtain ⟨file,hfile,_,hsame⟩ := cache.put_get r.codec data
    rw [hfile] at hfound
    cases hfound
    rcases hsame with rfl | hold
    · exact .inl ⟨e,haccepted.pinned,haccepted.fetched⟩
    · exact hcache _ _ hold
  · rw [cache.put_get_ne data hdigest] at hfound
    exact hcache _ _ hfound

/-- What the cache gives for the digest of an accepted artifact is the artifact. -/
theorem get_accepted {data found : Bytes}
    (hfree : r.CollisionFree before) (hcache : r.CacheHandled before cache)
    (haccepted : r.Accepted e data)
    (h : cache.get r.codec (r.codec.bundleSha256 data) = .ok (some found)) : found = data := by
  obtain ⟨hfile,hhash⟩ := ContentAddressedCache.get_some h
  apply hfree _ _ (hcache _ _ hfile) (.inl ⟨e,haccepted.pinned,haccepted.fetched⟩)
  unfold Codec.bundleSha256 at hhash
  generalize r.codec.sha256 found = a at hhash ⊢
  generalize r.codec.sha256 data = b at hhash ⊢
  cases a
  cases b
  simp only at hhash
  subst hhash
  rfl

/-- Whatever is accepted can be read back once it is written. -/
theorem get_put_accepted (hfree : r.CollisionFree before) (hcache : r.CacheHandled before cache)
    (haccepted : r.Accepted e data) :
    (cache.put r.codec data).get r.codec (r.codec.bundleSha256 data) = .ok (some data) := by
  obtain ⟨found,hfound,hhash,_⟩ := cache.put_get r.codec data
  have hget := ContentAddressedCache.get_of_file hfound hhash
  obtain rfl := get_accepted hfree (put_handled hcache haccepted) haccepted hget
  exact hget

theorem resolveNode_resolved {node : ResolvedNode}
    (hfree : r.CollisionFree before) (hcache : r.CacheHandled before cache)
    (h : r.resolveNode cache name = .ok (node,cache')) :
    r.CacheHandled before cache' ∧ ∃ data, r.ResolvedFrom name node data := by
  unfold resolveNode at h
  obtain ⟨e,he,h⟩ := bind_ok.mp h
  obtain ⟨⟨resolved,written⟩,hresolved,h⟩ := bind_ok.mp h
  obtain ⟨cached,hcached,h⟩ := bind_ok.mp h
  obtain ⟨bundle,hbundle,h⟩ := bind_ok.mp h
  obtain ⟨manifest,hmanifest,h⟩ := bind_ok.mp h
  obtain ⟨children,hchildren,h⟩ := bind_ok.mp h
  cases h
  obtain ⟨data,hentry,haccepted,hdigest,hput⟩ := resolve_ok hresolved
  have hwritten : r.CacheHandled before cache' := hput ▸ put_handled hcache haccepted
  have hnamed := expect_ok.mp he
  obtain rfl : resolved.entry = e := Option.some.inj (hentry.symm.trans hnamed)
  rw [expect_ok.mp hbundle,hdigest] at hcached
  obtain rfl : bundle = data := get_accepted hfree hwritten haccepted hcached
  exact ⟨hwritten,bundle,rfl,hnamed,haccepted,hdigest,hmanifest,resolveChildren_refs hchildren⟩

theorem ResolvedFrom.refChild {node : ResolvedNode}
    (h : r.ResolvedFrom name node data) (c : String) :
    c ∈ r.explorer.children node ↔ r.RefChild name c := by
  constructor
  · intro hc
    exact ⟨node.entry,data,node.manifest,h.entry,h.accepted.fetched,h.loads,(h.children c).mp hc⟩
  · rintro ⟨e,data',manifest,he,hdata,hmanifest,href⟩
    obtain rfl : node.entry = e := Option.some.inj (h.entry.symm.trans he)
    obtain rfl : data = data' := Except.ok.inj (h.accepted.fetched.symm.trans hdata)
    obtain rfl : node.manifest = manifest := Except.ok.inj (h.loads.symm.trans hmanifest)
    exact (h.children c).mpr href

theorem map_called {done : List (String × ResolvedNode)}
    (h : ∀ entry ∈ done, ∃ data, r.ResolvedFrom entry.1 entry.2 data) :
    (done.map Prod.snd).map ResolvedNode.name = done.map Prod.fst := by
  rw [List.map_map]
  apply List.map_congr_left
  intro entry hentry
  obtain ⟨_,hnode⟩ := h entry hentry
  exact hnode.called

/-- The nodes of a graph: the entries that ref children lead to from the root, each once, after
its own children, and each from an accepted artifact. -/
theorem resolveGraph_resolved {root : String} {nodes : List ResolvedNode}
    (hfree : r.CollisionFree cache) (h : r.resolveGraph cache root = .ok (nodes,cache')) :
    r.CacheHandled cache cache' ∧ (nodes.map ResolvedNode.name).Nodup ∧
      (∀ node ∈ nodes, ∃ data, r.ResolvedFrom node.name node data) ∧
      ∀ name, name ∈ nodes.map ResolvedNode.name ↔ Relation.ReflTransGen r.RefChild root name := by
  unfold resolveGraph at h
  obtain ⟨⟨done,final⟩,hvisit,h⟩ := bind_ok.mp h
  cases h
  have hstart : r.CacheHandled cache cache := fun digest data hfile => .inr ⟨digest,hfile⟩
  have hresolve : ∀ s a node s', r.CacheHandled cache s →
      r.explorer.resolve s a = .ok (node,s') →
        r.CacheHandled cache s' ∧ ∃ data, r.ResolvedFrom a node data :=
    fun s a node s' hs hnode => resolveNode_resolved hfree hs hnode
  have hedge : ∀ a node, (∃ data, r.ResolvedFrom a node data) →
      ∀ c ∈ r.explorer.children node, r.RefChild a c :=
    fun a node ⟨_,hnode⟩ c hc => (hnode.refChild c).mp hc
  have hback : ∀ a node, (∃ data, r.ResolvedFrom a node data) →
      ∀ c, r.RefChild a c → c ∈ r.explorer.children node :=
    fun a node ⟨_,hnode⟩ c hc => (hnode.refChild c).mpr hc
  obtain ⟨hordered,hall,hreach⟩ := Explorer.visit_reachable hresolve hedge hback hstart hvisit
  have hstate := (Explorer.visit_explored hresolve hedge _ _ _ _ _ hstart .nil hvisit).state
  rw [map_called hall]
  refine ⟨hstate,hordered.nodup,?_,hreach⟩
  intro node hnode
  obtain ⟨entry,hentry,rfl⟩ := List.mem_map.mp hnode
  obtain ⟨data,hdata⟩ := hall entry hentry
  exact ⟨data,hdata.called.symm ▸ hdata⟩

theorem explorer_names (s : ContentAddressedCache) (a : String) (node : ResolvedNode)
    (s' : ContentAddressedCache) (h : r.explorer.resolve s a = .ok (node,s')) :
    a ∈ r.lock.entries.map LockEntry.name := by
  obtain ⟨e,he,_⟩ := bind_ok.mp h
  obtain ⟨hmem,hname⟩ := ComponentsLock.entryNamed_eq_some.mp (expect_ok.mp he)
  exact hname ▸ List.mem_map_of_mem hmem

end Resolver
end AgentCentric.Boot

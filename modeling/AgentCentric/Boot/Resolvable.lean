import AgentCentric.Boot.Exact

namespace AgentCentric.Boot

section
variable {shop : Workshop} {design design' : Design} {sources sources' : Dict String PinSource}
  {root : String} {contracts : List String} {lock : ComponentsLock}

structure Serves (shop : Workshop) (design : Design) (sources : Dict String PinSource)
    (lock : ComponentsLock) (source : ComponentSource) (verify : SignatureVerifier) : Prop where
  fetched : ∀ e ∈ lock.entries, ∀ c ∈ design.components, c.name = e.name →
    ∀ bundle, shop.Bundles sources c bundle → source e = .ok bundle
  accepted : ∀ e ∈ lock.entries, ∀ data, source e = .ok data →
    verify data (encode e.signature) = .ok ()

def Workshop.resolver (shop : Workshop) (lock : ComponentsLock) (source : ComponentSource)
    (verify : SignatureVerifier) : Resolver :=
  ⟨shop.codec,lock,source,some verify⟩

structure Resolves (r : Resolver) (cache : ContentAddressedCache) (e : LockEntry) : Prop where
  resolved : ∃ c cache', r.resolve cache e.name = .ok (c,cache') ∧ c.entry = e ∧
    ∃ bundle manifest, cache'.get r.codec c.digest = .ok (some bundle) ∧
      r.codec.loadManifest bundle = .ok manifest ∧ ∀ children,
        BootCall.checkConformance ⟨e.name,e,c.digest,manifest,children⟩
          r.lock.harnessContracts = .ok ()

theorem checkConformance_returns {node : ResolvedNode} {supported : List String}
    (hname : node.manifest.name = node.name)
    (himplements : node.entry.implements = node.manifest.implements)
    (hsupported : ∀ contract ∈ node.manifest.implements, contract ∈ supported) :
    BootCall.checkConformance node supported = .ok () := by
  have hdeclared : node.manifest.implements.filter (· ∉ node.entry.implements) = [] := by
    rw [himplements]
    simp
  have hknown : node.entry.implements.filter (· ∉ supported) = [] := by
    rw [himplements]
    simpa using hsupported
  unfold BootCall.checkConformance
  refine bind_ok.mpr ⟨(),by simp [hname],?_⟩
  simp only [hdeclared,hknown]
  rfl

variable {source : ComponentSource} {verify : SignatureVerifier}

theorem PinnedLock.resolve_returns (h : PinnedLock shop design sources root contracts lock)
    (hserves : Serves shop design sources lock source verify) {e : LockEntry}
    (he : e ∈ lock.entries) (cache : ContentAddressedCache) :
    ∃ bundle manifest, source e = .ok bundle ∧ shop.codec.loadManifest bundle = .ok manifest ∧
      manifest.name = e.name ∧ e.implements = manifest.implements ∧
      (∀ contract ∈ manifest.implements, contract ∈ lock.harnessContracts) ∧
      (shop.resolver lock source verify).Accepted e bundle ∧
      (shop.resolver lock source verify).resolve cache e.name =
        .ok (⟨e,shop.codec.bundleSha256 bundle,bundle.length⟩,cache.put shop.codec bundle) := by
  obtain ⟨c,hc,bundle,manifest,hpinned⟩ := h.pinned he
  have hsource := hserves.fetched e he c hc hpinned.name.symm bundle hpinned.bundles
  have haccepted := hserves.accepted e he bundle hsource
  have hcontracts : ∀ contract ∈ manifest.implements, contract ∈ lock.harnessContracts :=
    h.contracts ▸ hpinned.supported
  have hentry : lock.entry e.name = .ok e := ComponentsLock.entry_ok.mpr ⟨he,rfl⟩
  have hloop : forEach (fun contract => require (contract ∈ lock.harnessContracts)
      (Raise.resolve (e.name ++ ": implements unknown contract " ++ pyRepr contract)))
      e.implements = .ok () := by
    rw [forEach_ok]
    intro contract hmem
    rw [hpinned.implements] at hmem
    simpa using hcontracts contract hmem
  refine ⟨bundle,manifest,hsource,hpinned.loads,hpinned.named,hpinned.implements,hcontracts,
    ⟨he,hsource,hpinned.hash,hpinned.implements ▸ hcontracts,verify,rfl,haccepted⟩,?_⟩
  have hsigned : (shop.resolver lock source verify).checkSignature e.name bundle e = .ok () :=
    mapError_ok.mpr haccepted
  refine bind_ok.mpr ⟨e,hentry,bind_ok.mpr ⟨bundle,hsource,bind_ok.mpr ⟨(),?_,bind_ok.mpr
    ⟨(),hloop,bind_ok.mpr ⟨(),hsigned,rfl⟩⟩⟩⟩⟩
  rw [require_ok,decide_eq_true_eq]
  exact hpinned.hash

theorem PinnedLock.resolves (h : PinnedLock shop design sources root contracts lock)
    (hserves : Serves shop design sources lock source verify) {e : LockEntry}
    (he : e ∈ lock.entries) {cache : ContentAddressedCache}
    (hfree : (shop.resolver lock source verify).CollisionFree cache) :
    Resolves (shop.resolver lock source verify) cache e := by
  obtain ⟨bundle,manifest,hsource,hloads,hnamed,himplements,hcontracts,haccepted,hresolve⟩ :=
    h.resolve_returns hserves he cache
  refine ⟨_,_,hresolve,rfl,bundle,manifest,?_,hloads,fun children =>
    checkConformance_returns hnamed himplements hcontracts⟩
  have hstart : (shop.resolver lock source verify).CacheHandled cache cache :=
    fun digest data hfile => .inr ⟨digest,hfile⟩
  exact Resolver.get_put_accepted hfree hstart haccepted

theorem PinnedLock.resolveEach_returns (h : PinnedLock shop design sources root contracts lock)
    (hserves : Serves shop design sources lock source verify) {es : List LockEntry}
    (hes : ∀ e ∈ es, e ∈ lock.entries) (cache : ContentAddressedCache) :
    ∃ cs cache', (shop.resolver lock source verify).resolveEach cache es = .ok (cs,cache') ∧
      cs.map ResolvedComponent.entry = es := by
  induction es generalizing cache with
  | nil => exact ⟨[],cache,rfl,rfl⟩
  | cons e es ih =>
    obtain ⟨bundle,_,_,_,_,_,_,_,hresolve⟩ :=
      h.resolve_returns hserves (hes e List.mem_cons_self) cache
    obtain ⟨cs,cache',hrest,hentries⟩ :=
      ih (fun e he => hes e (List.mem_cons_of_mem _ he)) (cache.put shop.codec bundle)
    refine ⟨_ :: cs,cache',by simp only [Resolver.resolveEach,hresolve,bind,Except.bind,hrest]; rfl,
      ?_⟩
    rw [List.map_cons,hentries]

theorem grantErrors_nil_iff {ids seen : List String} {grants : List EnvelopeGrant} :
    grantErrors ids seen grants = [] ↔ (grants.map EnvelopeGrant.component).Nodup ∧
      ∀ grant ∈ grants, grant.component ∈ ids ∧ grant.component ∉ seen ∧
        boundsError ("envelope for " ++ pyRepr grant.component) grant.bounds = none := by
  induction grants generalizing seen with
  | nil => simp [grantErrors]
  | cons grant grants ih =>
    simp only [grantErrors,List.append_eq_nil_iff,ih,List.map_cons,List.nodup_cons,List.mem_map,
      List.mem_cons,forall_eq_or_imp,Option.toList_eq_nil_iff,not_or]
    constructor
    · rintro ⟨⟨⟨hknown,hnew⟩,hbounds⟩,hnodup,hall⟩
      refine ⟨⟨?_,hnodup⟩,⟨?_,?_,hbounds⟩,fun g hg => ⟨(hall g hg).1,(hall g hg).2.1.2,
        (hall g hg).2.2⟩⟩
      · rintro ⟨g,hg,hsame⟩
        exact (hall g hg).2.1.1 hsame
      · by_contra hout
        simp [hout] at hknown
      · intro hin
        simp [hin] at hnew
    · rintro ⟨⟨hnew,hnodup⟩,⟨hknown,hseen,hbounds⟩,hall⟩
      refine ⟨⟨⟨by simp [hknown],by simp [hseen]⟩,hbounds⟩,hnodup,fun g hg =>
        ⟨(hall g hg).1,⟨?_,(hall g hg).2.1⟩,(hall g hg).2.2⟩⟩
      exact fun hsame => hnew ⟨g,hg,hsame⟩

/-- Designs that differ in the order of their lists. -/
structure Design.Reordered (design design' : Design) : Prop where
  network : design'.network = design.network
  components : design'.components.Perm design.components
  envelopes : design'.envelopes.Perm design.envelopes

theorem designErrors_reordered {net : Network.ComponentNetwork}
    (h : Design.Reordered design design') (hvalid : designErrors design net = []) :
    designErrors design' net = [] := by
  simp only [designErrors,List.append_eq_nil_iff,List.map_eq_nil_iff,List.filter_eq_nil_iff,
    grantErrors_nil_iff] at hvalid ⊢
  obtain ⟨⟨⟨hsize,hblank⟩,_,hgrants⟩,hnet⟩ := hvalid
  refine ⟨⟨⟨hsize,fun c hc => hblank c (h.components.mem_iff.mp hc)⟩,design'.grantedOnce,
    fun g hg => hgrants g (h.envelopes.mem_iff.mp hg)⟩,hnet⟩

theorem validateDesign_reordered {report : DesignReport} (h : Design.Reordered design design')
    (hvalid : validateDesign design = .ok report) (hok : report.ok = true) :
    validateDesign design' = .ok report := by
  obtain ⟨net,hnet,herrors⟩ := validateDesign_ok hvalid hok
  simp only [validateDesign,h.network,hnet,herrors,designErrors_reordered h herrors]
    at hvalid ⊢
  exact hvalid

theorem requestedOf_reordered (h : Design.Reordered design design') :
    Workshop.requestedOf design' = Workshop.requestedOf design := by
  have htotal : Std.Total Workshop.byName := ⟨fun a b => le_total a.name b.name⟩
  have htrans : IsTrans RequestedComponent Workshop.byName :=
    ⟨fun a b c hab hbc => le_trans (α := String) hab hbc⟩
  apply insertionSort_congr Workshop.byName h.components
  intro a ha b hb hab hba
  exact List.inj_on_of_nodup_map design'.requestedOnce ha hb (le_antisymm hab hba)

theorem envelopesByComponent_entries (design : Design) :
    (Workshop.envelopesByComponent design).entries =
      design.envelopes.map fun grant => (grant.component,grant.bounds) := by
  have hnodup : ((Dict.empty.entries ++ design.envelopes.map fun (grant : EnvelopeGrant) =>
      (grant.component,grant.bounds)).map Prod.fst).Nodup := by
    simpa [Dict.empty,Function.comp_def] using design.grantedOnce
  unfold Workshop.envelopesByComponent
  rw [Dict.update_fresh _ _ hnodup]
  rfl

theorem envelopesByComponent_reordered (h : Design.Reordered design design') (name : String) :
    (Workshop.envelopesByComponent design').get name =
      (Workshop.envelopesByComponent design).get name := by
  apply Dict.lookup_perm
  · rw [envelopesByComponent_entries,envelopesByComponent_entries]
    exact h.envelopes.map _
  · exact (Workshop.envelopesByComponent design').nodup

theorem pinEntry_congr {supported : List String}
    {envelopes envelopes' : Dict String (Dict String Json)} {component : RequestedComponent}
    (henvelopes : ∀ name, envelopes'.get name = envelopes.get name)
    (hsources : ∀ name, sources'.get name = sources.get name) :
    shop.pinEntry supported envelopes' sources' component =
      shop.pinEntry supported envelopes sources component := by
  simp only [Workshop.pinEntry,henvelopes,hsources]

theorem pinDesign_reordered (hdesign : Design.Reordered design design')
    (hsources : sources'.entries.Perm sources.entries)
    (h : shop.pinDesign design sources root contracts = .ok lock) :
    shop.pinDesign design' sources' root contracts = .ok lock := by
  obtain ⟨report,hvalid,hok⟩ := (pinDesign_pinned h).valid
  have hentry : shop.pinEntry contracts (Workshop.envelopesByComponent design') sources' =
      shop.pinEntry contracts (Workshop.envelopesByComponent design) sources :=
    funext fun _ => pinEntry_congr (envelopesByComponent_reordered hdesign)
      fun name => Dict.lookup_perm hsources sources'.nodup name
  have hempty : design'.components.isEmpty = design.components.isEmpty := by
    rw [Bool.eq_iff_iff,List.isEmpty_iff,List.isEmpty_iff]
    exact ⟨fun hnil => (hnil ▸ hdesign.components).nil_eq.symm,
      fun hnil => (hnil ▸ hdesign.components).eq_nil⟩
  unfold Workshop.pinDesign at h ⊢
  rw [hvalid] at h
  rw [validateDesign_reordered hdesign hvalid hok,requestedOf_reordered hdesign,hentry,hempty]
  exact h

/-- Whatever is pinned can be resolved: the resolver and the check of conformance take every
entry of the lock, and the lock has the same hash in whatever order the design came. -/
theorem pinned_resolvable (h : shop.pinDesign design sources root contracts = .ok lock) :
    (∀ source verify, Serves shop design sources lock source verify →
      (∀ cache, ∃ cs cache', (shop.resolver lock source verify).resolveAll cache =
        .ok (cs,cache')) ∧
      ∀ cache, (shop.resolver lock source verify).CollisionFree cache →
        ∀ e ∈ lock.entries, Resolves (shop.resolver lock source verify) cache e) ∧
    ∀ design' sources', Design.Reordered design design' →
      sources'.entries.Perm sources.entries →
        ∃ lock', shop.pinDesign design' sources' root contracts = .ok lock' ∧
          lock'.lockHash shop.codec = lock.lockHash shop.codec := by
  refine ⟨fun source verify hserves => ⟨fun cache => ?_,fun cache hfree e he =>
    (pinDesign_pinned h).resolves hserves he hfree⟩,fun design' sources' hdesign hsources =>
    ⟨lock,pinDesign_reordered hdesign hsources h,rfl⟩⟩
  obtain ⟨cs,cache',hall,_⟩ := (pinDesign_pinned h).resolveEach_returns hserves
    (fun e he => (List.mem_insertionSort fun a b : LockEntry => a.name ≤ b.name).mp he) cache
  exact ⟨cs,cache',hall⟩

/-- The references of a component are in the lock, and what it embeds is valid. -/
def Resolver.Nests (r : Resolver) (name : String) : Prop :=
  ∃ e data manifest children, r.lock.entryNamed name = some e ∧ r.source e = .ok data ∧
    r.codec.loadManifest data = .ok manifest ∧ r.resolveChildren name data manifest = .ok children

/-- Of what is pinned, only the children are left to be checked. -/
theorem PinnedLock.resolveNode_iff (h : PinnedLock shop design sources root contracts lock)
    (hserves : Serves shop design sources lock source verify) {e : LockEntry}
    (he : e ∈ lock.entries) {cache : ContentAddressedCache}
    (hfree : (shop.resolver lock source verify).CollisionFree cache) :
    ∃ data manifest, source e = .ok data ∧ shop.codec.loadManifest data = .ok manifest ∧
      (∀ children, BootCall.checkConformance ⟨e.name,e,shop.codec.bundleSha256 data,manifest,
        children⟩ lock.harnessContracts = .ok ()) ∧
      ∀ node cache', (shop.resolver lock source verify).resolveNode cache e.name =
        .ok (node,cache') ↔ ∃ children,
          (shop.resolver lock source verify).resolveChildren e.name data manifest = .ok children ∧
            node = ⟨e.name,e,shop.codec.bundleSha256 data,manifest,children⟩ ∧
            cache' = cache.put shop.codec data := by
  obtain ⟨data,manifest,hsource,hloads,hnamed,himplements,hcontracts,haccepted,hresolve⟩ :=
    h.resolve_returns hserves he cache
  have hcached := Resolver.get_put_accepted hfree
    (fun digest data hfile => .inr ⟨digest,hfile⟩) haccepted
  refine ⟨data,manifest,hsource,hloads,
    fun children => checkConformance_returns hnamed himplements hcontracts,fun node cache' => ?_⟩
  have hentry : lock.entryNamed e.name = some e := ComponentsLock.entryNamed_eq_some.mpr ⟨he,rfl⟩
  unfold Resolver.resolveNode
  rw [hresolve]
  simp only [Workshop.resolver,expect,hentry,bind,Except.bind] at hcached ⊢
  rw [hcached]
  dsimp only
  rw [hloads]
  dsimp only
  cases Resolver.resolveChildren ⟨shop.codec,lock,source,some verify⟩ e.name data manifest with
  | error raised => simp
  | ok children => simp [pure,Except.pure,eq_comm]

/-- Of a pinned design the graph below the root resolves exactly if each component that is reached
is in the lock, with children that resolve, and is not reached from itself. Its components then
meet the contracts that the lock is for. -/
theorem pinned_graph (h : shop.pinDesign design sources root contracts = .ok lock)
    (hserves : Serves shop design sources lock source verify) {cache : ContentAddressedCache}
    (hfree : (shop.resolver lock source verify).CollisionFree cache) :
    ((∃ nodes cache', (shop.resolver lock source verify).resolveGraph cache lock.root =
        .ok (nodes,cache')) ↔
      ∀ name, Relation.ReflTransGen (shop.resolver lock source verify).RefChild lock.root name →
        (shop.resolver lock source verify).Nests name ∧
          ¬Relation.TransGen (shop.resolver lock source verify).RefChild name name) ∧
    ∀ nodes cache', (shop.resolver lock source verify).resolveGraph cache lock.root =
        .ok (nodes,cache') →
      ∀ node ∈ nodes, BootCall.checkConformance node lock.harnessContracts = .ok () := by
  have hlock := pinDesign_pinned h
  have hnests : ∀ name, (shop.resolver lock source verify).Resolvable cache name ↔
      (shop.resolver lock source verify).Nests name := by
    intro name
    constructor
    · rintro ⟨node,cache',hnode⟩
      obtain ⟨e,hentry,_⟩ := bind_ok.mp hnode
      obtain ⟨he,rfl⟩ := ComponentsLock.entryNamed_eq_some.mp (expect_ok.mp hentry)
      obtain ⟨data,manifest,hsource,hloads,-,hiff⟩ := hlock.resolveNode_iff hserves he hfree
      obtain ⟨children,hchildren,-⟩ := (hiff node cache').mp hnode
      exact ⟨e,data,manifest,children,expect_ok.mp hentry,hsource,hloads,hchildren⟩
    · rintro ⟨e,data,manifest,children,hentry,hsource,hloads,hchildren⟩
      obtain ⟨he,rfl⟩ := ComponentsLock.entryNamed_eq_some.mp hentry
      obtain ⟨data',manifest',hsource',hloads',-,hiff⟩ := hlock.resolveNode_iff hserves he hfree
      obtain rfl := Except.ok.inj (hsource.symm.trans hsource')
      obtain rfl := Except.ok.inj (hloads.symm.trans hloads')
      exact ⟨_,_,(hiff _ _).mpr ⟨children,hchildren,rfl,rfl⟩⟩
  refine ⟨⟨?_,fun hall => ?_⟩,fun nodes cache' hgraph node hnode => ?_⟩
  · rintro ⟨nodes,cache',hgraph⟩ name hpath
    have hfault := (Resolver.resolveGraph_leavesFirst hfree hgraph).2 name hpath
    rw [Resolver.Faulty,not_or,not_not,hnests] at hfault
    exact hfault
  · cases hgraph : (shop.resolver lock source verify).resolveGraph cache lock.root with
    | error e =>
      obtain ⟨name,hpath,hfault⟩ := Resolver.resolveGraph_raises hfree hgraph
      obtain ⟨hname,hacyclic⟩ := hall name hpath
      exact absurd hfault (not_or.mpr ⟨not_not.mpr ((hnests name).mpr hname),hacyclic⟩)
    | ok pair => exact ⟨pair.1,pair.2,rfl⟩
  · obtain ⟨final,hresolved⟩ :=
      (Resolver.resolveGraph_leavesFirst hfree hgraph).1.resolved node hnode
    obtain ⟨e,hentry,_⟩ := bind_ok.mp hresolved
    obtain ⟨he,hname⟩ := ComponentsLock.entryNamed_eq_some.mp (expect_ok.mp hentry)
    obtain ⟨data,manifest,-,-,hconforms,hiff⟩ := hlock.resolveNode_iff hserves he hfree
    obtain ⟨children,-,rfl,-⟩ := (hiff node final).mp (hname ▸ hresolved)
    exact hconforms children

end

namespace Scene

def source : ComponentSource := fun e => .ok (bundleOf e.name)

theorem bundles {c : RequestedComponent} {bundle : Bytes} (hname : c.name = "shell")
    (h : shop.Bundles sources c bundle) : bundle = bundleOf "shell" := by
  obtain ⟨s,pinned,hs,hpinned,rfl⟩ := h
  rw [hname] at hs
  obtain rfl : s = ⟨.directory,"shell","dir://shell","good",by decide⟩ := by
    have hget : sources.get "shell" = some ⟨.directory,"shell","dir://shell","good",by decide⟩ :=
      rfl
    exact Option.some.inj (hs.symm.trans hget)
  unfold Workshop.pinSource at hpinned
  obtain ⟨_,_,hpin⟩ := bind_ok.mp hpinned
  obtain ⟨b,hb,hmk⟩ := bind_ok.mp (mapError_ok.mp hpin)
  have hbundle : b = bundleOf "shell" := (Except.ok.inj hb).symm
  rw [← hbundle]
  cases hmk
  rfl

theorem pins_signed : ∃ lock, shop.pinDesign design sources "shell" ["component.v1"] = .ok lock ∧
    ∀ e ∈ lock.entries, e.name = "shell" ∧ e.signature = "good" := by
  have hpin : ((shop.pinDesign design sources "shell" ["component.v1"]).toOption.any fun lock =>
      lock.entries.all fun e => e.name = "shell" ∧ e.signature = "good") = true := by
    decide +kernel
  obtain ⟨lock,hlock,hall⟩ := ok_of_any hpin
  exact ⟨lock,hlock,by simpa using hall⟩

variable {lock : ComponentsLock}
  (hentries : ∀ e ∈ lock.entries, e.name = "shell" ∧ e.signature = "good")
include hentries

theorem serves : Serves shop design sources lock source verifier := by
  constructor
  · intro e he c _ hname bundle hbundle
    have hshell := (hentries e he).1
    rw [bundles (hname.trans hshell) hbundle,source,hshell]
  · intro e he _ _
    simp [verifier,(hentries e he).2]

theorem pinnedFree : (shop.resolver lock source verifier).CollisionFree ⟨.empty⟩ := by
  have hshell : ∀ data, (shop.resolver lock source verifier).Handled ⟨.empty⟩ data →
      data = bundleOf "shell" := by
    rintro data (⟨e,he,hdata⟩ | ⟨digest,hdata⟩)
    · have hname : e.name = "shell" := (hentries e he).1
      simp only [Workshop.resolver,source,hname,Except.ok.injEq] at hdata
      exact hdata.symm
    · cases hdata
  intro a b ha hb _
  rw [hshell a ha,hshell b hb]

end Scene

theorem pinned_resolvable_shell : ∃ lock,
    Scene.shop.pinDesign Scene.design Scene.sources "shell" ["component.v1"] = .ok lock ∧
      ∀ e ∈ lock.entries, Resolves (Scene.shop.resolver lock Scene.source Scene.verifier)
        ⟨.empty⟩ e := by
  obtain ⟨lock,hlock,hentries⟩ := Scene.pins_signed
  exact ⟨lock,hlock,fun e he => ((pinned_resolvable hlock).1 _ _ (Scene.serves hentries)).2 _
    (Scene.pinnedFree hentries) e he⟩

theorem pinned_graph_shell : ∃ lock,
    Scene.shop.pinDesign Scene.design Scene.sources "shell" ["component.v1"] = .ok lock ∧
      ∀ nodes cache, (Scene.shop.resolver lock Scene.source Scene.verifier).resolveGraph ⟨.empty⟩
        lock.root = .ok (nodes,cache) →
      ∀ node ∈ nodes, BootCall.checkConformance node lock.harnessContracts = .ok () := by
  obtain ⟨lock,hlock,hentries⟩ := Scene.pins_signed
  exact ⟨lock,hlock,
    (pinned_graph hlock (Scene.serves hentries) (Scene.pinnedFree hentries)).2⟩

end AgentCentric.Boot

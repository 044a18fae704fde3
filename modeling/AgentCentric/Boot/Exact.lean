import AgentCentric.Boot.Tree

namespace AgentCentric.Boot
namespace Resolver
variable {r : Resolver} {before cache cache' : ContentAddressedCache} {name root : String}

/-- A component that resolves when nothing else has been resolved yet. -/
def Resolvable (r : Resolver) (cache : ContentAddressedCache) (name : String) : Prop :=
  ∃ node cache', r.resolveNode cache name = .ok (node,cache')

theorem resolve_put {c : ResolvedComponent} (h : r.resolve cache name = .ok (c,cache')) :
    ∃ data, r.Accepted c.entry data ∧ c.digest = r.codec.bundleSha256 data ∧
      ∀ other, r.resolve other name = .ok (c,other.put r.codec data) := by
  obtain ⟨_,_,haccepted,hdigest,_⟩ := resolve_ok h
  unfold resolve at h
  obtain ⟨e,he,h⟩ := bind_ok.mp h
  obtain ⟨data,hdata,h⟩ := bind_ok.mp h
  obtain ⟨_,hhash,h⟩ := bind_ok.mp h
  obtain ⟨_,hcontracts,h⟩ := bind_ok.mp h
  obtain ⟨_,hsigned,h⟩ := bind_ok.mp h
  cases h
  obtain rfl := Except.ok.inj (hdata.symm.trans haccepted.fetched)
  refine ⟨data,haccepted,hdigest,fun other => ?_⟩
  exact bind_ok.mpr ⟨e,he,bind_ok.mpr ⟨data,hdata,bind_ok.mpr ⟨_,hhash,bind_ok.mpr
    ⟨_,hcontracts,bind_ok.mpr ⟨_,hsigned,rfl⟩⟩⟩⟩⟩

theorem resolveNode_anywhere {node : ResolvedNode} (hfree : r.CollisionFree before)
    (hcache : r.CacheHandled before cache) (h : r.resolveNode cache name = .ok (node,cache'))
    {other : ContentAddressedCache} (hother : r.CacheHandled before other) :
    ∃ other', r.resolveNode other name = .ok (node,other') := by
  unfold resolveNode at h
  obtain ⟨e,he,h⟩ := bind_ok.mp h
  obtain ⟨⟨resolved,written⟩,hresolved,h⟩ := bind_ok.mp h
  obtain ⟨cached,hcached,h⟩ := bind_ok.mp h
  obtain ⟨bundle,hbundle,h⟩ := bind_ok.mp h
  obtain ⟨manifest,hmanifest,h⟩ := bind_ok.mp h
  obtain ⟨children,hchildren,h⟩ := bind_ok.mp h
  cases h
  obtain ⟨data,haccepted,hdigest,hall⟩ := resolve_put hresolved
  obtain rfl : cache' = cache.put r.codec data := by
    have hsame := hresolved.symm.trans (hall cache)
    exact (Prod.mk.inj (Except.ok.inj hsame)).2
  rw [hdigest,get_put_accepted hfree hcache haccepted] at hcached
  have hget := get_put_accepted hfree hother haccepted
  rw [← hdigest,Except.ok.inj hcached] at hget
  exact ⟨_,bind_ok.mpr ⟨e,he,bind_ok.mpr ⟨_,hall other,bind_ok.mpr ⟨cached,hget,bind_ok.mpr
    ⟨bundle,hbundle,bind_ok.mpr ⟨manifest,hmanifest,bind_ok.mpr ⟨children,hchildren,rfl⟩⟩⟩⟩⟩⟩⟩

def Settled (r : Resolver) (before : ContentAddressedCache) (name : String)
    (node : ResolvedNode) : Prop :=
  (∃ data, r.ResolvedFrom name node data) ∧
    ∃ cache', r.resolveNode before name = .ok (node,cache')

theorem handled_start (r : Resolver) (cache : ContentAddressedCache) :
    r.CacheHandled cache cache := fun digest _ hfile => .inr ⟨digest,hfile⟩

theorem resolveNode_settled {node : ResolvedNode} (hfree : r.CollisionFree before)
    (hcache : r.CacheHandled before cache) (h : r.resolveNode cache name = .ok (node,cache')) :
    r.CacheHandled before cache' ∧ r.Settled before name node := by
  obtain ⟨hcache',hdata⟩ := resolveNode_resolved hfree hcache h
  exact ⟨hcache',hdata,resolveNode_anywhere hfree hcache h (handled_start r before)⟩

theorem Settled.refChild {node : ResolvedNode} (h : r.Settled before name node) (c : String) :
    c ∈ r.explorer.children node ↔ r.RefChild name c := by
  obtain ⟨⟨_,hnode⟩,_⟩ := h
  exact hnode.refChild c

structure LeavesFirst (r : Resolver) (cache : ContentAddressedCache) (root : String)
    (nodes : List ResolvedNode) : Prop where
  once : (nodes.map ResolvedNode.name).Nodup
  reachable : ∀ name, name ∈ nodes.map ResolvedNode.name ↔
    Relation.ReflTransGen r.RefChild root name
  before : ∀ l node right, nodes = l ++ node :: right → ∀ c, r.RefChild node.name c →
    c ∈ l.map ResolvedNode.name
  resolved : ∀ node ∈ nodes, ∃ cache', r.resolveNode cache node.name = .ok (node,cache')

/-- A component that cannot be resolved, or one that its references lead back to. -/
def Faulty (r : Resolver) (cache : ContentAddressedCache) (name : String) : Prop :=
  ¬r.Resolvable cache name ∨ Relation.TransGen r.RefChild name name

theorem resolveGraph_leavesFirst {nodes : List ResolvedNode} (hfree : r.CollisionFree cache)
    (h : r.resolveGraph cache root = .ok (nodes,cache')) : r.LeavesFirst cache root nodes ∧
      ∀ name, Relation.ReflTransGen r.RefChild root name → ¬r.Faulty cache name := by
  unfold resolveGraph at h
  obtain ⟨⟨done,final⟩,hvisit,h⟩ := bind_ok.mp h
  cases h
  obtain ⟨hordered,hall,hreach⟩ := Explorer.visit_reachable
    (fun s a node s' (hs : r.CacheHandled cache s) hnode => resolveNode_settled hfree hs hnode)
    (fun a node (hnode : r.Settled cache a node) c hc => (hnode.refChild c).mp hc)
    (fun a node hnode c hc => (hnode.refChild c).mpr hc) (handled_start r cache) hvisit
  have hcalled {l : List (String × ResolvedNode)} (hl : ∀ entry ∈ l, entry ∈ done) :
      (l.map Prod.snd).map ResolvedNode.name = l.map Prod.fst :=
    map_called fun entry hentry => (hall entry (hl entry hentry)).1
  have hname {entry : String × ResolvedNode} (hentry : entry ∈ done) :
      entry.2.name = entry.1 := by
    obtain ⟨⟨_,hnode⟩,_⟩ := hall entry hentry
    exact hnode.called
  refine ⟨⟨?_,?_,?_,?_⟩,?_⟩
  · rw [hcalled fun _ h => h]
    exact hordered.nodup
  · rw [hcalled fun _ h => h]
    exact hreach
  · intro l node right heq c hc
    obtain ⟨l,rest,rfl,rfl,hrest⟩ := List.map_eq_append_iff.mp heq
    obtain ⟨entry,right,rfl,rfl,rfl⟩ := List.map_eq_cons_iff.mp hrest
    have hentry : entry ∈ l ++ entry :: right := by simp
    rw [hname hentry] at hc
    rw [hcalled fun _ h => List.mem_append_left _ h]
    exact hordered.before l entry right rfl c (((hall entry hentry).refChild c).mpr hc)
  · intro node hnode
    obtain ⟨entry,hentry,rfl⟩ := List.mem_map.mp hnode
    rw [hname hentry]
    exact (hall entry hentry).2
  · intro name hpath
    have hmem := (hreach name).mpr hpath
    rintro (hfault | hcycle)
    · obtain ⟨entry,hentry,rfl⟩ := List.mem_map.mp hmem
      exact hfault ⟨entry.2,(hall entry hentry).2⟩
    · exact hordered.irrefl (fun entry hentry c hc => ((hall entry hentry).refChild c).mpr hc)
        hmem hcycle

theorem resolveGraph_raises {e : Raise} (hfree : r.CollisionFree cache)
    (h : r.resolveGraph cache root = .error e) :
    ∃ name, Relation.ReflTransGen r.RefChild root name ∧ r.Faulty cache name := by
  unfold resolveGraph at h
  rcases bind_error.mp h with hvisit | ⟨_,_,hpure⟩
  · obtain ⟨name,hpath,hname⟩ := Explorer.visit_raises
      (fun s a node s' (hs : r.CacheHandled cache s) hnode => resolveNode_settled hfree hs hnode)
      (fun a node (hnode : r.Settled cache a node) c hc => (hnode.refChild c).mp hc)
      explorer_names List.nodup_nil (by simp) (by simp) (handled_start r cache) .nil hvisit
    refine ⟨name,hpath,?_⟩
    rcases hname with hvisiting | ⟨s,e,hs,herror⟩ | hcycle
    · cases hvisiting
    · refine .inl ?_
      rintro ⟨node,cache',hnode⟩
      obtain ⟨_,hsame⟩ := resolveNode_anywhere hfree (handled_start r cache) hnode hs
      cases hsame.symm.trans herror
    · exact .inr hcycle
  · cases hpure

/-- Resolving a graph raises just where a component that is reached cannot be resolved or leads
back to itself, and else gives all that are reached, the referenced ones first. -/
theorem resolveGraph_exact (hfree : r.CollisionFree cache) (root : String) :
    ((∃ e, r.resolveGraph cache root = .error e) ↔
      ∃ name, Relation.ReflTransGen r.RefChild root name ∧ r.Faulty cache name) ∧
    ∀ nodes cache', r.resolveGraph cache root = .ok (nodes,cache') →
      r.LeavesFirst cache root nodes := by
  refine ⟨⟨fun ⟨e,h⟩ => resolveGraph_raises hfree h,?_⟩,fun nodes cache' h =>
    (resolveGraph_leavesFirst hfree h).1⟩
  rintro ⟨name,hpath,hfault⟩
  cases h : r.resolveGraph cache root with
  | error e => exact ⟨e,rfl⟩
  | ok pair => exact absurd hfault ((resolveGraph_leavesFirst hfree h).2 name hpath)

end Resolver

theorem Resolver.resolveGraph_exact_shell : ∃ nodes cache',
    Scene.call.resolver.resolveGraph Scene.call.cache "shell" = .ok (nodes,cache') ∧
      nodes.map ResolvedNode.name = ["worker","shell"] ∧
      Scene.call.resolver.LeavesFirst Scene.call.cache "shell" nodes := by
  have hgraph : ((Scene.call.resolver.resolveGraph Scene.call.cache "shell").toOption.any
      fun graph => graph.1.map ResolvedNode.name = ["worker","shell"]) = true := by
    decide +kernel
  obtain ⟨⟨nodes,cache'⟩,hnodes,hnames⟩ := ok_of_any hgraph
  exact ⟨nodes,cache',hnodes,by simpa using hnames,
    (Resolver.resolveGraph_exact Scene.collisionFree "shell").2 nodes cache' hnodes⟩

end AgentCentric.Boot

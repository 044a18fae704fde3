import AgentCentric.Library.Precedence
import AgentCentric.Network.Insertion

namespace AgentCentric.Network

def nodeWidth : Nat := 168
def nodeHeight : Nat := 58
def rankGap : Nat := 232
def rowGap : Nat := 100
def margin : Nat := 40
def maxDiagramNodes : Nat := 512

structure DiagramNode where
  id : String
  task : String
  composite : Bool
  rank : Nat
  row : Nat
  x : Nat
  y : Nat

structure RoutedEdge where
  source : String
  sourcePort : String
  target : String
  targetPort : String
  capacity : Int
  points : List (Nat × Nat)

structure DiagramBody where
  columns : Nat
  rows : Nat
  nodes : List DiagramNode
  edges : List RoutedEdge
  iips : List IIP

structure Diagram where
  networkSha256 : Digest
  body : DiagramBody
  contentHash : Digest

def DiagramNode.value (n : DiagramNode) : Value :=
  .dict [("id",.str n.id),("task",.str n.task),("composite",.bool n.composite),
    ("rank",.int n.rank),("row",.int n.row),("x",.int n.x),("y",.int n.y)]

def RoutedEdge.value (e : RoutedEdge) : Value :=
  .dict [("from",.str e.source),("from_port",.str e.sourcePort),("to",.str e.target),
    ("to_port",.str e.targetPort),("capacity",.int e.capacity),
    ("points",.list (e.points.map fun p => .list [.int p.1,.int p.2]))]

def DiagramBody.value (networkSha256 : Digest) (b : DiagramBody) : Value :=
  .dict [("schema",.str "cbp.diagram.v1"),("network_sha256",.str networkSha256.text),
    ("columns",.int b.columns),("rows",.int b.rows),("nodes",.list (b.nodes.map (·.value))),
    ("edges",.list (b.edges.map (·.value))),("iips",.list (b.iips.map iipDict))]

def column (rows r : Nat) (ids : List (ComponentOf Unit)) : List DiagramNode :=
  let offset := (rows - ids.length) * rowGap / 2
  (enumerate 0 ids).map fun (row,c) => ⟨c.id,c.task,c.subnet.isSome,r,row,margin + r * rankGap,
    margin + offset + row * rowGap⟩

def largest (ns : List Nat) : Nat := ns.foldl max 0

/-- `_layout`: the nodes, the last column and the number of rows. -/
def layout (rank : String → Nat) (components : List (ComponentOf Unit)) :
    List DiagramNode × Nat × Nat :=
  let byRank := Dict.group (fun c => rank c.id) id components
  let rows := largest (byRank.entries.map fun column => column.2.length)
  let nodes := (byRank.keys.insertionSort (· ≤ ·)).flatMap fun r =>
    column rows r ((byRank.get r).getD [])
  (nodes,largest (nodes.map (·.rank)),rows)

def edgeKey (e : Edge) : Lex (String × Lex (String × Lex (String × Lex (String × Int)))) :=
  toLex (e.source,toLex (e.sourceField,toLex (e.target,toLex (e.targetArg,e.capacity))))

def routed (src dst : DiagramNode) (e : Edge) : RoutedEdge :=
  let sx := src.x + nodeWidth
  let sy := src.y + nodeHeight / 2
  let tx := dst.x
  let ty := dst.y + nodeHeight / 2
  let mid := (sx + tx) / 2
  ⟨e.source,e.sourceField,e.target,e.targetArg,e.capacity,[(sx,sy),(mid,sy),(mid,ty),(tx,ty)]⟩

/-- `positions[id]`. -/
def position (nodes : List DiagramNode) (id : String) : Except String DiagramNode :=
  expect (nodes.reverse.find? fun n => n.id = id) (pyRepr id)

def routedEdges (nodes : List DiagramNode) (edges : List Edge) : Except String (List RoutedEdge) :=
  (edges.insertionSort fun e f => edgeKey e ≤ edgeKey f).mapM fun e => do
    let src ← position nodes e.source
    let dst ← position nodes e.target
    pure (routed src dst e)

namespace ComponentNetwork

/-- `_ranks`: one sweep over the order, in which every component pushes its targets on. -/
def ranks (net : ComponentNetwork) : String → Nat :=
  net.order.foldl (relax (Kahn.successors net.links)) fun _ => 0

def diagramBody (net : ComponentNetwork) : Except String DiagramBody := do
  let (nodes,columns,rows) := layout net.ranks (net.sortedComponents.map ComponentOf.outline)
  let edges ← routedEdges nodes net.edges
  pure ⟨columns + 1,rows,nodes,edges,net.sortedIIPs⟩

def buildDiagram (sha256 : List Char → Digest) (net : ComponentNetwork) :
    Except String Diagram := do
  net.validate
  require (net.components.length ≤ maxDiagramNodes)
    (s!"network has {net.components.length} components, exceeding the diagram limit " ++
      s!"{maxDiagramNodes} (fail-closed)")
  let body ← net.diagramBody
  let networkSha256 ← expect (net.contentHash sha256) "a value is not JSON serializable"
  let document ← expect (body.value networkSha256).json? "a value is not JSON serializable"
  pure ⟨networkSha256,body,sha256 document.bytes⟩

end ComponentNetwork

/-- `_svg_size`: the width and the height of the canvas. -/
def svgSize (nodes : List DiagramNode) : Nat × Nat :=
  if nodes = [] then (margin * 2 + nodeWidth,margin * 2 + nodeHeight)
  else (largest (nodes.map (·.x)) + nodeWidth + margin,
    largest (nodes.map (·.y)) + nodeHeight + margin)

/-- The two rectangles have no point in common. -/
def DiagramNode.Apart (m n : DiagramNode) : Prop :=
  m.x + nodeWidth < n.x ∨ n.x + nodeWidth < m.x ∨ m.y + nodeHeight < n.y ∨ n.y + nodeHeight < m.y

def DiagramNode.Inside (n : DiagramNode) (size : Nat × Nat) : Prop :=
  n.x + nodeWidth ≤ size.1 ∧ n.y + nodeHeight ≤ size.2

/-- A path of edges over these components, one after the other, to the last one. -/
def ComponentNetwork.PathTo (net : ComponentNetwork) (before : List String) (id : String) : Prop :=
  (before ++ [id]).IsChain fun a b => ∃ e ∈ net.edges, e.source = a ∧ e.target = b

theorem le_foldl_max (ns : List Nat) (s : Nat) :
    s ≤ ns.foldl max s ∧ ∀ n ∈ ns, n ≤ ns.foldl max s := by
  induction ns generalizing s with
  | nil => simp
  | cons m ns ih =>
    obtain ⟨hstart,hall⟩ := ih (max s m)
    rw [List.foldl_cons]
    refine ⟨by omega,fun n hn => ?_⟩
    rcases List.mem_cons.1 hn with rfl | hn
    · omega
    · exact hall n hn

theorem le_largest {ns : List Nat} {n : Nat} (h : n ∈ ns) : n ≤ largest ns :=
  (le_foldl_max ns 0).2 n h

section
variable {rows r : Nat} {ids : List (ComponentOf Unit)}

theorem column_ids : (column rows r ids).map (·.id) = ids.map (·.id) := by
  have hsnd := congrArg (List.map (·.id)) (enumerate_snd 0 ids)
  rw [List.map_map] at hsnd
  rw [column,List.map_map,← hsnd]
  rfl

theorem mem_column {n : DiagramNode} (h : n ∈ column rows r ids) :
    n.rank = r ∧ n.x = margin + r * rankGap := by
  obtain ⟨p,_,rfl⟩ := List.mem_map.1 h
  exact ⟨rfl,rfl⟩

/-- The rows are further apart than a node is high. -/
theorem column_apart : (column rows r ids).Pairwise DiagramNode.Apart := by
  refine List.pairwise_map.2 ((enumerate_lt 0 ids).imp fun {p q} hpq => ?_)
  simp only [DiagramNode.Apart,nodeHeight,rowGap]
  omega

end

section
variable {rank : String → Nat} {components : List (ComponentOf Unit)}

theorem layout_nodes : ∃ keys : List Nat, keys.Pairwise (· < ·) ∧
    (∀ c ∈ components, rank c.id ∈ keys) ∧
    (layout rank components).1 = keys.flatMap fun r => column (layout rank components).2.2 r
      (components.filter fun c => rank c.id = r) := by
  let byRank := Dict.group (fun c => rank c.id) id components
  have hnodup : (byRank.keys.insertionSort (· ≤ ·)).Nodup :=
    (List.perm_insertionSort _ _).nodup_iff.2 byRank.nodup
  refine ⟨byRank.keys.insertionSort (· ≤ ·),?_,fun c hc => ?_,?_⟩
  · exact ((List.pairwise_insertionSort (· ≤ ·) byRank.keys).and hnodup).imp
      fun h => Nat.lt_of_le_of_ne h.1 h.2
  · obtain ⟨ids,hids,_⟩ := @Dict.group_of_mem _ _ _ _ (fun c => rank c.id) id _ _ hc
    exact (List.mem_insertionSort _).2 ((Dict.lookup_isSome _ _).1
      (Option.isSome_iff_exists.2 ⟨ids,hids⟩))
  · have hcolumn : ∀ r, (byRank.get r).getD [] = components.filter fun c => rank c.id = r :=
      fun r => (Dict.get_group _ _ _ r).trans (List.map_id _)
    simp only [layout,← hcolumn]
    rfl

theorem layout_ids : ((layout rank components).1.map (·.id)).Perm (components.map (·.id)) := by
  obtain ⟨keys,hkeys,hall,hnodes⟩ := @layout_nodes rank components
  have hids : (layout rank components).1.map (·.id) =
      (keys.flatMap fun r => components.filter fun c => rank c.id = r).map (·.id) := by
    rw [hnodes,List.map_flatMap,List.map_flatMap]
    simp only [column_ids]
  have hfilter : (components.filter fun c => rank c.id ∈ keys) = components :=
    List.filter_eq_self.2 fun c hc => decide_eq_true (hall c hc)
  have hperm := flatMap_filter_perm (fun c : ComponentOf Unit => rank c.id)
    (hkeys.imp fun h => Nat.ne_of_lt h) components
  rw [hfilter] at hperm
  rw [hids]
  exact hperm.map _

theorem layout_rank {n : DiagramNode} (h : n ∈ (layout rank components).1) :
    n.rank = rank n.id := by
  obtain ⟨keys,_,_,hnodes⟩ := @layout_nodes rank components
  rw [hnodes] at h
  obtain ⟨r,_,hn⟩ := List.mem_flatMap.1 h
  have hid : n.id ∈ (components.filter fun c => rank c.id = r).map (·.id) := by
    rw [← column_ids]
    exact List.mem_map_of_mem hn
  obtain ⟨c,hc,hcid⟩ := List.mem_map.1 hid
  rw [(mem_column hn).1,← hcid]
  exact (of_decide_eq_true (List.mem_filter.1 hc).2).symm

/-- The columns are further apart than a node is wide. -/
theorem layout_apart : (layout rank components).1.Pairwise DiagramNode.Apart := by
  obtain ⟨keys,hkeys,_,hnodes⟩ := @layout_nodes rank components
  rw [hnodes,List.pairwise_flatMap]
  refine ⟨fun r _ => column_apart,hkeys.imp fun {r s} hrs m hm n hn => .inl ?_⟩
  rw [(mem_column hm).2,(mem_column hn).2]
  simp only [nodeWidth,rankGap]
  omega

end

theorem inside_svgSize {nodes : List DiagramNode} {n : DiagramNode} (h : n ∈ nodes) :
    n.Inside (svgSize nodes) := by
  have hx : n.x ≤ largest (nodes.map (·.x)) := le_largest (List.mem_map_of_mem h)
  have hy : n.y ≤ largest (nodes.map (·.y)) := le_largest (List.mem_map_of_mem h)
  rw [svgSize,if_neg (List.ne_nil_of_mem h)]
  simp only [DiagramNode.Inside]
  omega

variable {net : ComponentNetwork}

namespace ComponentNetwork

theorem Validated.endpoints (h : net.Validated) :
    ∀ e ∈ net.edges, e.source ∈ net.ids ∧ e.target ∈ net.ids :=
  fun e he => ⟨(h.edge e he).source,(h.edge e he).target⟩

theorem ranks_pass (h : net.Validated) :
    (stepwise (Kahn.successors net.links)).Pass fun id => (net.ranks id : Int) := by
  have htopological :=
    order_topological h.endpoints ((checkAcyclic_order h.endpoints).1.1 h.acyclic)
  refine relax_pass (htopological.perm.nodup_iff.2 net.ids_nodup) (fun a b hab => ?_)
    fun l x r horder a hax => htopological.before l x r horder a (Kahn.mem_successors.1 hax)
  exact htopological.perm.mem_iff.2 (h.links_mem _ (Kahn.mem_successors.1 hab)).1

theorem pathTo_iff {before : List String} {id : String} :
    net.PathTo before id ↔ (stepwise (Kahn.successors net.links)).Chain (before ++ [id]) := by
  have hrelation : (fun a b => ∃ e ∈ net.edges, e.source = a ∧ e.target = b) =
      fun a b => b ∈ Kahn.successors net.links a := by
    funext a b
    simp [Kahn.mem_successors,links]
  rw [PathTo,hrelation]
  exact ⟨fun hchain => ⟨fun _ _ => trivial,hchain⟩,fun hchain => hchain.2⟩

theorem ranks_longest (h : net.Validated) (id : String) :
    IsGreatest {k | ∃ before, net.PathTo before id ∧ before.length = k} (net.ranks id) := by
  constructor
  · obtain ⟨before,hchain,htotal⟩ := (ranks_pass h).exists_chain (b := id) trivial
    rw [total_stepwise] at htotal
    exact ⟨before,pathTo_iff.2 hchain,by omega⟩
  · rintro k ⟨before,hpath,rfl⟩
    have hle := (ranks_pass h).chain_le (pathTo_iff.1 hpath)
    rw [total_stepwise] at hle
    omega

theorem ranks_lt (h : net.Validated) {e : Edge} (he : e ∈ net.edges) :
    net.ranks e.source < net.ranks e.target := by
  have hstep := (ranks_pass h).follows e.source e.target trivial trivial
    (Kahn.mem_successors.2 (List.mem_map_of_mem (f := fun e : Edge => (e.source,e.target)) he))
  simp only [stepwise] at hstep
  omega

theorem ranks_congr {net net' : ComponentNetwork} (h : net.Validated) (h' : net'.Validated)
    (hedges : net.edges.Perm net'.edges) : net.ranks = net'.ranks := by
  have hnext : stepwise (Kahn.successors net.links) = stepwise (Kahn.successors net'.links) := by
    simp only [stepwise,Project.mk.injEq,true_and,and_true]
    funext a b
    simp only [Kahn.mem_successors,links,(hedges.map _).mem_iff]
  have hpass := ranks_pass h
  rw [hnext] at hpass
  funext id
  have hle := hpass.least (ranks_pass h').toStarts (b := id) trivial
  have hge := (ranks_pass h').least hpass.toStarts (b := id) trivial
  omega

end ComponentNetwork

theorem edgeKey_inj {e f : Edge} (h : edgeKey e = edgeKey f) : e = f := by
  obtain ⟨source,sourceField,target,targetArg,capacity⟩ := e
  obtain ⟨source',sourceField',target',targetArg',capacity'⟩ := f
  simpa [edgeKey] using h

theorem routedEdges_congr (nodes : List DiagramNode) {es fs : List Edge} (h : es.Perm fs) :
    routedEdges nodes es = routedEdges nodes fs := by
  have : Std.Total fun e f : Edge => edgeKey e ≤ edgeKey f := ⟨fun e f => le_total _ _⟩
  have : IsTrans Edge fun e f => edgeKey e ≤ edgeKey f := ⟨fun _ _ _ => le_trans⟩
  have hsort := insertionSort_congr (fun e f : Edge => edgeKey e ≤ edgeKey f) h
    fun e _ f _ hef hfe => edgeKey_inj (le_antisymm hef hfe)
  rw [routedEdges,routedEdges,hsort]

theorem routedEdges_returns {nodes : List DiagramNode} {edges : List Edge}
    (h : ∀ e ∈ edges, e.source ∈ nodes.map (·.id) ∧ e.target ∈ nodes.map (·.id)) :
    ∃ routes, routedEdges nodes edges = .ok routes := by
  have hposition : ∀ id ∈ nodes.map (·.id), ∃ n, position nodes id = .ok n := by
    intro id hid
    obtain ⟨n,hn,rfl⟩ := List.mem_map.1 hid
    have hsome : (nodes.reverse.find? fun m => m.id = n.id).isSome :=
      List.find?_isSome.2 ⟨n,List.mem_reverse.2 hn,by simp⟩
    obtain ⟨m,hm⟩ := Option.isSome_iff_exists.1 hsome
    exact ⟨m,expect_ok.2 hm⟩
  refine mapM_returns.2 fun e he => ?_
  obtain ⟨hsource,htarget⟩ := h e ((List.mem_insertionSort _).1 he)
  obtain ⟨src,hsrc⟩ := hposition _ hsource
  obtain ⟨dst,hdst⟩ := hposition _ htarget
  exact ⟨_,bind_ok.2 ⟨src,hsrc,bind_ok.2 ⟨dst,hdst,rfl⟩⟩⟩

theorem written_value (sha : Digest) {b : DiagramBody} (h : ∀ i ∈ b.iips, Written i.value) :
    Written (b.value sha) := by
  have hstr : ∀ s, Written (.str s) := fun s => ⟨_,rfl⟩
  have hint : ∀ n, Written (.int n) := fun n => ⟨_,rfl⟩
  have hnode : ∀ n : DiagramNode, Written n.value := by
    intro n
    simp [DiagramNode.value,written_dict,hstr,hint]
    exact ⟨_,rfl⟩
  have hedge : ∀ e : RoutedEdge, Written e.value := by
    intro e
    simp only [RoutedEdge.value,written_dict,List.forall_mem_cons,written_list,List.forall_mem_map]
    exact ⟨hstr _,hstr _,hstr _,hstr _,hint _,fun p _ => ⟨hint _,hint _,by simp⟩,by simp⟩
  have hiip : ∀ i ∈ b.iips, Written (iipDict i) := by
    intro i hi
    simp [iipDict,written_dict,hstr,h i hi]
  simp only [DiagramBody.value,written_dict,List.forall_mem_cons,written_list,List.forall_mem_map]
  exact ⟨hstr _,hstr _,hint _,hint _,fun n _ => hnode n,fun e _ => hedge e,hiip,by simp⟩

namespace ComponentNetwork

theorem written_iips (h : Written (.dict net.toDict)) : ∀ i ∈ net.sortedIIPs, Written i.value := by
  rw [toDict_eq,written_dict] at h
  have hlist := h ("iips",.list (net.sortedIIPs.map iipDict)) (by simp)
  rw [written_list] at hlist
  intro i hi
  have hdict := hlist _ (List.mem_map_of_mem hi)
  rw [iipDict,written_dict] at hdict
  exact hdict ("value",i.value) (by simp)

theorem sortedIIPs_congr {net net' : ComponentNetwork} (hvalid : net.validate = .ok ())
    (h : net.iips.Perm net'.iips) : net.sortedIIPs = net'.sortedIIPs := by
  have hnodup := (validateIIPs_iff.1 (validate_iff.1 hvalid).iips).2
  refine insertionSort_congr (fun i j : IIP => byInport i j = true) h fun i hi j hj hij hji => ?_
  have hkey := toLex.injective (le_antisymm (byInport_iff.1 hij) (byInport_iff.1 hji))
  exact List.inj_on_of_nodup_map hnodup hi hj hkey

theorem outlines_congr {net net' : ComponentNetwork}
    (hnodup : (net.components.map (·.id)).Nodup) (h : Reordered net net') :
    net.sortedComponents.map ComponentOf.outline =
      net'.sortedComponents.map ComponentOf.outline := by
  obtain ⟨hids,houtlines,_,_,_⟩ := h
  rw [map_eq_iff_of_keys (sortedComponents_ids hids)
    (((sortedComponents_perm net).map _).nodup_iff.2 hnodup)]
  intro c hc c' hc' hid
  exact houtlines c (mem_sortedComponents.1 hc) c' (mem_sortedComponents.1 hc') hid

def diagramNodes (net : ComponentNetwork) : List DiagramNode :=
  (layout net.ranks (net.sortedComponents.map ComponentOf.outline)).1

theorem diagramNodes_ids (net : ComponentNetwork) :
    (net.diagramNodes.map (·.id)).Perm (net.components.map (·.id)) := by
  have hids : (net.sortedComponents.map ComponentOf.outline).map (·.id) =
      net.sortedComponents.map (·.id) := by
    rw [List.map_map]
    rfl
  have hperm := @layout_ids net.ranks (net.sortedComponents.map ComponentOf.outline)
  rw [hids] at hperm
  exact hperm.trans ((sortedComponents_perm net).map _)

theorem diagramBody_returns (h : net.Validated) : ∃ body, net.diagramBody = .ok body := by
  have hmem : ∀ id ∈ net.ids, id ∈ net.diagramNodes.map (·.id) := fun id hid =>
    (diagramNodes_ids net).mem_iff.2 (List.mem_dedup.1 hid)
  obtain ⟨routes,hroutes⟩ := @routedEdges_returns net.diagramNodes _ fun e he =>
    ⟨hmem _ (h.endpoints e he).1,hmem _ (h.endpoints e he).2⟩
  exact ⟨_,bind_ok.2 ⟨routes,hroutes,rfl⟩⟩

theorem diagramBody_ok {body : DiagramBody} (h : net.diagramBody = .ok body) :
    body.nodes = net.diagramNodes ∧ body.iips = net.sortedIIPs := by
  obtain ⟨routes,_,hbody⟩ := bind_ok.1 h
  obtain rfl := Except.ok.inj hbody
  exact ⟨rfl,rfl⟩

theorem diagramBody_congr {net net' : ComponentNetwork}
    (hnodup : (net.components.map (·.id)).Nodup) (h : Reordered net net')
    (hvalid : net.validate = .ok ()) (hvalid' : net'.validate = .ok ()) :
    net.diagramBody = net'.diagramBody := by
  have houtlines := outlines_congr hnodup h
  obtain ⟨_,_,_,hedges,hiips⟩ := h
  rw [diagramBody,diagramBody,
    ranks_congr (validated_of_validate hvalid) (validated_of_validate hvalid') hedges,houtlines,
    sortedIIPs_congr hvalid hiips]
  simp only [routedEdges_congr _ hedges]

theorem buildDiagram_ok {sha256 : List Char → Digest} {d : Diagram} :
    net.buildDiagram sha256 = .ok d ↔ net.validate = .ok () ∧
      net.components.length ≤ maxDiagramNodes ∧ net.diagramBody = .ok d.body ∧
      net.contentHash sha256 = some d.networkSha256 ∧
      ∃ j, (d.body.value d.networkSha256).json? = some j ∧ d.contentHash = sha256 j.bytes := by
  simp only [buildDiagram,bind_ok,require_ok,decide_eq_true_eq,expect_ok,pure,Except.pure,
    Except.ok.injEq]
  constructor
  · rintro ⟨_,hvalid,_,hsize,body,hbody,sha,hsha,j,hj,rfl⟩
    exact ⟨hvalid,hsize,hbody,hsha,j,hj,rfl⟩
  · rintro ⟨hvalid,hsize,hbody,hsha,j,hj,hhash⟩
    refine ⟨(),hvalid,(),hsize,_,hbody,_,hsha,j,hj,?_⟩
    rw [← hhash]

/-- The geometry of a diagram, and that nothing in it but the hashes depends on what was added
first. A diagram is returned if all values of the network can be written. -/
theorem buildDiagram_laidOut (sha256 : List Char → Digest) {net : ComponentNetwork}
    (hbuilt : Built net) (hvalid : net.validate = .ok ())
    (hsize : net.components.length ≤ maxDiagramNodes) :
    ((∃ d, net.buildDiagram sha256 = .ok d) ↔ Written (.dict net.toDict)) ∧
    ∀ d, net.buildDiagram sha256 = .ok d →
      (d.body.nodes.map (·.id)).Perm (net.components.map (·.id)) ∧
      (∀ n ∈ d.body.nodes,
        IsGreatest {k | ∃ before, net.PathTo before n.id ∧ before.length = k} n.rank) ∧
      (∀ e ∈ net.edges, ∀ m ∈ d.body.nodes, ∀ n ∈ d.body.nodes, m.id = e.source →
        n.id = e.target → m.rank < n.rank) ∧
      d.body.nodes.Pairwise DiagramNode.Apart ∧
      (∀ n ∈ d.body.nodes, n.Inside (svgSize d.body.nodes)) ∧
      ∀ net' d', Reordered net net' → net'.buildDiagram sha256 = .ok d' → d'.body = d.body := by
  have hvalidated := validated_of_validate hvalid
  constructor
  · constructor
    · rintro ⟨d,hd⟩
      obtain ⟨j,hj,_⟩ := Option.map_eq_some_iff.1 (buildDiagram_ok.1 hd).2.2.2.1
      exact ⟨j,hj⟩
    · rintro ⟨j,hj⟩
      obtain ⟨body,hbody⟩ := diagramBody_returns hvalidated
      have hiips : ∀ i ∈ body.iips, Written i.value := by
        rw [(diagramBody_ok hbody).2]
        exact written_iips ⟨j,hj⟩
      obtain ⟨k,hk⟩ := written_value (sha256 j.bytes) hiips
      exact ⟨⟨sha256 j.bytes,body,sha256 k.bytes⟩,buildDiagram_ok.2 ⟨hvalid,hsize,hbody,
        Option.map_eq_some_iff.2 ⟨j,hj,rfl⟩,k,hk,rfl⟩⟩
  · intro d hd
    have hbody := (buildDiagram_ok.1 hd).2.2.1
    have hrank : ∀ n ∈ net.diagramNodes, n.rank = net.ranks n.id := fun n hn => layout_rank hn
    rw [(diagramBody_ok hbody).1]
    refine ⟨diagramNodes_ids net,fun n hn => ?_,fun e he m hm n hn hsource htarget => ?_,
      layout_apart,fun n hn => inside_svgSize hn,fun net' d' hreordered hd' => ?_⟩
    · rw [hrank n hn]
      exact ranks_longest hvalidated n.id
    · rw [hrank m hm,hrank n hn,hsource,htarget]
      exact ranks_lt hvalidated he
    · obtain ⟨hvalid',_,hbody',_⟩ := buildDiagram_ok.1 hd'
      rw [diagramBody_congr hbuilt.wellFormed.ids hreordered hvalid hvalid',hbody'] at hbody
      exact Except.ok.inj hbody

theorem buildDiagram_laidOut_merging : ∃ d,
    buildDiagram Digest.ofChars (.mk constants [⟨"a","o","c","x",1⟩] []) = .ok d ∧
      d.body.nodes.Pairwise DiagramNode.Apart ∧
      ∀ n ∈ d.body.nodes, n.Inside (svgSize d.body.nodes) := by
  obtain ⟨hreturns,hlaid⟩ := buildDiagram_laidOut Digest.ofChars
    (merging_built (.refl _) [⟨"a","o","c","x",1⟩]) (by decide) (by decide)
  obtain ⟨d,hd⟩ := hreturns.2 ⟨_,rfl⟩
  obtain ⟨_,_,_,hapart,hinside,_⟩ := hlaid d hd
  exact ⟨d,hd,hapart,hinside⟩

end ComponentNetwork
end AgentCentric.Network

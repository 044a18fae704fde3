import AgentCentric.Library.Checked
import AgentCentric.Library.Kahn
import AgentCentric.Library.Precedence
import AgentCentric.Library.Text
import Mathlib.Data.List.MinMax

namespace AgentCentric.Cpm

structure CpmNode where
  id : String
  duration : Int
  dependsOn : List String

structure CpmAnalysis where
  criticalPath : List String
  duration : Int
  earlyStart : Dict String Int
  earlyFinish : Dict String Int
  lateStart : Dict String Int
  lateFinish : Dict String Int
  slack : Dict String Int
  onCritical : Dict String Bool

def byId : List CpmNode → Dict String CpmNode → Except String (Dict String CpmNode)
  | [], d => .ok d
  | node :: rest, d =>
    if (d.get node.id).isSome then .error ("duplicate node id " ++ pyRepr node.id)
    else if node.duration ≤ 0 then
      .error ("node " ++ pyRepr node.id ++ " must have a positive duration")
    else byId rest (d.set node.id node)

def checkDep (nodes : Dict String CpmNode) (node : CpmNode) (dep : String) :
    Except String Unit := do
  require (dep ≠ node.id) ("node " ++ pyRepr node.id ++ " depends on itself")
  require (nodes.get dep).isSome ("node " ++ pyRepr node.id ++ " depends on unknown " ++ pyRepr dep)

def checkDeps (nodes : Dict String CpmNode) (list : List CpmNode) : Except String Unit :=
  forEach (fun node => forEach (checkDep nodes node) node.dependsOn) list

def edges (nodes : List CpmNode) : List (String × String) :=
  nodes.flatMap fun node => node.dependsOn.map fun dep => (dep,node.id)

/-- `heappop` takes the least id. -/
def heap : Kahn.Worklist String where
  pop q := q.min?.map fun x => (x,q.erase x)
  push q x := x :: q
  pop_nil := rfl
  pop_perm q x r h := by
    obtain ⟨y,hy,heq⟩ := Option.map_eq_some_iff.1 h
    cases heq
    exact List.perm_cons_erase (List.min?_mem hy)
  pop_cons x q := by simp [List.min?_cons]
  push_perm q x := .refl _

def topoSort (nodes : List CpmNode) : Except String (List String) := do
  let ids := nodes.map CpmNode.id
  let start := ids.filter fun n => Kahn.indegree (edges nodes) [] n = 0
  let order := Kahn.sort heap (fun n => sortStrings (Kahn.successors (edges nodes) n)) ids start
    (edges nodes)
  require (order.length = ids.length) "graph contains a cycle (not a DAG)"
  pure order

structure Span where
  start : Int
  finish : Int

def spanOf (spans : Dict String Span) (id : String) : Span := (spans.get id).getD ⟨0,0⟩

def depsOf (nodes : Dict String CpmNode) (id : String) : List String :=
  ((nodes.get id).map CpmNode.dependsOn).getD []

def durationOf (nodes : Dict String CpmNode) (id : String) : Int :=
  ((nodes.get id).map CpmNode.duration).getD 0

def earliest (nodes : Dict String CpmNode) (early : Dict String Span) (id : String) : Span :=
  let start := (((depsOf nodes id).map fun d => (spanOf early d).finish).max?).getD 0
  ⟨start,start + durationOf nodes id⟩

def latest (nodes : Dict String CpmNode) (dependents : String → List String) (projectEnd : Int)
    (late : Dict String Span) (id : String) : Span :=
  let finish := (((dependents id).map fun d => (spanOf late d).start).min?).getD projectEnd
  ⟨finish - durationOf nodes id,finish⟩

local instance preorderInt : Preorder Int := Int.instLinearOrder.toPreorder

/-- The longest critical chain that ends at a node, and the node before. -/
structure Best where
  length : Int
  pred : Option String

def lengthOf (best : Dict String Best) (id : String) : Int :=
  ((best.get id).map Best.length).getD 0

def bestAt (nodes : Dict String CpmNode) (early : Dict String Span) (on : String → Bool)
    (best : Dict String Best) (id : String) : Best :=
  (sortStrings (depsOf nodes id)).foldl (fun b d =>
    if on d = true ∧ (spanOf early d).finish = (spanOf early id).start ∧
        b.length ≤ lengthOf best d + durationOf nodes id then
      ⟨lengthOf best d + durationOf nodes id,some d⟩
    else b) ⟨durationOf nodes id,none⟩

def climb (best : Dict String Best) : Nat → Option String → List String
  | 0, _ | _, none => []
  | fuel+1, some id => id :: climb best fuel ((best.get id).bind Best.pred)

def criticalChain (nodes : Dict String CpmNode) (order : List String) (early : Dict String Span)
    (on : String → Bool) : List String :=
  let best := Dict.fill (bestAt nodes early on) (order.filter on)
  let last := (best.entries.argmax fun e => e.2.length).map Prod.fst
  (climb best order.length last).reverse

def analyseCpm (list : List CpmNode) : Except String CpmAnalysis := do
  let nodes ← byId list .empty
  checkDeps nodes list
  let order ← topoSort list
  let early := Dict.fill (earliest nodes) order
  let projectEnd := ((early.entries.map fun e => e.2.finish).max?).getD 0
  let late := Dict.fill (latest nodes (Kahn.successors (edges list)) projectEnd) order.reverse
  let slack (id : String) := (spanOf late id).start - (spanOf early id).start
  let on (id : String) : Bool := slack id = 0
  pure {
    criticalPath := criticalChain nodes order early on
    duration := projectEnd
    earlyStart := early.mapValues Span.start
    earlyFinish := early.mapValues Span.finish
    lateStart := late.mapValues Span.start
    lateFinish := late.mapValues Span.finish
    slack := Dict.fill (fun _ id => slack id) order
    onCritical := Dict.fill (fun _ id => on id) order }

structure Valid (list : List CpmNode) : Prop where
  unique : (list.map CpmNode.id).Nodup
  positive : ∀ n ∈ list, 0 < n.duration
  apart : ∀ n ∈ list, n.id ∉ n.dependsOn
  known : ∀ n ∈ list, ∀ d ∈ n.dependsOn, d ∈ list.map CpmNode.id
  acyclic : Kahn.Acyclic (edges list)

variable {list : List CpmNode}

theorem byId_ok {d d' : Dict String CpmNode} :
    byId list d = .ok d' ↔ (list.map CpmNode.id).Nodup ∧ (∀ n ∈ list, d.get n.id = none) ∧
      (∀ n ∈ list, 0 < n.duration) ∧ d' = d.update (list.map fun n => (n.id,n)) := by
  induction list generalizing d with
  | nil => simp [byId,eq_comm]
  | cons node rest ih =>
    unfold byId
    by_cases hthere : (d.get node.id).isSome = true
    · rw [if_pos hthere]
      constructor
      · exact nofun
      · rintro ⟨-,hnew,-⟩
        rw [hnew node (by simp)] at hthere
        cases hthere
    · rw [if_neg hthere]
      have hnone : d.get node.id = none := by simpa using hthere
      by_cases hduration : node.duration ≤ 0
      · rw [if_pos hduration]
        constructor
        · exact nofun
        · rintro ⟨-,-,hpositive,-⟩
          have hnode := hpositive node (by simp)
          omega
      · rw [if_neg hduration,ih]
        have hpositive : 0 < node.duration := by omega
        simp only [List.map_cons,List.nodup_cons,List.mem_cons,forall_eq_or_imp,hnone,hpositive,
          true_and,Dict.update_cons]
        constructor
        · rintro ⟨hnodup,hnew,hpos,rfl⟩
          have hfresh : node.id ∉ rest.map CpmNode.id := by
            intro hmem
            obtain ⟨n,hn,hid⟩ := List.mem_map.1 hmem
            have hget := hnew n hn
            rw [hid,Dict.get_set_self] at hget
            cases hget
          refine ⟨⟨hfresh,hnodup⟩,fun n hn => ?_,hpos,rfl⟩
          have hne : node.id ≠ n.id := fun heq => hfresh (heq ▸ List.mem_map_of_mem hn)
          exact (Dict.get_set_ne d node hne).symm.trans (hnew n hn)
        · rintro ⟨⟨hfresh,hnodup⟩,hnew,hpos,rfl⟩
          refine ⟨hnodup,fun n hn => ?_,hpos,rfl⟩
          have hne : node.id ≠ n.id := fun heq => hfresh (heq ▸ List.mem_map_of_mem hn)
          exact (Dict.get_set_ne d node hne).trans (hnew n hn)

structure Table (list : List CpmNode) (nodes : Dict String CpmNode) : Prop where
  get : ∀ id n, nodes.get id = some n ↔ n ∈ list ∧ n.id = id

theorem table_of_nodup (h : (list.map CpmNode.id).Nodup) :
    Table list (Dict.empty.update (list.map fun n => (n.id,n))) := by
  have hkeys : ((Dict.empty.entries ++ list.map fun n : CpmNode => (n.id,n)).map
      Prod.fst).Nodup := by
    simpa [Dict.empty,Function.comp_def] using h
  rw [Dict.update_fresh _ _ hkeys]
  refine ⟨fun id n => (Dict.lookup_eq_some_iff hkeys).trans ?_⟩
  simp [Dict.empty,and_comm,eq_comm]

theorem mem_edges {a b : String} : (a,b) ∈ edges list ↔ ∃ n ∈ list, n.id = b ∧ a ∈ n.dependsOn := by
  simp only [edges,List.mem_flatMap,List.mem_map,Prod.mk.injEq]
  constructor
  · rintro ⟨n,hn,d,hd,rfl,rfl⟩
    exact ⟨n,hn,rfl,hd⟩
  · rintro ⟨n,hn,rfl,ha⟩
    exact ⟨n,hn,a,ha,rfl,rfl⟩

theorem Table.isSome {nodes : Dict String CpmNode} (h : Table list nodes)
    {id : String} : (nodes.get id).isSome = true ↔ id ∈ list.map CpmNode.id := by
  rw [Option.isSome_iff_exists,List.mem_map]
  exact exists_congr fun n => h.get id n

theorem checkDeps_ok {nodes : Dict String CpmNode} (h : Table list nodes) :
    checkDeps nodes list = .ok () ↔ (∀ n ∈ list, n.id ∉ n.dependsOn) ∧
      ∀ n ∈ list, ∀ d ∈ n.dependsOn, d ∈ list.map CpmNode.id := by
  simp only [checkDeps,forEach_ok,checkDep,bind_ok,require_ok,decide_eq_true_eq,h.isSome]
  constructor
  · intro hall
    refine ⟨fun n hn hself => ?_,fun n hn d hd => ?_⟩
    · obtain ⟨-,hne,-⟩ := hall n hn n.id hself
      exact hne rfl
    · exact (hall n hn d hd).choose_spec.2
  · rintro ⟨happart,hknown⟩ n hn d hd
    exact ⟨(),fun heq => happart n hn (heq ▸ hd),hknown n hn d hd⟩

structure Ordered (list : List CpmNode) (order : List String) : Prop where
  perm : order.Perm (list.map CpmNode.id)
  sorted : Kahn.Sorted (edges list) (list.map CpmNode.id) order

theorem topoSort_ok (hunique : (list.map CpmNode.id).Nodup)
    (hknown : ∀ n ∈ list, ∀ d ∈ n.dependsOn, d ∈ list.map CpmNode.id) :
    (∃ order, topoSort list = .ok order) ↔ Kahn.Acyclic (edges list) := by
  have hsources : ∀ e ∈ edges list, e.1 ∈ list.map CpmNode.id := by
    rintro ⟨a,b⟩ he
    obtain ⟨n,hn,-,ha⟩ := mem_edges.1 he
    exact hknown n hn a ha
  have htargets : ∀ e ∈ edges list, e.2 ∈ list.map CpmNode.id := by
    rintro ⟨a,b⟩ he
    obtain ⟨n,hn,rfl,-⟩ := mem_edges.1 he
    exact List.mem_map_of_mem hn
  have hsorted := Kahn.sort_sorted heap
    (fun n => sortStrings_perm (Kahn.successors (edges list) n)) htargets hunique (.refl _)
  rw [← hsorted.full_iff hunique hsources htargets]
  simp only [topoSort,bind_ok,require_ok,decide_eq_true_eq]
  constructor
  · rintro ⟨order,u,hlength,-⟩
    exact hlength
  · exact fun hlength => ⟨_,(),hlength,rfl⟩

theorem topoSort_ordered {order : List String}
    (hunique : (list.map CpmNode.id).Nodup) (h : topoSort list = .ok order) :
    Ordered list order := by
  have htargets : ∀ e ∈ edges list, e.2 ∈ list.map CpmNode.id := by
    rintro ⟨a,b⟩ he
    obtain ⟨n,hn,rfl,-⟩ := mem_edges.1 he
    exact List.mem_map_of_mem hn
  have hsorted := Kahn.sort_sorted heap
    (fun n => sortStrings_perm (Kahn.successors (edges list) n)) htargets hunique (.refl _)
  simp only [topoSort,bind_ok,require_ok,decide_eq_true_eq] at h
  obtain ⟨u,hlength,horder⟩ := h
  cases horder
  exact ⟨(List.subperm_of_subset hsorted.nodup hsorted.mem).perm_of_length_le hlength.ge,hsorted⟩

/-- Only a network that is not valid is refused. -/
theorem analyseCpm_ok (list : List CpmNode) : (∃ a, analyseCpm list = .ok a) ↔ Valid list := by
  simp only [analyseCpm,bind_ok,byId_ok]
  constructor
  · rintro ⟨a,nodes,⟨hunique,-,hpositive,rfl⟩,u,hdeps,order,horder,-⟩
    obtain ⟨hpart,hknown⟩ := (checkDeps_ok (table_of_nodup hunique)).1 hdeps
    exact ⟨hunique,hpositive,hpart,hknown,(topoSort_ok hunique hknown).1 ⟨order,horder⟩⟩
  · rintro ⟨hunique,hpositive,hpart,hknown,hacyclic⟩
    obtain ⟨order,horder⟩ := (topoSort_ok hunique hknown).2 hacyclic
    exact ⟨_,_,⟨hunique,fun n _ => Dict.get_empty n.id,hpositive,rfl⟩,(),
      (checkDeps_ok (table_of_nodup hunique)).2 ⟨hpart,hknown⟩,order,horder,rfl⟩

end AgentCentric.Cpm

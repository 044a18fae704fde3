import AgentCentric.Analysis.CriticalPath

namespace AgentCentric.Cpm

structure Setting (list : List CpmNode) (nodes : Dict String CpmNode) (order : List String) :
    Prop where
  valid : Valid list
  table : Table list nodes
  ordered : Ordered list order

def project (list : List CpmNode) (h : ∀ n ∈ list, 0 < n.duration) : Project CpmNode where
  Activity n := n ∈ list
  Before a b := a.id ∈ b.dependsOn
  duration := CpmNode.duration
  positive := h

variable {n : CpmNode}

namespace Setting
variable {list : List CpmNode} {nodes : Dict String CpmNode} {order : List String}
  (h : Setting list nodes order)
include h

theorem get_node (hn : n ∈ list) : nodes.get n.id = some n :=
  (h.table.get n.id n).2 ⟨hn,rfl⟩

theorem depsOf_node (hn : n ∈ list) : depsOf nodes n.id = n.dependsOn := by
  rw [depsOf,h.get_node hn]
  rfl

theorem durationOf_node (hn : n ∈ list) : durationOf nodes n.id = n.duration := by
  rw [durationOf,h.get_node hn]
  rfl

theorem mem_order {id : String} : id ∈ order ↔ ∃ n ∈ list, n.id = id := by
  rw [h.ordered.perm.mem_iff,List.mem_map]

theorem node_mem (hn : n ∈ list) : n.id ∈ order := h.mem_order.2 ⟨n,hn,rfl⟩

theorem dep_node (hn : n ∈ list) {d : String} (hd : d ∈ n.dependsOn) :
    ∃ a ∈ list, a.id = d := List.mem_map.1 (h.valid.known n hn d hd)

theorem mem_depsOf {a id : String} : a ∈ depsOf nodes id ↔ (a,id) ∈ edges list := by
  rw [mem_edges]
  cases hget : nodes.get id with
  | none =>
    constructor
    · intro ha
      simp [depsOf,hget] at ha
    · rintro ⟨n,hn,rfl,-⟩
      rw [h.get_node hn] at hget
      cases hget
  | some n =>
    obtain ⟨hn,rfl⟩ := (h.table.get id n).1 hget
    rw [h.depsOf_node hn]
    constructor
    · exact fun ha => ⟨n,hn,rfl,ha⟩
    · rintro ⟨n',hn',hid,ha⟩
      have hget' := h.get_node hn'
      rw [hid,hget] at hget'
      cases hget'
      exact ha

theorem scheduled : Dict.Scheduled (depsOf nodes) order where
  nodup := h.ordered.sorted.nodup
  before l k r heq a ha := h.ordered.sorted.before l k r heq a (h.mem_depsOf.1 ha)

theorem scheduled_reverse : Dict.Scheduled (Kahn.successors (edges list)) order.reverse := by
  refine h.scheduled.reverse fun k a ha => ?_
  have hedge := Kahn.mem_successors.1 ha
  obtain ⟨n,hn,hid,-⟩ := mem_edges.1 hedge
  exact ⟨h.mem_depsOf.2 hedge,h.mem_order.2 ⟨n,hn,hid⟩⟩

end Setting

def early (nodes : Dict String CpmNode) (order : List String) : Dict String Span :=
  Dict.fill (earliest nodes) order

def projectEnd (spans : Dict String Span) : Int :=
  ((spans.entries.map fun e => e.2.finish).max?).getD 0

def late (list : List CpmNode) (nodes : Dict String CpmNode) (end_ : Int) (order : List String) :
    Dict String Span :=
  Dict.fill (latest nodes (Kahn.successors (edges list)) end_) order.reverse

theorem earliest_local (nodes : Dict String CpmNode) (d d' : Dict String Span) (id : String)
    (h : ∀ a ∈ depsOf nodes id, d.get a = d'.get a) :
    earliest nodes d id = earliest nodes d' id := by
  have hsame : ((depsOf nodes id).map fun a => (spanOf d a).finish) =
      (depsOf nodes id).map fun a => (spanOf d' a).finish := by
    refine List.map_congr_left fun a ha => ?_
    rw [spanOf,h a ha,spanOf]
  simp only [earliest,hsame]

theorem latest_local (nodes : Dict String CpmNode) (dependents : String → List String)
    (end_ : Int) (d d' : Dict String Span) (id : String)
    (h : ∀ a ∈ dependents id, d.get a = d'.get a) :
    latest nodes dependents end_ d id = latest nodes dependents end_ d' id := by
  have hsame : ((dependents id).map fun a => (spanOf d a).start) =
      (dependents id).map fun a => (spanOf d' a).start := by
    refine List.map_congr_left fun a ha => ?_
    rw [spanOf,h a ha,spanOf]
  simp only [latest,hsame]

theorem le_maxD {xs : List Int} {x default : Int} (hx : x ∈ xs) : x ≤ (xs.max?).getD default := by
  cases hmax : xs.max? with
  | none =>
    rw [List.max?_eq_none_iff] at hmax
    rw [hmax] at hx
    cases hx
  | some m => exact (List.max?_eq_some_iff.1 hmax).2 x hx

theorem maxD_mem (xs : List Int) (default : Int) :
    (xs = [] ∧ (xs.max?).getD default = default) ∨ (xs.max?).getD default ∈ xs := by
  cases hmax : xs.max? with
  | none => exact .inl ⟨List.max?_eq_none_iff.1 hmax,rfl⟩
  | some m => exact .inr (List.max?_mem hmax)

theorem minD_le {xs : List Int} {x default : Int} (hx : x ∈ xs) : (xs.min?).getD default ≤ x := by
  cases hmin : xs.min? with
  | none =>
    rw [List.min?_eq_none_iff] at hmin
    rw [hmin] at hx
    cases hx
  | some m => exact (List.min?_eq_some_iff.1 hmin).2 x hx

theorem minD_mem (xs : List Int) (default : Int) :
    (xs = [] ∧ (xs.min?).getD default = default) ∨ (xs.min?).getD default ∈ xs := by
  cases hmin : xs.min? with
  | none => exact .inl ⟨List.min?_eq_none_iff.1 hmin,rfl⟩
  | some m => exact .inr (List.min?_mem hmin)

namespace Setting
variable {list : List CpmNode} {nodes : Dict String CpmNode} {order : List String}
  (h : Setting list nodes order)
include h

theorem early_node (hn : n ∈ list) :
    spanOf (early nodes order) n.id = earliest nodes (early nodes order) n.id := by
  have hget := Dict.get_fill (earliest_local nodes) h.scheduled (h.node_mem hn)
  rw [spanOf,early,hget]
  rfl

theorem late_node (end_ : Int) (hn : n ∈ list) : spanOf (late list nodes end_ order) n.id =
      latest nodes (Kahn.successors (edges list)) end_ (late list nodes end_ order) n.id := by
  have hget := Dict.get_fill (latest_local nodes (Kahn.successors (edges list)) end_)
    h.scheduled_reverse (List.mem_reverse.2 (h.node_mem hn))
  rw [spanOf,late,hget]
  rfl

theorem early_finish (hn : n ∈ list) : (spanOf (early nodes order) n.id).finish =
      (spanOf (early nodes order) n.id).start + n.duration := by
  rw [h.early_node hn]
  simp only [earliest,h.durationOf_node hn]

theorem late_start (end_ : Int) (hn : n ∈ list) :
    (spanOf (late list nodes end_ order) n.id).start + n.duration =
      (spanOf (late list nodes end_ order) n.id).finish := by
  rw [h.late_node end_ hn]
  simp only [latest,h.durationOf_node hn]
  omega

theorem induction {P : CpmNode → Prop}
    (hstep : ∀ n ∈ list, (∀ a ∈ list, a.id ∈ n.dependsOn → P a) → P n) : ∀ n ∈ list, P n := by
  have hall := h.scheduled.induction (P := fun id => ∀ n ∈ list, n.id = id → P n) ?_
  · exact fun n hn => hall n.id (h.node_mem hn) n hn rfl
  · rintro id - hneeds n hn rfl
    refine hstep n hn fun a ha hdep => hneeds a.id ?_ a ha rfl
    rwa [h.depsOf_node hn]

theorem induction_back {P : CpmNode → Prop}
    (hstep : ∀ n ∈ list, (∀ b ∈ list, n.id ∈ b.dependsOn → P b) → P n) : ∀ n ∈ list, P n := by
  have hall := h.scheduled_reverse.induction (P := fun id => ∀ n ∈ list, n.id = id → P n) ?_
  · exact fun n hn => hall n.id (List.mem_reverse.2 (h.node_mem hn)) n hn rfl
  · rintro id - hneeds n hn rfl
    refine hstep n hn fun b hb hdep => hneeds b.id ?_ b hb rfl
    exact Kahn.mem_successors.2 (mem_edges.2 ⟨b,hb,rfl,hdep⟩)

theorem forward : (project list h.valid.positive).Pass
    fun n => (spanOf (early nodes order) n.id).start := by
  have hfollows (a b : CpmNode) (ha : a ∈ list) (hb : b ∈ list) (hdep : a.id ∈ b.dependsOn) :
      (spanOf (early nodes order) a.id).start + a.duration ≤
        (spanOf (early nodes order) b.id).start := by
    rw [← h.early_finish ha,h.early_node hb]
    refine le_maxD (List.mem_map.2 ⟨a.id,?_,rfl⟩)
    rwa [h.depsOf_node hb]
  have htight (b : CpmNode) (hb : b ∈ list) : (spanOf (early nodes order) b.id).start = 0 ∨
      ∃ a ∈ list, a.id ∈ b.dependsOn ∧ (spanOf (early nodes order) a.id).start + a.duration =
        (spanOf (early nodes order) b.id).start := by
    rw [h.early_node hb]
    rcases maxD_mem ((depsOf nodes b.id).map fun d => (spanOf (early nodes order) d).finish) 0 with
      ⟨-,hzero⟩ | hmem
    · exact .inl hzero
    · obtain ⟨d,hd,hfinish⟩ := List.mem_map.1 hmem
      rw [h.depsOf_node hb] at hd
      obtain ⟨a,ha,rfl⟩ := h.dep_node hb hd
      exact .inr ⟨a,ha,hd,(h.early_finish ha).symm.trans hfinish⟩
  refine ⟨⟨?_,hfollows⟩,htight⟩
  refine h.induction fun n hn ih => ?_
  rcases htight n hn with hzero | ⟨a,ha,hdep,hstart⟩
  · omega
  · have hbegins := ih a ha hdep
    have hpositive := h.valid.positive a ha
    omega

theorem mem_early {id : String} {span : Span} (hmem : (id,span) ∈ (early nodes order).entries) :
    ∃ n ∈ list, n.id = id ∧ span = spanOf (early nodes order) n.id := by
  obtain ⟨hid,hspan⟩ := (Dict.mem_fill (earliest_local nodes) h.scheduled).1 hmem
  obtain ⟨n,hn,rfl⟩ := h.mem_order.1 hid
  exact ⟨n,hn,rfl,hspan.trans (h.early_node hn).symm⟩

theorem early_mem (hn : n ∈ list) :
    (n.id,spanOf (early nodes order) n.id) ∈ (early nodes order).entries := by
  rw [h.early_node hn]
  exact (Dict.mem_fill (earliest_local nodes) h.scheduled).2 ⟨h.node_mem hn,rfl⟩

theorem ends (hn : n ∈ list) :
    (spanOf (early nodes order) n.id).start + n.duration ≤ projectEnd (early nodes order) := by
  rw [← h.early_finish hn]
  exact le_maxD (List.mem_map.2 ⟨_,h.early_mem hn,rfl⟩)

theorem last : (projectEnd (early nodes order) = 0 ∧ ∀ n, n ∉ list) ∨ ∃ n ∈ list,
    (spanOf (early nodes order) n.id).start + n.duration = projectEnd (early nodes order) := by
  rcases maxD_mem ((early nodes order).entries.map fun e => e.2.finish) 0 with
    ⟨hnone,hzero⟩ | hmem
  · refine .inl ⟨hzero,fun n hn => ?_⟩
    have hentry := h.early_mem hn
    rw [List.map_eq_nil_iff.1 hnone] at hentry
    cases hentry
  · obtain ⟨⟨id,span⟩,hentry,hfinish⟩ := List.mem_map.1 hmem
    obtain ⟨n,hn,rfl,rfl⟩ := h.mem_early hentry
    exact .inr ⟨n,hn,(h.early_finish hn).symm.trans hfinish⟩

theorem backward (end_ : Int) : (project list h.valid.positive).reverse.Pass
    ((project list h.valid.positive).backward end_ fun n =>
      (spanOf (late list nodes end_ order) n.id).start) := by
  have hback (n : CpmNode) (hn : n ∈ list) : (project list h.valid.positive).backward end_
      (fun n => (spanOf (late list nodes end_ order) n.id).start) n =
        end_ - (spanOf (late list nodes end_ order) n.id).finish := by
    rw [← h.late_start end_ hn]
    rfl
  have hfollows (a b : CpmNode) (ha : a ∈ list) (hb : b ∈ list) (hdep : b.id ∈ a.dependsOn) :
      (spanOf (late list nodes end_ order) b.id).finish ≤
        (spanOf (late list nodes end_ order) a.id).start := by
    rw [h.late_node end_ hb]
    refine minD_le (List.mem_map.2 ⟨a.id,?_,rfl⟩)
    exact Kahn.mem_successors.2 (mem_edges.2 ⟨a,ha,rfl,hdep⟩)
  have htight (b : CpmNode) (hb : b ∈ list) :
      (spanOf (late list nodes end_ order) b.id).finish = end_ ∨ ∃ a ∈ list, b.id ∈ a.dependsOn ∧
        (spanOf (late list nodes end_ order) a.id).start =
          (spanOf (late list nodes end_ order) b.id).finish := by
    rw [h.late_node end_ hb]
    rcases minD_mem ((Kahn.successors (edges list) b.id).map fun d =>
        (spanOf (late list nodes end_ order) d).start) end_ with ⟨-,hend⟩ | hmem
    · exact .inl hend
    · obtain ⟨d,hd,hstart⟩ := List.mem_map.1 hmem
      obtain ⟨a,ha,rfl,hdep⟩ := mem_edges.1 (Kahn.mem_successors.1 hd)
      exact .inr ⟨a,ha,hdep,hstart⟩
  refine ⟨⟨?_,fun a b ha hb hdep => ?_⟩,fun b hb => ?_⟩
  · refine h.induction_back fun n hn ih => ?_
    rw [hback n hn]
    rcases htight n hn with hend | ⟨a,ha,hdep,hstart⟩
    · omega
    · have hbegins := ih a ha hdep
      have hpositive := h.valid.positive a ha
      have hfinish := h.late_start end_ ha
      rw [hback a ha] at hbegins
      omega
  · have hle := hfollows a b ha hb hdep
    have hfinish := h.late_start end_ ha
    rw [hback a ha,hback b hb]
    change end_ - _ + a.duration ≤ _
    omega
  · rw [hback b hb]
    rcases htight b hb with hend | ⟨a,ha,hdep,hstart⟩
    · exact .inl (by omega)
    · refine .inr ⟨a,ha,hdep,?_⟩
      have hfinish := h.late_start end_ ha
      rw [hback a ha]
      change end_ - _ + a.duration = _
      omega

/-- The two passes of the analysis. -/
theorem passes : (project list h.valid.positive).Passes (projectEnd (early nodes order))
    (fun n => (spanOf (early nodes order) n.id).start)
    (fun n => (spanOf (late list nodes (projectEnd (early nodes order)) order) n.id).start) where
  forward := h.forward
  ends _ ha := h.ends ha
  last := h.last
  backward := h.backward _

end Setting
end AgentCentric.Cpm

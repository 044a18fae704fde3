import AgentCentric.Analysis.Optimal

namespace AgentCentric.Cpm

def onCritical (list : List CpmNode) (nodes : Dict String CpmNode) (order : List String)
    (id : String) : Bool :=
  (spanOf (late list nodes (projectEnd (early nodes order)) order) id).start -
    (spanOf (early nodes order) id).start = 0

def bests (list : List CpmNode) (nodes : Dict String CpmNode) (order : List String) :
    Dict String Best :=
  Dict.fill (bestAt nodes (early nodes order) (onCritical list nodes order))
    (order.filter (onCritical list nodes order))

theorem bestAt_local (nodes : Dict String CpmNode) (spans : Dict String Span) (on : String → Bool)
    (d d' : Dict String Best) (id : String)
    (h : ∀ a ∈ (depsOf nodes id).filter on, d.get a = d'.get a) :
    bestAt nodes spans on d id = bestAt nodes spans on d' id := by
  unfold bestAt
  have hdeps : ∀ a ∈ sortStrings (depsOf nodes id), a ∈ depsOf nodes id :=
    fun a ha => (sortStrings_perm _).mem_iff.1 ha
  generalize sortStrings (depsOf nodes id) = deps at hdeps
  generalize (⟨durationOf nodes id,none⟩ : Best) = b
  induction deps generalizing b with
  | nil => rfl
  | cons a deps ih =>
    simp only [List.foldl_cons]
    have hstep (b : Best) : (if on a = true ∧ (spanOf spans a).finish = (spanOf spans id).start ∧
          b.length ≤ lengthOf d a + durationOf nodes id then
        (⟨lengthOf d a + durationOf nodes id,some a⟩ : Best) else b) =
        if on a = true ∧ (spanOf spans a).finish = (spanOf spans id).start ∧
          b.length ≤ lengthOf d' a + durationOf nodes id then
        ⟨lengthOf d' a + durationOf nodes id,some a⟩ else b := by
      by_cases hon : on a = true
      · have hget := h a (List.mem_filter.2 ⟨hdeps a List.mem_cons_self,hon⟩)
        rw [lengthOf,hget,lengthOf]
      · simp [hon]
    rw [hstep]
    exact ih (fun x hx => hdeps x (List.mem_cons_of_mem a hx)) _

/-- A dependency without slack that finishes when the node starts. -/
def Candidate (on : String → Bool) (spans : Dict String Span) (start : Int) (d : String) : Prop :=
  on d = true ∧ (spanOf spans d).finish = start

theorem foldl_best {C : String → Prop} {deps : List String} {best : Dict String Best}
    {on : String → Bool} {spans : Dict String Span} {start : Int} (duration : Int)
    (hstart : 0 ≤ start)
    (hdeps : ∀ d ∈ deps, Candidate on spans start d → C d ∧ lengthOf best d = start) {b : Best}
    (hb : (∃ d, C d ∧ b = ⟨start + duration,some d⟩) ∨ b = ⟨duration,none⟩) :
    (∃ d, C d ∧ deps.foldl (fun b d => if on d = true ∧ (spanOf spans d).finish = start ∧
        b.length ≤ lengthOf best d + duration then ⟨lengthOf best d + duration,some d⟩ else b) b =
      ⟨start + duration,some d⟩) ∨ (b = ⟨duration,none⟩ ∧ deps.foldl (fun b d => if on d = true ∧
        (spanOf spans d).finish = start ∧ b.length ≤ lengthOf best d + duration then
          ⟨lengthOf best d + duration,some d⟩ else b) b = ⟨duration,none⟩ ∧
      ∀ d ∈ deps, ¬Candidate on spans start d) := by
  induction deps generalizing b with
  | nil =>
    rcases hb with hb | hb
    · exact .inl hb
    · exact .inr ⟨hb,hb,nofun⟩
  | cons a deps ih =>
    rw [List.foldl_cons]
    have hrest := fun b => ih (b := b) fun d hd => hdeps d (List.mem_cons_of_mem a hd)
    by_cases ha : Candidate on spans start a
    · obtain ⟨hC,hlength⟩ := hdeps a List.mem_cons_self ha
      have hle : b.length ≤ lengthOf best a + duration := by
        rcases hb with ⟨d,-,rfl⟩ | rfl
        · simp only [hlength]
          omega
        · simp only [hlength]
          omega
      rw [if_pos ⟨ha.1,ha.2,hle⟩,hlength]
      rcases hrest _ (.inl ⟨a,hC,rfl⟩) with hfound | ⟨hnone,-⟩
      · exact .inl hfound
      · exact absurd (congrArg Best.pred hnone) (Option.some_ne_none a)
    · rw [if_neg fun hcond => ha ⟨hcond.1,hcond.2.1⟩]
      rcases hrest b hb with hfound | ⟨hnone,hresult,hnot⟩
      · exact .inl hfound
      · refine .inr ⟨hnone,hresult,fun d hd => ?_⟩
        rcases List.mem_cons.1 hd with rfl | hd
        · exact ha
        · exact hnot d hd

namespace Setting
variable {list : List CpmNode} {nodes : Dict String CpmNode} {order : List String}
  (h : Setting list nodes order)
include h

omit h in
theorem onCritical_iff {n : CpmNode} : onCritical list nodes order n.id = true ↔
    (spanOf (late list nodes (projectEnd (early nodes order)) order) n.id).start -
      (spanOf (early nodes order) n.id).start = 0 := by
  simp [onCritical]

theorem tight_critical {a b : CpmNode} (ha : a ∈ list) (hb : b ∈ list)
    (hdep : a.id ∈ b.dependsOn) (hon : onCritical list nodes order b.id = true)
    (htight : (spanOf (early nodes order) a.id).start + a.duration =
      (spanOf (early nodes order) b.id).start) : onCritical list nodes order a.id = true := by
  have hslack := h.passes.slack_nonneg ha
  have hfollows := h.passes.late_feasible.follows a b ha hb hdep
  rw [onCritical_iff] at hon ⊢
  change _ + a.duration ≤ _ at hfollows
  omega

/-- The chain to a critical node lasts until the node finishes, and goes on to a candidate unless
the node starts at once. -/
theorem best_node : ∀ n ∈ list, onCritical list nodes order n.id = true →
    ∃ b, (bests list nodes order).get n.id = some b ∧
      b.length = (spanOf (early nodes order) n.id).finish ∧
      ((b.pred = none ∧ (spanOf (early nodes order) n.id).start = 0) ∨
        ∃ a ∈ list, b.pred = some a.id ∧ a.id ∈ n.dependsOn ∧
          onCritical list nodes order a.id = true ∧
          (spanOf (early nodes order) a.id).finish = (spanOf (early nodes order) n.id).start) := by
  refine h.induction fun n hn ih hon => ?_
  have hmem : n.id ∈ order.filter (onCritical list nodes order) :=
    List.mem_filter.2 ⟨h.node_mem hn,hon⟩
  have hget := Dict.get_fill (bestAt_local nodes (early nodes order) (onCritical list nodes order))
    (h.scheduled.filter _) hmem
  refine ⟨_,hget,?_⟩
  change (bestAt nodes (early nodes order) (onCritical list nodes order)
    (bests list nodes order) n.id).length = _ ∧ ((bestAt nodes (early nodes order)
      (onCritical list nodes order) (bests list nodes order) n.id).pred = none ∧ _ ∨
        ∃ a ∈ list, (bestAt nodes (early nodes order) (onCritical list nodes order)
          (bests list nodes order) n.id).pred = _ ∧ _)
  have hstart : 0 ≤ (spanOf (early nodes order) n.id).start := h.forward.begins n hn
  have hdeps : ∀ d ∈ sortStrings (depsOf nodes n.id),
      Candidate (onCritical list nodes order) (early nodes order)
        (spanOf (early nodes order) n.id).start d →
      (∃ a ∈ list, a.id = d ∧ d ∈ n.dependsOn ∧ onCritical list nodes order d = true ∧
        (spanOf (early nodes order) d).finish = (spanOf (early nodes order) n.id).start) ∧
      lengthOf (bests list nodes order) d = (spanOf (early nodes order) n.id).start := by
    rintro d hd ⟨hcritical,hfinish⟩
    rw [(sortStrings_perm _).mem_iff,h.depsOf_node hn] at hd
    obtain ⟨a,ha,rfl⟩ := h.dep_node hn hd
    obtain ⟨b,hb,hlength,-⟩ := ih a ha hd hcritical
    refine ⟨⟨a,ha,rfl,hd,hcritical,hfinish⟩,?_⟩
    rw [lengthOf,hb]
    exact hlength.trans hfinish
  have hfold := foldl_best (durationOf nodes n.id) hstart hdeps (.inr rfl)
  rw [← bestAt] at hfold
  rcases hfold with ⟨d,⟨a,ha,rfl,hdep,hcritical,hfinish⟩,hbest⟩ | ⟨-,hbest,hnone⟩
  · rw [hbest,h.early_finish hn,h.durationOf_node hn]
    exact ⟨rfl,.inr ⟨a,ha,rfl,hdep,hcritical,hfinish⟩⟩
  · have hzero : (spanOf (early nodes order) n.id).start = 0 := by
      rcases h.forward.tight n hn with hzero | ⟨a,ha,hdep,htight⟩
      · exact hzero
      · have hmem' : a.id ∈ sortStrings (depsOf nodes n.id) := by
          rw [(sortStrings_perm _).mem_iff,h.depsOf_node hn]
          exact hdep
        have hcritical := h.tight_critical ha hn hdep hon htight
        exact absurd ⟨hcritical,(h.early_finish ha).trans htight⟩ (hnone a.id hmem')
    rw [hbest,h.early_finish hn,h.durationOf_node hn,hzero]
    exact ⟨(Int.zero_add _).symm,.inl ⟨rfl,rfl⟩⟩

theorem climb_chain (fuel : Nat) : ∀ n ∈ list, onCritical list nodes order n.id = true →
    order.idxOf n.id < fuel → ∃ c, (project list h.valid.positive).Chain (c ++ [n]) ∧
      (climb (bests list nodes order) fuel (some n.id)).reverse = (c ++ [n]).map CpmNode.id ∧
      (project list h.valid.positive).total c = (spanOf (early nodes order) n.id).start := by
  have hranked : Kahn.Ranked (edges list) fun id => order.idxOf id := by
    refine h.ordered.sorted.ranked ?_
    rintro ⟨a,b⟩ he
    obtain ⟨n,hn,rfl,-⟩ := mem_edges.1 he
    exact h.node_mem hn
  induction fuel with
  | zero => exact fun n hn hon hlt => absurd hlt (Nat.not_lt_zero _)
  | succ fuel ih =>
    intro n hn hon hlt
    obtain ⟨b,hget,hlength,hpred⟩ := h.best_node n hn hon
    rcases hpred with ⟨hnone,hzero⟩ | ⟨a,ha,hsome,hdep,hcritical,hfinish⟩
    · refine ⟨[],⟨by simpa [project] using hn,by simp⟩,?_,hzero.symm⟩
      cases fuel <;> simp [climb,hget,hnone]
    · have hbefore : order.idxOf a.id < order.idxOf n.id :=
        hranked _ _ (mem_edges.2 ⟨n,hn,rfl,hdep⟩)
      obtain ⟨c,hchain,hclimb,htotal⟩ := ih a ha hcritical (by omega)
      refine ⟨c ++ [a],?_,?_,?_⟩
      · have hsplit : c ++ [a] ++ [n] = c ++ a :: [n] := by simp
        rw [hsplit]
        refine Project.Chain.split.2 ⟨hchain,?_,by simpa [project] using hdep⟩
        simp [project,ha,hn]
      · rw [climb,hget,Option.bind_some,hsome,List.reverse_cons,hclimb]
        simp
      · have hspan := h.early_finish ha
        simp only [Project.total_append,Project.total_cons,Project.total_nil,htotal]
        change _ + (a.duration + 0) = _
        omega

theorem last_critical {n : CpmNode} (hn : n ∈ list)
    (hend : (spanOf (early nodes order) n.id).start + n.duration =
      projectEnd (early nodes order)) : onCritical list nodes order n.id = true := by
  have hslack := h.passes.slack_nonneg hn
  have hends := h.passes.late_feasible.ends n hn
  change _ + n.duration ≤ _ at hends
  rw [onCritical_iff]
  omega

theorem criticalChain_longest : ∃ c, (project list h.valid.positive).Chain c ∧
    c.map CpmNode.id = criticalChain nodes order (early nodes order) (onCritical list nodes order) ∧
    (project list h.valid.positive).total c = projectEnd (early nodes order) := by
  have hmem {id : String} {b : Best} (hentry : (id,b) ∈ (bests list nodes order).entries) :
      ∃ n ∈ list, n.id = id ∧ onCritical list nodes order n.id = true ∧
        b.length = (spanOf (early nodes order) n.id).finish := by
    have hlocal := bestAt_local nodes (early nodes order) (onCritical list nodes order)
    have hid := ((Dict.mem_fill hlocal (h.scheduled.filter _)).1 hentry).1
    obtain ⟨horder,hon⟩ := List.mem_filter.1 hid
    obtain ⟨n,hn,rfl⟩ := h.mem_order.1 horder
    obtain ⟨b',hget,hlength,-⟩ := h.best_node n hn hon
    have hb : (bests list nodes order).get n.id = some b :=
      (Dict.lookup_eq_some_iff (bests list nodes order).nodup).2 hentry
    rw [hget] at hb
    cases hb
    exact ⟨n,hn,rfl,hon,hlength⟩
  have hchain : criticalChain nodes order (early nodes order) (onCritical list nodes order) =
      (climb (bests list nodes order) order.length (((bests list nodes order).entries.argmax
        fun e => e.2.length).map Prod.fst)).reverse := rfl
  rw [hchain]
  cases hlast : (bests list nodes order).entries.argmax fun e => e.2.length with
  | none =>
    -- without critical activities there are none at all
    rcases h.last with ⟨hzero,-⟩ | ⟨n,hn,hend⟩
    · refine ⟨[],⟨by simp,by simp⟩,?_,hzero.symm⟩
      cases order.length <;> rfl
    · obtain ⟨b,hget,-⟩ := h.best_node n hn (h.last_critical hn hend)
      have hentry : (n.id,b) ∈ (bests list nodes order).entries :=
        (Dict.lookup_eq_some_iff (bests list nodes order).nodup).1 hget
      rw [List.argmax_eq_none.1 hlast] at hentry
      cases hentry
  | some e =>
    obtain ⟨n,hn,hid,hon,hlength⟩ := hmem (List.argmax_mem hlast)
    have hfinish : (spanOf (early nodes order) n.id).start + n.duration =
        projectEnd (early nodes order) := by
      rcases h.last with ⟨-,hnone⟩ | ⟨n',hn',hend⟩
      · exact absurd hn (hnone n)
      · obtain ⟨b,hget,hlength',-⟩ := h.best_node n' hn' (h.last_critical hn' hend)
        have hentry : (n'.id,b) ∈ (bests list nodes order).entries :=
          (Dict.lookup_eq_some_iff (bests list nodes order).nodup).1 hget
        have hle := List.le_of_mem_argmax hentry hlast
        have hends := h.ends hn
        have hspan := h.early_finish hn
        have hspan' := h.early_finish hn'
        simp only [hlength,hlength'] at hle
        omega
    obtain ⟨c,hchain,hclimb,htotal⟩ := h.climb_chain order.length n hn hon
      (List.idxOf_lt_length_of_mem (h.node_mem hn))
    refine ⟨c ++ [n],hchain,?_,?_⟩
    · rw [Option.map_some,← hid,hclimb]
    · simp only [Project.total_append,Project.total_cons,Project.total_nil,htotal]
      change _ + (n.duration + 0) = _
      omega

end Setting

def DependencyChain (list c : List CpmNode) : Prop :=
  (∀ n ∈ c, n ∈ list) ∧ c.IsChain fun a b => a.id ∈ b.dependsOn

def totalDuration (c : List CpmNode) : Int := (c.map CpmNode.duration).sum

/-- Every activity starts after those it depends on, and is done in time. -/
def Feasible (list : List CpmNode) (end_ : Int) (start : String → Int) : Prop :=
  ∀ n ∈ list, 0 ≤ start n.id ∧ start n.id + n.duration ≤ end_ ∧
    ∀ d ∈ list, d.id ∈ n.dependsOn → start d.id + d.duration ≤ start n.id

/-- The values are those of the activities, under their ids. -/
def Lists {α : Type} (list : List CpmNode) (d : Dict String α) (value : CpmNode → α) : Prop :=
  d.keys.Perm (list.map CpmNode.id) ∧ ∀ n ∈ list, d.get n.id = some (value n)

/-- The duration is that of the longest chains, the critical path is one, the starts are those of
the earliest and the latest schedule, and no slack have the activities on the longest chains. -/
structure Analyses (list : List CpmNode) (a : CpmAnalysis) (early late : String → Int) : Prop where
  longest : ∀ c, DependencyChain list c → totalDuration c ≤ a.duration
  criticalPath : ∃ c, DependencyChain list c ∧ c.map CpmNode.id = a.criticalPath ∧
    totalDuration c = a.duration
  earlyStart : Lists list a.earlyStart fun n => early n.id
  earlyFinish : Lists list a.earlyFinish fun n => early n.id + n.duration
  lateStart : Lists list a.lateStart fun n => late n.id
  lateFinish : Lists list a.lateFinish fun n => late n.id + n.duration
  slack : Lists list a.slack fun n => late n.id - early n.id
  onCritical : Lists list a.onCritical fun n => decide (late n.id - early n.id = 0)
  earlyFeasible : Feasible list a.duration early
  lateFeasible : Feasible list a.duration late
  between : ∀ start, Feasible list a.duration start → ∀ n ∈ list,
    early n.id ≤ start n.id ∧ start n.id ≤ late n.id
  slackNonneg : ∀ n ∈ list, 0 ≤ late n.id - early n.id
  slackZero : ∀ n ∈ list, late n.id - early n.id = 0 ↔
    ∃ c, DependencyChain list c ∧ n ∈ c ∧ totalDuration c = a.duration

theorem feasible_iff {list : List CpmNode} (h : ∀ n ∈ list, 0 < n.duration) {end_ : Int}
    {start : String → Int} : Feasible list end_ start ↔
      (project list h).Feasible end_ fun n => start n.id := by
  constructor
  · intro hf
    exact ⟨⟨fun n hn => (hf n hn).1,fun a b ha hb hdep => (hf b hb).2.2 a ha hdep⟩,
      fun n hn => (hf n hn).2.1⟩
  · intro hf n hn
    exact ⟨hf.begins n hn,hf.ends n hn,fun d hd hdep => hf.follows d n hd hn hdep⟩

namespace Setting
variable {list : List CpmNode} {nodes : Dict String CpmNode} {order : List String}
  (h : Setting list nodes order)
include h

theorem get_early {n : CpmNode} (hn : n ∈ list) :
    (early nodes order).get n.id = some (spanOf (early nodes order) n.id) := by
  rw [h.early_node hn]
  exact Dict.get_fill (earliest_local nodes) h.scheduled (h.node_mem hn)

theorem get_late (end_ : Int) {n : CpmNode} (hn : n ∈ list) :
    (late list nodes end_ order).get n.id = some (spanOf (late list nodes end_ order) n.id) := by
  rw [h.late_node end_ hn]
  exact Dict.get_fill (latest_local nodes (Kahn.successors (edges list)) end_)
    h.scheduled_reverse (List.mem_reverse.2 (h.node_mem hn))

theorem keys_early : (early nodes order).keys.Perm (list.map CpmNode.id) := by
  rw [early,Dict.keys_fill h.scheduled.nodup]
  exact h.ordered.perm

theorem keys_late (end_ : Int) : (late list nodes end_ order).keys.Perm (list.map CpmNode.id) := by
  rw [late,Dict.keys_fill h.scheduled_reverse.nodup]
  exact (List.reverse_perm order).trans h.ordered.perm

omit h in
theorem lists_mapValues {d : Dict String Span} (hkeys : d.keys.Perm (list.map CpmNode.id))
    (hget : ∀ n ∈ list, d.get n.id = some (spanOf d n.id)) (f : Span → Int) :
    Lists list (d.mapValues f) fun n => f (spanOf d n.id) := by
  refine ⟨?_,fun n hn => ?_⟩
  · have hmap : (d.mapValues f).keys = d.keys := by
      simp [Dict.mapValues,Dict.keys,Function.comp_def]
    rw [hmap]
    exact hkeys
  · rw [Dict.get_mapValues,hget n hn]
    rfl

theorem lists_fill {α : Type} (f : String → α) :
    Lists list (Dict.fill (fun _ id => f id) order) fun n => f n.id := by
  refine ⟨?_,fun n hn => ?_⟩
  · rw [Dict.keys_fill h.scheduled.nodup]
    exact h.ordered.perm
  · have hlocal : ∀ (d d' : Dict String α) (k : String),
        (∀ x ∈ depsOf nodes k, d.get x = d'.get x) → f k = f k := fun _ _ _ _ => rfl
    exact Dict.get_fill hlocal h.scheduled (h.node_mem hn)

theorem analyses : Analyses list {
      criticalPath := criticalChain nodes order (early nodes order) (onCritical list nodes order)
      duration := projectEnd (early nodes order)
      earlyStart := (early nodes order).mapValues Span.start
      earlyFinish := (early nodes order).mapValues Span.finish
      lateStart := (late list nodes (projectEnd (early nodes order)) order).mapValues Span.start
      lateFinish := (late list nodes (projectEnd (early nodes order)) order).mapValues Span.finish
      slack := Dict.fill (fun _ id =>
        (spanOf (late list nodes (projectEnd (early nodes order)) order) id).start -
          (spanOf (early nodes order) id).start) order
      onCritical := Dict.fill (fun _ id => onCritical list nodes order id) order }
    (fun id => (spanOf (early nodes order) id).start)
    fun id => (spanOf (late list nodes (projectEnd (early nodes order)) order) id).start := by
  have hearly := lists_mapValues h.keys_early (fun n hn => h.get_early hn)
  have hlate := lists_mapValues (h.keys_late (projectEnd (early nodes order)))
    fun n hn => h.get_late _ hn
  have hfinish : Lists list ((early nodes order).mapValues Span.finish)
      fun n => (spanOf (early nodes order) n.id).start + n.duration :=
    ⟨(hearly Span.finish).1,fun n hn =>
      ((hearly Span.finish).2 n hn).trans (congrArg some (h.early_finish hn))⟩
  have hfinish' : Lists list
      ((late list nodes (projectEnd (early nodes order)) order).mapValues Span.finish) fun n =>
        (spanOf (late list nodes (projectEnd (early nodes order)) order) n.id).start +
          n.duration :=
    ⟨(hlate Span.finish).1,fun n hn =>
      ((hlate Span.finish).2 n hn).trans (congrArg some (h.late_start _ hn).symm)⟩
  exact {
    longest := fun c hc => h.passes.chain_le hc
    criticalPath := h.criticalChain_longest
    earlyStart := hearly Span.start
    earlyFinish := hfinish
    lateStart := hlate Span.start
    lateFinish := hfinish'
    slack := h.lists_fill _
    onCritical := h.lists_fill _
    earlyFeasible := (feasible_iff h.valid.positive).2 h.passes.early_feasible
    lateFeasible := (feasible_iff h.valid.positive).2 h.passes.late_feasible
    between := fun start hf n hn => h.passes.between ((feasible_iff h.valid.positive).1 hf) hn
    slackNonneg := fun n hn => Int.sub_nonneg.2 (h.passes.slack_nonneg hn)
    slackZero := fun n hn => h.passes.slack_zero_iff hn }

end Setting

/-- A network is analysed when it is valid and refused otherwise, and what is said of a valid
network is right. -/
theorem analyseCpm_correct (list : List CpmNode) :
    ((∃ a, analyseCpm list = .ok a) ↔ Valid list) ∧
      ∀ a, analyseCpm list = .ok a → ∃ early late, Analyses list a early late := by
  refine ⟨analyseCpm_ok list,fun a ha => ?_⟩
  have hvalid : Valid list := (analyseCpm_ok list).1 ⟨a,ha⟩
  simp only [analyseCpm,bind_ok,byId_ok] at ha
  obtain ⟨nodes,⟨hunique,-,-,rfl⟩,u,-,order,horder,heq⟩ := ha
  have hsetting : Setting list _ order :=
    ⟨hvalid,table_of_nodup hunique,topoSort_ordered hunique horder⟩
  cases heq
  exact ⟨_,_,hsetting.analyses⟩

end AgentCentric.Cpm

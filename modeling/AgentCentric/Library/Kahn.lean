import Mathlib.Data.Fintype.List
import Mathlib.Data.Fintype.EquivFin

namespace AgentCentric.Kahn

/-- A worklist discipline: which waiting node comes next and where a released one
is put. Both only rearrange the waiting nodes. -/
structure Worklist (ι : Type) where
  pop : List ι → Option (ι × List ι)
  push : List ι → ι → List ι
  pop_nil : pop [] = none
  pop_perm : ∀ q x r, pop q = some (x,r) → q.Perm (x :: r)
  pop_cons : ∀ x q, (pop (x :: q)).isSome
  push_perm : ∀ q x, (push q x).Perm (x :: q)

/-- The edges into `n` that do not start in a finished node. -/
def indegree {ι : Type} [DecidableEq ι] (edges : List (ι × ι)) (finished : List ι) (n : ι) : Nat :=
  edges.countP (fun e => e.2 = n ∧ e.1 ∉ finished)

def successors {ι : Type} [DecidableEq ι] (edges : List (ι × ι)) (n : ι) : List ι :=
  (edges.filter (fun e => e.1 = n)).map Prod.snd

structure Front (ι : Type) where
  indeg : ι → Nat
  queue : List ι

/-- One released edge: the target loses an open predecessor and joins the queue
when that was the last one. -/
def release {ι : Type} [DecidableEq ι] (w : Worklist ι) (f : Front ι) (n : ι) : Front ι :=
  let indeg := Function.update f.indeg n (f.indeg n - 1)
  ⟨indeg,if indeg n = 0 then w.push f.queue n else f.queue⟩

/-- Kahn's loop; `adjacency` lists the targets of a node's edges in the order the
caller walks them. The finished nodes come out in order. -/
def loop {ι : Type} [DecidableEq ι] (w : Worklist ι) (adjacency : ι → List ι) :
    Nat → Front ι → List ι → List ι
  | 0, _, finished => finished
  | fuel+1, f, finished =>
    match w.pop f.queue with
    | none => finished
    | some (x,rest) =>
      loop w adjacency fuel ((adjacency x).foldl (release w) ⟨f.indeg,rest⟩) (finished ++ [x])

def sort {ι : Type} [DecidableEq ι] (w : Worklist ι) (adjacency : ι → List ι)
    (nodes start : List ι) (edges : List (ι × ι)) : List ι :=
  loop w adjacency nodes.length ⟨indegree edges [],start⟩ []

@[simp] theorem release_indeg {ι : Type} [DecidableEq ι] (w : Worklist ι) (f : Front ι)
    (t n : ι) : (release w f t).indeg n = if n = t then f.indeg t - 1 else f.indeg n := by
  simp [release,Function.update_apply]

theorem mem_release_queue {ι : Type} [DecidableEq ι] (w : Worklist ι) (f : Front ι) (t n : ι) :
    n ∈ (release w f t).queue ↔ n ∈ f.queue ∨ (n = t ∧ f.indeg t - 1 = 0) := by
  simp only [release,Function.update_self]
  split
  · rename_i h
    rw [(w.push_perm f.queue t).mem_iff,List.mem_cons]
    tauto
  · rename_i h
    tauto

theorem nodup_release_queue {ι : Type} [DecidableEq ι] (w : Worklist ι) (f : Front ι) (t : ι)
    (hnodup : f.queue.Nodup) (ht : t ∉ f.queue) : (release w f t).queue.Nodup := by
  simp only [release,Function.update_self]
  split
  · exact (w.push_perm f.queue t).nodup_iff.mpr (List.nodup_cons.mpr ⟨ht,hnodup⟩)
  · exact hnodup

/-- What walking a whole adjacency list does: every target loses as many open
predecessors as it has edges in the list, and joins the queue when none is left. -/
theorem foldl_release {ι : Type} [DecidableEq ι] (w : Worklist ι) (ts : List ι) (f : Front ι)
    (hcount : ∀ n, ts.count n ≤ f.indeg n) (hqueue : ∀ n ∈ f.queue, f.indeg n = 0)
    (hnodup : f.queue.Nodup) : (∀ n, (ts.foldl (release w) f).indeg n = f.indeg n - ts.count n) ∧
    (∀ n, n ∈ (ts.foldl (release w) f).queue ↔ n ∈ f.queue ∨ (n ∈ ts ∧ f.indeg n = ts.count n)) ∧
    (ts.foldl (release w) f).queue.Nodup := by
  induction ts generalizing f with
  | nil => simpa using hnodup
  | cons t ts ih =>
    have ht : 1 ≤ f.indeg t := by
      have h := hcount t
      rw [List.count_cons_self] at h
      omega
    have hout : t ∉ f.queue := fun h => by have := hqueue t h; omega
    have hcount' : ∀ n, ts.count n ≤ (release w f t).indeg n := by
      intro n
      have h := hcount n
      rw [List.count_cons] at h
      rw [release_indeg]
      split
      · rename_i hn
        subst hn
        simp at h
        omega
      · omega
    have hqueue' : ∀ n ∈ (release w f t).queue, (release w f t).indeg n = 0 := by
      intro n hn
      rw [release_indeg]
      rcases (mem_release_queue w f t n).mp hn with h | ⟨rfl,h⟩
      · have hne : n ≠ t := fun heq => hout (heq ▸ h)
        simp [hne,hqueue n h]
      · simpa using h
    obtain ⟨hindeg,hmem,hnd⟩ := ih (release w f t) hcount' hqueue'
      (nodup_release_queue w f t hnodup hout)
    refine ⟨fun n => ?_,fun n => ?_,hnd⟩
    · rw [List.foldl_cons,hindeg,release_indeg,List.count_cons]
      by_cases hn : n = t
      · subst hn; simp; omega
      · have hn' : ¬ t = n := fun h => hn h.symm
        simp [hn,hn']
    · rw [List.foldl_cons,hmem,mem_release_queue,release_indeg,List.count_cons]
      by_cases hn : n = t
      · subst hn
        have h := hcount' n
        have hpos := List.count_pos_iff (a := n) (l := ts)
        simp only [release_indeg,if_true] at h
        simp only [if_true,List.mem_cons,true_or,true_and,beq_self_eq_true]
        by_cases hin : n ∈ ts
        · have := hpos.mpr hin
          simp only [hin,true_and]
          constructor
          · rintro ((h1 | h1) | h1)
            · exact .inl h1
            · omega
            · right; omega
          · rintro (h1 | h1)
            · exact .inl (.inl h1)
            · right; omega
        · have : ts.count n = 0 := List.count_eq_zero_of_not_mem hin
          simp only [hin,false_and,or_false]
          constructor
          · rintro (h1 | h1)
            · exact .inl h1
            · right; omega
          · rintro (h1 | h1)
            · exact .inl h1
            · right; omega
      · have hn' : ¬ t = n := fun h => hn h.symm
        simp [hn,hn']

/-- What holds whenever the loop looks at its worklist. -/
structure Invariant {ι : Type} [DecidableEq ι] (edges : List (ι × ι)) (nodes : List ι)
    (f : Front ι) (finished : List ι) : Prop where
  nodup : (finished ++ f.queue).Nodup
  mem : ∀ x ∈ finished ++ f.queue, x ∈ nodes
  indeg : ∀ n, f.indeg n = indegree edges finished n
  waiting : ∀ n ∈ nodes, n ∉ finished → (n ∈ f.queue ↔ indegree edges finished n = 0)
  order : ∀ l x r, finished = l ++ x :: r → ∀ a, (a,x) ∈ edges → a ∈ l

theorem indegree_snoc {ι : Type} [DecidableEq ι] (edges : List (ι × ι)) (finished : List ι)
    (x n : ι) (hx : x ∉ finished) : indegree edges finished n =
      indegree edges (finished ++ [x]) n + (successors edges x).count n := by
  induction edges with
  | nil => simp [indegree,successors]
  | cons e edges ih =>
    obtain ⟨a,b⟩ := e
    simp only [indegree,successors,List.countP_cons,List.filter_cons] at ih ⊢
    rw [ih]
    by_cases hb : b = n <;> by_cases ha : a = x <;> by_cases hf : a ∈ finished <;>
      simp_all <;> omega

theorem indegree_eq_zero {ι : Type} [DecidableEq ι] {edges : List (ι × ι)} {finished : List ι}
    {n : ι} : indegree edges finished n = 0 ↔ ∀ a, (a,n) ∈ edges → a ∈ finished := by
  simp only [indegree,List.countP_eq_zero,decide_eq_true_eq,not_and,not_not,Prod.forall]
  constructor
  · intro h a ha
    exact h a n ha rfl
  · intro h a b hab hbn
    subst hbn
    exact h a hab

theorem mem_successors {ι : Type} [DecidableEq ι] {edges : List (ι × ι)} {x n : ι} :
    n ∈ successors edges x ↔ (x,n) ∈ edges := by
  simp [successors]

theorem Invariant.step {ι : Type} [DecidableEq ι] {w : Worklist ι} {adjacency : ι → List ι}
    {edges : List (ι × ι)} {nodes finished rest : List ι} {f : Front ι} {x : ι}
    (hadj : ∀ n, (adjacency n).Perm (successors edges n)) (htargets : ∀ e ∈ edges, e.2 ∈ nodes)
    (hinv : Invariant edges nodes f finished) (hpop : w.pop f.queue = some (x,rest)) :
    Invariant edges nodes ((adjacency x).foldl (release w) ⟨f.indeg,rest⟩) (finished ++ [x]) := by
  have hperm := w.pop_perm _ _ _ hpop
  have hall : (finished ++ f.queue).Perm (finished ++ x :: rest) := hperm.append_left finished
  have hnodup : (finished ++ x :: rest).Nodup := hall.nodup_iff.mp hinv.nodup
  have hxq : x ∈ f.queue := hperm.mem_iff.mpr List.mem_cons_self
  have hxf : x ∉ finished := fun h =>
    (List.nodup_append.mp hinv.nodup).2.2 x h x hxq rfl
  have hxnodes : x ∈ nodes := hinv.mem x (List.mem_append_right _ hxq)
  have hzero := (hinv.waiting x hxnodes hxf).mp hxq
  have hcount : ∀ n, (adjacency x).count n ≤ f.indeg n := by
    intro n
    rw [hinv.indeg,indegree_snoc edges finished x n hxf,(hadj x).count_eq]
    omega
  have hrest : ∀ n ∈ rest, f.indeg n = 0 := by
    intro n hn
    have hnq : n ∈ f.queue := hperm.mem_iff.mpr (List.mem_cons_of_mem _ hn)
    have hnf : n ∉ finished := fun h => (List.nodup_append.mp hinv.nodup).2.2 n h n hnq rfl
    rw [hinv.indeg]
    exact (hinv.waiting n (hinv.mem n (List.mem_append_right _ hnq)) hnf).mp hnq
  have hrestNodup : rest.Nodup := by
    have h := (List.nodup_append.mp hnodup).2.1
    exact (List.nodup_cons.mp h).2
  obtain ⟨hindeg,hmem,hnd⟩ := foldl_release w (adjacency x) ⟨f.indeg,rest⟩ hcount hrest hrestNodup
  have hindeg' : ∀ n, ((adjacency x).foldl (release w) ⟨f.indeg,rest⟩).indeg n =
      indegree edges (finished ++ [x]) n := by
    intro n
    rw [hindeg,hinv.indeg,indegree_snoc edges finished x n hxf,(hadj x).count_eq]
    omega
  have hmem' : ∀ n, n ∈ ((adjacency x).foldl (release w) ⟨f.indeg,rest⟩).queue →
      n ∈ rest ∨ ((x,n) ∈ edges ∧ f.indeg n = (adjacency x).count n) := by
    intro n hn
    rcases (hmem n).mp hn with h | ⟨h1,h2⟩
    · exact .inl h
    · exact .inr ⟨mem_successors.mp ((hadj x).mem_iff.mp h1),h2⟩
  -- a released node was not finished: it had the open predecessor `x`
  have hreleased : ∀ n, (x,n) ∈ edges → n ∉ finished := by
    intro n hn hfin
    obtain ⟨l,r,rfl⟩ := List.append_of_mem hfin
    exact hxf (List.mem_append_left _ (hinv.order l n r rfl x hn))
  have hself : (x,x) ∉ edges := fun h => hxf (indegree_eq_zero.mp hzero x h)
  refine ⟨?_,?_,hindeg',?_,?_⟩
  · rw [List.nodup_append]
    refine ⟨?_,hnd,?_⟩
    · have h : (finished ++ [x] ++ rest).Nodup := by simpa using hnodup
      exact (List.nodup_append.mp h).1
    · intro a ha b hb hab
      subst hab
      rcases hmem' a hb with h | ⟨h,_⟩
      · have hnd' : (finished ++ [x] ++ rest).Nodup := by simpa using hnodup
        exact (List.nodup_append.mp hnd').2.2 a ha a h rfl
      · rcases List.mem_append.mp ha with hf | hx
        · exact hreleased a h hf
        · rw [List.mem_singleton] at hx
          subst hx
          exact hself h
  · intro n hn
    rcases List.mem_append.mp hn with h | h
    · rcases List.mem_append.mp h with h | h
      · exact hinv.mem n (List.mem_append_left _ h)
      · rw [List.mem_singleton] at h
        subst h
        exact hxnodes
    · rcases hmem' n h with h | ⟨h,_⟩
      · exact hinv.mem n (List.mem_append_right _ (hperm.mem_iff.mpr (List.mem_cons_of_mem _ h)))
      · exact htargets _ h
  · intro n hn hnf
    have hnf' : n ∉ finished := fun h => hnf (List.mem_append_left _ h)
    have hnx : n ≠ x := fun h => hnf (by simp [h])
    rw [hmem]
    have hsplit := indegree_snoc edges finished x n hxf
    have hcnt := (hadj x).count_eq n
    have hw := hinv.waiting n hn hnf'
    have hrestq : n ∈ rest ↔ n ∈ f.queue := by
      rw [hperm.mem_iff,List.mem_cons]
      tauto
    have hpos := List.count_pos_iff (a := n) (l := adjacency x)
    simp only [hinv.indeg]
    rw [hrestq,hw]
    constructor
    · rintro (h | ⟨_,h⟩)
      · omega
      · omega
    · intro h
      by_cases hin : n ∈ adjacency x
      · exact .inr ⟨hin,by omega⟩
      · have := List.count_eq_zero_of_not_mem hin
        exact .inl (by omega)
  · intro l y r heq a ha
    rcases List.eq_nil_or_concat r with rfl | ⟨r',z,rfl⟩
    · obtain ⟨h1,h2⟩ := List.append_inj' heq rfl
      simp only [List.cons.injEq,and_true] at h2
      subst h1; subst h2
      exact indegree_eq_zero.mp hzero a ha
    · have heq' : finished ++ [x] = (l ++ y :: r') ++ [z] := by simpa using heq
      obtain ⟨h1,_⟩ := List.append_inj' heq' rfl
      exact hinv.order l y r' h1 a ha

theorem Invariant.init {ι : Type} [DecidableEq ι] {edges : List (ι × ι)}
    {nodes start : List ι} (hnodes : nodes.Nodup)
    (hstart : start.Perm (nodes.filter (fun n => indegree edges [] n = 0))) :
    Invariant edges nodes ⟨indegree edges [],start⟩ [] := by
  refine ⟨?_,?_,fun _ => rfl,?_,?_⟩
  · simpa using hstart.nodup_iff.mpr (hnodes.filter _)
  · intro x hx
    have := hstart.mem_iff.mp (by simpa using hx)
    exact (List.mem_filter.mp this).1
  · intro n hn _
    rw [hstart.mem_iff,List.mem_filter]
    simp [hn]
  · intro l x r h
    simp at h

/-- After as many rounds as there are nodes the worklist is empty: the loop ends
by itself and the bound on its rounds cuts nothing off. -/
theorem loop_spec {ι : Type} [DecidableEq ι] {w : Worklist ι} {adjacency : ι → List ι}
    {edges : List (ι × ι)} {nodes : List ι} (hadj : ∀ n, (adjacency n).Perm (successors edges n))
    (htargets : ∀ e ∈ edges, e.2 ∈ nodes) : ∀ (fuel : Nat) (f : Front ι) (finished : List ι),
      Invariant edges nodes f finished → nodes.length ≤ finished.length + fuel →
      ∃ g, Invariant edges nodes g (loop w adjacency fuel f finished) ∧ g.queue = [] := by
  intro fuel
  induction fuel with
  | zero =>
    intro f finished hinv hlen
    refine ⟨f,hinv,?_⟩
    have hsub : (finished ++ f.queue).length ≤ nodes.length :=
      (List.subperm_of_subset hinv.nodup hinv.mem).length_le
    rw [List.length_append] at hsub
    exact List.length_eq_zero_iff.mp (by omega)
  | succ fuel ih =>
    intro f finished hinv hlen
    unfold loop
    split
    · rename_i hpop
      refine ⟨f,hinv,?_⟩
      cases hq : f.queue with
      | nil => rfl
      | cons y ys =>
        have h := w.pop_cons y ys
        rw [← hq,hpop] at h
        cases h
    · rename_i x rest hpop
      refine ih _ _ (hinv.step hadj htargets hpop) ?_
      rw [List.length_append,List.length_singleton]
      omega

/-- What the sort returns: distinct nodes, each one after all its predecessors, and
a node is left out only if one of its predecessors is. -/
structure Sorted {ι : Type} (edges : List (ι × ι)) (nodes order : List ι) : Prop where
  nodup : order.Nodup
  mem : ∀ x ∈ order, x ∈ nodes
  before : ∀ l x r, order = l ++ x :: r → ∀ a, (a,x) ∈ edges → a ∈ l
  complete : ∀ n ∈ nodes, (∀ a, (a,n) ∈ edges → a ∈ order) → n ∈ order

theorem sort_sorted {ι : Type} [DecidableEq ι] (w : Worklist ι) {adjacency : ι → List ι}
    {edges : List (ι × ι)} {nodes start : List ι}
    (hadj : ∀ n, (adjacency n).Perm (successors edges n))
    (htargets : ∀ e ∈ edges, e.2 ∈ nodes) (hnodes : nodes.Nodup)
    (hstart : start.Perm (nodes.filter (fun n => indegree edges [] n = 0))) :
    Sorted edges nodes (sort w adjacency nodes start edges) := by
  obtain ⟨g,hinv,hq⟩ := loop_spec (w := w) hadj htargets nodes.length _ _
    (Invariant.init hnodes hstart) (by simp)
  refine ⟨?_,?_,hinv.order,?_⟩
  · have h := hinv.nodup
    rw [hq,List.append_nil] at h
    exact h
  · intro x hx
    exact hinv.mem x (List.mem_append_left _ hx)
  · intro n hn hpred
    by_contra hout
    have h := (hinv.waiting n hn hout).mpr (indegree_eq_zero.mpr hpred)
    simp [hq] at h

/-- A ranking that every edge climbs, that is, an acyclic graph. -/
def Ranked {ι : Type} (edges : List (ι × ι)) (rank : ι → Nat) : Prop :=
  ∀ a b, (a,b) ∈ edges → rank a < rank b

/-- On an acyclic graph a property spreads along the edges to every node. -/
theorem Ranked.induction {ι : Type} {edges : List (ι × ι)} {rank : ι → Nat}
    (h : Ranked edges rank) {P : ι → Prop}
    (hstep : ∀ b, (∀ a, (a,b) ∈ edges → P a) → P b) (n : ι) : P n := by
  have hall : ∀ k n, rank n < k → P n := by
    intro k
    induction k with
    | zero => intro n hk; omega
    | succ k ih =>
      intro n hk
      refine hstep n fun a ha => ih a ?_
      have hlt := h a n ha
      omega
  exact hall (rank n + 1) n (Nat.lt_succ_self _)

theorem Sorted.perm {ι : Type} [DecidableEq ι] {edges : List (ι × ι)} {nodes order : List ι}
    {rank : ι → Nat} (h : Sorted edges nodes order) (hnodes : nodes.Nodup)
    (hsources : ∀ e ∈ edges, e.1 ∈ nodes) (hrank : Ranked edges rank) : order.Perm nodes := by
  have hall : ∀ k n, n ∈ nodes → rank n < k → n ∈ order := by
    intro k
    induction k with
    | zero => intro n _ hk; omega
    | succ k ih =>
      intro n hn hk
      refine h.complete n hn fun a ha => ih a (hsources _ ha) ?_
      have := hrank a n ha
      omega
  refine (List.perm_ext_iff_of_nodup h.nodup hnodes).mpr fun n => ⟨h.mem n,fun hn => ?_⟩
  exact hall (rank n + 1) n hn (Nat.lt_succ_self _)

theorem Sorted.ranked {ι : Type} [DecidableEq ι] {edges : List (ι × ι)} {nodes order : List ι}
    (h : Sorted edges nodes order) (hfull : ∀ e ∈ edges, e.2 ∈ order) :
    Ranked edges (fun n => order.idxOf n) := by
  intro a b hab
  obtain ⟨l,r,hsplit⟩ := List.append_of_mem (hfull _ hab)
  have ha := h.before l b r hsplit a hab
  have hnd := h.nodup
  have hb : b ∉ l := by
    rw [hsplit] at hnd
    exact fun hb => (List.nodup_append.mp hnd).2.2 b hb b List.mem_cons_self rfl
  simp only [hsplit]
  rw [List.idxOf_append_of_mem ha,List.idxOf_append_of_notMem hb]
  have := List.idxOf_lt_length_of_mem ha
  omega

def Acyclic {ι : Type} (edges : List (ι × ι)) : Prop :=
  ∀ n, ¬Relation.TransGen (fun a b => (a,b) ∈ edges) n n

theorem Ranked.acyclic {ι : Type} {edges : List (ι × ι)} {rank : ι → Nat}
    (h : Ranked edges rank) : Acyclic edges := by
  have hlt {a b : ι} (hab : Relation.TransGen (fun a b => (a,b) ∈ edges) a b) :
      rank a < rank b := by
    induction hab with
    | single hab => exact h _ _ hab
    | tail _ hab ih => exact ih.trans (h _ _ hab)
  exact fun n hn => absurd (hlt hn) (Nat.lt_irrefl _)

/-- The sort leaves no node out exactly when there is no cycle. -/
theorem Sorted.full_iff {ι : Type} [DecidableEq ι] {edges : List (ι × ι)} {nodes order : List ι}
    (h : Sorted edges nodes order) (hnodes : nodes.Nodup)
    (hsources : ∀ e ∈ edges, e.1 ∈ nodes) (htargets : ∀ e ∈ edges, e.2 ∈ nodes) :
    order.length = nodes.length ↔ Acyclic edges := by
  constructor
  · intro hlength
    have hperm : order.Perm nodes :=
      (List.subperm_of_subset h.nodup h.mem).perm_of_length_le hlength.ge
    exact (h.ranked fun e he => hperm.mem_iff.2 (htargets e he)).acyclic
  · intro hacyclic
    let before (a b : {n // n ∈ nodes}) : Prop :=
      Relation.TransGen (fun a b => (a,b) ∈ edges) a.1 b.1
    have : IsTrans {n // n ∈ nodes} before := ⟨fun _ _ _ => .trans⟩
    have : Std.Irrefl before := ⟨fun n => hacyclic n.1⟩
    have hwf : WellFounded before := Finite.wellFounded_of_trans_of_irrefl before
    have hall (n : {n // n ∈ nodes}) : n.1 ∈ order := by
      induction n using hwf.induction with
      | h n ih =>
        refine h.complete n.1 n.2 fun a ha => ?_
        exact ih ⟨a,hsources _ ha⟩ (.single ha)
    refine Nat.le_antisymm (List.subperm_of_subset h.nodup h.mem).length_le ?_
    exact (List.subperm_of_subset hnodes fun n hn => hall ⟨n,hn⟩).length_le

section
variable {ι : Type} [DecidableEq ι] [LinearOrder ι] {w : Worklist ι} {adjacency : ι → List ι}
  {edges : List (ι × ι)} {nodes : List ι}

/-- All nodes in an order in which every edge goes forward. -/
structure Topological (edges : List (ι × ι)) (nodes order : List ι) : Prop where
  perm : order.Perm nodes
  before : ∀ l x r, order = l ++ x :: r → ∀ a, (a,x) ∈ edges → a ∈ l

omit [LinearOrder ι] in
theorem foldl_release_keeps {P : List ι → Prop} (hpush : ∀ q x, P q → P (w.push q x)) (ts : List ι)
    {f : Front ι} (h : P f.queue) : P (ts.foldl (release w) f).queue := by
  induction ts generalizing f with
  | nil => exact h
  | cons t ts ih =>
    refine ih ?_
    simp only [release]
    split
    · exact hpush _ _ h
    · exact h

omit [LinearOrder ι] in
theorem loop_extends (fuel : Nat) (f : Front ι) (finished : List ι) :
    ∃ ours, loop w adjacency fuel f finished = finished ++ ours := by
  induction fuel generalizing f finished with
  | zero => exact ⟨[],(List.append_nil _).symm⟩
  | succ fuel ih =>
    rw [loop]
    cases w.pop f.queue with
    | none => exact ⟨[],(List.append_nil _).symm⟩
    | some taken =>
      obtain ⟨ours,hours⟩ := ih ((adjacency taken.1).foldl (release w) ⟨f.indeg,taken.2⟩)
        (finished ++ [taken.1])
      exact ⟨taken.1 :: ours,hours.trans (List.append_assoc _ _ _)⟩

theorem loop_least {P : List ι → Prop} (hpush : ∀ q x, P q → P (w.push q x))
    (hpop : ∀ q x r, P q → w.pop q = some (x,r) → P r ∧ ∀ y ∈ q, x ≤ y)
    (hadj : ∀ n, (adjacency n).Perm (successors edges n)) (htargets : ∀ e ∈ edges, e.2 ∈ nodes)
    (hnodes : nodes.Nodup) {fuel : Nat} {f : Front ι} {finished : List ι}
    (hinv : Invariant edges nodes f finished) (hP : P f.queue) {rest : List ι}
    (horder : Topological edges nodes (finished ++ rest)) :
    ∃ ours, loop w adjacency fuel f finished = finished ++ ours ∧
      (ours = rest ∨ List.Lex (· < ·) ours rest) := by
  have hstop : [] = rest ∨ List.Lex (· < ·) [] rest := by
    cases rest with
    | nil => exact .inl rfl
    | cons y rest => exact .inr .nil
  induction fuel generalizing f finished rest with
  | zero => exact ⟨[],(List.append_nil _).symm,hstop⟩
  | succ fuel ih =>
    rw [loop]
    cases hq : w.pop f.queue with
    | none => exact ⟨[],(List.append_nil _).symm,hstop⟩
    | some taken =>
      obtain ⟨x,waiting⟩ := taken
      obtain ⟨hkept,hle⟩ := hpop _ _ _ hP hq
      have hx : x ∈ f.queue := (w.pop_perm _ _ _ hq).mem_iff.2 List.mem_cons_self
      have hnodup := horder.perm.nodup_iff.2 hnodes
      cases rest with
      | nil =>
        have hmem := hinv.mem x (List.mem_append_right _ hx)
        have hfinished := horder.perm.mem_iff.2 hmem
        rw [List.append_nil] at hfinished
        exact absurd rfl ((List.nodup_append.1 hinv.nodup).2.2 x hfinished x hx)
      | cons y rest =>
        have hnext := hinv.step hadj htargets hq
        by_cases hxy : x = y
        · subst hxy
          have hsplit : finished ++ x :: rest = finished ++ [x] ++ rest := by simp
          obtain ⟨ours,hours,hleast⟩ := ih hnext (foldl_release_keeps hpush _ hkept)
            (hsplit ▸ horder) (by cases rest <;> simp)
          refine ⟨x :: ours,hours.trans (List.append_assoc _ _ _),?_⟩
          rcases hleast with rfl | hleast
          · exact .inl rfl
          · exact .inr (.cons hleast)
        · -- the other order goes on with a node that is waiting too
          have hy : y ∈ nodes := horder.perm.mem_iff.1 (by simp)
          have hopen : y ∉ finished := fun hmem =>
            (List.nodup_append.1 hnodup).2.2 y hmem y List.mem_cons_self rfl
          have hwaits := (hinv.waiting y hy hopen).2
            (indegree_eq_zero.2 (horder.before finished y rest rfl))
          obtain ⟨ours,hours⟩ := @loop_extends _ _ w adjacency fuel
            ((adjacency x).foldl (release w) ⟨f.indeg,waiting⟩) (finished ++ [x])
          exact ⟨x :: ours,hours.trans (List.append_assoc _ _ _),
            .inr (.rel (lt_of_le_of_ne (hle y hwaits) hxy))⟩

theorem sort_least {P : List ι → Prop} (hpush : ∀ q x, P q → P (w.push q x))
    (hpop : ∀ q x r, P q → w.pop q = some (x,r) → P r ∧ ∀ y ∈ q, x ≤ y)
    (hadj : ∀ n, (adjacency n).Perm (successors edges n)) (htargets : ∀ e ∈ edges, e.2 ∈ nodes)
    (hnodes : nodes.Nodup) {start : List ι} (hP : P start)
    (hstart : start.Perm (nodes.filter (fun n => indegree edges [] n = 0))) {order : List ι}
    (horder : Topological edges nodes order) : sort w adjacency nodes start edges = order ∨
      List.Lex (· < ·) (sort w adjacency nodes start edges) order := by
  obtain ⟨ours,hours,hleast⟩ := @loop_least _ _ _ w adjacency edges nodes P hpush hpop hadj htargets
    hnodes nodes.length ⟨indegree edges [],start⟩ [] (Invariant.init hnodes hstart) hP order horder
  rw [sort,hours]
  exact hleast

end
end AgentCentric.Kahn

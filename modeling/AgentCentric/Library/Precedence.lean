import AgentCentric.Library.Dict
import Mathlib.Algebra.BigOperators.Group.List.Basic
import Mathlib.Algebra.Ring.Int.Defs
import Mathlib.Data.List.Chain

namespace AgentCentric

structure Project (ι : Type) where
  Activity : ι → Prop
  Before : ι → ι → Prop
  duration : ι → Int
  positive : ∀ a, Activity a → 0 < duration a

namespace Project
variable {ι : Type} (p : Project ι)

def total (c : List ι) : Int := (c.map p.duration).sum

def Chain (c : List ι) : Prop := (∀ a ∈ c, p.Activity a) ∧ c.IsChain p.Before

/-- Starts from zero on that respect the precedence. -/
structure Starts (s : ι → Int) : Prop where
  begins : ∀ b, p.Activity b → 0 ≤ s b
  follows : ∀ a b, p.Activity a → p.Activity b → p.Before a b → s a + p.duration a ≤ s b

/-- A schedule within a time. -/
structure Feasible (end_ : Int) (s : ι → Int) : Prop extends p.Starts s where
  ends : ∀ a, p.Activity a → s a + p.duration a ≤ end_

/-- Starts that are as early as the predecessors allow. -/
structure Pass (s : ι → Int) : Prop extends p.Starts s where
  tight : ∀ b, p.Activity b →
    s b = 0 ∨ ∃ a, p.Activity a ∧ p.Before a b ∧ s a + p.duration a = s b

def reverse : Project ι := ⟨p.Activity,fun a b => p.Before b a,p.duration,p.positive⟩

def backward (end_ : Int) (s : ι → Int) (a : ι) : Int := end_ - (s a + p.duration a)

variable {p}

@[simp] theorem total_nil : p.total [] = 0 := rfl

@[simp] theorem total_cons (a : ι) (c : List ι) : p.total (a :: c) = p.duration a + p.total c := by
  simp [total]

@[simp] theorem total_append (c d : List ι) : p.total (c ++ d) = p.total c + p.total d := by
  simp [total]

@[simp] theorem total_reverse (c : List ι) : p.reverse.total c.reverse = p.total c := by
  simp [total,reverse,List.sum_reverse]

theorem Chain.reverse {c : List ι} (h : p.Chain c) : p.reverse.Chain c.reverse :=
  ⟨fun a ha => h.1 a (List.mem_reverse.1 ha),List.isChain_reverse.2 h.2⟩

theorem Chain.split {c d : List ι} {b : ι} :
    p.Chain (c ++ b :: d) ↔ p.Chain (c ++ [b]) ∧ p.Chain (b :: d) := by
  unfold Chain
  rw [List.isChain_split]
  simp only [List.mem_append,List.mem_cons,List.not_mem_nil,or_false]
  constructor
  · rintro ⟨hmem,hc,hd⟩
    exact ⟨⟨fun a ha => hmem a (ha.imp_right .inl),hc⟩,fun a ha => hmem a (.inr ha),hd⟩
  · rintro ⟨⟨hmem,hc⟩,hmem',hd⟩
    exact ⟨fun a ha => ha.elim (fun ha => hmem a (.inl ha)) (hmem' a),hc,hd⟩

theorem Starts.chain_le {s : ι → Int} (h : p.Starts s) {c : List ι} {b : ι}
    (hchain : p.Chain (c ++ [b])) : p.total c ≤ s b := by
  induction c using List.reverseRecOn generalizing b with
  | nil => exact h.begins b (hchain.1 b (by simp))
  | append_singleton c a ih =>
    have hsplit : p.Chain (c ++ a :: [b]) := by simpa using hchain
    obtain ⟨hfirst,hlast⟩ := Chain.split.1 hsplit
    have ha : p.Activity a := hlast.1 a (by simp)
    have hb : p.Activity b := hlast.1 b (by simp)
    have hbefore : p.Before a b := by simpa using hlast.2
    have hstart := ih hfirst
    have hfollows := h.follows a b ha hb hbefore
    simp only [total_append,total_cons,total_nil]
    omega

/-- An earliest start is the length of some chain before the activity. -/
theorem Pass.exists_chain {s : ι → Int} (h : p.Pass s) {b : ι} (hb : p.Activity b) :
    ∃ c, p.Chain (c ++ [b]) ∧ p.total c = s b := by
  obtain ⟨n,hn⟩ := Int.eq_ofNat_of_zero_le (h.begins b hb)
  induction n using Nat.strongRecOn generalizing b with
  | ind n ih =>
    rcases h.tight b hb with hzero | ⟨a,ha,hbefore,htight⟩
    · exact ⟨[],⟨by simpa using hb,by simp⟩,hzero.symm⟩
    · obtain ⟨m,hm⟩ := Int.eq_ofNat_of_zero_le (h.begins a ha)
      have hpositive := p.positive a ha
      obtain ⟨c,hc,htotal⟩ := ih m (by omega) ha hm
      refine ⟨c ++ [a],?_,?_⟩
      · have hsplit : c ++ [a] ++ [b] = c ++ a :: [b] := by simp
        rw [hsplit]
        refine Chain.split.2 ⟨hc,fun x hx => ?_,by simpa using hbefore⟩
        simp only [List.mem_cons,List.not_mem_nil,or_false] at hx
        rcases hx with rfl | rfl
        · exact ha
        · exact hb
      · simp only [total_append,total_cons,total_nil]
        omega

theorem Pass.least {s t : ι → Int} (h : p.Pass s) (ht : p.Starts t) {b : ι} (hb : p.Activity b) :
    s b ≤ t b := by
  obtain ⟨c,hc,htotal⟩ := h.exists_chain hb
  rw [← htotal]
  exact ht.chain_le hc

theorem Feasible.backward {end_ : Int} {s : ι → Int} (h : p.Feasible end_ s) :
    p.reverse.Starts (p.backward end_ s) where
  begins b hb := by
    have hends := h.ends b hb
    unfold Project.backward
    omega
  follows a b ha hb hbefore := by
    have hfollows := h.follows b a hb ha hbefore
    simp only [Project.backward,Project.reverse]
    omega

structure Passes (p : Project ι) (end_ : Int) (early late : ι → Int) : Prop where
  forward : p.Pass early
  ends : ∀ a, p.Activity a → early a + p.duration a ≤ end_
  last : (end_ = 0 ∧ ∀ a, ¬p.Activity a) ∨ ∃ a, p.Activity a ∧ early a + p.duration a = end_
  backward : p.reverse.Pass (p.backward end_ late)

namespace Passes
variable {end_ : Int} {early late : ι → Int} (h : p.Passes end_ early late)
include h

theorem end_nonneg : 0 ≤ end_ := by
  rcases h.last with ⟨hzero,-⟩ | ⟨a,ha,hend⟩
  · omega
  · have hbegins := h.forward.begins a ha
    have hpositive := p.positive a ha
    omega

/-- No chain takes longer. -/
theorem chain_le {c : List ι} (hc : p.Chain c) : p.total c ≤ end_ := by
  rcases List.eq_nil_or_concat' c with rfl | ⟨c,b,rfl⟩
  · exact h.end_nonneg
  · have hstart := h.forward.toStarts.chain_le hc
    have hend := h.ends b (hc.1 b (by simp))
    simp only [total_append,total_cons,total_nil]
    omega

theorem exists_through {b : ι} (hb : p.Activity b) :
    ∃ c d, p.Chain (c ++ b :: d) ∧ p.total (c ++ b :: d) = end_ - (late b - early b) := by
  obtain ⟨c,hc,hbefore⟩ := h.forward.exists_chain hb
  obtain ⟨d,hd,hafter⟩ := h.backward.exists_chain hb
  have hafter' : p.total d.reverse = end_ - (late b + p.duration b) := by
    have hreverse := total_reverse (p := p) d.reverse
    rw [List.reverse_reverse] at hreverse
    exact hreverse.symm.trans hafter
  refine ⟨c,d.reverse,Chain.split.2 ⟨hc,?_⟩,?_⟩
  · have hchain : p.Chain (d ++ [b]).reverse := Chain.reverse hd
    simpa using hchain
  · simp only [total_append,total_cons,hafter',hbefore]
    omega

theorem slack_nonneg {b : ι} (hb : p.Activity b) : early b ≤ late b := by
  obtain ⟨c,d,hchain,htotal⟩ := h.exists_through hb
  have hle := h.chain_le hchain
  omega

theorem slack_zero_iff {b : ι} (hb : p.Activity b) : late b - early b = 0 ↔
    ∃ c, p.Chain c ∧ b ∈ c ∧ p.total c = end_ := by
  constructor
  · intro hslack
    obtain ⟨c,d,hchain,htotal⟩ := h.exists_through hb
    exact ⟨_,hchain,by simp,by omega⟩
  · rintro ⟨e,hchain,hmem,htotal⟩
    obtain ⟨c,d,rfl⟩ := List.append_of_mem hmem
    obtain ⟨hc,hd⟩ := Chain.split.1 hchain
    have hbefore := h.forward.toStarts.chain_le hc
    have hafter : p.total d ≤ end_ - (late b + p.duration b) := by
      rw [← total_reverse d]
      exact h.backward.toStarts.chain_le (by simpa using hd.reverse)
    have hslack := h.slack_nonneg hb
    simp only [total_append,total_cons] at htotal
    omega

theorem early_feasible : p.Feasible end_ early := ⟨h.forward.toStarts,h.ends⟩

theorem late_feasible : p.Feasible end_ late where
  begins b hb := Int.le_trans (h.forward.begins b hb) (h.slack_nonneg hb)
  follows a b ha hb hbefore := by
    have hfollows := h.backward.follows b a hb ha hbefore
    simp only [Project.backward,Project.reverse] at hfollows
    omega
  ends a ha := by
    have hbegins := h.backward.begins a ha
    unfold Project.backward at hbegins
    omega

/-- No schedule within the time starts earlier, and none starts later. -/
theorem between {s : ι → Int} (hs : p.Feasible end_ s) {b : ι} (hb : p.Activity b) :
    early b ≤ s b ∧ s b ≤ late b := by
  refine ⟨h.forward.least hs.toStarts hb,?_⟩
  have hback := h.backward.least hs.backward hb
  unfold Project.backward at hback
  omega

end Passes
end Project
end AgentCentric

namespace AgentCentric.Dict
variable {κ α : Type} [DecidableEq κ]

def fill (entry : Dict κ α → κ → α) (order : List κ) : Dict κ α :=
  order.foldl (fun d k => d.set k (entry d k)) empty

variable {entry : Dict κ α → κ → α} {needs : κ → List κ}

theorem fill_concat (order : List κ) (k : κ) : fill entry (order ++ [k]) =
    (fill entry order).set k (entry (fill entry order) k) := by
  simp [fill]

theorem get_fill_of_notMem {order : List κ} {k : κ} (h : k ∉ order) :
    (fill entry order).get k = none := by
  induction order using List.reverseRecOn with
  | nil => exact get_empty k
  | append_singleton order x ih =>
    simp only [List.mem_append,List.mem_singleton,not_or] at h
    rw [fill_concat,get_set_ne _ _ fun heq => h.2 heq.symm,ih h.1]

theorem keys_fill {order : List κ} (h : order.Nodup) : (fill entry order).keys = order := by
  induction order using List.reverseRecOn with
  | nil => rfl
  | append_singleton order x ih =>
    have hx : x ∉ order := fun hx => (List.nodup_append.1 h).2.2 x hx x (by simp) rfl
    have hkeys := ih (List.nodup_append.1 h).1
    have hnew : x ∉ (fill entry order).entries.map Prod.fst := by
      rw [← keys,hkeys]
      exact hx
    have hset : ((fill entry order).set x (entry (fill entry order) x)).entries =
        (fill entry order).entries ++ [(x,entry (fill entry order) x)] :=
      insert_of_notMem _ hnew
    rw [fill_concat,keys,hset,List.map_append]
    exact congrArg (· ++ [x]) hkeys

structure Scheduled (needs : κ → List κ) (order : List κ) : Prop where
  nodup : order.Nodup
  before : ∀ l k r, order = l ++ k :: r → ∀ a ∈ needs k, a ∈ l

omit [DecidableEq κ] in
theorem Scheduled.initial {order : List κ} {x : κ} (h : Scheduled needs (order ++ [x])) :
    Scheduled needs order ∧ x ∉ order ∧ ∀ a ∈ needs x, a ∈ order := by
  refine ⟨⟨(List.nodup_append.1 h.nodup).1,fun l k r heq a ha => ?_⟩,?_,?_⟩
  · exact h.before l k (r ++ [x]) (by simp [heq]) a ha
  · exact fun hx => (List.nodup_append.1 h.nodup).2.2 x hx x (by simp) rfl
  · exact h.before order x [] rfl

omit [DecidableEq κ] in
theorem Scheduled.needs_mem {order : List κ} (h : Scheduled needs order) {k a : κ} (hk : k ∈ order)
    (ha : a ∈ needs k) : a ∈ order := by
  obtain ⟨l,r,rfl⟩ := List.append_of_mem hk
  exact List.mem_append_left _ (h.before l k r rfl a ha)

/-- In the end each entry is what is computed from the entries in the end. -/
theorem get_fill (hlocal : ∀ d d' k, (∀ a ∈ needs k, d.get a = d'.get a) → entry d k = entry d' k)
    {order : List κ} (h : Scheduled needs order) {k : κ} (hk : k ∈ order) :
    (fill entry order).get k = some (entry (fill entry order) k) := by
  induction order using List.reverseRecOn with
  | nil => cases hk
  | append_singleton order x ih =>
    obtain ⟨hinitial,hx,hneeds⟩ := h.initial
    have hsame (k : κ) (hk : k ∈ order) :
        (fill entry (order ++ [x])).get k = (fill entry order).get k := by
      rw [fill_concat,get_set_ne _ _ fun heq : x = k => hx (heq ▸ hk)]
    rcases List.mem_append.1 hk with hk | hk
    · rw [hsame k hk,ih hinitial hk]
      exact congrArg some (hlocal _ _ k fun a ha => (hsame a (hinitial.needs_mem hk ha)).symm)
    · rw [List.mem_singleton.1 hk]
      refine Eq.trans ?_ (congrArg some (hlocal _ _ x fun a ha => (hsame a (hneeds a ha)).symm))
      rw [fill_concat,get_set_self]

theorem mem_fill (hlocal : ∀ d d' k, (∀ a ∈ needs k, d.get a = d'.get a) → entry d k = entry d' k)
    {order : List κ} (h : Scheduled needs order) {k : κ} {v : α} :
    (k,v) ∈ (fill entry order).entries ↔ k ∈ order ∧ v = entry (fill entry order) k := by
  rw [← lookup_eq_some_iff (fill entry order).nodup]
  change (fill entry order).get k = some v ↔ _
  by_cases hk : k ∈ order
  · rw [get_fill hlocal h hk]
    simp [hk,eq_comm]
  · rw [get_fill_of_notMem hk]
    simp [hk]

omit [DecidableEq κ] in
/-- What holds of an entry once it holds of those it needs. -/
theorem Scheduled.induction {order : List κ} (h : Scheduled needs order) {P : κ → Prop}
    (hstep : ∀ k ∈ order, (∀ a ∈ needs k, P a) → P k) : ∀ k ∈ order, P k := by
  induction order using List.reverseRecOn with
  | nil => exact nofun
  | append_singleton order x ih =>
    obtain ⟨hinitial,-,hneeds⟩ := h.initial
    have hall := ih hinitial fun k hk => hstep k (List.mem_append_left _ hk)
    intro k hk
    rcases List.mem_append.1 hk with hk | hk
    · exact hall k hk
    · rw [List.mem_singleton.1 hk]
      exact hstep x (by simp) fun a ha => hall a (hneeds a ha)

omit [DecidableEq κ] in
theorem Scheduled.reverse {order : List κ} (h : Scheduled needs order) {needed : κ → List κ}
    (hneeded : ∀ k a, a ∈ needed k → k ∈ needs a ∧ a ∈ order) : Scheduled needed order.reverse := by
  refine ⟨List.nodup_reverse.2 h.nodup,fun l k r heq a ha => ?_⟩
  have horder : order = r.reverse ++ k :: l.reverse := by
    rw [← List.reverse_reverse order,heq]
    simp
  obtain ⟨hk,hmem⟩ := hneeded k a ha
  obtain ⟨l',r',hsplit⟩ := List.append_of_mem hmem
  have hbefore := h.before l' a r' hsplit k hk
  have hnodup := h.nodup
  rw [horder] at hmem hnodup
  rcases List.mem_append.1 hmem with hmem | hmem
  · -- then the entry would come before and after `a`
    obtain ⟨x,y,hxy⟩ := List.append_of_mem hmem
    have hk' : k ∈ x := h.before x a (y ++ k :: l.reverse) (by rw [horder,hxy]; simp) k hk
    rw [hxy] at hnodup
    exact absurd rfl ((List.nodup_append.1 hnodup).2.2 k (by simp [hk']) k (by simp))
  · rcases List.mem_cons.1 hmem with rfl | hmem
    · have ha' : a ∈ r.reverse := h.before r.reverse a l.reverse horder a hk
      exact absurd rfl ((List.nodup_append.1 hnodup).2.2 a ha' a (by simp))
    · exact List.mem_reverse.1 hmem

omit [DecidableEq κ] in
/-- What is needed of a part of the entries. -/
theorem Scheduled.filter {order : List κ} (h : Scheduled needs order) (p : κ → Bool) :
    Scheduled (fun k => (needs k).filter p) (order.filter p) := by
  refine ⟨h.nodup.filter p,fun l k r heq a ha => ?_⟩
  obtain ⟨x,y,rfl,rfl,hy⟩ := List.filter_eq_append_iff.1 heq
  obtain ⟨y,z,rfl,hskip,-,-⟩ := List.filter_eq_cons_iff.1 hy
  obtain ⟨hneeds,hp⟩ := List.mem_filter.1 ha
  have hmem : a ∈ x ++ y := h.before (x ++ y) k z (by simp) a hneeds
  rcases List.mem_append.1 hmem with hx | hy
  · exact List.mem_filter.2 ⟨hx,hp⟩
  · exact absurd hp (hskip a hy)

end AgentCentric.Dict

namespace AgentCentric
variable {κ : Type} [DecidableEq κ]

/-- One turn of a forward sweep: what comes after `k` is at least one further on. -/
def relax (next : κ → List κ) (rank : κ → Nat) (k : κ) : κ → Nat :=
  (next k).foldl (fun rank a => Function.update rank a (max (rank a) (rank k + 1))) rank

def stepwise (next : κ → List κ) : Project κ :=
  ⟨fun _ => True,fun a b => b ∈ next a,fun _ => 1,fun _ _ => Int.one_pos⟩

omit [DecidableEq κ] in
theorem total_stepwise (next : κ → List κ) (c : List κ) : (stepwise next).total c = c.length := by
  induction c with
  | nil => rfl
  | cons a c ih =>
    rw [Project.total_cons,ih,List.length_cons]
    simp only [stepwise]
    omega

theorem relax_apply {next : κ → List κ} {k : κ} (hk : k ∉ next k) (rank : κ → Nat) (a : κ) :
    relax next rank k a = if a ∈ next k then max (rank a) (rank k + 1) else rank a := by
  have hfold : ∀ (targets : List κ) (rank : κ → Nat), k ∉ targets →
      targets.foldl (fun rank a => Function.update rank a (max (rank a) (rank k + 1))) rank a =
        if a ∈ targets then max (rank a) (rank k + 1) else rank a := by
    intro targets
    induction targets with
    | nil => simp
    | cons b targets ih =>
      intro rank hout
      rw [List.mem_cons,not_or] at hout
      rw [List.foldl_cons,ih _ hout.2,Function.update_of_ne hout.1]
      by_cases hab : a = b
      · subst hab
        simp
      · simp [hab]
  exact hfold (next k) rank hk

/-- After a sweep that meets everything before what follows it, ranks are as low as can be. -/
theorem relax_pass {next : κ → List κ} {order : List κ} (hnodup : order.Nodup)
    (hall : ∀ a b, b ∈ next a → a ∈ order)
    (hbefore : ∀ l x r, order = l ++ x :: r → ∀ a, x ∈ next a → a ∈ l) :
    (stepwise next).Pass fun a => (order.foldl (relax next) (fun _ => 0) a : Int) := by
  have hsweep : ∀ l r, order = l ++ r →
      (∀ b, l.foldl (relax next) (fun _ => 0) b = 0 ∨ ∃ a ∈ l, b ∈ next a ∧
        l.foldl (relax next) (fun _ => 0) a + 1 = l.foldl (relax next) (fun _ => 0) b) ∧
      ∀ a ∈ l, ∀ b ∈ next a,
        l.foldl (relax next) (fun _ => 0) a + 1 ≤ l.foldl (relax next) (fun _ => 0) b := by
    intro l
    induction l using List.reverseRecOn with
    | nil => simp
    | append_singleton l k ih =>
      intro r horder
      rw [List.append_assoc,List.singleton_append] at horder
      obtain ⟨htight,hfollows⟩ := ih (k :: r) horder
      have hfresh : k ∉ l := by
        intro hk
        rw [horder] at hnodup
        exact (List.nodup_append.1 hnodup).2.2 k hk k List.mem_cons_self rfl
      -- what was met before `k` does not follow it
      have hdone : ∀ a ∈ l, a ∉ next k := by
        intro a ha hnext
        obtain ⟨l₁,l₂,rfl⟩ := List.append_of_mem ha
        have hk := hbefore l₁ a (l₂ ++ k :: r) (by rw [horder]; simp) k hnext
        exact hfresh (List.mem_append_left _ hk)
      have hself : k ∉ next k := fun hnext => hfresh (hbefore l k r horder k hnext)
      simp only [List.foldl_append,List.foldl_cons,List.foldl_nil,relax_apply hself]
      generalize l.foldl (relax next) (fun _ => 0) = rank at htight hfollows
      refine ⟨fun b => ?_,fun a ha b hb => ?_⟩
      · by_cases hb : b ∈ next k
        · by_cases hle : rank b ≤ rank k + 1
          · refine .inr ⟨k,by simp,hb,?_⟩
            rw [if_neg hself,if_pos hb]
            omega
          · obtain hzero | ⟨a,ha,hnext,hstep⟩ := htight b
            · omega
            · refine .inr ⟨a,List.mem_append_left _ ha,hnext,?_⟩
              rw [if_neg (hdone a ha),if_pos hb]
              omega
        · rw [if_neg hb]
          obtain hzero | ⟨a,ha,hnext,hstep⟩ := htight b
          · exact .inl hzero
          · refine .inr ⟨a,List.mem_append_left _ ha,hnext,?_⟩
            rwa [if_neg (hdone a ha)]
      · rcases List.mem_append.1 ha with ha | ha
        · have hold := hfollows a ha b hb
          rw [if_neg (hdone a ha)]
          split <;> omega
        · obtain rfl := List.mem_singleton.1 ha
          rw [if_neg hself,if_pos hb]
          omega
  obtain ⟨htight,hfollows⟩ := hsweep order [] (List.append_nil order).symm
  refine ⟨⟨fun b _ => Int.natCast_nonneg _,fun a b _ _ hab => ?_⟩,fun b _ => ?_⟩
  · have hab' := hfollows a (hall a b hab) b hab
    simp only [stepwise]
    omega
  · obtain hzero | ⟨a,_,hab,hstep⟩ := htight b
    · exact .inl (by omega)
    · refine .inr ⟨a,trivial,hab,?_⟩
      simp only [stepwise]
      omega

end AgentCentric

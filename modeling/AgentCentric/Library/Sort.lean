import AgentCentric.Library.Dict
import Mathlib.Data.List.Pairwise
import Mathlib.Data.List.ReduceOption
import Mathlib.Data.List.Sort
import Mathlib.Data.List.TakeWhile

namespace AgentCentric

theorem insertionSort_perm {α : Type} {xs ys : List α} (h : xs.Perm ys) (r : α → α → Prop)
    [DecidableRel r] : (xs.insertionSort r).Perm (ys.insertionSort r) :=
  ((List.perm_insertionSort r xs).trans h).trans (List.perm_insertionSort r ys).symm

/-- The order in which a list is given does not matter once it is sorted, if the order tells
its items apart. -/
theorem insertionSort_congr {α : Type} (r : α → α → Prop) [DecidableRel r] [Std.Total r]
    [IsTrans α r] {xs ys : List α} (hperm : xs.Perm ys)
    (hanti : ∀ a ∈ xs, ∀ b ∈ xs, r a b → r b a → a = b) :
    xs.insertionSort r = ys.insertionSort r := by
  apply (insertionSort_perm hperm r).eq_of_pairwise
  · intro a b ha hb
    have hb' : b ∈ xs := hperm.mem_iff.2 ((List.mem_insertionSort r).1 hb)
    exact hanti a ((List.mem_insertionSort r).1 ha) b hb'
  · exact List.pairwise_insertionSort r xs
  · exact List.pairwise_insertionSort r ys

/-- What is sorted by one order is sorted by another if and only if the first implies it. -/
theorem pairwise_insertionSort_iff {α : Type} {r : α → α → Prop} [DecidableRel r] [Std.Total r]
    [IsTrans α r] {s : α → α → Prop} {xs : List α} (hnodup : xs.Nodup)
    (hanti : ∀ a ∈ xs, ∀ b ∈ xs, r a b → r b a → a = b) :
    (xs.insertionSort r).Pairwise s ↔ ∀ a ∈ xs, ∀ b ∈ xs, a ≠ b → r a b → s a b := by
  have hsorted := List.pairwise_insertionSort r xs
  have hdistinct : (xs.insertionSort r).Nodup := (List.perm_insertionSort r xs).nodup_iff.mpr hnodup
  constructor
  · intro h a ha b hb hne hr
    have hsymm : Std.Symm fun a b => (r a b ∧ s a b) ∨ (r b a ∧ s b a) := ⟨fun _ _ => Or.symm⟩
    have hboth : (xs.insertionSort r).Pairwise fun a b => (r a b ∧ s a b) ∨ (r b a ∧ s b a) :=
      (hsorted.and h).imp Or.inl
    rcases hboth.forall ((List.mem_insertionSort r).mpr ha) ((List.mem_insertionSort r).mpr hb)
      hne with ⟨-,hs⟩ | ⟨hback,-⟩
    · exact hs
    · exact absurd (hanti a ha b hb hr hback) hne
  · intro h
    refine (hsorted.and hdistinct).imp_of_mem fun {a b} ha hb hab => ?_
    exact h a ((List.mem_insertionSort r).mp ha) b ((List.mem_insertionSort r).mp hb) hab.2 hab.1

theorem filter_orderedInsert {α κ : Type} [LinearOrder κ] (key : α → κ) (r : α → α → Prop)
    [DecidableRel r] (hr : ∀ a b, r a b ↔ key a ≤ key b) (k : κ) (x : α) (l : List α) :
    (l.orderedInsert r x).filter (fun a => key a = k) = (x :: l).filter (fun a => key a = k) := by
  induction l with
  | nil => rfl
  | cons y l ih =>
    rw [List.orderedInsert_cons]
    split
    · rfl
    · rename_i hlt
      rw [hr] at hlt
      rw [List.filter_cons,ih]
      by_cases hx : key x = k <;> by_cases hy : key y = k
      · exact absurd (le_of_eq (hx.trans hy.symm)) hlt
      all_goals simp [hx,hy]

theorem filter_insertionSort {α κ : Type} [LinearOrder κ] (key : α → κ) (r : α → α → Prop)
    [DecidableRel r] (hr : ∀ a b, r a b ↔ key a ≤ key b) (k : κ) (l : List α) :
    (l.insertionSort r).filter (fun a => key a = k) = l.filter (fun a => key a = k) := by
  induction l with
  | nil => rfl
  | cons x l ih =>
    rw [List.insertionSort_cons,filter_orderedInsert key r hr]
    simp only [List.filter_cons,ih]

theorem exists_key_of_filters {α κ : Type} [LinearOrder κ] {key : α → κ} {R : α → α → Prop}
    {xs ys : List α} (h : ∀ k, List.Forall₂ R (xs.filter (fun a => key a = k))
      (ys.filter (fun a => key a = k))) {x : α} (hx : x ∈ xs) : ∃ y ∈ ys, key y = key x := by
  have hmem : x ∈ xs.filter (fun a => key a = key x) := by simp [hx]
  obtain ⟨y,hy⟩ := List.exists_mem_of_length_pos
    ((h (key x)).length_eq ▸ List.length_pos_of_mem hmem)
  simp only [List.mem_filter,decide_eq_true_eq] at hy
  exact ⟨y,hy.1,hy.2⟩

/-- Sorted lists match when the items with each key do. -/
theorem forall₂_of_filters {α κ : Type} [LinearOrder κ] (key : α → κ) {R : α → α → Prop}
    {xs ys : List α} (hxs : xs.Pairwise fun a b => key a ≤ key b)
    (hys : ys.Pairwise fun a b => key a ≤ key b)
    (h : ∀ k, List.Forall₂ R (xs.filter (fun a => key a = k))
      (ys.filter (fun a => key a = k))) : List.Forall₂ R xs ys := by
  induction xs generalizing ys with
  | nil =>
    cases ys with
    | nil => exact .nil
    | cons y ys =>
      have hlen := (h (key y)).length_eq
      simp at hlen
  | cons x xs ih =>
    obtain ⟨b,hb,hbx⟩ := exists_key_of_filters h List.mem_cons_self
    cases ys with
    | nil => cases hb
    | cons y ys =>
      have hsymm : ∀ k, List.Forall₂ (fun a b => R b a) ((y :: ys).filter (fun a => key a = k))
          ((x :: xs).filter (fun a => key a = k)) := fun k => (h k).flip
      obtain ⟨a,ha,hay⟩ := exists_key_of_filters hsymm List.mem_cons_self
      have hyx : key y ≤ key x := by
        cases List.mem_cons.mp hb with
        | inl heq => exact le_of_eq (heq ▸ hbx)
        | inr hmem => exact hbx ▸ (List.pairwise_cons.mp hys).1 b hmem
      have hxy : key x ≤ key y := by
        cases List.mem_cons.mp ha with
        | inl heq => exact le_of_eq (heq ▸ hay)
        | inr hmem => exact hay ▸ (List.pairwise_cons.mp hxs).1 a hmem
      have hkey : key y = key x := le_antisymm hyx hxy
      have hhead := h (key x)
      simp only [List.filter_cons,hkey,decide_true,if_true,List.forall₂_cons] at hhead
      refine .cons hhead.1 (ih (List.pairwise_cons.mp hxs).2 (List.pairwise_cons.mp hys).2
        fun k => ?_)
      by_cases hk : key x = k
      · exact hk ▸ hhead.2
      · have htail := h k
        simpa only [List.filter_cons,hkey,hk,decide_false,Bool.false_eq_true,if_false] using htail

/-- Lists with the same distinct keys match item by item. -/
theorem forall₂_iff_of_keys {α κ : Type} {key : α → κ} {R : α → α → Prop} {xs ys : List α}
    (hkeys : xs.map key = ys.map key) (hnodup : (xs.map key).Nodup) :
    List.Forall₂ R xs ys ↔ ∀ x ∈ xs, ∀ y ∈ ys, key x = key y → R x y := by
  induction xs generalizing ys with
  | nil =>
    rw [List.map_nil,eq_comm,List.map_eq_nil_iff] at hkeys
    simp [hkeys]
  | cons x xs ih =>
    cases ys with
    | nil => cases hkeys
    | cons y ys =>
      simp only [List.map_cons,List.cons.injEq] at hkeys
      rw [List.map_cons,List.nodup_cons] at hnodup
      rw [List.forall₂_cons,ih hkeys.2 hnodup.2]
      constructor
      · rintro ⟨hhead,hrest⟩ a ha b hb hab
        rcases List.mem_cons.mp ha with rfl | ha <;> rcases List.mem_cons.mp hb with rfl | hb
        · exact hhead
        · exact absurd (hab ▸ hkeys.2 ▸ List.mem_map_of_mem hb) hnodup.1
        · exact absurd (hkeys.1 ▸ hab ▸ List.mem_map_of_mem ha) hnodup.1
        · exact hrest a ha b hb hab
      · intro h
        exact ⟨h x List.mem_cons_self y List.mem_cons_self hkeys.1,fun a ha b hb hab =>
          h a (List.mem_cons_of_mem x ha) b (List.mem_cons_of_mem y hb) hab⟩

theorem keys_eq_of_sorted {α κ : Type} [LinearOrder κ] (key : α → κ) {xs ys : List α}
    (hxs : xs.Pairwise fun a b => key a ≤ key b) (hys : ys.Pairwise fun a b => key a ≤ key b)
    (hnodup : (xs.map key).Nodup) (hnodup' : (ys.map key).Nodup)
    (hmem : ∀ k, k ∈ xs.map key ↔ k ∈ ys.map key) : xs.map key = ys.map key := by
  apply List.Perm.eq_of_pairwise (fun a b _ _ hab hba => le_antisymm hab hba)
    (List.pairwise_map.mpr hxs) (List.pairwise_map.mpr hys)
  rw [List.perm_ext_iff_of_nodup hnodup hnodup']
  exact hmem

theorem map_eq_iff_of_keys {α κ β : Type} {key : α → κ} {f : α → β} {xs ys : List α}
    (hkeys : xs.map key = ys.map key) (hnodup : (xs.map key).Nodup) :
    xs.map f = ys.map f ↔ ∀ x ∈ xs, ∀ y ∈ ys, key x = key y → f x = f y := by
  rw [← forall₂_iff_of_keys hkeys hnodup,← List.forall₂_eq_eq_eq,List.forall₂_map_left_iff,
    List.forall₂_map_right_iff]

section Ties
variable {α β κ : Type} [LinearOrder κ] {key : α → κ} {f : α → Option β} {xs ys : List α}

/-- Items with one key look alike to `f`, if it sees them. -/
def Alike (key : α → κ) (f : α → Option β) (xs : List α) : Prop :=
  ∀ a ∈ xs, ∀ b ∈ xs, key a = key b → ∀ x, f a = some x → ∀ y, f b = some y → x = y

/-- The items with the least key among those that `f` sees look alike to it. -/
def FirstAlike (key : α → κ) (f : α → Option β) (xs : List α) : Prop :=
  ∀ a ∈ xs, ∀ b ∈ xs, key a = key b → (∀ c ∈ xs, key c < key a → f c = none) →
    ∀ x, f a = some x → ∀ y, f b = some y → x = y

theorem filterMap_of_alike (h : Alike key f xs) (hperm : xs.Perm ys)
    (hxs : xs.Pairwise fun a b => key a ≤ key b) (hys : ys.Pairwise fun a b => key a ≤ key b) :
    xs.filterMap f = ys.filterMap f := by
  have hseen : List.Forall₂ (fun a b => f a = f b) (xs.filter fun a => (f a).isSome)
      (ys.filter fun a => (f a).isSome) := by
    refine forall₂_of_filters key (hxs.filter _) (hys.filter _) fun k => ?_
    rw [List.forall₂_iff_zip]
    refine ⟨((hperm.filter _).filter _).length_eq,fun {a b} hab => ?_⟩
    obtain ⟨ha,hb⟩ := List.of_mem_zip hab
    simp only [List.mem_filter,decide_eq_true_eq,Option.isSome_iff_exists] at ha hb
    obtain ⟨⟨ha,x,hx⟩,hak⟩ := ha
    obtain ⟨⟨hb,y,hy⟩,hbk⟩ := hb
    rw [hx,hy,h a ha b (hperm.mem_iff.2 hb) (hak.trans hbk.symm) x hx y hy]
  have hfilter : ∀ l : List α,
      l.filterMap f = ((l.filter fun a => (f a).isSome).map f).reduceOption := by
    intro l
    induction l with
    | nil => rfl
    | cons a l ih => cases ha : f a <;> simp [ha,ih]
  have hmap : (xs.filter fun a => (f a).isSome).map f =
      (ys.filter fun a => (f a).isSome).map f := by
    rw [← List.forall₂_eq_eq_eq,List.forall₂_map_left_iff,List.forall₂_map_right_iff]
    exact hseen
  rw [hfilter,hfilter,hmap]

/-- The first that `f` sees has the least key. -/
theorem head_filterMap (hxs : xs.Pairwise fun a b => key a ≤ key b) {x : β}
    (h : (xs.filterMap f).head? = some x) :
    ∃ a ∈ xs, f a = some x ∧ ∀ c ∈ xs, key c < key a → f c = none := by
  induction xs with
  | nil => cases h
  | cons a xs ih =>
    obtain ⟨hle,hxs⟩ := List.pairwise_cons.1 hxs
    cases ha : f a with
    | some y =>
      rw [List.filterMap_cons_some ha,List.head?_cons] at h
      refine ⟨a,List.mem_cons_self,ha.trans h,fun c hc hlt => ?_⟩
      cases List.mem_cons.1 hc with
      | inl heq => exact absurd (heq ▸ hlt) (lt_irrefl _)
      | inr hmem => exact absurd hlt (not_lt_of_ge (hle c hmem))
    | none =>
      rw [List.filterMap_cons_none ha] at h
      obtain ⟨b,hb,hx,hlow⟩ := ih hxs h
      refine ⟨b,List.mem_cons_of_mem a hb,hx,fun c hc hlt => ?_⟩
      cases List.mem_cons.1 hc with
      | inl heq => exact heq ▸ ha
      | inr hmem => exact hlow c hmem hlt

theorem head_of_firstAlike (h : FirstAlike key f xs) (hperm : xs.Perm ys)
    (hxs : xs.Pairwise fun a b => key a ≤ key b) (hys : ys.Pairwise fun a b => key a ≤ key b) :
    (xs.filterMap f).head? = (ys.filterMap f).head? := by
  cases hx : (xs.filterMap f).head? with
  | none =>
    have hnone : xs.filterMap f = [] := List.head?_eq_none_iff.1 hx
    have hperm' : (ys.filterMap f).Perm (xs.filterMap f) := (hperm.filterMap f).symm
    rw [hnone] at hperm'
    rw [hperm'.eq_nil,List.head?_nil]
  | some x =>
    obtain ⟨a,ha,hfa,halow⟩ := head_filterMap hxs hx
    cases hy : (ys.filterMap f).head? with
    | none =>
      have hmem : x ∈ ys.filterMap f :=
        List.mem_filterMap.2 ⟨a,hperm.mem_iff.1 ha,hfa⟩
      rw [List.head?_eq_none_iff.1 hy] at hmem
      cases hmem
    | some y =>
      obtain ⟨b,hb,hfb,hblow⟩ := head_filterMap hys hy
      have hbxs := hperm.mem_iff.2 hb
      rcases lt_trichotomy (key a) (key b) with hlt | heq | hgt
      · rw [hblow a (hperm.mem_iff.1 ha) hlt] at hfa
        cases hfa
      · rw [h a ha b hbxs heq halow x hfa y hfb]
      · rw [halow b hbxs hgt] at hfb
        cases hfb

variable (r : α → α → Prop) [DecidableRel r]

/-- Two items with one key stand side by side, as they were given. -/
theorem insertionSort_tied (hr : ∀ a b, r a b ↔ key a ≤ key b) {a b : α} (hab : key a = key b)
    (l : List α) : ∃ low high, (∀ c ∈ low, c ∈ l ∧ key c < key a) ∧
      (a :: b :: l).insertionSort r = low ++ a :: b :: high ∧
      (b :: a :: l).insertionSort r = low ++ b :: a :: high := by
  have hstep : ∀ x y : α, key x = key a → key y = key a →
      ((l.insertionSort r).orderedInsert r y).orderedInsert r x =
        ((l.insertionSort r).takeWhile fun c => ¬ key a ≤ key c) ++
          x :: y :: (l.insertionSort r).dropWhile fun c => ¬ key a ≤ key c := by
    intro x y hx hy
    rw [List.orderedInsert_eq_take_drop,List.orderedInsert_eq_take_drop]
    simp only [hr,hx,hy]
    have hlow : ∀ c ∈ (l.insertionSort r).takeWhile fun c => ¬ key a ≤ key c,
        decide (¬ key a ≤ key c) = true :=
      fun c hc => List.mem_takeWhile_imp (p := fun c => decide (¬ key a ≤ key c)) hc
    rw [List.takeWhile_append_of_pos hlow,List.dropWhile_append_of_pos hlow]
    simp [hy]
  refine ⟨_,_,fun c hc => ⟨?_,?_⟩,hstep a b rfl hab.symm,hstep b a hab.symm rfl⟩
  · exact (List.mem_insertionSort r).1 (List.takeWhile_subset _ hc)
  · simpa using List.mem_takeWhile_imp hc

theorem exists_perm_cons_cons {a b : α} (ha : a ∈ xs) (hb : b ∈ xs) (hne : a ≠ b) :
    ∃ l, xs.Perm (a :: b :: l) := by
  obtain ⟨before,after,rfl⟩ := List.append_of_mem ha
  have hmem : b ∈ before ++ after := by
    cases List.mem_cons.1 (List.perm_middle.mem_iff.1 hb) with
    | inl heq => exact absurd heq.symm hne
    | inr hmem => exact hmem
  obtain ⟨first,last,hrest⟩ := List.append_of_mem hmem
  refine ⟨first ++ last,List.perm_middle.trans (.cons a ?_)⟩
  rw [hrest]
  exact List.perm_middle

theorem pairwise_of_key (hr : ∀ a b, r a b ↔ key a ≤ key b) (l : List α) :
    (l.insertionSort r).Pairwise fun a b => key a ≤ key b := by
  have : Std.Total r := ⟨fun a b => by rw [hr,hr]; exact le_total _ _⟩
  have : IsTrans α r := ⟨fun a b c => by rw [hr,hr,hr]; exact le_trans⟩
  exact (List.pairwise_insertionSort r l).imp fun h => (hr _ _).1 h

theorem views_tied {γ : Type} (hr : ∀ a b, r a b ↔ key a ≤ key b) (view : List α → γ)
    (h : ∀ ys, xs.Perm ys → view (xs.insertionSort r) = view (ys.insertionSort r)) {a b : α}
    (ha : a ∈ xs) (hb : b ∈ xs) (hab : key a = key b) : a = b ∨ ∃ low high,
      (∀ c ∈ low, c ∈ xs ∧ key c < key a) ∧
        view (low ++ a :: b :: high) = view (low ++ b :: a :: high) := by
  by_cases heq : a = b
  · exact .inl heq
  obtain ⟨l,hl⟩ := exists_perm_cons_cons ha hb heq
  obtain ⟨low,high,hbelow,hsort,hswap⟩ := insertionSort_tied r hr hab l
  have hviews := (h _ hl).symm.trans (h _ (hl.trans (.swap b a l)))
  rw [hsort,hswap] at hviews
  refine .inr ⟨low,high,fun c hc => ⟨?_,(hbelow c hc).2⟩,hviews⟩
  exact hl.mem_iff.2 (List.mem_cons_of_mem a (List.mem_cons_of_mem b (hbelow c hc).1))

/-- The order in which a list is given changes nothing that `f` sees of the sorted list, just where
items with one key look alike to it. -/
theorem filterMap_sort_iff (hr : ∀ a b, r a b ↔ key a ≤ key b) :
    (∀ ys, xs.Perm ys → (xs.insertionSort r).filterMap f = (ys.insertionSort r).filterMap f) ↔
      Alike key f xs := by
  constructor
  · intro h a ha b hb hab x hx y hy
    rcases views_tied r hr _ h ha hb hab with rfl | ⟨low,high,-,hviews⟩
    · exact Option.some.inj (hx.symm.trans hy)
    · simpa [hx,hy,eq_comm] using hviews
  · intro h ys hperm
    have halike : Alike key f (xs.insertionSort r) := fun a ha b hb =>
      h a ((List.mem_insertionSort r).1 ha) b ((List.mem_insertionSort r).1 hb)
    exact filterMap_of_alike halike (insertionSort_perm hperm r) (pairwise_of_key r hr xs)
      (pairwise_of_key r hr ys)

/-- The order in which a list is given does not change the first that `f` sees in the sorted list,
just where the items with the least key that it sees look alike to it. -/
theorem head_sort_iff (hr : ∀ a b, r a b ↔ key a ≤ key b) : (∀ ys, xs.Perm ys →
      ((xs.insertionSort r).filterMap f).head? = ((ys.insertionSort r).filterMap f).head?) ↔
      FirstAlike key f xs := by
  constructor
  · intro h a ha b hb hab hlow x hx y hy
    rcases views_tied r hr (fun xs => (xs.filterMap f).head?) h ha hb hab with
      rfl | ⟨low,high,hbelow,hviews⟩
    · exact Option.some.inj (hx.symm.trans hy)
    have hnone : low.filterMap f = [] := by
      rw [List.filterMap_eq_nil_iff]
      exact fun c hc => hlow c (hbelow c hc).1 (hbelow c hc).2
    simpa [hx,hy,hnone] using hviews
  · intro h ys hperm
    have halike : FirstAlike key f (xs.insertionSort r) := fun a ha b hb hab hlow =>
      h a ((List.mem_insertionSort r).1 ha) b ((List.mem_insertionSort r).1 hb) hab
        fun c hc => hlow c ((List.mem_insertionSort r).2 hc)
    exact head_of_firstAlike halike (insertionSort_perm hperm r) (pairwise_of_key r hr xs)
      (pairwise_of_key r hr ys)

end Ties

variable {α β κ : Type} [DecidableEq κ]

/-- `setdefault(key, []).append(value)`, row by row. -/
def Dict.group (key : α → κ) (value : α → β) (rows : List α) : Dict κ (List β) :=
  rows.foldl (fun d row => d.set (key row) ((d.get (key row)).getD [] ++ [value row])) .empty

namespace Dict

theorem get_groupFrom (key : α → κ) (value : α → β) (rows : List α) (d : Dict κ (List β)) (k : κ) :
    ((rows.foldl (fun d row => d.set (key row) ((d.get (key row)).getD [] ++ [value row]))
      d).get k).getD [] = (d.get k).getD [] ++ (rows.filter fun row => key row = k).map value := by
  induction rows generalizing d with
  | nil => simp
  | cons row rows ih =>
    rw [List.foldl_cons,ih,get_set,List.filter_cons]
    by_cases hk : key row = k
    · simp [hk]
    · simp [hk]

theorem get_group (key : α → κ) (value : α → β) (rows : List α) (k : κ) :
    ((group key value rows).get k).getD [] = (rows.filter fun row => key row = k).map value := by
  rw [group,get_groupFrom,get_empty,Option.getD_none,List.nil_append]

theorem mem_group {key : α → κ} {value : α → β} {rows : List α} {k : κ} {values : List β}
    (h : (group key value rows).get k = some values) {v : β} :
    v ∈ values ↔ ∃ row ∈ rows, key row = k ∧ value row = v := by
  have hvalues := get_group key value rows k
  rw [h,Option.getD_some] at hvalues
  rw [hvalues]
  simp [and_assoc]

theorem group_of_mem {key : α → κ} {value : α → β} {rows : List α} {row : α} (h : row ∈ rows) :
    ∃ values, (group key value rows).get (key row) = some values ∧ value row ∈ values := by
  have hmem : value row ∈ ((group key value rows).get (key row)).getD [] := by
    rw [get_group]
    exact List.mem_map_of_mem (List.mem_filter.2 ⟨h,decide_eq_true rfl⟩)
  cases hget : (group key value rows).get (key row) with
  | none =>
    rw [hget] at hmem
    cases hmem
  | some values =>
    rw [hget] at hmem
    exact ⟨values,rfl,hmem⟩

end Dict

def enumerate : Nat → List α → List (Nat × α)
  | _, [] => []
  | start, row :: rows => (start,row) :: enumerate (start + 1) rows

theorem enumerate_snd (start : Nat) (rows : List α) :
    (enumerate start rows).map Prod.snd = rows := by
  induction rows generalizing start with
  | nil => rfl
  | cons row rows ih => rw [enumerate,List.map_cons,ih]

theorem enumerate_fst (start : Nat) (rows : List α) :
    (enumerate start rows).map Prod.fst = List.range' start rows.length := by
  induction rows generalizing start with
  | nil => rfl
  | cons row rows ih => rw [enumerate,List.map_cons,ih,List.length_cons,List.range'_succ]

theorem enumerate_lt (start : Nat) (rows : List α) :
    (enumerate start rows).Pairwise fun a b => a.1 < b.1 := by
  have hplaces : ((enumerate start rows).map Prod.fst).Pairwise (· < ·) := by
    rw [enumerate_fst]
    exact List.pairwise_lt_range' 1
  exact List.pairwise_map.1 hplaces

/-- What is dealt out to different keys is, together, what was dealt to any of them. -/
theorem flatMap_filter_perm (key : α → κ) {keys : List κ} (h : keys.Nodup) (rows : List α) :
    (keys.flatMap fun k => rows.filter fun row => key row = k).Perm
      (rows.filter fun row => key row ∈ keys) := by
  induction keys with
  | nil => simp
  | cons k keys ih =>
    obtain ⟨hk,hkeys⟩ := List.nodup_cons.1 h
    rw [List.flatMap_cons]
    have hfirst : (rows.filter fun row => key row = k) =
        (rows.filter fun row => key row ∈ k :: keys).filter fun row => key row = k := by
      rw [List.filter_filter]
      refine List.filter_congr fun row _ => ?_
      by_cases hrow : key row = k <;> simp [hrow]
    have hrest : (rows.filter fun row => key row ∈ keys) =
        (rows.filter fun row => key row ∈ k :: keys).filter fun row => !decide (key row = k) := by
      rw [List.filter_filter]
      refine List.filter_congr fun row _ => ?_
      by_cases hrow : key row = k
      · simp [hrow,hk]
      · simp [hrow]
    rw [hfirst]
    refine ((ih hkeys).append_left _).trans ?_
    rw [hrest]
    exact List.filter_append_perm _ _

theorem sort_places {rows placed : List (Nat × α)} (hperm : rows.Perm placed)
    (hplaced : placed.Pairwise fun a b => a.1 < b.1) :
    rows.insertionSort (fun a b => a.1 ≤ b.1) = placed := by
  have : Std.Total fun a b : Nat × α => a.1 ≤ b.1 := ⟨fun a b => Nat.le_total a.1 b.1⟩
  have : IsTrans (Nat × α) fun a b => a.1 ≤ b.1 := ⟨fun a b c => Nat.le_trans⟩
  have hsame : ∀ a ∈ placed, ∀ b ∈ placed, a.1 ≤ b.1 → b.1 ≤ a.1 → a = b := by
    intro a ha b hb hab hba
    have hplaces : (placed.map Prod.fst).Nodup :=
      (List.pairwise_map.2 hplaced).imp fun h => h.ne
    exact List.inj_on_of_nodup_map hplaces ha hb (Nat.le_antisymm hab hba)
  rw [insertionSort_congr _ hperm fun a ha b hb =>
    hsame a (hperm.mem_iff.1 ha) b (hperm.mem_iff.1 hb)]
  exact (hplaced.imp fun h => h.le).insertionSort_eq

end AgentCentric

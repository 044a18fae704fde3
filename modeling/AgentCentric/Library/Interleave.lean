import Mathlib.Algebra.GroupWithZero.Nat
import Mathlib.Data.List.Perm.Basic

namespace AgentCentric.Interleave

/-- The items of the logs, those of each in their own order. -/
inductive Interleaves {α : Type} : List (List α) → List α → Prop where
  | done {logs : List (List α)} (h : ∀ log ∈ logs, log = []) : Interleaves logs []
  | next {logs : List (List α)} {i : Nat} {x : α} {log s : List α}
      (hi : logs[i]? = some (x :: log)) (h : Interleaves (logs.set i log) s) :
      Interleaves logs (x :: s)

/-- The items `u` were written, and `rest` is what is left of the logs. -/
inductive Written {α : Type} : List (List α) → List α → List (List α) → Prop where
  | start {logs : List (List α)} : Written logs [] logs
  | next {logs rest : List (List α)} {i : Nat} {x : α} {log u : List α}
      (hi : logs[i]? = some (x :: log)) (h : Written (logs.set i log) u rest) :
      Written logs (x :: u) rest

/-- After `u` two of the logs have `x` and `y` next, and `v` may follow these. -/
structure Meet {α : Type} (logs : List (List α)) (u : List α) (x y : α) (v : List α) : Prop where
  meets : ∃ rest i j log log', Written logs u rest ∧ i ≠ j ∧ rest[i]? = some (x :: log) ∧
    rest[j]? = some (y :: log') ∧ Interleaves ((rest.set i log).set j log') v

def total {α : Type} (logs : List (List α)) : Nat := (logs.map List.length).sum

variable {α : Type} {logs : List (List α)}

theorem total_set {i : Nat} {x : α} {log : List α}
    (hi : logs[i]? = some (x :: log)) : total logs = total (logs.set i log) + 1 := by
  induction logs generalizing i with
  | nil => simp at hi
  | cons first logs ih =>
    cases i with
    | zero =>
      simp only [List.getElem?_cons_zero,Option.some.injEq] at hi
      simp only [total,hi,List.set_cons_zero,List.map_cons,List.sum_cons,List.length_cons]
      omega
    | succ i =>
      have hrest := ih (i := i) (by simpa using hi)
      simp only [total,List.set_cons_succ,List.map_cons,List.sum_cons] at hrest ⊢
      omega

theorem total_empty (h : ∀ log ∈ logs, log = []) : total logs = 0 := by
  induction logs with
  | nil => rfl
  | cons log logs ih =>
    have hrest := ih fun l hl => h l (List.mem_cons_of_mem _ hl)
    have hlog := h log (by simp)
    simp only [total,List.map_cons,List.sum_cons] at hrest ⊢
    simp [hlog,hrest]

theorem Interleaves.length {s : List α} (h : Interleaves logs s) : s.length = total logs := by
  induction h with
  | done h => simp [total_empty h]
  | next hi _ ih => rw [total_set hi,List.length_cons,ih]

theorem exists_interleaving (logs : List (List α)) : ∃ s, Interleaves logs s := by
  induction hn : total logs generalizing logs with
  | zero =>
    refine ⟨[],.done ?_⟩
    intro log hlog
    obtain ⟨i,hi,hget⟩ := List.getElem_of_mem hlog
    cases log with
    | nil => rfl
    | cons x log =>
      have hat : logs[i]? = some (x :: log) := by rw [List.getElem?_eq_getElem hi,hget]
      have hset := total_set hat
      omega
  | succ n ih =>
    by_cases hall : ∀ log ∈ logs, log = []
    · rw [total_empty hall] at hn
      omega
    · obtain ⟨log,hlog⟩ := not_forall.1 hall
      obtain ⟨hmem,hne⟩ := Classical.not_imp.1 hlog
      obtain ⟨x,rest,rfl⟩ := List.exists_cons_of_ne_nil hne
      obtain ⟨i,hi,hget⟩ := List.getElem_of_mem hmem
      have hat : logs[i]? = some (x :: rest) := by rw [List.getElem?_eq_getElem hi,hget]
      have htotal := total_set hat
      obtain ⟨s,hs⟩ := ih (logs.set i rest) (by omega)
      exact ⟨x :: s,.next hat hs⟩

theorem Written.interleaves {logs rest : List (List α)} {u v : List α}
    (h : Written logs u rest) (hv : Interleaves rest v) : Interleaves logs (u ++ v) := by
  induction h with
  | start => exact hv
  | next hi _ ih => exact .next hi (ih hv)

theorem Written.concat {logs rest : List (List α)} {u log : List α} {i : Nat} {x : α}
    (h : Written logs u rest) (hi : rest[i]? = some (x :: log)) :
    Written logs (u ++ [x]) (rest.set i log) := by
  induction h with
  | start => exact .next hi .start
  | next hj _ ih => exact .next hj (ih hi)

/-- Both orders of the two items that meet are possible. -/
theorem Meet.both {u v : List α} {x y : α} (h : Meet logs u x y v) :
    Interleaves logs (u ++ x :: y :: v) ∧ Interleaves logs (u ++ y :: x :: v) := by
  obtain ⟨rest,i,j,log,log',hu,hne,hi,hj,hv⟩ := h.meets
  constructor
  · refine hu.interleaves (.next hi (.next (i := j) ?_ hv))
    rw [List.getElem?_set_ne hne,hj]
  · rw [List.set_comm _ _ hne] at hv
    refine hu.interleaves (.next hj (.next (i := i) ?_ hv))
    rw [List.getElem?_set_ne hne.symm,hi]

/-- Every order gives the same exactly if the exchange of two items that meet never makes a
difference. -/
theorem same_iff_exchange {α β : Type} (logs : List (List α)) (f : List α → β) :
    (∀ s t, Interleaves logs s → Interleaves logs t → f s = f t) ↔
      ∀ u x y v, Meet logs u x y v → f (u ++ x :: y :: v) = f (u ++ y :: x :: v) := by
  constructor
  · intro h u x y v hmeet
    exact h _ _ hmeet.both.1 hmeet.both.2
  · intro h
    have hfrom : ∀ (n : Nat) (u : List α) (rest : List (List α)), Written logs u rest →
        ∀ s t, Interleaves rest s → Interleaves rest t → total rest = n → f (u ++ s) = f (u ++ t) := by
      intro n
      induction n with
      | zero =>
        intro u rest _ s t hs ht hn
        have hslength := hs.length
        have htlength := ht.length
        rw [List.length_eq_zero_iff.1 (hslength.trans hn),List.length_eq_zero_iff.1 (htlength.trans hn)]
      | succ n ih =>
        intro u rest hu s t hs ht hn
        cases hs with
        | done hall =>
          rw [total_empty hall] at hn
          omega
        | @next _ i x log s hi hs =>
          cases ht with
          | done hall =>
            rw [total_empty hall] at hn
            omega
          | @next _ j y log' t hj ht =>
            have hleft := hu.concat hi
            have hright := hu.concat hj
            have hni := total_set hi
            have hnj := total_set hj
            by_cases hij : i = j
            · subst hij
              rw [hi] at hj
              cases hj
              have hsame := ih (u ++ [x]) (rest.set i log) hleft s t hs ht (by omega)
              simpa using hsame
            · obtain ⟨z,hz⟩ := exists_interleaving ((rest.set i log).set j log')
              have hyz : Interleaves (rest.set i log) (y :: z) :=
                .next (by rw [List.getElem?_set_ne hij,hj]) hz
              have hxz : Interleaves (rest.set j log') (x :: z) := by
                rw [List.set_comm _ _ hij] at hz
                exact .next (by rw [List.getElem?_set_ne (Ne.symm hij),hi]) hz
              calc f (u ++ x :: s) = f (u ++ x :: y :: z) := by
                    simpa using ih (u ++ [x]) _ hleft s (y :: z) hs hyz (by omega)
                _ = f (u ++ y :: x :: z) := h u x y z ⟨rest,i,j,log,log',hu,hij,hi,hj,hz⟩
                _ = f (u ++ y :: t) := by
                    simpa using ih (u ++ [y]) _ hright (x :: z) t hxz ht (by omega)
    intro s t hs ht
    exact hfrom _ [] logs .start s t hs ht rfl

/-- An order only moves the items. -/
theorem Interleaves.perm {s : List α} (h : Interleaves logs s) : s.Perm logs.flatten := by
  induction h with
  | done h => simp [List.flatten_eq_nil_iff.2 h]
  | @next logs i x log s hi _ ih =>
    have hflatten : ∀ (logs : List (List α)) (i : Nat), logs[i]? = some (x :: log) →
        logs.flatten.Perm (x :: (logs.set i log).flatten) := by
      intro logs
      induction logs with
      | nil => intro i hi; simp at hi
      | cons first logs ihl =>
        intro i hi
        cases i with
        | zero =>
          simp only [List.getElem?_cons_zero,Option.some.injEq] at hi
          simp [hi]
        | succ i =>
          have hrest := ihl i (by simpa using hi)
          rw [List.flatten_cons,List.set_cons_succ,List.flatten_cons]
          exact (hrest.append_left first).trans List.perm_middle
    exact (ih.cons x).trans (hflatten logs i hi).symm

end AgentCentric.Interleave

import AgentCentric.Library.Thread
import Mathlib.Data.List.Basic

namespace AgentCentric

structure Pool (σ β : Type) where
  shared : σ
  threads : List (Thread σ β)
  taken : List β

namespace Pool

/-- `some i` lets thread `i` do its next step. `none` is the joiner: it takes the next result, and
`take` is what it does with it, or it has to wait. -/
def step {σ β : Type} (take : Nat → β → σ → σ) (p : Pool σ β) : Option Nat → Pool σ β
  | some i =>
    match p.threads[i]? with
    | some t => { p with
        shared := (t.step p.shared).2
        threads := p.threads.set i (t.step p.shared).1 }
    | none => p
  | none =>
    match p.threads[p.taken.length]? with
    | some (.done b) => { p with
        shared := take p.taken.length b p.shared
        taken := p.taken ++ [b] }
    | _ => p

def steps {σ β : Type} (take : Nat → β → σ → σ) (p : Pool σ β) (picks : List (Option Nat)) :
    Pool σ β :=
  picks.foldl (step take) p

def exhaust {σ β : Type} (p : Pool σ β) (i : Nat) : Pool σ β :=
  match p.threads[i]? with
  | some t => { p with
      shared := (t.alone p.shared).2
      threads := p.threads.set i (.done (t.alone p.shared).1) }
  | none => p

/-- The joiner takes `n` more results, each thread running to its end before. -/
def drain {σ β : Type} (take : Nat → β → σ → σ) : Nat → Pool σ β → Pool σ β
  | 0, p => p
  | n+1, p => drain take n (step take (p.exhaust p.taken.length) none)

/-- The order `picks` as far as it goes, and what it left in the order of the threads. -/
def run {σ β : Type} (take : Nat → β → σ → σ) (p : Pool σ β) (picks : List (Option Nat)) :
    Pool σ β :=
  drain take p.threads.length (steps take p picks)

def Reaches {σ β : Type} (take : Nat → β → σ → σ) (p q : Pool σ β) : Prop :=
  ∃ picks, q = steps take p picks

section
variable {σ β : Type} {take : Nat → β → σ → σ}

theorem Reaches.refl (p : Pool σ β) : Reaches take p p := ⟨[],rfl⟩

theorem Reaches.trans {p q r : Pool σ β} (h : Reaches take p q) (h' : Reaches take q r) :
    Reaches take p r := by
  obtain ⟨picks,rfl⟩ := h
  obtain ⟨picks',rfl⟩ := h'
  exact ⟨picks ++ picks',by simp [steps]⟩

theorem Reaches.step (p : Pool σ β) (pick : Option Nat) : Reaches take p (p.step take pick) :=
  ⟨[pick],rfl⟩

theorem Reaches.invariant {p q : Pool σ β} {I : Pool σ β → Prop} (h : Reaches take p q)
    (hp : I p) (hstep : ∀ r pick, I r → I (r.step take pick)) : I q := by
  obtain ⟨picks,rfl⟩ := h
  induction picks generalizing p with
  | nil => exact hp
  | cons pick picks ih => exact ih (hstep p pick hp)

theorem reaches_alone {p : Pool σ β} {i : Nat} {t : Thread σ β} (h : p.threads[i]? = some t) :
    Reaches take p { p with
      shared := (t.alone p.shared).2
      threads := p.threads.set i (.done (t.alone p.shared).1) } := by
  induction t generalizing p with
  | done b =>
    have hset : p.threads.set i (.done b) = p.threads := by
      rw [List.getElem?_eq_some_iff] at h
      obtain ⟨hi,hget⟩ := h
      rw [← hget,List.set_getElem_self]
    simp only [Thread.alone,hset]
    exact .refl p
  | atom g k ih =>
    have hi : i < p.threads.length := (List.getElem?_eq_some_iff.1 h).1
    have hfirst : p.step take (some i) =
        { p with shared := g p.shared, threads := p.threads.set i (k p.shared) } := by
      simp only [step,h,Thread.step]
    have hrest := ih p.shared
      (p := { p with shared := g p.shared, threads := p.threads.set i (k p.shared) })
      (by simp [hi])
    simp only [List.set_set] at hrest
    exact (hfirst ▸ Reaches.step p (some i)).trans hrest

theorem exhaust_reaches (p : Pool σ β) (i : Nat) : Reaches take p (p.exhaust i) := by
  unfold exhaust
  cases h : p.threads[i]? with
  | none => exact .refl p
  | some t => exact reaches_alone h

theorem drain_reaches (n : Nat) (p : Pool σ β) : Reaches take p (drain take n p) := by
  induction n generalizing p with
  | zero => exact .refl p
  | succ n ih =>
    exact ((exhaust_reaches p _).trans (Reaches.step _ none)).trans (ih _)

theorem run_reaches (p : Pool σ β) (picks : List (Option Nat)) :
    Reaches take p (p.run take picks) :=
  .trans ⟨picks,rfl⟩ (drain_reaches _ _)

end

def Taken {σ β : Type} (p : Pool σ β) : Prop :=
  ∀ (i : Nat) (b : β), p.taken[i]? = some b → p.threads[i]? = some (.done b)

/-- Every thread is in the middle of something it does as it should. -/
structure Sound {σ β : Type} (R G : Nat → σ → σ → Prop) (Q : Nat → β → σ → Prop) (p : Pool σ β) :
    Prop where
  threads : ∀ (i : Nat) (t : Thread σ β), p.threads[i]? = some t →
    ∃ P : σ → Prop, Thread.Stable (R i) P ∧ P p.shared ∧ t.Holds (R i) (G i) P (Q i)
  taken : p.Taken

/-- No thread disturbs another, and the joiner disturbs none. -/
structure Apart {σ β : Type} (R G : Nat → σ → σ → Prop) (Q : Nat → β → σ → Prop)
    (take : Nat → β → σ → σ) : Prop where
  threads : ∀ i j s t, i ≠ j → G i s t → R j s t
  joiner : ∀ i b j s, Q i b s → R j s (take i b s)

section
variable {σ β : Type} {R G : Nat → σ → σ → Prop} {Q : Nat → β → σ → Prop}
  {take : Nat → β → σ → σ}

theorem Taken.step {p : Pool σ β} (h : p.Taken) (pick : Option Nat) : (p.step take pick).Taken := by
  intro i b hb
  cases pick with
  | some j =>
    cases hj : p.threads[j]? with
    | none =>
      simp only [Pool.step,hj] at hb ⊢
      exact h i b hb
    | some t =>
      simp only [Pool.step,hj] at hb ⊢
      have hdone := h i b hb
      by_cases hij : j = i
      · subst hij
        rw [hj] at hdone
        cases hdone
        have hlt := (List.getElem?_eq_some_iff.1 hj).1
        simp [Thread.step,hlt]
      · rw [List.getElem?_set_ne hij]
        exact hdone
  | none =>
    cases hn : p.threads[p.taken.length]? with
    | none =>
      simp only [Pool.step,hn] at hb ⊢
      exact h i b hb
    | some t =>
      cases t with
      | atom g k =>
        simp only [Pool.step,hn] at hb ⊢
        exact h i b hb
      | done c =>
        simp only [Pool.step,hn] at hb ⊢
        rcases Nat.lt_trichotomy i p.taken.length with hlt | heq | hgt
        · rw [List.getElem?_append_left hlt] at hb
          exact h i b hb
        · subst heq
          simp only [List.getElem?_concat_length,Option.some.injEq] at hb
          rw [hn,hb]
        · rw [List.getElem?_eq_none (by simp; omega)] at hb
          cases hb

theorem Sound.step {p : Pool σ β} (h : p.Sound R G Q) (hapart : Apart R G Q take)
    (pick : Option Nat) : (p.step take pick).Sound R G Q := by
  refine ⟨?_,h.taken.step pick⟩
  intro i t ht
  cases pick with
  | some j =>
    cases hj : p.threads[j]? with
    | none =>
      simp only [Pool.step,hj] at ht ⊢
      exact h.threads i t ht
    | some u =>
      simp only [Pool.step,hj] at ht ⊢
      obtain ⟨P,hstable,hP,hholds⟩ := h.threads j u hj
      by_cases hij : j = i
      · subst hij
        have hlt := (List.getElem?_eq_some_iff.1 hj).1
        rw [List.getElem?_set_self hlt] at ht
        cases ht
        cases u with
        | done b => exact ⟨P,hstable,hP,hholds⟩
        | atom g k =>
          obtain ⟨_,P',hstable',hP',hk⟩ := hholds p.shared hP
          exact ⟨P',hstable',hP',hk⟩
      · rw [List.getElem?_set_ne hij] at ht
        obtain ⟨P₁,hstable₁,hP₁,hholds₁⟩ := h.threads i t ht
        refine ⟨P₁,hstable₁,?_,hholds₁⟩
        cases u with
        | done b => exact hP₁
        | atom g k =>
          obtain ⟨hG,_⟩ := hholds p.shared hP
          exact hstable₁ _ _ (hapart.threads j i _ _ hij hG) hP₁
  | none =>
    cases hn : p.threads[p.taken.length]? with
    | none =>
      simp only [Pool.step,hn] at ht ⊢
      exact h.threads i t ht
    | some u =>
      cases u with
      | atom g k =>
        simp only [Pool.step,hn] at ht ⊢
        exact h.threads i t ht
      | done b =>
        simp only [Pool.step,hn] at ht ⊢
        obtain ⟨P,_,hP,hholds⟩ := h.threads _ _ hn
        obtain ⟨P₁,hstable₁,hP₁,hholds₁⟩ := h.threads i t ht
        exact ⟨P₁,hstable₁,hstable₁ _ _ (hapart.joiner _ b i _ (hholds _ hP)) hP₁,hholds₁⟩

theorem Sound.reaches {p q : Pool σ β} (h : p.Sound R G Q) (hapart : Apart R G Q take)
    (hreach : Reaches take p q) : q.Sound R G Q :=
  hreach.invariant h fun _ pick hr => hr.step hapart pick

theorem Sound.moves {p : Pool σ β} (h : p.Sound R G Q) (take : Nat → β → σ → σ)
    (pick : Option Nat) :
    (p.step take pick).shared = p.shared ∨ (∃ i, G i p.shared (p.step take pick).shared) ∨
      ∃ i b, Q i b p.shared ∧ (p.step take pick).shared = take i b p.shared := by
  cases pick with
  | some j =>
    cases hj : p.threads[j]? with
    | none =>
      left
      simp only [Pool.step,hj]
    | some u =>
      obtain ⟨P,_,hP,hholds⟩ := h.threads j u hj
      simp only [Pool.step,hj]
      cases u with
      | done b => exact .inl rfl
      | atom g k => exact .inr (.inl ⟨j,(hholds p.shared hP).1⟩)
  | none =>
    cases hn : p.threads[p.taken.length]? with
    | none =>
      left
      simp only [Pool.step,hn]
    | some u =>
      obtain ⟨P,_,hP,hholds⟩ := h.threads _ _ hn
      cases u with
      | atom g k =>
        left
        simp only [Pool.step,hn]
      | done b =>
        simp only [Pool.step,hn]
        exact .inr (.inr ⟨p.taken.length,b,hholds _ hP,rfl⟩)

theorem Sound.keeps {p q : Pool σ β} (h : p.Sound R G Q) (hapart : Apart R G Q take)
    (hreach : Reaches take p q) {I : σ → Prop} (hI : I p.shared)
    (hthreads : ∀ i, Thread.Stable (G i) I)
    (hjoiner : ∀ i b s, Q i b s → I s → I (take i b s)) : I q.shared := by
  have hboth : q.Sound R G Q ∧ I q.shared := by
    refine hreach.invariant (I := fun r => r.Sound R G Q ∧ I r.shared) ⟨h,hI⟩ ?_
    rintro r pick ⟨hr,hIr⟩
    refine ⟨hr.step hapart pick,?_⟩
    obtain heq | ⟨i,hG⟩ | ⟨i,b,hQ,heq⟩ := hr.moves take pick
    · rw [heq]
      exact hIr
    · exact hthreads i _ _ hG hIr
    · rw [heq]
      exact hjoiner i b _ hQ hIr
  exact hboth.2

end

end Pool

end AgentCentric

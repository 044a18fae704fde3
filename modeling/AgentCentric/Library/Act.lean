import Mathlib.Logic.Relation

namespace AgentCentric

/-- A computation on a state that may raise. What it did before it raised stays done. -/
def Act (ε σ α : Type) : Type := σ → Except ε α × σ

namespace Act

def bind {ε σ α β : Type} (m : Act ε σ α) (f : α → Act ε σ β) : Act ε σ β := fun s =>
  match m s with
  | (.ok a,s') => f a s'
  | (.error e,s') => (.error e,s')

instance {ε σ : Type} : Monad (Act ε σ) where
  pure a := fun s => (.ok a,s)
  bind := bind

def raise {ε σ α : Type} (e : ε) : Act ε σ α := fun s => (.error e,s)

def read {ε σ : Type} : Act ε σ σ := fun s => (.ok s,s)

def write {ε σ : Type} (f : σ → σ) : Act ε σ Unit := fun s => (.ok (),f s)

def lift {ε σ α : Type} (r : Except ε α) : Act ε σ α := fun s => (r,s)

@[simp] theorem pure_apply {ε σ α : Type} (a : α) (s : σ) :
    (pure a : Act ε σ α) s = (.ok a,s) := rfl

theorem bind_apply {ε σ α β : Type} (m : Act ε σ α) (f : α → Act ε σ β) (s : σ) :
    (m >>= f) s = match m s with
      | (.ok a,s') => f a s'
      | (.error e,s') => (.error e,s') := rfl

theorem bind_ok {ε σ α β : Type} {m : Act ε σ α} {f : α → Act ε σ β} {s s' : σ} {a : α}
    (h : m s = (.ok a,s')) : (m >>= f) s = f a s' := by rw [bind_apply,h]

theorem bind_error {ε σ α β : Type} {m : Act ε σ α} {f : α → Act ε σ β} {s s' : σ} {e : ε}
    (h : m s = (.error e,s')) : (m >>= f) s = (.error e,s') := by rw [bind_apply,h]

theorem bind_ok_iff {ε σ α β : Type} {m : Act ε σ α} {f : α → Act ε σ β} {s s' : σ} {b : β} :
    (m >>= f) s = (.ok b,s') ↔ ∃ a t, m s = (.ok a,t) ∧ f a t = (.ok b,s') := by
  constructor
  · intro h
    cases hm : m s with
    | mk r t =>
      cases r with
      | ok a =>
        rw [bind_ok hm] at h
        exact ⟨a,t,rfl,h⟩
      | error e =>
        rw [bind_error hm] at h
        cases h
  · rintro ⟨a,t,hm,hf⟩
    rw [bind_ok hm,hf]

theorem bind_error_iff {ε σ α β : Type} {m : Act ε σ α} {f : α → Act ε σ β} {s s' : σ} {e : ε} :
    (m >>= f) s = (.error e,s') ↔
      m s = (.error e,s') ∨ ∃ a t, m s = (.ok a,t) ∧ f a t = (.error e,s') := by
  constructor
  · intro h
    cases hm : m s with
    | mk r t =>
      cases r with
      | ok a =>
        rw [bind_ok hm] at h
        exact .inr ⟨a,t,rfl,h⟩
      | error e' =>
        obtain ⟨he,rfl⟩ := Prod.mk.inj ((bind_error hm).symm.trans h)
        exact .inl (by rw [Except.error.inj he])
  · rintro (h | ⟨a,t,hm,hf⟩)
    · exact bind_error h
    · rw [bind_ok hm,hf]

theorem pure_ok_iff {ε σ α : Type} {a b : α} {s s' : σ} :
    (pure a : Act ε σ α) s = (.ok b,s') ↔ b = a ∧ s' = s := by
  simp [eq_comm]

theorem raise_ok_iff {ε σ α : Type} {e : ε} {b : α} {s s' : σ} :
    (raise e : Act ε σ α) s = (.ok b,s') ↔ False := by
  simp [raise]

theorem read_ok_iff {ε σ : Type} {t s s' : σ} :
    (read : Act ε σ σ) s = (.ok t,s') ↔ t = s ∧ s' = s := by
  simp [read,eq_comm]

theorem write_ok_iff {ε σ : Type} {f : σ → σ} {s s' : σ} :
    (write f : Act ε σ Unit) s = (.ok (),s') ↔ s' = f s := by
  simp [write,eq_comm]

theorem lift_ok_iff {ε σ α : Type} {r : Except ε α} {a : α} {s s' : σ} :
    (lift r : Act ε σ α) s = (.ok a,s') ↔ r = .ok a ∧ s' = s := by
  simp [lift,eq_comm]

/-- Whether it raises or not, `m` moves the state along `R` only. -/
def Keeps {ε σ α : Type} (R : σ → σ → Prop) (m : Act ε σ α) : Prop := ∀ s, R s (m s).2

section
variable {ε σ α β : Type} {R : σ → σ → Prop}

theorem keeps_pure [Std.Refl R] (a : α) : Keeps R (pure a : Act ε σ α) := fun s => Std.Refl.refl s

theorem keeps_raise [Std.Refl R] (e : ε) : Keeps R (raise e : Act ε σ α) :=
  fun s => Std.Refl.refl s

theorem keeps_read [Std.Refl R] : Keeps R (read : Act ε σ σ) := fun s => Std.Refl.refl s

theorem keeps_lift [Std.Refl R] (r : Except ε α) : Keeps R (lift r : Act ε σ α) :=
  fun s => Std.Refl.refl s

/-- From one state: the second computation starts where the first one returned. -/
theorem moves_bind [IsTrans σ R] {m : Act ε σ α} {f : α → Act ε σ β} {s : σ} (hm : R s (m s).2)
    (hf : ∀ a t, m s = (.ok a,t) → R t (f a t).2) : R s ((m >>= f) s).2 := by
  rw [bind_apply]
  cases hms : m s with
  | mk r s' =>
    rw [hms] at hm
    cases r with
    | ok a => exact IsTrans.trans s s' _ hm (hf a s' hms)
    | error e => exact hm

theorem keeps_bind [IsTrans σ R] {m : Act ε σ α} {f : α → Act ε σ β} (hm : Keeps R m)
    (hf : ∀ a, Keeps R (f a)) : Keeps R (m >>= f) :=
  fun s => moves_bind (hm s) fun a t _ => hf a t

end

end Act
end AgentCentric

namespace AgentCentric.Act

/-- `Q` where it returned, `E` where it raised. -/
def Ends {ε σ α : Type} (Q : α → σ → Prop) (E : ε → σ → Prop) : Except ε α → σ → Prop
  | .ok a, s => Q a s
  | .error e, s => E e s

def Triple {ε σ α : Type} (P : σ → Prop) (m : Act ε σ α) (Post : Except ε α → σ → Prop) : Prop :=
  ∀ s, P s → Post (m s).1 (m s).2

/-- From `P`, the computation moves the state along `G` and ends as `Post` says. -/
def Guarded {ε σ α : Type} (G : σ → σ → Prop) (P : σ → Prop) (m : Act ε σ α)
    (Post : Except ε α → σ → Prop) : Prop :=
  ∀ s, P s → G s (m s).2 ∧ Post (m s).1 (m s).2

/-- The handler goes on in the state that the computation raised in. -/
def caught {ε σ α : Type} (m : Act ε σ α) (handler : ε → Act ε σ α) : Act ε σ α := fun s =>
  match m s with
  | (.ok a,s') => (.ok a,s')
  | (.error e,s') => handler e s'

section
variable {ε σ α β : Type} {P P' : σ → Prop} {Q Q' : α → σ → Prop} {E E' : ε → σ → Prop}

@[simp] theorem ends_ok (a : α) (s : σ) : Ends Q E (.ok a) s ↔ Q a s := Iff.rfl

@[simp] theorem ends_error (e : ε) (s : σ) : Ends Q E (.error e) s ↔ E e s := Iff.rfl

theorem Ends.imp {r : Except ε α} {s t : σ} (h : Ends Q E r s) (hQ : ∀ a, Q a s → Q' a t)
    (hE : ∀ e, E e s → E' e t) : Ends Q' E' r t := by
  cases r with
  | ok a => exact hQ a h
  | error e => exact hE e h

theorem triple_pure {a : α} (h : ∀ s, P s → Q a s) : Triple P (pure a : Act ε σ α) (Ends Q E) :=
  fun s hs => h s hs

theorem triple_write {f : σ → σ} {Q : Unit → σ → Prop} (h : ∀ s, P s → Q () (f s)) :
    Triple P (write f : Act ε σ Unit) (Ends Q E) :=
  fun s hs => h s hs

/-- What does not depend on the state is assumed once. -/
theorem triple_assume {c : Prop} {m : Act ε σ α} {Post : Except ε α → σ → Prop}
    (h : c → Triple P m Post) : Triple (fun s => P s ∧ c) m Post :=
  fun s hs => h hs.2 s hs.1

theorem triple_bind {m : Act ε σ α} {f : α → Act ε σ β} {Q' : β → σ → Prop}
    (hm : Triple P m (Ends Q E)) (hf : ∀ a, Triple (Q a) (f a) (Ends Q' E)) :
    Triple P (m >>= f) (Ends Q' E) := by
  intro s hs
  have hfirst := hm s hs
  rw [bind_apply]
  cases hms : m s with
  | mk r t =>
    rw [hms] at hfirst
    cases r with
    | ok a => exact hf a t hfirst
    | error e => exact hfirst

theorem triple_weaken {m : Act ε σ α} {Post Post' : Except ε α → σ → Prop}
    (h : Triple P m Post) (hP : ∀ s, P' s → P s) (hPost : ∀ r s, Post r s → Post' r s) :
    Triple P' m Post' :=
  fun s hs => hPost _ _ (h s (hP s hs))

theorem triple_ite {c : Prop} [Decidable c] {m n : Act ε σ α} {Post : Except ε α → σ → Prop}
    (hm : c → Triple P m Post) (hn : ¬ c → Triple P n Post) :
    Triple P (if c then m else n) Post := by
  by_cases hc : c
  · rw [if_pos hc]
    exact hm hc
  · rw [if_neg hc]
    exact hn hc

end

variable {ε σ γ κ : Type}

def inTurn (apply : σ → γ → σ) : List (Except ε γ) → Act ε σ Unit
  | [] => pure ()
  | .error e :: _ => raise e
  | .ok g :: rest => fun s => inTurn apply rest (apply s g)

def carried : List (Except ε γ) → List γ
  | .ok g :: rest => g :: carried rest
  | _ => []

def firstError : List (Except ε γ) → Option ε
  | [] => none
  | .error e :: _ => some e
  | .ok _ :: rest => firstError rest

theorem inTurn_apply (apply : σ → γ → σ) (tried : List (Except ε γ)) (s : σ) :
    inTurn apply tried s =
      ((firstError tried).elim (.ok ()) .error,(carried tried).foldl apply s) := by
  induction tried generalizing s with
  | nil => rfl
  | cons first rest ih =>
    cases first with
    | error e => rfl
    | ok g => exact ih (apply s g)

theorem inTurn_append (apply : σ → γ → σ) (first rest : List (Except ε γ)) :
    inTurn apply (first ++ rest) = inTurn apply first >>= fun _ => inTurn apply rest := by
  funext s
  induction first generalizing s with
  | nil => rfl
  | cons x first ih =>
    cases x with
    | error e => rfl
    | ok g => exact ih (apply s g)

theorem mem_of_carried {tried : List (Except ε γ)} {g : γ} (h : g ∈ carried tried) :
    .ok g ∈ tried := by
  induction tried with
  | nil => cases h
  | cons first rest ih =>
    cases first with
    | error e => cases h
    | ok x =>
      cases List.mem_cons.1 h with
      | inl heq => exact heq ▸ List.mem_cons_self
      | inr hmem => exact List.mem_cons_of_mem _ (ih hmem)

structure Overwrites (apply : σ → γ → σ) (Has : σ → γ → Prop) (slot : γ → κ) : Prop where
  made : ∀ s g, Has (apply s g) g
  other : ∀ s g h, slot g ≠ slot h → (Has (apply s g) h ↔ Has s h)
  idle : ∀ s g, Has s g → apply s g = s

def Compatible (slot : γ → κ) (changes : List γ) : Prop :=
  ∀ g ∈ changes, ∀ h ∈ changes, slot g = slot h → g = h

namespace Overwrites
variable {apply : σ → γ → σ} {Has : σ → γ → Prop} {slot : γ → κ}

theorem has_apply (ho : Overwrites apply Has slot) {s : σ} {g h : γ}
    (hsame : slot g = slot h → g = h) : Has (apply s g) h ↔ g = h ∨ Has s h := by
  by_cases hslot : slot g = slot h
  · have heq := hsame hslot
    subst heq
    simp only [ho.made s g,true_or]
  · have hne : g ≠ h := fun heq => hslot (heq ▸ rfl)
    simp only [ho.other s g h hslot,hne,false_or]

theorem has_foldl (ho : Overwrites apply Has slot) {changes : List γ} {h : γ}
    (hsame : ∀ g ∈ changes, slot g = slot h → g = h) (s : σ) :
    Has (changes.foldl apply s) h ↔ h ∈ changes ∨ Has s h := by
  induction changes generalizing s with
  | nil => simp
  | cons g changes ih =>
    have hrest : ∀ x ∈ changes, slot x = slot h → x = h :=
      fun x hx => hsame x (List.mem_cons_of_mem _ hx)
    rw [List.foldl_cons,ih hrest,ho.has_apply (hsame g List.mem_cons_self),List.mem_cons,
      eq_comm (a := g),or_left_comm,or_assoc]

/-- Changes leave the state as it is only if each of them was made before. -/
theorem foldl_eq_iff (ho : Overwrites apply Has slot) {changes : List γ}
    (hcompatible : Compatible slot changes) (s : σ) :
    changes.foldl apply s = s ↔ ∀ g ∈ changes, Has s g := by
  constructor
  · intro h g hg
    have hhas : Has (changes.foldl apply s) g :=
      (ho.has_foldl (fun x hx => hcompatible x hx g hg) s).2 (.inl hg)
    exact h ▸ hhas
  · intro h
    clear hcompatible
    induction changes with
    | nil => rfl
    | cons g changes ih =>
      rw [List.foldl_cons,ho.idle s g (h g List.mem_cons_self)]
      exact ih fun x hx => h x (List.mem_cons_of_mem _ hx)

end Overwrites
end AgentCentric.Act

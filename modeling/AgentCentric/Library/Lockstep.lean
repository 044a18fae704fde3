import AgentCentric.Library.Thread

namespace AgentCentric

namespace Act

/-- Both returned, as `Q` says, or both raised, as `X` says. -/
def Met {ε σ τ α β : Type} (Q : α → β → σ → τ → Prop) (X : ε → ε → σ → τ → Prop) :
    Except ε α × σ → Except ε β × τ → Prop
  | (.ok a,s),(.ok b,t) => Q a b s t
  | (.error e,s),(.error f,t) => X e f s t
  | _,_ => False

/-- From states that belong together by `R` the computations meet, unless the first one leaves the
track. It never returns to it. -/
structure Alongside {ε σ τ α β : Type} (Off : σ → Prop) (X : ε → ε → σ → τ → Prop)
    (R : σ → τ → Prop) (Q : α → β → σ → τ → Prop) (m : Act ε σ α) (n : Act ε τ β) : Prop where
  off : ∀ s, Off s → Off (m s).2
  meets : ∀ s t, R s t → Off (m s).2 ∨ Met Q X (m s) (n t)

section
variable {ε σ τ α β γ δ : Type} {Off : σ → Prop} {X X' : ε → ε → σ → τ → Prop}
  {R R' : σ → τ → Prop} {Q : α → β → σ → τ → Prop} {Q' : γ → δ → σ → τ → Prop}

theorem Met.imp {r : Except ε α × σ} {q : Except ε β × τ} {P : α → β → σ → τ → Prop}
    (h : Met Q X r q) (hQ : ∀ a b s t, Q a b s t → P a b s t)
    (hX : ∀ e f s t, X e f s t → X' e f s t) : Met P X' r q := by
  obtain ⟨r,s⟩ := r
  obtain ⟨q,t⟩ := q
  cases r with
  | ok a =>
    cases q with
    | ok b => exact hQ a b s t h
    | error f => exact h
  | error e =>
    cases q with
    | ok b => exact h
    | error f => exact hX e f s t h

theorem alongside_pure {a : α} {b : β} (h : ∀ s t, R s t → Q a b s t) :
    Alongside Off X R Q (pure a : Act ε σ α) (pure b : Act ε τ β) :=
  ⟨fun _ hs => hs,fun s t hst => .inr (h s t hst)⟩

theorem alongside_raise {e f : ε} (h : ∀ s t, R s t → X e f s t) :
    Alongside Off X R Q (raise e : Act ε σ α) (raise f : Act ε τ β) :=
  ⟨fun _ hs => hs,fun s t hst => .inr (h s t hst)⟩

/-- A change of the state. -/
theorem alongside_write {f : σ → σ} {g : τ → τ} {P : Unit → Unit → σ → τ → Prop}
    (hoff : ∀ s, Off s → Off (f s)) (h : ∀ s t, R s t → P () () (f s) (g t)) :
    Alongside Off X R P (write f : Act ε σ Unit) (write g : Act ε τ Unit) :=
  ⟨hoff,fun s t hst => .inr (h s t hst)⟩

theorem alongside_weaken {m : Act ε σ α} {n : Act ε τ β} {P : α → β → σ → τ → Prop}
    (h : Alongside Off X R Q m n) (hR : ∀ s t, R' s t → R s t)
    (hQ : ∀ a b s t, Q a b s t → P a b s t) : Alongside Off X R' P m n :=
  ⟨h.off,fun s t hst => (h.meets s t (hR s t hst)).imp_right fun hmet =>
    hmet.imp hQ fun _ _ _ _ h => h⟩

theorem alongside_bind {m : Act ε σ α} {n : Act ε τ β} {f : α → Act ε σ γ} {g : β → Act ε τ δ}
    (hm : Alongside Off X R Q m n) (hoff : ∀ a s, Off s → Off (f a s).2)
    (hf : ∀ a b, Alongside Off X (Q a b) Q' (f a) (g b)) :
    Alongside Off X R Q' (m >>= f) (n >>= g) := by
  constructor
  · intro s hs
    have hfirst := hm.off s hs
    rw [bind_apply]
    cases hms : m s with
    | mk r s' =>
      rw [hms] at hfirst
      cases r with
      | error e => exact hfirst
      | ok a => exact hoff a s' hfirst
  · intro s t hst
    have hfirst := hm.meets s t hst
    rw [bind_apply,bind_apply]
    cases hms : m s with
    | mk r s' =>
      cases hnt : n t with
      | mk q t' =>
        rw [hms,hnt] at hfirst
        rcases hfirst with hleft | hmet
        · cases r with
          | error e => exact .inl hleft
          | ok a => exact .inl (hoff a s' hleft)
        · cases r with
          | error e =>
            cases q with
            | error e' => exact .inr hmet
            | ok b => exact hmet.elim
          | ok a =>
            cases q with
            | error e' => exact hmet.elim
            | ok b => exact (hf a b).meets s' t' hmet

/-- Both return the same. -/
theorem alongside_bind_eq {m : Act ε σ α} {n : Act ε τ α} {f : α → Act ε σ γ}
    {g : α → Act ε τ δ} (hm : Alongside Off X R (fun a b s t => a = b ∧ R' s t) m n)
    (hf : ∀ a, Alongside Off X R' Q' (f a) (g a)) : Alongside Off X R Q' (m >>= f) (n >>= g) :=
  alongside_bind hm (fun a => (hf a).off) fun a b =>
    ⟨(hf a).off,fun s t hst => by obtain ⟨rfl,hst⟩ := hst; exact (hf a).meets s t hst⟩

/-- Every value has one that belongs to it. -/
theorem alongside_bind_of {m : Act ε σ α} {n : Act ε τ β} {f : α → Act ε σ γ} {g : β → Act ε τ δ}
    {V : α → β → Prop} (hm : Alongside Off X R (fun a b s t => V a b ∧ R' s t) m n)
    (htotal : ∀ a, ∃ b, V a b) (hf : ∀ a b, V a b → Alongside Off X R' Q' (f a) (g b)) :
    Alongside Off X R Q' (m >>= f) (n >>= g) := by
  have hoff : ∀ a s, Off s → Off (f a s).2 := fun a => (htotal a).elim fun b hab => (hf a b hab).off
  exact alongside_bind hm hoff fun a b =>
    ⟨hoff a,fun s t hst => (hf a b hst.1).meets s t hst.2⟩

theorem alongside_caught {m : Act ε σ α} {n : Act ε τ β} {f : ε → Act ε σ α} {g : ε → Act ε τ β}
    (hm : Alongside Off X' R Q m n) (hoff : ∀ e s, Off s → Off (f e s).2)
    (hf : ∀ e e', Alongside Off X (X' e e') Q (f e) (g e')) :
    Alongside Off X R Q (caught m f) (caught n g) := by
  constructor
  · intro s hs
    have hfirst := hm.off s hs
    rw [caught]
    cases hms : m s with
    | mk r s' =>
      rw [hms] at hfirst
      cases r with
      | ok a => exact hfirst
      | error e => exact hoff e s' hfirst
  · intro s t hst
    have hfirst := hm.meets s t hst
    rw [caught,caught]
    cases hms : m s with
    | mk r s' =>
      cases hnt : n t with
      | mk q t' =>
        rw [hms,hnt] at hfirst
        rcases hfirst with hleft | hmet
        · cases r with
          | ok a => exact .inl hleft
          | error e => exact .inl (hoff e s' hleft)
        · cases r with
          | ok a =>
            cases q with
            | ok b => exact .inr hmet
            | error e' => exact hmet.elim
          | error e =>
            cases q with
            | ok b => exact hmet.elim
            | error e' => exact (hf e e').meets s' t' hmet

theorem alongside_ite {c : Prop} [Decidable c] {m m' : Act ε σ α} {n n' : Act ε τ β}
    (hm : c → Alongside Off X R Q m n) (hn : ¬ c → Alongside Off X R Q m' n') :
    Alongside Off X R Q (if c then m else m') (if c then n else n') := by
  by_cases hc : c
  · rw [if_pos hc,if_pos hc]
    exact hm hc
  · rw [if_neg hc,if_neg hc]
    exact hn hc

/-- Of the states read only `K` is known. -/
theorem alongside_read {K : σ → τ → Prop} {f : σ → Act ε σ α} {g : τ → Act ε τ β}
    (hK : ∀ s t, R s t → K s t) (htotal : ∀ s, ∃ t, K s t)
    (hf : ∀ s t, K s t → Alongside Off X R Q (f s) (g t)) :
    Alongside Off X R Q (read >>= f) (read >>= g) := by
  constructor
  · intro s hs
    obtain ⟨t,hst⟩ := htotal s
    exact (hf s t hst).off s hs
  · intro s t hst
    exact (hf s t (hK s t hst)).meets s t hst

/-- The second one waits. -/
theorem alongside_ahead {m : Act ε σ α} {f : α → Act ε σ γ} {n : Act ε τ δ}
    (hoff : ∀ s, Off s → Off (m s).2) (hrest : ∀ a s, Off s → Off (f a s).2) (hm : ∀ s t, R s t →
      ∃ a s', m s = (.ok a,s') ∧ R s' t ∧ Alongside Off X R Q' (f a) n) :
    Alongside Off X R Q' (m >>= f) n := by
  constructor
  · intro s hs
    have hfirst := hoff s hs
    rw [bind_apply]
    cases hms : m s with
    | mk r s' =>
      rw [hms] at hfirst
      cases r with
      | error e => exact hfirst
      | ok a => exact hrest a s' hfirst
  · intro s t hst
    obtain ⟨a,s',hms,hst',hf⟩ := hm s t hst
    rw [bind_ok hms]
    exact hf.meets s' t hst'

end

end Act

namespace Proc
variable {ε σ α β : Type}

theorem bind_assoc {γ : Type} (m : Proc ε σ α) (f : α → Proc ε σ β) (g : β → Proc ε σ γ) :
    m >>= f >>= g = m >>= fun a => f a >>= g := by
  have hthread : ∀ t : Thread σ (Except ε α),
      (t.bind (next f)).bind (next g) = t.bind (next fun a => f a >>= g) := by
    intro t
    induction t with
    | done r =>
      cases r with
      | ok a => rfl
      | error e => rfl
    | atom h k ih => exact congrArg (Thread.atom h) (funext ih)
  exact hthread m

theorem alone_bind (m : Proc ε σ α) (f : α → Proc ε σ β) :
    (m >>= f).alone = m.alone >>= fun a => (f a).alone := by
  funext s
  refine (Thread.alone_bind m (next f) s).trans ?_
  rw [Act.bind_apply]
  rw [show m.alone s = Thread.alone m s from rfl]
  cases hms : Thread.alone m s with
  | mk r s' => cases r <;> rfl

theorem alone_caught (m : Proc ε σ α) (handler : ε → Proc ε σ α) :
    (caught m handler).alone = Act.caught m.alone fun e => (handler e).alone := by
  funext s
  refine (Thread.alone_bind m (handle handler) s).trans ?_
  rw [Act.caught]
  rw [show m.alone s = Thread.alone m s from rfl]
  cases hms : Thread.alone m s with
  | mk r s' => cases r <;> rfl

section
open Act
variable {τ γ δ : Type} {Off : σ → Prop} {X X' : ε → ε → σ → τ → Prop}
  {R R' : σ → τ → Prop} {Q : α → β → σ → τ → Prop} {Q' : γ → δ → σ → τ → Prop}

def Alongside (Off : σ → Prop) (X : ε → ε → σ → τ → Prop) (R : σ → τ → Prop)
    (Q : α → β → σ → τ → Prop) (m : Proc ε σ α) (n : Proc ε τ β) : Prop :=
  Act.Alongside Off X R Q m.alone n.alone

theorem alongside_act {m : Act ε σ α} {n : Act ε τ β} (h : Act.Alongside Off X R Q m n) :
    Alongside Off X R Q (act m) (act n) := h

theorem alongside_pure {a : α} {b : β} (h : ∀ s t, R s t → Q a b s t) :
    Alongside Off X R Q (pure a : Proc ε σ α) (pure b : Proc ε τ β) := Act.alongside_pure h

theorem alongside_weaken {m : Proc ε σ α} {n : Proc ε τ β} {P : α → β → σ → τ → Prop}
    (h : Alongside Off X R Q m n) (hR : ∀ s t, R' s t → R s t)
    (hQ : ∀ a b s t, Q a b s t → P a b s t) : Alongside Off X R' P m n :=
  Act.alongside_weaken h hR hQ

theorem alongside_bind {m : Proc ε σ α} {n : Proc ε τ β} {f : α → Proc ε σ γ} {g : β → Proc ε τ δ}
    (hm : Alongside Off X R Q m n) (hoff : ∀ a s, Off s → Off ((f a).alone s).2)
    (hf : ∀ a b, Alongside Off X (Q a b) Q' (f a) (g b)) :
    Alongside Off X R Q' (m >>= f) (n >>= g) := by
  unfold Alongside
  rw [alone_bind,alone_bind]
  exact Act.alongside_bind hm hoff hf

theorem alongside_bind_eq {m : Proc ε σ α} {n : Proc ε τ α} {f : α → Proc ε σ γ}
    {g : α → Proc ε τ δ} (hm : Alongside Off X R (fun a b s t => a = b ∧ R' s t) m n)
    (hf : ∀ a, Alongside Off X R' Q' (f a) (g a)) : Alongside Off X R Q' (m >>= f) (n >>= g) := by
  unfold Alongside
  rw [alone_bind,alone_bind]
  exact Act.alongside_bind_eq hm hf

theorem alongside_bind_of {m : Proc ε σ α} {n : Proc ε τ β} {f : α → Proc ε σ γ}
    {g : β → Proc ε τ δ} {V : α → β → Prop}
    (hm : Alongside Off X R (fun a b s t => V a b ∧ R' s t) m n) (htotal : ∀ a, ∃ b, V a b)
    (hf : ∀ a b, V a b → Alongside Off X R' Q' (f a) (g b)) :
    Alongside Off X R Q' (m >>= f) (n >>= g) := by
  unfold Alongside
  rw [alone_bind,alone_bind]
  exact Act.alongside_bind_of hm htotal hf

theorem alongside_caught {m : Proc ε σ α} {n : Proc ε τ β} {f : ε → Proc ε σ α}
    {g : ε → Proc ε τ β} (hm : Alongside Off X' R Q m n)
    (hoff : ∀ e s, Off s → Off ((f e).alone s).2)
    (hf : ∀ e e', Alongside Off X (X' e e') Q (f e) (g e')) :
    Alongside Off X R Q (caught m f) (caught n g) := by
  unfold Alongside
  rw [alone_caught,alone_caught]
  exact Act.alongside_caught hm hoff hf

/-- The second one waits. -/
theorem alongside_ahead {m : Act ε σ α} {f : α → Proc ε σ γ} {n : Proc ε τ δ}
    (hoff : ∀ s, Off s → Off (m s).2) (hrest : ∀ a s, Off s → Off ((f a).alone s).2)
    (hm : ∀ s t, R s t → ∃ a s', m s = (.ok a,s') ∧ R s' t ∧ Alongside Off X R Q' (f a) n) :
    Alongside Off X R Q' (act m >>= f) n := by
  unfold Alongside
  rw [alone_bind]
  exact Act.alongside_ahead hoff hrest hm

end

end Proc

end AgentCentric

import AgentCentric.Library.Act

namespace AgentCentric

/-- What is left of a thread: it has a result, or it changes the state in one indivisible step and
goes on with what it saw. -/
inductive Thread (σ β : Type) where
  | done : β → Thread σ β
  | atom : (σ → σ) → (σ → Thread σ β) → Thread σ β

namespace Thread

def bind {σ β γ : Type} : Thread σ β → (β → Thread σ γ) → Thread σ γ
  | .done b, f => f b
  | .atom g k, f => .atom g fun s => (k s).bind f

def alone {σ β : Type} : Thread σ β → σ → β × σ
  | .done b, s => (b,s)
  | .atom g k, s => (k s).alone (g s)

def step {σ β : Type} : Thread σ β → σ → Thread σ β × σ
  | .done b, s => (.done b,s)
  | .atom g k, s => (k s,g s)

theorem alone_bind {σ β γ : Type} (t : Thread σ β) (f : β → Thread σ γ) (s : σ) :
    (t.bind f).alone s = (f (t.alone s).1).alone (t.alone s).2 := by
  induction t generalizing s with
  | done b => rfl
  | atom g k ih => exact ih s (g s)

/-- What others do, along `R`, does not make it false. -/
def Stable {σ : Type} (R : σ → σ → Prop) (P : σ → Prop) : Prop := ∀ s t, R s t → P s → P t

/-- From `P`, while others move the state along `R`, the thread moves it along `G` and ends in `Q`.
Before each of its steps something holds that the others do not disturb. -/
def Holds {σ β : Type} (R G : σ → σ → Prop) :
    Thread σ β → (σ → Prop) → (β → σ → Prop) → Prop
  | .done b, P, Q => ∀ s, P s → Q b s
  | .atom g k, P, Q => ∀ s, P s → G s (g s) ∧
      ∃ P' : σ → Prop, Stable R P' ∧ P' (g s) ∧ Holds R G (k s) P' Q

section
variable {σ β γ : Type} {R G : σ → σ → Prop} {P P' : σ → Prop}

theorem stable_eq (P : σ → Prop) : Stable Eq P := by
  intro s t hst hs
  exact hst ▸ hs

theorem Holds.weaken {t : Thread σ β} {Q Q' : β → σ → Prop} (h : t.Holds R G P Q)
    (hP : ∀ s, P' s → P s) (hQ : ∀ b s, Q b s → Q' b s) : t.Holds R G P' Q' := by
  induction t generalizing P P' with
  | done b => exact fun s hs => hQ b s (h s (hP s hs))
  | atom g k ih =>
    intro s hs
    obtain ⟨hG,P₁,hstable,hP₁,hk⟩ := h s (hP s hs)
    exact ⟨hG,P₁,hstable,hP₁,ih s hk fun _ h => h⟩

theorem Holds.bind {t : Thread σ β} {f : β → Thread σ γ} {Q : β → σ → Prop} {Q' : γ → σ → Prop}
    (ht : t.Holds R G P Q) (hf : ∀ b, (f b).Holds R G (Q b) Q') : (t.bind f).Holds R G P Q' := by
  induction t generalizing P with
  | done b => exact (hf b).weaken (fun s hs => ht s hs) fun _ _ h => h
  | atom g k ih =>
    intro s hs
    obtain ⟨hG,P₁,hstable,hP₁,hk⟩ := ht s hs
    exact ⟨hG,P₁,hstable,hP₁,ih s hk⟩

theorem Holds.alone {t : Thread σ β} {Q : β → σ → Prop} (h : t.Holds R G P Q) {s : σ} (hs : P s) :
    Q (t.alone s).1 (t.alone s).2 := by
  induction t generalizing P s with
  | done b => exact h s hs
  | atom g k ih =>
    obtain ⟨_,P₁,_,hP₁,hk⟩ := h s hs
    exact ih s hk hP₁

end

end Thread

def Proc (ε σ α : Type) : Type := Thread σ (Except ε α)

namespace Proc

def act {ε σ α : Type} (m : Act ε σ α) : Proc ε σ α :=
  .atom (fun s => (m s).2) fun s => .done (m s).1

def next {ε σ α β : Type} (f : α → Proc ε σ β) : Except ε α → Proc ε σ β
  | .ok a => f a
  | .error e => .done (.error e)

instance {ε σ : Type} : Monad (Proc ε σ) where
  pure a := .done (.ok a)
  bind m f := Thread.bind m (next f)

def handle {ε σ α : Type} (handler : ε → Proc ε σ α) : Except ε α → Proc ε σ α
  | .ok a => .done (.ok a)
  | .error e => handler e

def caught {ε σ α : Type} (m : Proc ε σ α) (handler : ε → Proc ε σ α) : Proc ε σ α :=
  Thread.bind m (handle handler)

def raise {ε σ α : Type} (e : ε) : Proc ε σ α := .done (.error e)

def alone {ε σ α : Type} (m : Proc ε σ α) : Act ε σ α := fun s => Thread.alone m s

def Holds {ε σ α : Type} (R G : σ → σ → Prop) (P : σ → Prop) (m : Proc ε σ α)
    (Post : Except ε α → σ → Prop) : Prop :=
  Thread.Holds R G m P Post

section
open Act
variable {ε σ α β : Type} {R G : σ → σ → Prop} {P P' : σ → Prop} {Q : α → σ → Prop}
  {E E' : ε → σ → Prop}

theorem holds_pure {a : α} (h : ∀ s, P s → Q a s) :
    Holds R G P (pure a : Proc ε σ α) (Ends Q E) :=
  fun s hs => h s hs

theorem holds_raise {e : ε} (h : ∀ s, P s → E e s) :
    Holds R G P (raise e : Proc ε σ α) (Ends Q E) :=
  fun s hs => h s hs

/-- What an action leaves must be stable. -/
theorem holds_act {m : Act ε σ α} (hm : Guarded G P m (Ends Q E))
    (hQ : ∀ a, Thread.Stable R (Q a)) (hE : ∀ e, Thread.Stable R (E e)) :
    Holds R G P (act m) (Ends Q E) := by
  intro s hs
  refine ⟨(hm s hs).1,fun t => Ends Q E (m s).1 t,?_,(hm s hs).2,fun t ht => ht⟩
  intro t u htu ht
  exact ht.imp (fun a h => hQ a t u htu h) fun e h => hE e t u htu h

theorem holds_ite {c : Prop} [Decidable c] {m n : Proc ε σ α} {Post : Except ε α → σ → Prop}
    (hm : c → Holds R G P m Post) (hn : ¬ c → Holds R G P n Post) :
    Holds R G P (if c then m else n) Post := by
  by_cases hc : c
  · rw [if_pos hc]
    exact hm hc
  · rw [if_neg hc]
    exact hn hc

theorem holds_bind {m : Proc ε σ α} {f : α → Proc ε σ β} {Q' : β → σ → Prop}
    (hm : Holds R G P m (Ends Q E)) (hf : ∀ a, Holds R G (Q a) (f a) (Ends Q' E)) :
    Holds R G P (m >>= f) (Ends Q' E) := by
  refine Thread.Holds.bind hm fun r => ?_
  cases r with
  | ok a => exact hf a
  | error e => exact fun s hs => hs

theorem holds_caught {m : Proc ε σ α} {handler : ε → Proc ε σ α}
    (hm : Holds R G P m (Ends Q E')) (hh : ∀ e, Holds R G (E' e) (handler e) (Ends Q E)) :
    Holds R G P (caught m handler) (Ends Q E) := by
  refine Thread.Holds.bind hm fun r => ?_
  cases r with
  | ok a => exact fun s hs => hs
  | error e => exact hh e

theorem holds_weaken {m : Proc ε σ α} {Post Post' : Except ε α → σ → Prop}
    (h : Holds R G P m Post) (hP : ∀ s, P' s → P s) (hPost : ∀ r s, Post r s → Post' r s) :
    Holds R G P' m Post' :=
  Thread.Holds.weaken h hP hPost

theorem holds_alone {m : Proc ε σ α} {Post : Except ε α → σ → Prop} (h : Holds R G P m Post) :
    Triple P m.alone Post :=
  fun _ hs => Thread.Holds.alone h hs

end

end Proc

end AgentCentric

import Mathlib.Data.Seq.Basic

namespace AgentCentric.Machine

/-- One step of a deterministic machine: it goes on, or it halts with a verdict
and the state in which the verdict was given. -/
inductive Outcome (σ ω : Type) where
  | next : σ → Outcome σ ω
  | halt : ω → σ → Outcome σ ω

def Steps {σ ω : Type} (step : σ → Outcome σ ω) (s t : σ) : Prop := step s = .next t

def Reaches {σ ω : Type} (step : σ → Outcome σ ω) : σ → σ → Prop :=
  Relation.ReflTransGen (Steps step)

/-- The run from `s₀` stops with verdict `w`: `s` is the last state a step started
from, `t` the one in which it halted. -/
structure Halts {σ ω : Type} (step : σ → Outcome σ ω) (s₀ s : σ) (w : ω) (t : σ) : Prop where
  reaches : Reaches step s₀ s
  last : step s = .halt w t

/-- The states of a run, the one it halts in included. -/
def Visits {σ ω : Type} (step : σ → Outcome σ ω) (s₀ t : σ) : Prop :=
  Reaches step s₀ t ∨ ∃ s w, Halts step s₀ s w t

/-- What a run of at most `fuel` steps ends in. -/
structure Ending (σ ω : Type) where
  last : σ
  verdict : ω
  final : σ

def run {σ ω : Type} (step : σ → Outcome σ ω) : Nat → σ → Option (Ending σ ω)
  | 0, _ => none
  | fuel+1, s =>
    match step s with
    | .next t => run step fuel t
    | .halt w t => some ⟨s,w,t⟩

variable {σ ω : Type} {step : σ → Outcome σ ω}

theorem Reaches.invariant {P : σ → Prop} {s₀ s : σ} (hreach : Reaches step s₀ s) (hinit : P s₀)
    (hstep : ∀ a b, P a → step a = .next b → P b) : P s := by
  induction hreach with
  | refl => exact hinit
  | tail _ hab ih => exact hstep _ _ ih hab

theorem run_halts {fuel : Nat} {s₀ : σ} {e : Ending σ ω} (h : run step fuel s₀ = some e) :
    Halts step s₀ e.last e.verdict e.final := by
  induction fuel generalizing s₀ with
  | zero => simp [run] at h
  | succ fuel ih =>
    unfold run at h
    split at h
    · rename_i t ht
      have hrest := ih h
      exact ⟨Relation.ReflTransGen.head ht hrest.reaches,hrest.last⟩
    · rename_i w t ht
      cases h
      exact ⟨Relation.ReflTransGen.refl,ht⟩

/-- A measure that every step lowers bounds the length of the run, so any fuel
above it reaches a verdict. -/
theorem run_total {P : σ → Prop} (μ : σ → Nat)
    (hstep : ∀ a b, P a → step a = .next b → P b ∧ μ b < μ a)
    {fuel : Nat} {s₀ : σ} (hinit : P s₀) (hfuel : μ s₀ < fuel) :
    ∃ e, run step fuel s₀ = some e := by
  induction fuel generalizing s₀ with
  | zero => omega
  | succ fuel ih =>
    unfold run
    split
    · rename_i t ht
      obtain ⟨hP,hlt⟩ := hstep s₀ t hinit ht
      exact ih hP (by omega)
    · exact ⟨_,rfl⟩

def turns {σ ω : Type} (step : σ → Outcome σ ω) : Nat → σ → List σ
  | 0, _ => []
  | fuel+1, s =>
    s :: match step s with
      | .next t => turns step fuel t
      | .halt _ _ => []

theorem length_turns (step : σ → Outcome σ ω) (fuel : Nat) (s₀ : σ) :
    (turns step fuel s₀).length ≤ fuel := by
  induction fuel generalizing s₀ with
  | zero => simp [turns]
  | succ fuel ih =>
    unfold turns
    split
    · rename_i t ht
      have hrest := ih t
      simp only [List.length_cons]
      omega
    · simp

theorem countP_turns {P : σ → Prop} {uses : σ → Bool}
    (μ : σ → Nat) (hstep : ∀ a b, P a → step a = .next b →
      P b ∧ μ b + (if uses a then 1 else 0) ≤ μ a)
    (hlast : ∀ a, P a → uses a = true → 0 < μ a) (fuel : Nat) {s₀ : σ} (hinit : P s₀) :
    (turns step fuel s₀).countP uses ≤ μ s₀ := by
  induction fuel generalizing s₀ with
  | zero => simp [turns]
  | succ fuel ih =>
    unfold turns
    rw [List.countP_cons]
    split
    · rename_i t ht
      obtain ⟨hP,hle⟩ := hstep s₀ t hinit ht
      have hrest := ih hP
      omega
    · split
      · rename_i huses
        have hpos := hlast s₀ hinit huses
        rw [List.countP_nil]
        omega
      · simp

/-- A deterministic run has one ending, however much fuel it was given. -/
theorem Halts.unique {s₀ s s' t t' : σ} {w w' : ω}
    (h : Halts step s₀ s w t) (h' : Halts step s₀ s' w' t') : s = s' ∧ w = w' ∧ t = t' := by
  obtain ⟨hr,hl⟩ := h
  induction hr using Relation.ReflTransGen.head_induction_on with
  | refl =>
    obtain ⟨hr',hl'⟩ := h'
    cases Relation.ReflTransGen.cases_head hr' with
    | inl heq =>
      subst heq
      rw [hl] at hl'
      cases hl'
      exact ⟨rfl,rfl,rfl⟩
    | inr hhead =>
      obtain ⟨b,hb,_⟩ := hhead
      rw [Steps,hl] at hb
      cases hb
  | head hab _ ih =>
    obtain ⟨hr',hl'⟩ := h'
    cases Relation.ReflTransGen.cases_head hr' with
    | inl heq =>
      subst heq
      rw [Steps,hl'] at hab
      cases hab
    | inr hhead =>
      obtain ⟨b,hb,hbs⟩ := hhead
      rw [Steps,hab] at hb
      cases hb
      exact ih ⟨hbs,hl'⟩

end AgentCentric.Machine

namespace AgentCentric.Feed

/-- What follows an endless sequence is never reached. -/
def catenate {α : Type} (feeds : List (Stream'.Seq α)) : Stream'.Seq α :=
  feeds.foldr Stream'.Seq.append Stream'.Seq.nil

/-- The items `xs` come first in `feed`. -/
def Starts {α : Type} (xs : List α) (feed : Stream'.Seq α) : Prop :=
  ∃ rest, (Stream'.Seq.ofList xs).append rest = feed

variable {α : Type}

@[simp] theorem catenate_nil : catenate ([] : List (Stream'.Seq α)) = Stream'.Seq.nil := rfl

@[simp] theorem catenate_cons (s : Stream'.Seq α) (feeds : List (Stream'.Seq α)) :
    catenate (s :: feeds) = s.append (catenate feeds) := rfl

theorem catenate_append (xs ys : List (Stream'.Seq α)) :
    catenate (xs ++ ys) = (catenate xs).append (catenate ys) := by
  induction xs with
  | nil => simp
  | cons x xs ih => simp [ih,Stream'.Seq.append_assoc]

/-- A finite part may move from the front of the rest to the end of the items. -/
theorem ofList_append_append (xs ys : List α) (s : Stream'.Seq α) :
    (Stream'.Seq.ofList (xs ++ ys)).append s =
      (Stream'.Seq.ofList xs).append ((Stream'.Seq.ofList ys).append s) := by
  rw [Stream'.Seq.ofList_append,Stream'.Seq.append_assoc]

theorem ofList_singleton_append (x : α) (s : Stream'.Seq α) :
    (Stream'.Seq.ofList [x]).append s = Stream'.Seq.cons x s := by
  simp

/-- More may be fed later. -/
theorem Starts.append {xs : List α} {feed : Stream'.Seq α} (h : Starts xs feed)
    (more : Stream'.Seq α) : Starts xs (feed.append more) := by
  obtain ⟨rest,rfl⟩ := h
  exact ⟨rest.append more,by rw [Stream'.Seq.append_assoc]⟩

end AgentCentric.Feed

namespace AgentCentric.Machine

section
variable {σ ω : Type} {step : σ → Outcome σ ω} {taken : σ → Nat} {s a b : σ}

theorem Reaches.total (ha : Reaches step s a) (hb : Reaches step s b) :
    Reaches step a b ∨ Reaches step b a := by
  refine Relation.ReflTransGen.total_of_right_unique ?_ ha hb
  intro c d e hd he
  exact Outcome.next.inj (hd.symm.trans he)

theorem Reaches.first (h : Reaches step a b) :
    a = b ∨ ∃ c, step a = .next c ∧ Reaches step c b := by
  rcases Relation.ReflTransGen.cases_head h with rfl | ⟨c,hc,hrest⟩
  · exact .inl rfl
  · exact .inr ⟨c,hc,hrest⟩

/-- What halts has come to its end. -/
theorem Reaches.of_halts {w : ω} {t : σ} (h : Reaches step a b) (ha : step a = .halt w t) :
    a = b := by
  rcases h.first with rfl | ⟨c,hc,_⟩
  · rfl
  · rw [ha] at hc
    cases hc

/-- Every step takes something, and keeps `P`. -/
def Grows (step : σ → Outcome σ ω) (P : σ → Prop) (taken : σ → Nat) : Prop :=
  ∀ a b, P a → step a = .next b → P b ∧ taken a < taken b

namespace Grows
variable {P : σ → Prop}

theorem keeps (h : Grows step P taken) (hab : Reaches step a b) (ha : P a) : P b :=
  hab.invariant ha fun c d hc hd => (h c d hc hd).1

theorem taken_le (h : Grows step P taken) (hab : Reaches step a b) (ha : P a) :
    taken a ≤ taken b := by
  induction hab with
  | refl => exact Nat.le_refl _
  | tail hac hbc ih =>
    have hlt := (h _ _ (h.keeps hac ha) hbc).2
    omega

/-- Of two states of a run, the one that took less comes first. -/
theorem next_of_lt (h : Grows step P taken) (hs : P s) (ha : Reaches step s a)
    (hb : Reaches step s b) (hlt : taken a < taken b) :
    ∃ c, step a = .next c ∧ Reaches step c b := by
  rcases ha.total hb with hab | hba
  · rcases hab.first with rfl | hnext
    · omega
    · exact hnext
  · have hle := h.taken_le hba (h.keeps hb hs)
    omega

theorem eq_of_first (h : Grows step P taken) (ha : P a) (hab : Reaches step a b)
    (htaken : taken a = taken b) : a = b := by
  rcases hab.first with rfl | ⟨c,hc,hrest⟩
  · rfl
  · have hlt := h a c ha hc
    have hle := h.taken_le hrest hlt.1
    omega

theorem unique (h : Grows step P taken) (hs : P s) (ha : Reaches step s a)
    (hb : Reaches step s b) (htaken : taken a = taken b) : a = b := by
  rcases ha.total hb with hab | hba
  · exact h.eq_of_first (h.keeps ha hs) hab htaken
  · exact (h.eq_of_first (h.keeps hb hs) hba htaken.symm).symm

theorem uses_up_or_halts (h : Grows step P taken) (hs : P s) {budget : Nat}
    (hbudget : taken s < budget) :
    (∃ a b, Reaches step s a ∧ taken a < budget ∧ step a = .next b ∧ budget ≤ taken b) ∨
    ∃ a w t, Halts step s a w t ∧ taken a < budget := by
  induction hleft : budget - taken s using Nat.strongRecOn generalizing s with
  | ind left ih =>
    cases hstep : step s with
    | halt w t => exact .inr ⟨s,w,t,⟨.refl,hstep⟩,hbudget⟩
    | next b =>
      obtain ⟨hb,hlt⟩ := h s b hs hstep
      by_cases hover : budget ≤ taken b
      · exact .inl ⟨s,b,.refl,hbudget,hstep,hover⟩
      · rcases ih (budget - taken b) (by omega) hb (by omega) rfl with
          ⟨a,c,hreach,ha,hc,hused⟩ | ⟨a,w,t,⟨hreach,hlast⟩,ha⟩
        · exact .inl ⟨a,c,.head hstep hreach,ha,hc,hused⟩
        · exact .inr ⟨a,w,t,⟨.head hstep hreach,hlast⟩,ha⟩

end Grows

end

end AgentCentric.Machine

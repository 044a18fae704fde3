import Mathlib.Data.List.Forall2

namespace AgentCentric.Transducer

/-- The answers to a sequence of calls, each made in the state that the one before left. -/
def answers {σ ι ω : Type} (step : σ → ι → ω × σ) : σ → List ι → List ω
  | _, [] => []
  | s, i :: is => (step s i).1 :: answers step (step s i).2 is

/-- `P` of every call and the calls before it. -/
def Each {ι : Type} (P : List ι → ι → Prop) (calls : List ι) : Prop :=
  ∀ before call after, calls = before ++ call :: after → P before call

theorem each_nil {ι : Type} (P : List ι → ι → Prop) : Each P [] := fun before _ _ heq => by
  cases before <;> cases heq

theorem each_cons {ι : Type} (P : List ι → ι → Prop) (i : ι) (is : List ι) :
    Each P (i :: is) ↔ P [] i ∧ Each (fun before => P (i :: before)) is := by
  constructor
  · intro h
    exact ⟨h [] i is rfl,fun before call after heq => h (i :: before) call after (by rw [heq]; rfl)⟩
  · rintro ⟨hfirst,hrest⟩ before call after heq
    cases before with
    | nil =>
      cases heq
      exact hfirst
    | cons j before =>
      cases heq
      exact hrest before call after rfl

/-- Their answers agree exactly if each call is good after the calls before it, where a good call
is answered alike and keeps the states related, and any other is not answered alike. -/
theorem answers_agree_iff {σ τ ι ω υ : Type} {step : σ → ι → ω × σ} {step' : τ → ι → υ × τ}
    {Same : ω → υ → Prop} {Related : List ι → σ → τ → Prop} {Good : List ι → ι → Prop}
    {Domain : ι → Prop} (hsame : ∀ before s t i, Domain i → Related before s t →
      (Same (step s i).1 (step' t i).1 ↔ Good before i))
    (hkeep : ∀ before s t i, Domain i → Related before s t → Good before i →
      Related (before ++ [i]) (step s i).2 (step' t i).2)
    {s : σ} {t : τ} (h : Related [] s t) (calls : List ι) (hdomain : ∀ i ∈ calls, Domain i) :
    List.Forall₂ Same (answers step s calls) (answers step' t calls) ↔ Each Good calls := by
  have hfrom : ∀ (calls before : List ι) (s : σ) (t : τ), Related before s t →
      (∀ i ∈ calls, Domain i) →
      (List.Forall₂ Same (answers step s calls) (answers step' t calls) ↔
        Each (fun earlier => Good (before ++ earlier)) calls) := by
    intro calls
    induction calls with
    | nil =>
      intro before s t _ _
      simp [answers,Each]
    | cons i is ih =>
      intro before s t hrelated hin
      have hi : Domain i := hin i (by simp)
      have his : ∀ j ∈ is, Domain j := fun j hj => hin j (List.mem_cons_of_mem _ hj)
      rw [answers,answers,List.forall₂_cons,each_cons,List.append_nil,
        hsame before s t i hi hrelated]
      constructor
      · rintro ⟨hgood,hrest⟩
        refine ⟨hgood,?_⟩
        have hlater := (ih _ _ _ (hkeep before s t i hi hrelated hgood) his).1 hrest
        simpa using hlater
      · rintro ⟨hgood,hrest⟩
        refine ⟨hgood,(ih _ _ _ (hkeep before s t i hi hrelated hgood) his).2 ?_⟩
        simpa using hrest
  exact hfrom calls [] s t h hdomain

end AgentCentric.Transducer

namespace AgentCentric.Unwinding
open Transducer

variable {σ ι ω : Type}

def after (step : σ → ι → ω × σ) (s : σ) (calls : List ι) : σ :=
  calls.foldl (fun s i => (step s i).2) s

/-- `P` of every call and the state it is made in. -/
def Along (step : σ → ι → ω × σ) (P : σ → ι → Prop) : σ → List ι → Prop
  | _, [] => True
  | s, i :: is => P s i ∧ Along step P (step s i).2 is

theorem along_append (step : σ → ι → ω × σ) (P : σ → ι → Prop) (s : σ) (before calls : List ι) :
    Along step P s (before ++ calls) ↔
      Along step P s before ∧ Along step P (after step s before) calls := by
  induction before generalizing s with
  | nil => simp [Along,after]
  | cons i is ih =>
    simp only [List.cons_append,Along,ih,and_assoc]
    rfl

theorem answers_append (step : σ → ι → ω × σ) (s : σ) (before calls : List ι) :
    answers step s (before ++ calls) =
      answers step s before ++ answers step (after step s before) calls := by
  induction before generalizing s with
  | nil => rfl
  | cons i is ih =>
    simp only [List.cons_append,answers,ih]
    rfl

/-- What holds of every call in the states along which `Q` holds holds along the run. -/
theorem Along.keeps {step : σ → ι → ω × σ} {P Q : σ → ι → Prop} {I : σ → Prop} {Domain : ι → Prop}
    (hstep : ∀ s i, Domain i → I s → Q s i → P s i ∧ I (step s i).2) {s : σ} {calls : List ι}
    (hdomain : ∀ i ∈ calls, Domain i) (h : Along step Q s calls) (hinit : I s) :
    Along step P s calls ∧ I (after step s calls) := by
  induction calls generalizing s with
  | nil => exact ⟨trivial,hinit⟩
  | cons i is ih =>
    obtain ⟨hfirst,hkept⟩ := hstep s i (hdomain i (by simp)) hinit h.1
    obtain ⟨hrest,hlast⟩ := ih (fun j hj => hdomain j (List.mem_cons_of_mem i hj)) h.2 hkept
    exact ⟨⟨hfirst,hrest⟩,hlast⟩

/-- Where a property does not hold along a run, there is a first call that it does not hold of. -/
theorem exists_first {step : σ → ι → ω × σ} {P : σ → ι → Prop} {s : σ} {calls : List ι}
    (h : ¬ Along step P s calls) : ∃ before i rest, calls = before ++ i :: rest ∧
      Along step P s before ∧ ¬ P (after step s before) i := by
  induction calls generalizing s with
  | nil => exact absurd trivial h
  | cons i is ih =>
    by_cases hi : P s i
    · obtain ⟨before,j,rest,heq,hbefore,hj⟩ := ih fun hrest => h ⟨hi,hrest⟩
      exact ⟨i :: before,j,rest,by rw [heq]; rfl,⟨hi,hbefore⟩,hj⟩
    · exact ⟨[],i,is,rfl,trivial,hi⟩

theorem length_answers (step : σ → ι → ω × σ) (s : σ) (calls : List ι) :
    (answers step s calls).length = calls.length := by
  induction calls generalizing s with
  | nil => rfl
  | cons i is ih => simp only [answers,List.length_cons,ih]

/-- From states that cannot be told apart, a call that is good in one is good in the other, is
answered alike and leaves states that cannot be told apart. Then whole runs of good calls are
answered alike. -/
theorem answers_alike {step : σ → ι → ω × σ} {Alike : σ → σ → Prop} {Good : σ → ι → Prop}
    {Domain : ι → Prop} (hgood : ∀ s t i, Alike s t → Good s i → Good t i)
    (hstep : ∀ s t i, Domain i → Alike s t → Good s i →
      (step s i).1 = (step t i).1 ∧ Alike (step s i).2 (step t i).2)
    {s t : σ} {calls : List ι} (hdomain : ∀ i ∈ calls, Domain i) (h : Alike s t)
    (halong : Along step Good s calls) :
    answers step s calls = answers step t calls ∧ Along step Good t calls ∧
      Alike (after step s calls) (after step t calls) := by
  induction calls generalizing s t with
  | nil => exact ⟨rfl,trivial,h⟩
  | cons i is ih =>
    obtain ⟨hanswer,hnext⟩ := hstep s t i (hdomain i (by simp)) h halong.1
    obtain ⟨hanswers,hrest,hlast⟩ :=
      ih (fun j hj => hdomain j (List.mem_cons_of_mem i hj)) hnext halong.2
    refine ⟨?_,⟨hgood s t i h halong.1,hrest⟩,hlast⟩
    rw [answers,answers,hanswer,hanswers]

/-- Runs that are answered alike are answered alike at every call. -/
theorem answer_of_answers {step : σ → ι → ω × σ} {s t : σ} {before rest : List ι} {i : ι}
    (h : answers step s (before ++ i :: rest) = answers step t (before ++ i :: rest)) :
    (step (after step s before) i).1 = (step (after step t before) i).1 := by
  rw [answers_append,answers_append] at h
  have hlen : (answers step s before).length = (answers step t before).length := by
    rw [length_answers,length_answers]
  exact (List.cons.inj (List.append_inj h hlen).2).1

end AgentCentric.Unwinding

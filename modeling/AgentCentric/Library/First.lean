import AgentCentric.Library.Checked

namespace AgentCentric
variable {ε α β : Type}

/-- The first element without `P` has `Q`. -/
def First (P Q : α → Prop) (xs : List α) : Prop :=
  ∃ before x after, xs = before ++ x :: after ∧ (∀ y ∈ before, P y) ∧ Q x

theorem first_nil {P Q : α → Prop} : ¬First P Q [] := by
  rintro ⟨before,x,after,heq,-,-⟩
  cases before <;> cases heq

theorem first_cons {P Q : α → Prop} {x : α} {xs : List α} :
    First P Q (x :: xs) ↔ Q x ∨ P x ∧ First P Q xs := by
  constructor
  · rintro ⟨before,y,after,heq,hbefore,hy⟩
    cases before with
    | nil =>
      obtain ⟨rfl,-⟩ := List.cons.inj heq
      exact .inl hy
    | cons z before =>
      obtain ⟨rfl,hrest⟩ := List.cons.inj heq
      exact .inr ⟨hbefore x List.mem_cons_self,before,y,after,hrest,
        fun w hw => hbefore w (List.mem_cons_of_mem _ hw),hy⟩
  · rintro (hx | ⟨hx,before,y,after,rfl,hbefore,hy⟩)
    · exact ⟨[],x,xs,rfl,by simp,hx⟩
    · refine ⟨x :: before,y,after,rfl,?_,hy⟩
      intro z hz
      rcases List.mem_cons.mp hz with rfl | hz
      · exact hx
      · exact hbefore z hz

/-- `f` on the elements in order, with their numbers from `i` on. -/
def mapFrom (f : Nat → α → Except ε β) : Nat → List α → Except ε (List β)
  | _, [] => .ok []
  | i, x :: xs => do
      let y ← f i x
      let ys ← mapFrom f (i + 1) xs
      pure (y :: ys)

section
variable {f : Nat → α → Except ε β} {P Q : α → Prop} {Bad : ε → Prop}

theorem length_mapFrom {i : Nat} {xs : List α} {ys : List β} (h : mapFrom f i xs = .ok ys) :
    ys.length = xs.length := by
  induction xs generalizing i ys with
  | nil =>
    obtain rfl := Except.ok.inj h
    rfl
  | cons x xs ih =>
    obtain ⟨y,-,h⟩ := bind_ok.mp h
    obtain ⟨rest,hrest,h⟩ := bind_ok.mp h
    obtain rfl := Except.ok.inj h
    rw [List.length_cons,List.length_cons,ih hrest]

theorem mem_mapFrom {i : Nat} {xs : List α} {ys : List β} (h : mapFrom f i xs = .ok ys) {y : β}
    (hy : y ∈ ys) : ∃ j, ∃ x ∈ xs, f j x = .ok y := by
  induction xs generalizing i ys with
  | nil =>
    obtain rfl := Except.ok.inj h
    cases hy
  | cons x xs ih =>
    obtain ⟨z,hz,h⟩ := bind_ok.mp h
    obtain ⟨rest,hrest,h⟩ := bind_ok.mp h
    obtain rfl := Except.ok.inj h
    rcases List.mem_cons.mp hy with rfl | hy
    · exact ⟨i,x,List.mem_cons_self,hz⟩
    · obtain ⟨j,w,hw,hf⟩ := ih hrest hy
      exact ⟨j,w,List.mem_cons_of_mem _ hw,hf⟩

theorem mapFrom_returns (hP : ∀ i x, (∃ y, f i x = .ok y) ↔ P x) {i : Nat} {xs : List α} :
    (∃ ys, mapFrom f i xs = .ok ys) ↔ ∀ x ∈ xs, P x := by
  induction xs generalizing i with
  | nil => simp [mapFrom]
  | cons x xs ih =>
    rw [List.forall_mem_cons,← hP i x,← ih (i := i + 1)]
    constructor
    · rintro ⟨ys,h⟩
      obtain ⟨y,hy,h⟩ := bind_ok.mp h
      obtain ⟨rest,hrest,h⟩ := bind_ok.mp h
      exact ⟨⟨y,hy⟩,rest,hrest⟩
    · rintro ⟨⟨y,hy⟩,rest,hrest⟩
      exact ⟨y :: rest,bind_ok.mpr ⟨y,hy,bind_ok.mpr ⟨rest,hrest,rfl⟩⟩⟩

theorem mapFrom_raises (hP : ∀ i x, (∃ y, f i x = .ok y) ↔ P x)
    (hQ : ∀ i x, (∃ e, Bad e ∧ f i x = .error e) ↔ Q x) {i : Nat} {xs : List α} :
    (∃ e, Bad e ∧ mapFrom f i xs = .error e) ↔ First P Q xs := by
  induction xs generalizing i with
  | nil => simp [mapFrom,first_nil]
  | cons x xs ih =>
    rw [first_cons,← hQ i x,← hP i x,← ih (i := i + 1)]
    constructor
    · rintro ⟨e,he,h⟩
      rcases bind_error.mp h with h | ⟨y,hy,h⟩
      · exact .inl ⟨e,he,h⟩
      · rcases bind_error.mp h with h | ⟨ys,-,h⟩
        · exact .inr ⟨⟨y,hy⟩,e,he,h⟩
        · cases h
    · rintro (⟨e,he,h⟩ | ⟨⟨y,hy⟩,e,he,h⟩)
      · exact ⟨e,he,bind_error.mpr (.inl h)⟩
      · exact ⟨e,he,bind_error.mpr (.inr ⟨y,hy,bind_error.mpr (.inl h)⟩)⟩

end
end AgentCentric

namespace AgentCentric

def afterFirst {α : Type} (p : α → Bool) : List α → List α
  | [] => []
  | x :: xs => if p x then xs else afterFirst p xs

section
variable {α : Type} {p q : α → Bool}

theorem afterFirst_of_none {xs : List α} (h : ∀ x ∈ xs, p x = false) : afterFirst p xs = [] := by
  induction xs with
  | nil => rfl
  | cons x xs ih =>
    rw [afterFirst,if_neg (by simp [h x (by simp)])]
    exact ih fun y hy => h y (List.mem_cons_of_mem x hy)

theorem afterFirst_append_of_some {xs : List α} (ys : List α) (h : ∃ x ∈ xs, p x = true) :
    afterFirst p (xs ++ ys) = afterFirst p xs ++ ys := by
  induction xs with
  | nil => simp at h
  | cons x xs ih =>
    by_cases hx : p x = true
    · simp only [List.cons_append,afterFirst,hx,if_true]
    · have hrest : ∃ y ∈ xs, p y = true := by
        obtain ⟨y,hy,hp⟩ := h
        rcases List.mem_cons.1 hy with rfl | hy
        · exact absurd hp hx
        · exact ⟨y,hy,hp⟩
      simp only [List.cons_append,afterFirst,hx,Bool.false_eq_true,if_false,ih hrest]

theorem afterFirst_append_of_none {xs : List α} (ys : List α) (h : ∀ x ∈ xs, p x = false) :
    afterFirst p (xs ++ ys) = afterFirst p ys := by
  induction xs with
  | nil => rfl
  | cons x xs ih =>
    rw [List.cons_append,afterFirst,if_neg (by simp [h x (by simp)])]
    exact ih fun y hy => h y (List.mem_cons_of_mem x hy)

theorem some_or_none (p : α → Bool) (xs : List α) :
    (∃ x ∈ xs, p x = true) ∨ ∀ x ∈ xs, p x = false := by
  cases h : xs.any p with
  | true => exact .inl (List.any_eq_true.1 h)
  | false => exact .inr fun x hx => by simpa using List.any_eq_false.1 h x hx

theorem mem_afterFirst {xs : List α} {x : α} (h : x ∈ afterFirst p xs) : x ∈ xs := by
  induction xs with
  | nil => exact h
  | cons y xs ih =>
    rw [afterFirst] at h
    by_cases hy : p y = true
    · rw [if_pos hy] at h
      exact List.mem_cons_of_mem y h
    · rw [if_neg hy] at h
      exact List.mem_cons_of_mem y (ih h)

theorem mem_afterFirst_append {xs ys : List α} {x : α} (h : x ∈ afterFirst p (xs ++ ys)) :
    x ∈ afterFirst p xs ∨ x ∈ ys := by
  rcases some_or_none p xs with hsome | hnone
  · rw [afterFirst_append_of_some ys hsome] at h
    exact List.mem_append.1 h
  · rw [afterFirst_append_of_none ys hnone] at h
    exact .inr (mem_afterFirst h)

/-- What comes later is also in what comes after the first. -/
theorem mem_afterFirst_afterFirst {xs : List α} {x : α} (h : x ∈ afterFirst p (afterFirst q xs)) :
    x ∈ afterFirst p xs := by
  induction xs with
  | nil => exact h
  | cons y xs ih =>
    rw [afterFirst.eq_2 q] at h
    rw [afterFirst]
    by_cases hy : p y = true
    · rw [if_pos hy]
      by_cases hq : q y = true
      · rw [if_pos hq] at h
        exact mem_afterFirst h
      · rw [if_neg hq] at h
        exact mem_afterFirst (ih h)
    · rw [if_neg hy]
      by_cases hq : q y = true
      · rw [if_pos hq] at h
        exact h
      · rw [if_neg hq] at h
        exact ih h

end

end AgentCentric

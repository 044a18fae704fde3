import Mathlib.Data.List.Basic

namespace AgentCentric

/-- A fail-closed check: nothing happens when `p` holds, otherwise the message is raised. -/
def require {ε : Type} (p : Bool) (message : ε) : Except ε Unit :=
  if p then .ok () else .error message

@[simp] theorem require_ok {ε : Type} {p : Bool} {message : ε} {u : Unit} :
    require p message = .ok u ↔ p = true := by
  unfold require
  split <;> simp_all

theorem require_error {ε : Type} {p : Bool} {message e : ε} :
    require p message = .error e ↔ p = false ∧ e = message := by
  cases p <;> simp [require,eq_comm]

def expect {ε α : Type} (value : Option α) (message : ε) : Except ε α :=
  match value with
  | some a => .ok a
  | none => .error message

@[simp] theorem expect_ok {ε α : Type} {value : Option α} {message : ε} {a : α} :
    expect value message = .ok a ↔ value = some a := by
  cases value <;> simp [expect]

variable {ε α β : Type} {f : α → Except ε β}

theorem bind_ok {x : Except ε α} {b : β} : (x >>= f) = .ok b ↔ ∃ a, x = .ok a ∧ f a = .ok b := by
  cases x <;> simp [bind,Except.bind]

theorem bind_error {x : Except ε α} {e : ε} :
    (x >>= f) = .error e ↔ x = .error e ∨ ∃ a, x = .ok a ∧ f a = .error e := by
  cases x <;> simp [bind,Except.bind]

def forEach {ε α : Type} (f : α → Except ε Unit) : List α → Except ε Unit
  | [] => .ok ()
  | x :: xs => do
      f x
      forEach f xs

theorem forEach_ok {ε α : Type} {f : α → Except ε Unit} {xs : List α} {u : Unit} :
    forEach f xs = .ok u ↔ ∀ x ∈ xs, f x = .ok () := by
  induction xs with
  | nil => simp [forEach]
  | cons x xs ih =>
    simp only [forEach,bind_ok,ih,List.mem_cons,forall_eq_or_imp]
    constructor
    · rintro ⟨_,hx,hrest⟩
      exact ⟨hx,hrest⟩
    · rintro ⟨hx,hrest⟩
      exact ⟨(),hx,hrest⟩

variable {xs : List α} {ys : List β}

/-- The elements of a comprehension that may raise. -/
theorem mem_mapM (h : xs.mapM f = .ok ys) {y : β} : y ∈ ys ↔ ∃ x ∈ xs, f x = .ok y := by
  induction xs generalizing ys with
  | nil =>
    cases h
    simp
  | cons x xs ih =>
    rw [List.mapM_cons] at h
    obtain ⟨z,hz,h⟩ := bind_ok.1 h
    obtain ⟨zs,hzs,h⟩ := bind_ok.1 h
    cases h
    simp only [List.mem_cons,exists_eq_or_imp,ih hzs,hz,Except.ok.injEq,@eq_comm β y z]

theorem forall₂_of_mapM (h : xs.mapM f = .ok ys) : List.Forall₂ (fun x y => f x = .ok y) xs ys := by
  induction xs generalizing ys with
  | nil =>
    cases h
    exact .nil
  | cons x xs ih =>
    rw [List.mapM_cons] at h
    obtain ⟨y,hy,h⟩ := bind_ok.1 h
    obtain ⟨ys,hys,h⟩ := bind_ok.1 h
    cases h
    exact .cons hy (ih hys)

theorem mapM_returns : (∃ ys, xs.mapM f = .ok ys) ↔ ∀ x ∈ xs, ∃ y, f x = .ok y := by
  induction xs with
  | nil => exact ⟨fun _ => by simp,fun _ => ⟨[],rfl⟩⟩
  | cons x xs ih =>
    simp only [List.mapM_cons,bind_ok,List.mem_cons,forall_eq_or_imp,← ih]
    constructor
    · rintro ⟨_,y,hy,ys,hys,-⟩
      exact ⟨⟨y,hy⟩,ys,hys⟩
    · rintro ⟨⟨y,hy⟩,ys,hys⟩
      exact ⟨y :: ys,y,hy,ys,hys,rfl⟩

theorem mapM_ok {g : α → β} (h : ∀ x ∈ xs, f x = .ok (g x)) : xs.mapM f = .ok (xs.map g) := by
  induction xs with
  | nil => rfl
  | cons x xs ih =>
    rw [List.mapM_cons,h x List.mem_cons_self,ih fun y hy => h y (List.mem_cons_of_mem x hy)]
    rfl

theorem mapM_error {e : ε} (h : xs.mapM f = .error e) : ∃ x ∈ xs, f x = .error e := by
  induction xs with
  | nil => cases h
  | cons x xs ih =>
    rw [List.mapM_cons] at h
    cases hx : f x with
    | error e' =>
      rw [hx] at h
      cases h
      exact ⟨x,List.mem_cons_self,hx⟩
    | ok y =>
      rw [hx] at h
      cases hxs : xs.mapM f with
      | error e' =>
        rw [hxs] at h ih
        cases h
        obtain ⟨z,hz,hfz⟩ := ih rfl
        exact ⟨z,List.mem_cons_of_mem x hz,hfz⟩
      | ok ys =>
        rw [hxs] at h
        cases h

theorem map_of_mapM {γ : Type} {g : β → γ} {k : α → γ} (hf : ∀ x y, f x = .ok y → g y = k x)
    (h : xs.mapM f = .ok ys) : ys.map g = xs.map k := by
  induction xs generalizing ys with
  | nil =>
    cases h
    rfl
  | cons x xs ih =>
    rw [List.mapM_cons] at h
    obtain ⟨y,hy,h⟩ := bind_ok.mp h
    obtain ⟨rest,hrest,h⟩ := bind_ok.mp h
    cases h
    rw [List.map_cons,List.map_cons,hf x y hy,ih hrest]

/-- What a computation raises. -/
def faultOf {ε α : Type} : Except ε α → Option ε
  | .error e => some e
  | .ok _ => none

@[simp] theorem faultOf_error {ε α : Type} (e : ε) : faultOf (.error e : Except ε α) = some e := rfl

@[simp] theorem faultOf_ok {ε α : Type} (a : α) : faultOf (.ok a : Except ε α) = none := rfl

theorem faultOf_some {ε α : Type} {x : Except ε α} {e : ε} : faultOf x = some e ↔ x = .error e := by
  cases x <;> simp

theorem faultOf_none {ε α : Type} {x : Except ε α} : faultOf x = none ↔ ∃ a, x = .ok a := by
  cases x <;> simp

/-- A comprehension raises what the first item raises. -/
theorem faultOf_mapM (f : α → Except ε β) (xs : List α) :
    faultOf (xs.mapM f) = (xs.filterMap fun x => faultOf (f x)).head? := by
  induction xs with
  | nil => rfl
  | cons x xs ih =>
    rw [List.mapM_cons]
    cases hx : f x with
    | error e =>
      rw [List.filterMap_cons_some (by rw [hx,faultOf_error]),List.head?_cons]
      rfl
    | ok y =>
      rw [List.filterMap_cons_none (by rw [hx,faultOf_ok]),← ih]
      cases xs.mapM f <;> rfl

theorem filterMap_of_mapM {γ : Type} {g : β → Option γ}
    {k : α → Option γ} (hf : ∀ x y, f x = .ok y → g y = k x)
    (h : xs.mapM f = .ok ys) : ys.filterMap g = xs.filterMap k := by
  have hmap : ys.map g = xs.map k := map_of_mapM hf h
  have hid := congrArg (List.filterMap id) hmap
  rwa [List.filterMap_map,List.filterMap_map] at hid

/-- What is written item by item is read item by item. -/
theorem mapM_written {write : α → β} {read : β → Except ε α}
    (h : ∀ a, read (write a) = .ok a) (xs : List α) : (xs.map write).mapM read = .ok xs := by
  induction xs with
  | nil => rfl
  | cons x xs ih =>
    rw [List.map_cons,List.mapM_cons,h,ih]
    rfl

/-- An exception raised again as another one. -/
theorem mapError_ok {ε φ α : Type} {x : Except ε α} {f : ε → φ} {a : α} :
    x.mapError f = .ok a ↔ x = .ok a := by
  cases x <;> simp [Except.mapError]

theorem ok_of_any {ε α : Type} {x : Except ε α} {p : α → Bool} (h : x.toOption.any p = true) :
    ∃ a, x = .ok a ∧ p a = true := by
  cases x with
  | error e => cases h
  | ok a => exact ⟨a,rfl,h⟩

end AgentCentric

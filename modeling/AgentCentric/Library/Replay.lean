import AgentCentric.Library.Dict

namespace AgentCentric.Replay

/-- The identifier of `x` was met before. -/
def Again {α ι : Type} (id : α → ι) (before : List α) (x : α) : Prop := id x ∈ before.map id

instance {α ι : Type} [DecidableEq ι] (id : α → ι) (before : List α) (x : α) :
    Decidable (Again id before x) := inferInstanceAs (Decidable (id x ∈ before.map id))

/-- The items whose identifier is neither in `seen` nor met before. -/
def firstTimesFrom {α ι : Type} [DecidableEq ι] (id : α → ι) : List ι → List α → List α
  | _, [] => []
  | seen, x :: xs =>
      if id x ∈ seen then firstTimesFrom id seen xs
      else x :: firstTimesFrom id (id x :: seen) xs

def firstTimes {α ι : Type} [DecidableEq ι] (id : α → ι) (xs : List α) : List α :=
  firstTimesFrom id [] xs

def latest {α : Type} (p : α → Bool) (xs : List α) : Option α := (xs.filter p).getLast?

theorem firstTimesFrom_concat {α ι : Type} [DecidableEq ι] (id : α → ι) (seen : List ι)
    (xs : List α) (x : α) : firstTimesFrom id seen (xs ++ [x]) =
      firstTimesFrom id seen xs ++ if id x ∈ seen ∨ id x ∈ xs.map id then [] else [x] := by
  induction xs generalizing seen with
  | nil => by_cases hx : id x ∈ seen <;> simp [firstTimesFrom,hx]
  | cons y ys ih =>
    by_cases hy : id y ∈ seen
    · have hiff : id x ∈ seen ∨ id x ∈ (y :: ys).map id ↔ id x ∈ seen ∨ id x ∈ ys.map id := by
        simp only [List.map_cons,List.mem_cons]
        constructor
        · rintro (h | h | h)
          · exact .inl h
          · exact .inl (h ▸ hy)
          · exact .inr h
        · rintro (h | h)
          · exact .inl h
          · exact .inr (.inr h)
      simp only [List.cons_append,firstTimesFrom,hy,if_true,ih,hiff]
    · have hiff : id x ∈ seen ∨ id x ∈ (y :: ys).map id ↔
          id x ∈ id y :: seen ∨ id x ∈ ys.map id := by
        simp only [List.map_cons,List.mem_cons]
        tauto
      simp only [List.cons_append,firstTimesFrom,hy,if_false,ih,hiff]

theorem firstTimes_concat_again {α ι : Type} [DecidableEq ι] {id : α → ι} {xs : List α} {x : α}
    (h : Again id xs x) : firstTimes id (xs ++ [x]) = firstTimes id xs := by
  have hmem : id x ∈ xs.map id := h
  simp only [firstTimes,firstTimesFrom_concat,hmem,or_true,if_true,List.append_nil]

theorem firstTimes_concat_new {α ι : Type} [DecidableEq ι] {id : α → ι} {xs : List α} {x : α}
    (h : ¬ Again id xs x) : firstTimes id (xs ++ [x]) = firstTimes id xs ++ [x] := by
  have hmem : id x ∉ xs.map id := h
  simp only [firstTimes,firstTimesFrom_concat,hmem,List.not_mem_nil,or_self,if_false]

@[simp] theorem latest_nil {α : Type} (p : α → Bool) : latest p ([] : List α) = none := rfl

theorem latest_concat {α : Type} (p : α → Bool) (xs : List α) (x : α) :
    latest p (xs ++ [x]) = if p x then some x else latest p xs := by
  by_cases h : p x = true <;> simp [latest,List.filter_append,h]

theorem latest_mem {α : Type} {p : α → Bool} {xs : List α} {x : α} (h : latest p xs = some x) :
    x ∈ xs ∧ p x = true := List.mem_filter.1 (List.mem_of_getLast? h)

theorem latest_isSome {α : Type} {p : α → Bool} {xs : List α} {x : α} (hx : x ∈ xs)
    (hp : p x = true) : ∃ y, latest p xs = some y := by
  have hne : xs.filter p ≠ [] := List.ne_nil_of_mem (List.mem_filter.2 ⟨hx,hp⟩)
  exact ⟨_,List.getLast?_eq_getLast_of_ne_nil hne⟩

end AgentCentric.Replay

namespace AgentCentric

namespace WriteOnce
variable {κ α : Type} [DecidableEq κ]

def write (table : Dict κ α) (key : κ) : Option α → Dict κ α
  | none => table
  | some value => if (table.get key).isSome then table else table.set key value

/-- Offers in turn: a key, and what is to be written, if anything is. -/
def writeAll (table : Dict κ α) (offers : List (κ × Option α)) : Dict κ α :=
  offers.foldl (fun table offer => write table offer.1 offer.2) table

def first (offers : List (κ × Option α)) (key : κ) : Option α :=
  offers.findSome? fun offer => if offer.1 = key then offer.2 else none

theorem get_write (table : Dict κ α) (key : κ) (value : Option α) (k : κ) :
    (write table key value).get k = (table.get k).or (if key = k then value else none) := by
  cases value with
  | none => simp [write]
  | some value =>
    rw [write]
    by_cases hk : key = k
    · subst hk
      cases hget : table.get key with
      | none => simp
      | some kept => simp [hget]
    · cases hget : table.get key with
      | none => simp [Dict.get_set_ne _ _ hk,hk]
      | some kept => simp [hk]

theorem first_cons (offer : κ × Option α) (offers : List (κ × Option α)) (key : κ) :
    first (offer :: offers) key =
      (if offer.1 = key then offer.2 else none).or (first offers key) := by
  rw [first,List.findSome?_cons]
  split
  · rename_i value hvalue
    rw [hvalue]
    rfl
  · rename_i hnone
    rw [hnone]
    rfl

theorem get_writeAll (table : Dict κ α) (offers : List (κ × Option α)) (key : κ) :
    (writeAll table offers).get key = (table.get key).or (first offers key) := by
  induction offers generalizing table with
  | nil => simp [writeAll,first]
  | cons offer offers ih =>
    have hcons : writeAll table (offer :: offers) = writeAll (write table offer.1 offer.2) offers :=
      rfl
    rw [hcons,ih,get_write,Option.or_assoc,first_cons]

end WriteOnce

structure Edit (κ α : Type) where
  key : κ
  value : Option α

namespace Edit
variable {κ α : Type}

/-- Every key is changed at most once, to what `g` has there, and the others are right already. -/
structure Leads (f g : κ → Option α) (es : List (Edit κ α)) : Prop where
  nodup : (es.map key).Nodup
  right : ∀ e ∈ es, e.value = g e.key
  rest : ∀ k, k ∉ es.map key → f k = g k

/-- The order does not matter. -/
theorem Leads.perm {f g : κ → Option α} {es fs : List (Edit κ α)} (h : Leads f g es)
    (hperm : fs.Perm es) : Leads f g fs where
  nodup := ((hperm.map key).nodup_iff).2 h.nodup
  right e he := h.right e (hperm.mem_iff.1 he)
  rest k hk := h.rest k fun hmem => hk ((hperm.map key).mem_iff.2 hmem)

variable [DecidableEq κ]

def apply (f : κ → Option α) (e : Edit κ α) : κ → Option α :=
  fun k => if e.key = k then e.value else f k

def applyAll (f : κ → Option α) (es : List (Edit κ α)) : κ → Option α := es.foldl apply f

@[simp] theorem applyAll_nil (f : κ → Option α) : applyAll f [] = f := rfl

@[simp] theorem applyAll_cons (f : κ → Option α) (e : Edit κ α) (es : List (Edit κ α)) :
    applyAll f (e :: es) = applyAll (apply f e) es := rfl

theorem applyAll_of_notMem (f : κ → Option α) {es : List (Edit κ α)} {k : κ}
    (h : k ∉ es.map key) : applyAll f es k = f k := by
  induction es generalizing f with
  | nil => rfl
  | cons e es ih =>
    simp only [List.map_cons,List.mem_cons,not_or] at h
    rw [applyAll_cons,ih _ h.2,apply,if_neg (Ne.symm h.1)]

theorem applyAll_of_mem (f : κ → Option α) {es : List (Edit κ α)} {e : Edit κ α}
    (hnodup : (es.map key).Nodup) (h : e ∈ es) : applyAll f es e.key = e.value := by
  induction es generalizing f with
  | nil => cases h
  | cons d es ih =>
    rw [List.map_cons,List.nodup_cons] at hnodup
    rcases List.mem_cons.1 h with rfl | h
    · rw [applyAll_cons,applyAll_of_notMem _ hnodup.1,apply,if_pos rfl]
    · rw [applyAll_cons,ih _ hnodup.2 h]

theorem Leads.applyAll {f g : κ → Option α} {es : List (Edit κ α)} (h : Leads f g es) :
    applyAll f es = g := by
  funext k
  by_cases hk : k ∈ es.map key
  · obtain ⟨e,he,rfl⟩ := List.mem_map.1 hk
    rw [applyAll_of_mem f h.nodup he,h.right e he]
  · rw [applyAll_of_notMem f hk,h.rest k hk]

end Edit
end AgentCentric

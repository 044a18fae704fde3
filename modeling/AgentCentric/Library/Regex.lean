import Mathlib.Data.List.Basic
import Mathlib.Data.Nat.Find

namespace AgentCentric.Regex

/-- A place in a text, what stands before it read backwards, with what the groups hold, the
latest first. -/
structure Spot where
  before : List Char
  after : List Char
  groups : List (Nat × List Char)

inductive Pattern where
  | empty
  | set (p : Char → Bool)
  | boundary (word : Char → Bool)
  | notAhead (r : Pattern)
  | seq (r q : Pattern)
  | either (r q : Pattern)
  | upTo (n : Nat) (r : Pattern)
  | many (r : Pattern)
  | fewest (r : Pattern)
  | group (n : Nat) (r : Pattern)

/-- At most `n` turns, as many as possible first. -/
def turns (step : Spot → List Spot) : Nat → Spot → List Spot
  | 0,s => [s]
  | n + 1,s => (step s).flatMap (turns step n) ++ [s]

def lazyTurns (step : Spot → List Spot) : Nat → Spot → List Spot
  | 0,s => [s]
  | n + 1,s => s :: (step s).flatMap (lazyTurns step n)

def atBoundary (word : Char → Bool) (s : Spot) : Bool :=
  s.before.head?.any word != s.after.head?.any word

/-- What is read on the way from one place to another. -/
def between (s t : Spot) : List Char :=
  (t.before.take (t.before.length - s.before.length)).reverse

/-- The places where a match can end. Each turn of `many` and `fewest` reads something. -/
def ways : Pattern → Spot → List Spot
  | .empty,s => [s]
  | .set p,s =>
    match s.after with
    | [] => []
    | c :: after => if p c then [{ s with before := c :: s.before, after := after }] else []
  | .boundary word,s => if atBoundary word s then [s] else []
  | .notAhead r,s => if (ways r s).isEmpty then [s] else []
  | .seq r q,s => (ways r s).flatMap (ways q)
  | .either r q,s => ways r s ++ ways q s
  | .upTo n r,s => turns (ways r) n s
  | .many r,s => turns (ways r) s.after.length s
  | .fewest r,s => lazyTurns (ways r) s.after.length s
  | .group n r,s => (ways r s).map fun t => { t with groups := (n,between s t) :: t.groups }

attribute [grind =] ways

def Pattern.optional (r : Pattern) : Pattern := .upTo 1 r

/-- One or more. -/
def Pattern.some (r : Pattern) : Pattern := .seq r (.many r)

def Pattern.all : List Pattern → Pattern
  | [] => .empty
  | r :: rest => .seq r (Pattern.all rest)

def searchFrom (r : Pattern) (before : List Char) : List Char → Option Spot
  | [] => (ways r ⟨before,[],[]⟩).head?
  | c :: after =>
    match ways r ⟨before,c :: after,[]⟩ with
    | t :: _ => .some t
    | [] => searchFrom r (c :: before) after

def search (r : Pattern) (text : List Char) : Option Spot := searchFrom r [] text

/-- The matches one after the other, of a pattern that reads something: no more than `n`. -/
def findFrom (r : Pattern) : Nat → Spot → List Spot
  | 0,_ => []
  | n + 1,s =>
    match searchFrom r s.before s.after with
    | none => []
    | .some t => t :: findFrom r n t

def findAll (r : Pattern) (text : List Char) : List Spot := findFrom r text.length ⟨[],text,[]⟩

def Spot.group (s : Spot) (n : Nat) : List Char := (s.groups.lookup n).getD []

structure Tables where
  word : Char → Bool
  space : Char → Bool
  lower : Char → Char
  word_ascii : ∀ c, c.val < 128 → word c = (c.isAlphanum || c = '_')
  space_ascii : ∀ c, c.val < 128 →
    space c = (9 ≤ c.val ∧ c.val ≤ 13 ∨ 28 ≤ c.val ∧ c.val ≤ 32 : Bool)
  lower_ascii : ∀ c, c.val < 128 → lower c = c.toLower

/-- The lower-case characters that a lower-case letter stands for where case is ignored. -/
def alike : Char → List Char
  | 'i' => ['i','ı']
  | 's' => ['s','ſ']
  | c => [c]

namespace Tables

def ascii : Tables where
  word c := c.isAlphanum || c = '_'
  space c := 9 ≤ c.val ∧ c.val ≤ 13 ∨ 28 ≤ c.val ∧ c.val ≤ 32
  lower := Char.toLower
  word_ascii _ _ := rfl
  space_ascii _ _ := rfl
  lower_ascii _ _ := rfl

variable (t : Tables)

def letter (x : Char) : Pattern := .set fun c => t.lower c ∈ alike x

def literal (text : String) : Pattern := .all (text.toList.map t.letter)

def spaces : Pattern := .many (.set t.space)

def edge : Pattern := .boundary t.word

end Tables

def First (r : Pattern) (s t : Spot) : Prop := (ways r s).head? = .some t

variable {r q : Pattern} {s t u : Spot} {p : Char → Bool}

theorem head_flatMap {xs : List Spot} {f : Spot → List Spot} (hxs : xs.head? = .some s)
    (hf : (f s).head? = .some t) : (xs.flatMap f).head? = .some t := by
  cases xs with
  | nil => cases hxs
  | cons x xs =>
    cases hxs
    simp [List.flatMap_cons,hf]

theorem First.seq (hr : First r s t) (hq : First q t u) : First (.seq r q) s u :=
  head_flatMap hr hq

theorem First.left (h : First r s t) : First (.either r q) s t := by
  simp only [First,ways] at h ⊢
  rw [List.head?_append,h]
  rfl

theorem First.right (hr : ways r s = []) (hq : First q s t) : First (.either r q) s t := by
  simp only [First,ways,hr,List.nil_append] at hq ⊢
  exact hq

theorem first_set {c : Char} {before after : List Char} {groups : List (Nat × List Char)}
    (h : p c) : First (.set p) ⟨before,c :: after,groups⟩ ⟨c :: before,after,groups⟩ := by
  simp [First,ways,h]

/-- A character is in the set, or the set reads nothing here. -/
theorem ways_set_none {before after : List Char} {groups : List (Nat × List Char)}
    (h : ∀ c ∈ after.head?, p c = false) : ways (.set p) ⟨before,after,groups⟩ = [] := by
  cases after with
  | nil => rfl
  | cons c after => simp [ways,h c rfl]

theorem turns_none {step : Spot → List Spot} (h : step s = []) (n : Nat) :
    turns step n s = [s] := by
  cases n <;> simp [turns,h]

theorem First.optional (h : First r s t) : First r.optional s t := by
  simp only [First,Pattern.optional,ways,turns] at h ⊢
  rw [List.head?_append,head_flatMap h rfl]
  rfl

theorem first_optional_none (h : ways r s = []) : First r.optional s s := by
  simp [First,Pattern.optional,ways,turns_none h]

theorem turns_set {before read after : List Char} {groups : List (Nat × List Char)} {n : Nat}
    (hread : ∀ c ∈ read, p c) (hafter : ∀ c ∈ after.head?, p c = false) (hn : read.length ≤ n) :
    (turns (ways (.set p)) n ⟨before,read ++ after,groups⟩).head? =
      .some ⟨read.reverse ++ before,after,groups⟩ := by
  induction read generalizing before n with
  | nil => simp [turns_none (ways_set_none hafter)]
  | cons c read ih =>
    obtain ⟨n,rfl⟩ : ∃ m, n = m + 1 := ⟨n - 1,by simp at hn; omega⟩
    have hrest := @ih (c :: before) n (fun d hd => hread d (List.mem_cons_of_mem _ hd))
      (by simpa using hn)
    have hone := head_flatMap (first_set (hread c List.mem_cons_self)) hrest
    rw [List.cons_append,turns,List.head?_append,hone]
    simp

theorem first_many {before read after : List Char} {groups : List (Nat × List Char)}
    (hread : ∀ c ∈ read, p c) (hafter : ∀ c ∈ after.head?, p c = false) :
    First (.many (.set p)) ⟨before,read ++ after,groups⟩ ⟨read.reverse ++ before,after,groups⟩ :=
  turns_set hread hafter (by simp)

theorem first_upTo {before read after : List Char} {groups : List (Nat × List Char)} {n : Nat}
    (hread : ∀ c ∈ read, p c) (hafter : ∀ c ∈ after.head?, p c = false) (hn : read.length ≤ n) :
    First (.upTo n (.set p)) ⟨before,read ++ after,groups⟩ ⟨read.reverse ++ before,after,groups⟩ :=
  turns_set hread hafter hn

theorem first_some {before read after : List Char} {groups : List (Nat × List Char)}
    (hne : read ≠ []) (hread : ∀ c ∈ read, p c) (hafter : ∀ c ∈ after.head?, p c = false) :
    First (Pattern.some (.set p)) ⟨before,read ++ after,groups⟩
      ⟨read.reverse ++ before,after,groups⟩ := by
  obtain ⟨c,read,rfl⟩ := List.exists_cons_of_ne_nil hne
  have hrest := @first_many p (c :: before) read after groups
    (fun d hd => hread d (List.mem_cons_of_mem _ hd)) hafter
  have h := First.seq (@first_set p c before (read ++ after) groups (hread c List.mem_cons_self))
    hrest
  simpa [Pattern.some] using h

theorem first_boundary {word : Char → Bool} (h : atBoundary word s) :
    First (.boundary word) s s := by
  simp [First,ways,h]

theorem First.all_cons {rest : List Pattern} (h : First r s t) (hrest : First (.all rest) t u) :
    First (.all (r :: rest)) s u := h.seq hrest

theorem first_all_nil : First (.all []) s s := rfl

theorem First.group {n : Nat} {before read after : List Char} {groups : List (Nat × List Char)}
    (h : First r ⟨before,read ++ after,groups⟩ ⟨read.reverse ++ before,after,groups⟩) :
    First (.group n r) ⟨before,read ++ after,groups⟩
      ⟨read.reverse ++ before,after,(n,read) :: groups⟩ := by
  simp only [First,ways,List.head?_map] at h ⊢
  rw [h]
  simp [between]

theorem Tables.first_letters {tables : Tables} {word after : List Char}
    {groups : List (Nat × List Char)} (h : ∀ c ∈ word, tables.lower c ∈ alike c)
    (before : List Char) : First (.all (word.map tables.letter)) ⟨before,word ++ after,groups⟩
      ⟨word.reverse ++ before,after,groups⟩ := by
  induction word generalizing before with
  | nil => rfl
  | cons c word ih =>
    have hc : decide (tables.lower c ∈ alike c) = true := decide_eq_true (h c List.mem_cons_self)
    have hone := @first_set (fun d => decide (tables.lower d ∈ alike c)) c before (word ++ after)
      groups hc
    have hrest := ih (fun d hd => h d (List.mem_cons_of_mem _ hd)) (c :: before)
    have hall := First.all_cons hone hrest
    simpa [Tables.letter] using hall

theorem search_first {before after : List Char} (hbefore : ∀ xs c ys, before = xs ++ c :: ys →
      ways r ⟨xs.reverse,c :: ys ++ after,[]⟩ = [])
    (h : First r ⟨before.reverse,after,[]⟩ t) : search r (before ++ after) = .some t := by
  have hfrom (done rest : List Char) (hrest : before = done ++ rest) :
      searchFrom r done.reverse (rest ++ after) = .some t := by
    induction rest generalizing done with
    | nil =>
      rw [List.append_nil] at hrest
      subst hrest
      cases after with
      | nil => exact h
      | cons c after =>
        simp only [First,List.nil_append] at h ⊢
        rw [searchFrom]
        cases hways : ways r ⟨before.reverse,c :: after,[]⟩ with
        | nil =>
          rw [hways] at h
          cases h
        | cons u us =>
          rw [hways] at h
          exact h
    | cons c rest ih =>
      have hnone := hbefore done c rest hrest
      have hnext := ih (done ++ [c]) (by simpa using hrest)
      rw [List.cons_append] at hnone ⊢
      rw [searchFrom,hnone]
      simpa using hnext
  exact hfrom [] before rfl

/-- What is found is a way from some place. -/
theorem search_ways {text : List Char} (h : search r text = .some t) :
    ∃ before after, t ∈ ways r ⟨before,after,[]⟩ := by
  have hfrom (before after : List Char) (hsearch : searchFrom r before after = .some t) :
      ∃ before after, t ∈ ways r ⟨before,after,[]⟩ := by
    induction after generalizing before with
    | nil => exact ⟨before,[],List.mem_of_mem_head? hsearch⟩
    | cons c after ih =>
      rw [searchFrom] at hsearch
      split at hsearch
      · rename_i u us hways
        obtain rfl := Option.some.inj hsearch
        exact ⟨before,c :: after,by rw [hways]; exact List.mem_cons_self⟩
      · exact ih (c :: before) hsearch
  exact hfrom [] text h

theorem mem_ways_all_cons {rest : List Pattern} :
    t ∈ ways (.all (r :: rest)) s ↔ ∃ u ∈ ways r s, t ∈ ways (.all rest) u := by
  simp [Pattern.all,ways]

theorem ways_all_none {rest : List Pattern} (h : ways r s = []) :
    ways (.all (r :: rest)) s = [] := by
  simp [Pattern.all,ways,h]

def Fixed (r : Pattern) (n : Nat) : Prop :=
  ∀ s t, t ∈ ways r s →
    ∃ read : List Char, read.length = n ∧ t.before = read.reverse ++ s.before

theorem fixed_set : Fixed (.set p) 1 := by
  intro s t h
  rw [ways.eq_def] at h
  dsimp only at h
  split at h
  · cases h
  · rename_i c after hafter
    split at h
    · rw [List.mem_singleton] at h
      exact ⟨[c],rfl,by rw [h]; rfl⟩
    · cases h

theorem Fixed.seq {m n : Nat} (hr : Fixed r m) (hq : Fixed q n) : Fixed (.seq r q) (m + n) := by
  intro s t h
  obtain ⟨u,hu,ht⟩ := List.mem_flatMap.mp h
  obtain ⟨first,hfirst,hbefore⟩ := hr s u hu
  obtain ⟨second,hsecond,hafter⟩ := hq u t ht
  exact ⟨first ++ second,by simp [hfirst,hsecond],by simp [hafter,hbefore]⟩

theorem fixed_all_nil : Fixed (.all []) 0 := by
  intro s t h
  rw [List.mem_singleton.mp h]
  exact ⟨[],rfl,rfl⟩

theorem Fixed.all_cons {rest : List Pattern} {m n : Nat} (hr : Fixed r m)
    (hrest : Fixed (.all rest) n) : Fixed (.all (r :: rest)) (m + n) := hr.seq hrest

theorem Fixed.group_length {k n : Nat} (hr : Fixed r n) (h : t ∈ ways (.group k r) s) :
    (t.group k).length = n := by
  obtain ⟨u,hu,rfl⟩ := List.mem_map.mp h
  obtain ⟨read,hread,hbefore⟩ := hr s u hu
  simp [Spot.group,between,hbefore,hread]

def literally (word : List Char) : Pattern := .all (word.map fun c => .set (· = c))

/-- On the way from one place to the other, `read` is read. -/
structure Moves (s t : Spot) (read : List Char) : Prop where
  after : s.after = read ++ t.after
  before : t.before = read.reverse ++ s.before

theorem Moves.refl (s : Spot) : Moves s s [] := ⟨rfl,rfl⟩

theorem Moves.trans {xs ys : List Char} (h : Moves s t xs) (h' : Moves t u ys) :
    Moves s u (xs ++ ys) where
  after := by rw [h.after,h'.after,List.append_assoc]
  before := by rw [h'.before,h.before,List.reverse_append,List.append_assoc]

theorem moves_set (h : t ∈ ways (.set p) s) :
    ∃ c, p c = true ∧ Moves s t [c] ∧ t.groups = s.groups := by
  rw [ways.eq_def] at h
  dsimp only at h
  split at h
  · cases h
  · rename_i c after hafter
    split at h
    · rename_i hc
      rw [List.mem_singleton] at h
      subst h
      exact ⟨c,hc,⟨hafter,rfl⟩,rfl⟩
    · cases h

theorem moves_literally {word : List Char} (h : t ∈ ways (literally word) s) :
    Moves s t word ∧ t.groups = s.groups := by
  induction word generalizing s with
  | nil =>
    rw [List.mem_singleton.1 h]
    exact ⟨Moves.refl s,rfl⟩
  | cons c word ih =>
    obtain ⟨u,hu,ht⟩ := mem_ways_all_cons.1 h
    obtain ⟨d,hd,hmoves,hgroups⟩ := moves_set hu
    obtain ⟨hrest,hkept⟩ := ih ht
    obtain rfl : d = c := of_decide_eq_true hd
    exact ⟨hmoves.trans hrest,hkept.trans hgroups⟩

theorem moves_turns {n : Nat} (h : t ∈ turns (ways (.set p)) n s) :
    ∃ read, (∀ c ∈ read, p c = true) ∧ Moves s t read ∧ t.groups = s.groups := by
  induction n generalizing s with
  | zero =>
    rw [List.mem_singleton.1 h]
    exact ⟨[],fun c hc => absurd hc List.not_mem_nil,Moves.refl s,rfl⟩
  | succ n ih =>
    rcases List.mem_append.1 h with h | h
    · obtain ⟨u,hu,ht⟩ := List.mem_flatMap.1 h
      obtain ⟨c,hc,hmoves,hgroups⟩ := moves_set hu
      obtain ⟨read,hread,hrest,hkept⟩ := ih ht
      refine ⟨c :: read,?_,hmoves.trans hrest,hkept.trans hgroups⟩
      intro d hd
      rcases List.mem_cons.1 hd with rfl | hd
      · exact hc
      · exact hread d hd
    · rw [List.mem_singleton.1 h]
      exact ⟨[],fun c hc => absurd hc List.not_mem_nil,Moves.refl s,rfl⟩

theorem moves_many (h : t ∈ ways (.many (.set p)) s) :
    ∃ read, (∀ c ∈ read, p c = true) ∧ Moves s t read ∧ t.groups = s.groups := moves_turns h

theorem moves_optional {word : List Char} (h : t ∈ ways (literally word).optional s) :
    (Moves s t word ∨ t = s) ∧ t.groups = s.groups := by
  rcases List.mem_append.1 h with h | h
  · obtain ⟨u,hu,ht⟩ := List.mem_flatMap.1 h
    rw [List.mem_singleton.1 ht]
    exact ⟨.inl (moves_literally hu).1,(moves_literally hu).2⟩
  · rw [List.mem_singleton.1 h]
    exact ⟨.inr rfl,rfl⟩

theorem ways_literally (word : List Char) (before after : List Char)
    (groups : List (Nat × List Char)) : ways (literally word) ⟨before,word ++ after,groups⟩ =
      [⟨word.reverse ++ before,after,groups⟩] := by
  induction word generalizing before with
  | nil => rfl
  | cons c word ih =>
    have hrest := ih (c :: before)
    simp only [literally] at hrest
    simp [literally,Pattern.all,ways,hrest]

theorem First.mem (h : First r s t) : t ∈ ways r s := List.mem_of_mem_head? h

theorem First.unique (h : First r s t) (h' : First r s u) : t = u :=
  Option.some.inj (h.symm.trans h')

theorem mem_many (r : Pattern) (s : Spot) : s ∈ ways (.many r) s := by
  have hturns : ∀ n, s ∈ turns (ways r) n s := by
    intro n
    cases n <;> simp [turns]
  exact hturns _

theorem mem_optional (r : Pattern) (s : Spot) : s ∈ ways r.optional s := by
  simp [Pattern.optional,ways,turns]

/-- Any number of characters, the shortest reading first. -/
theorem lazyTurns_any {n : Nat} {before after : List Char} {groups : List (Nat × List Char)}
    (hn : n = after.length) : lazyTurns (ways (.set fun _ => true)) n ⟨before,after,groups⟩ =
      (List.range (n + 1)).map fun k => ⟨(after.take k).reverse ++ before,after.drop k,groups⟩ := by
  induction n generalizing before after with
  | zero =>
    cases after with
    | nil => rfl
    | cons c after => cases hn
  | succ n ih =>
    cases after with
    | nil => cases hn
    | cons c after =>
      have hlength : n = after.length := by simpa using hn
      have hrest := @ih (c :: before) after hlength
      have hone : ways (.set fun _ => true) ⟨before,c :: after,groups⟩ =
          [⟨c :: before,after,groups⟩] := rfl
      have hrange := @List.range_succ_eq_map (n + 1)
      rw [lazyTurns,hone,List.flatMap_cons,List.flatMap_nil,List.append_nil,hrest,hrange,
        List.map_cons,List.map_map]
      simp [Function.comp_def]

def shortest (n : Nat) : Pattern := .group n (.fewest (.set fun _ => true))

theorem ways_shortest (n : Nat) (before after : List Char) (groups : List (Nat × List Char)) :
    ways (shortest n) ⟨before,after,groups⟩ = (List.range (after.length + 1)).map fun k =>
      ⟨(after.take k).reverse ++ before,after.drop k,(n,after.take k) :: groups⟩ := by
  have hturns := @lazyTurns_any after.length before after groups rfl
  have hways : ways (shortest n) ⟨before,after,groups⟩ =
      (lazyTurns (ways (.set fun _ => true)) after.length ⟨before,after,groups⟩).map fun t =>
        { t with groups := (n,between ⟨before,after,groups⟩ t) :: t.groups } := rfl
  rw [hways,hturns,List.map_map]
  apply List.map_congr_left
  intro k _
  simp [between]

theorem first_shortest {n : Nat} {before after : List Char} {groups : List (Nat × List Char)}
    (h : ∃ k ≤ after.length,
      ways q ⟨(after.take k).reverse ++ before,after.drop k,(n,after.take k) :: groups⟩ ≠ []) :
    ∃ k t, k ≤ after.length ∧ First (.seq (shortest n) q) ⟨before,after,groups⟩ t ∧
      t ∈ ways q ⟨(after.take k).reverse ++ before,after.drop k,(n,after.take k) :: groups⟩ ∧
      ∀ j < k, ways q ⟨(after.take j).reverse ++ before,after.drop j,
        (n,after.take j) :: groups⟩ = [] := by
  classical
  obtain ⟨hle,hways⟩ := Nat.find_spec h
  refine ⟨Nat.find h,?_⟩
  generalize hfound : Nat.find h = k at hle hways
  obtain ⟨t,ts,hcons⟩ := List.exists_cons_of_ne_nil hways
  have hshort : ∀ j < k, ways q ⟨(after.take j).reverse ++ before,after.drop j,
      (n,after.take j) :: groups⟩ = [] := by
    intro j hj
    have hnot := Nat.find_min h (m := j) (by omega)
    by_contra hne
    exact hnot ⟨by omega,hne⟩
  refine ⟨t,hle,?_,by rw [hcons]; exact List.mem_cons_self,hshort⟩
  have hsplit : List.range (after.length + 1) =
      List.range k ++ k :: (List.range' (k + 1) (after.length - k)) := by
    rw [List.range_eq_range',List.range_eq_range']
    have htotal : after.length + 1 = k + (1 + (after.length - k)) := by omega
    rw [htotal,← List.range'_append_1,← List.range'_append_1]
    simp
  have hnone : ((List.range k).map fun j => (⟨(after.take j).reverse ++ before,after.drop j,
      (n,after.take j) :: groups⟩ : Spot)).flatMap (ways q) = [] := by
    rw [List.flatMap_eq_nil_iff]
    intro u hu
    obtain ⟨j,hj,rfl⟩ := List.mem_map.1 hu
    exact hshort j (List.mem_range.1 hj)
  simp only [First,ways] at hcons ⊢
  rw [ways_shortest,hsplit,List.map_append,List.flatMap_append,hnone,List.map_cons,
    List.flatMap_cons,hcons]
  rfl

/-- What is found is the first way from a place in the text, and there is none from the places
before. -/
theorem search_some {text : List Char} (h : search r text = .some t) :
    ∃ xs ys, text = xs ++ ys ∧ First r ⟨xs.reverse,ys,[]⟩ t ∧
      ∀ as bs, text = as ++ bs → as.length < xs.length → ways r ⟨as.reverse,bs,[]⟩ = [] := by
  have hfrom (done rest : List Char) (hsearch : searchFrom r done.reverse rest = .some t)
      (hnone : ∀ as bs, done ++ rest = as ++ bs → as.length < done.length →
        ways r ⟨as.reverse,bs,[]⟩ = []) : ∃ xs ys, done ++ rest = xs ++ ys ∧
          First r ⟨xs.reverse,ys,[]⟩ t ∧ ∀ as bs, done ++ rest = as ++ bs →
            as.length < xs.length → ways r ⟨as.reverse,bs,[]⟩ = [] := by
    induction rest generalizing done with
    | nil => exact ⟨done,[],rfl,hsearch,hnone⟩
    | cons c rest ih =>
      rw [searchFrom] at hsearch
      split at hsearch
      · rename_i u us hways
        obtain rfl := Option.some.inj hsearch
        exact ⟨done,c :: rest,rfl,by rw [First,hways]; rfl,hnone⟩
      · rename_i hways
        have hnext := ih (done ++ [c]) (by simpa using hsearch) ?_
        · simpa using hnext
        · intro as bs has hlength
          rw [List.append_assoc,List.singleton_append] at has
          by_cases hshort : as.length < done.length
          · exact hnone as bs has hshort
          · have hsame : as.length = done.length := by simp at hlength; omega
            obtain ⟨rfl,rfl⟩ := List.append_inj has hsame.symm
            exact hways
  have hall := hfrom [] text h fun as bs _ hlength => absurd hlength (Nat.not_lt_zero _)
  simpa using hall

/-- Where there is a way from some place, one is found. -/
theorem search_isSome {text xs ys : List Char} (htext : text = xs ++ ys)
    (h : ways r ⟨xs.reverse,ys,[]⟩ ≠ []) : ∃ t, search r text = .some t := by
  have hfrom (done rest : List Char) (hrest : ∃ as, done ++ as = xs ∧ rest = as ++ ys) :
      ∃ t, searchFrom r done.reverse rest = .some t := by
    induction rest generalizing done with
    | nil =>
      obtain ⟨as,rfl,has⟩ := hrest
      obtain ⟨rfl,rfl⟩ := List.append_eq_nil_iff.1 has.symm
      rw [List.append_nil] at h
      obtain ⟨t,ts,hcons⟩ := List.exists_cons_of_ne_nil h
      exact ⟨t,by rw [searchFrom,hcons]; rfl⟩
    | cons c rest ih =>
      rw [searchFrom]
      split
      · exact ⟨_,rfl⟩
      · rename_i hways
        obtain ⟨as,rfl,has⟩ := hrest
        cases as with
        | nil =>
          rw [List.nil_append] at has
          rw [List.append_nil,← has] at h
          exact absurd hways h
        | cons d as =>
          rw [List.cons_append,List.cons.injEq] at has
          obtain ⟨rfl,rfl⟩ := has
          have hnext := ih (done ++ [c]) ⟨as,by simp,rfl⟩
          simpa using hnext
  exact hfrom [] text ⟨xs,rfl,htext⟩

end AgentCentric.Regex

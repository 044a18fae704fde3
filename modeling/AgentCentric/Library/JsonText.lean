import AgentCentric.Library.JsonScan
import AgentCentric.Library.JsonAccess

namespace AgentCentric

namespace Json

mutual

/-- How many texts stand in a value, the keys among them. -/
def strings : Json → Nat
  | .str _ => 1
  | .list xs => stringsList xs
  | .dict items => stringsItems items
  | _ => 0

def stringsList : List Json → Nat
  | [] => 0
  | x :: xs => strings x + stringsList xs

def stringsItems : List (String × Json) → Nat
  | [] => 0
  | (_,v) :: items => 1 + strings v + stringsItems items

end

mutual

def distinct : Json → Bool
  | .list xs => distinctList xs
  | .dict items => (items.map Prod.fst).Nodup && distinctItems items
  | _ => true

def distinctList : List Json → Bool
  | [] => true
  | x :: xs => distinct x && distinctList xs

def distinctItems : List (String × Json) → Bool
  | [] => true
  | (_,v) :: items => distinct v && distinctItems items

end

theorem stringsItems_insert (es : List (String × Json)) (k : String) (v : Json) :
    stringsItems (Dict.insert es k v) ≤ stringsItems es + (1 + strings v) := by
  induction es with
  | nil => simp [Dict.insert,stringsItems]
  | cons e es ih =>
    obtain ⟨k',v'⟩ := e
    rw [Dict.insert]
    split
    · simp only [stringsItems]
      omega
    · simp only [stringsItems]
      omega

mutual

/-- What stays of a value holds no more texts. -/
theorem strings_keepLast : ∀ j : Json, strings (keepLast j) ≤ strings j
  | .list xs => by
    rw [keepLast,strings,strings]
    exact strings_keepLastList xs
  | .dict items => by
    rw [keepLast,strings,strings]
    have h := strings_keepLastItems [] items
    simpa [stringsItems] using h
  | .null | .bool _ | .int _ | .decimal _ | .nan | .infinity | .negInfinity | .str _ => by
    rw [keepLast] <;> simp

theorem strings_keepLastList : ∀ xs : List Json, stringsList (keepLastList xs) ≤ stringsList xs
  | [] => by simp [keepLastList]
  | x :: xs => by
    rw [keepLastList,stringsList,stringsList]
    exact Nat.add_le_add (strings_keepLast x) (strings_keepLastList xs)

theorem strings_keepLastItems : ∀ kept items : List (String × Json),
    stringsItems (keepLastItems kept items) ≤ stringsItems kept + stringsItems items
  | kept, [] => by simp [keepLastItems,stringsItems]
  | kept, (k,v) :: items => by
    have hrest := strings_keepLastItems (Dict.insert kept k (keepLast v)) items
    have hinsert := stringsItems_insert kept k (keepLast v)
    have hvalue := strings_keepLast v
    rw [keepLastItems,stringsItems]
    omega

end

mutual

/-- Where no key comes twice, everything stays. -/
theorem keepLast_distinct : ∀ j : Json, distinct j = true → keepLast j = j
  | .list xs, h => by
    rw [distinct] at h
    rw [keepLast,keepLastList_distinct xs h]
  | .dict items, h => by
    rw [distinct,Bool.and_eq_true,decide_eq_true_eq] at h
    rw [keepLast,keepLastItems_distinct [] items (by simpa using h.1) h.2,List.nil_append]
  | .null, _ | .bool _, _ | .int _, _ | .decimal _, _ | .nan, _ | .infinity, _
  | .negInfinity, _ | .str _, _ => by rw [keepLast] <;> simp

theorem keepLastList_distinct : ∀ xs : List Json, distinctList xs = true → keepLastList xs = xs
  | [], _ => rfl
  | x :: xs, h => by
    rw [distinctList,Bool.and_eq_true] at h
    rw [keepLastList,keepLast_distinct x h.1,keepLastList_distinct xs h.2]

theorem keepLastItems_distinct : ∀ kept items : List (String × Json),
    ((kept ++ items).map Prod.fst).Nodup → distinctItems items = true →
      keepLastItems kept items = kept ++ items
  | kept, [], _, _ => by simp [keepLastItems]
  | kept, (k,v) :: items, hnodup, h => by
    rw [distinctItems,Bool.and_eq_true] at h
    have hnew : k ∉ kept.map Prod.fst := by
      rw [List.map_append,List.map_cons,List.nodup_append] at hnodup
      intro hk
      exact hnodup.2.2 k hk k List.mem_cons_self rfl
    have hrest := keepLastItems_distinct (kept ++ [(k,v)]) items (by simpa using hnodup) h.2
    rw [keepLastItems,keepLast_distinct v h.1,Dict.insert_of_notMem v hnew,hrest]
    simp

end

end Json

namespace JsonText
open Json

def isFloat : Json → Bool
  | .decimal _ | .infinity | .negInfinity => true
  | _ => false

/-- `float` of a token. -/
structure Floats where
  read : List Char → Json
  float : ∀ token, isFloat (read token) = true

theorem Floats.strings (F : Floats) (token : List Char) : (F.read token).strings = 0 := by
  have hfloat := F.float token
  cases hread : F.read token <;> rw [hread] at hfloat <;> first | rfl | cases hfloat

def hexValue (c : Char) : Option Nat :=
  if '0' ≤ c ∧ c ≤ '9' then some (c.toNat - 48)
  else if 'a' ≤ c ∧ c ≤ 'f' then some (c.toNat - 87)
  else if 'A' ≤ c ∧ c ≤ 'F' then some (c.toNat - 55)
  else none

def hexUnit (a b c d : Char) : Option Nat := do
  let a ← hexValue a
  let b ← hexValue b
  let c ← hexValue c
  let d ← hexValue d
  pure (4096 * a + 256 * b + 16 * c + d)

def rawString : List Char → Option (List Char × List Char)
  | [] => none
  | '"' :: rest => some ([],rest)
  | '\\' :: c :: rest => (rawString rest).map fun r => ('\\' :: c :: r.1,r.2)
  | c :: rest => (rawString rest).map fun r => (c :: r.1,r.2)

/-- The code units of a string. No control character stands in it as it is. -/
def units : List Char → Option (List Nat)
  | [] => some []
  | '\\' :: 'u' :: a :: b :: c :: d :: rest => do
    let n ← hexUnit a b c d
    let ns ← units rest
    pure (n :: ns)
  | '\\' :: c :: rest => do
    let x ← unescape c
    let ns ← units rest
    pure (x.toNat :: ns)
  | c :: rest => do
    if c = '\\' ∨ c.toNat < 32 then none
    else
      let ns ← units rest
      pure (c.toNat :: ns)

def isHigh (n : Nat) : Bool := 55296 ≤ n ∧ n < 56320
def isLow (n : Nat) : Bool := 56320 ≤ n ∧ n < 57344

/-- Surrogate pairs become one character. A lone surrogate is no character. -/
def joined : List Nat → Option (List Char)
  | [] => some []
  | [n] => if isHigh n ∨ isLow n then none else some [Char.ofNat n]
  | n :: m :: rest =>
    if isHigh n then
      if isLow m then
        (joined rest).map (Char.ofNat (65536 + 1024 * (n - 55296) + (m - 56320)) :: ·)
      else none
    else if isLow n then none
    else (joined (m :: rest)).map (Char.ofNat n :: ·)

def readString (cs : List Char) : Option (String × List Char) := do
  let (raw,rest) ← rawString cs
  let ns ← units raw
  let text ← joined ns
  pure (String.ofList text,rest)

def digits (cs : List Char) : List Char × List Char :=
  (cs.takeWhile Char.isDigit,cs.dropWhile Char.isDigit)

def signPart : List Char → List Char × List Char
  | '-' :: rest => (['-'],rest)
  | cs => ([],cs)

def wholePart : List Char → List Char × List Char
  | '0' :: rest => (['0'],rest)
  | cs => digits cs

def fractionPart : List Char → List Char × List Char
  | '.' :: rest =>
    if (digits rest).1 = [] then ([],'.' :: rest) else ('.' :: (digits rest).1,(digits rest).2)
  | cs => ([],cs)

def exponentSign : List Char → List Char × List Char
  | '-' :: rest => (['-'],rest)
  | '+' :: rest => (['+'],rest)
  | cs => ([],cs)

def exponentPart : List Char → List Char × List Char
  | [] => ([],[])
  | c :: rest =>
    if c = 'e' ∨ c = 'E' then
      let sign := exponentSign rest
      let ds := digits sign.2
      if ds.1 = [] then ([],c :: rest) else (c :: sign.1 ++ ds.1,ds.2)
    else ([],c :: rest)

def readNumber (F : Floats) (cs : List Char) : Option (Json × List Char) :=
  let sign := signPart cs
  let whole := wholePart sign.2
  let fraction := fractionPart whole.2
  let exponent := exponentPart fraction.2
  if whole.1 = [] then none
  else if fraction.1 = [] ∧ exponent.1 = [] then
    some (.int (if sign.1 = [] then Nat.ofDigitChars 10 whole.1 0
      else -Nat.ofDigitChars 10 whole.1 0),exponent.2)
  else some (F.read (sign.1 ++ whole.1 ++ fraction.1 ++ exponent.1),exponent.2)

mutual

def readValue (F : Floats) : Nat → List Char → Option (Json × List Char)
  | 0, _ => none
  | n+1, cs =>
    match skip cs with
    | 'n' :: 'u' :: 'l' :: 'l' :: rest => some (.null,rest)
    | 't' :: 'r' :: 'u' :: 'e' :: rest => some (.bool true,rest)
    | 'f' :: 'a' :: 'l' :: 's' :: 'e' :: rest => some (.bool false,rest)
    | 'N' :: 'a' :: 'N' :: rest => some (.nan,rest)
    | 'I' :: 'n' :: 'f' :: 'i' :: 'n' :: 'i' :: 't' :: 'y' :: rest => some (.infinity,rest)
    | '-' :: 'I' :: 'n' :: 'f' :: 'i' :: 'n' :: 'i' :: 't' :: 'y' :: rest =>
        some (.negInfinity,rest)
    | '"' :: rest => (readString rest).map fun r => (.str r.1,r.2)
    | '[' :: rest =>
      match skip rest with
      | ']' :: r => some (.list [],r)
      | r => (readElements F n r).map fun r => (.list r.1,r.2)
    | '{' :: rest =>
      match skip rest with
      | '}' :: r => some (.dict [],r)
      | r => (readMembers F n r).map fun r => (.dict r.1,r.2)
    | cs => readNumber F cs

def readElements (F : Floats) : Nat → List Char → Option (List Json × List Char)
  | 0, _ => none
  | n+1, cs => do
      let (x,r) ← readValue F n cs
      match skip r with
      | ']' :: r => pure ([x],r)
      | ',' :: r =>
          let (xs,r) ← readElements F n r
          pure (x :: xs,r)
      | _ => none

def readMembers (F : Floats) : Nat → List Char → Option (List (String × Json) × List Char)
  | 0, _ => none
  | n+1, cs =>
    match skip cs with
    | '"' :: r => do
        let (k,r) ← readString r
        match skip r with
        | ':' :: r =>
            let (v,r) ← readValue F n r
            match skip r with
            | '}' :: r => pure ([(k,v)],r)
            | ',' :: r =>
                let (items,r) ← readMembers F n r
                pure ((k,v) :: items,r)
            | _ => none
        | _ => none
    | _ => none

end

def read (F : Floats) (text : List Char) : Option Json :=
  match readValue F (text.length + 1) text with
  | some (j,rest) => if skip rest = [] then some j else none
  | none => none

/-- `json.loads`: of the members with one key, the last one stays. -/
def loads (F : Floats) (text : List Char) : Option Json := (read F text).map keepLast

open JsonScan

/-- Outside of strings, in one, or after a backslash in one. -/
inductive Mode where
  | outside
  | inside
  | escaped
  deriving DecidableEq

def Mode.next : Mode → Char → Mode
  | .outside, c => if c = '"' then .inside else .outside
  | .inside, c => if c = '"' then .outside else if c = '\\' then .escaped else .inside
  | .escaped, _ => .inside

def quotes : Mode → List Char → Nat
  | _, [] => 0
  | m, c :: cs => (if m ≠ .escaped ∧ c = '"' then 1 else 0) + quotes (m.next c) cs

def mode : State → Mode
  | .outside _ => .outside
  | .inside _ => .inside
  | .escaped _ => .escaped

variable {items : List (String × Json)} {cs rest : List Char} {F : Floats} {s t : State}

theorem mode_step {c : Char} (h : step s c = some t) : mode t = (mode s).next c := by
  cases s with
  | outside d =>
    cases d with
    | zero =>
      simp only [step] at h
      split at h
      · next hblank =>
        cases h
        have hplain := plain_of_blank hblank
        simp only [plain,decide_eq_true_eq,List.mem_cons,not_or] at hplain
        simp [mode,Mode.next,hplain.1]
      · cases h
    | succ d =>
      simp only [step] at h
      by_cases hquote : c = '"'
      · rw [if_pos hquote] at h
        cases h
        simp [mode,Mode.next,hquote]
      · rw [if_neg hquote] at h
        have hnext : Mode.next .outside c = .outside := by simp [Mode.next,hquote]
        split at h
        · cases h
        · split at h
          · cases h
            exact hnext.symm
          · split at h <;> cases h <;> exact hnext.symm
  | inside d =>
    simp only [step] at h
    by_cases hquote : c = '"'
    · rw [if_pos hquote] at h
      cases h
      simp [mode,Mode.next,hquote]
    · rw [if_neg hquote] at h
      by_cases hslash : c = '\\'
      · rw [if_pos hslash] at h
        cases h
        simp [mode,Mode.next,hslash]
      · rw [if_neg hslash] at h
        cases h
        simp [mode,Mode.next,hquote,hslash]
  | escaped d =>
    cases h
    rfl

theorem quotes_append {xs : List Char} (h : scan s xs = some t) (ys : List Char) :
    quotes (mode s) (xs ++ ys) = quotes (mode s) xs + quotes (mode t) ys := by
  induction xs generalizing s with
  | nil =>
    cases h
    simp [quotes]
  | cons c xs ih =>
    rw [scan,Option.bind_eq_some_iff] at h
    obtain ⟨u,hu,h⟩ := h
    rw [List.cons_append,quotes,quotes,← mode_step hu,ih h]
    omega

theorem quotes_outside {d : Nat} {t : State} {xs : List Char}
    (h : scan (.outside d) xs = some t) (ys : List Char) :
    quotes .outside (xs ++ ys) = quotes .outside xs + quotes (mode t) ys := quotes_append h ys

/-- The text up to `rest` leads from one state to the other, past `n` quotes. -/
def Passes (s t : State) (n : Nat) (cs rest : List Char) : Prop :=
  ∃ front, cs = front ++ rest ∧ scan s front = some t ∧ quotes (mode s) front = n

theorem Passes.refl (s : State) (cs : List Char) : Passes s s 0 cs cs := ⟨[],rfl,rfl,rfl⟩

theorem Passes.trans {s t u : State} {m n : Nat} {xs ys zs : List Char}
    (h : Passes s t m xs ys) (h' : Passes t u n ys zs) : Passes s u (m + n) xs zs := by
  obtain ⟨front,rfl,hscan,hm⟩ := h
  obtain ⟨middle,rfl,hscan',hn⟩ := h'
  refine ⟨front ++ middle,by rw [List.append_assoc],?_,?_⟩
  · rw [scan_append,hscan]
    exact hscan'
  · rw [quotes_append hscan,hm,hn]

theorem passes_one {c : Char} (hstep : step s c = some t) (rest : List Char) :
    Passes s t (if mode s ≠ .escaped ∧ c = '"' then 1 else 0) (c :: rest) rest :=
  ⟨[c],rfl,by rw [scan,hstep]; rfl,by rw [quotes,quotes]; omega⟩

/-- A character that is no quote. -/
theorem Passes.cons {s t u : State} {n : Nat} {c : Char} {cs rest : List Char}
    (hstep : step s c = some t) (hc : c ≠ '"') (h : Passes t u n cs rest) :
    Passes s u n (c :: cs) rest := by
  have hone := (passes_one hstep cs).trans h
  rwa [if_neg fun hquote => hc hquote.2,Nat.zero_add] at hone

theorem Passes.opening {d n : Nat} {u : State} (h : Passes (.inside (d + 1)) u n cs rest) :
    Passes (.outside (d + 1)) u (1 + n) ('"' :: cs) rest :=
  (passes_one (step_quote d) cs).trans h

theorem Passes.plain {d n : Nat} {u : State} {c : Char}
    (h : Passes (.outside (d + 1)) u n cs rest) (hc : JsonScan.plain c = true) :
    Passes (.outside (d + 1)) u n (c :: cs) rest := by
  have hquote : c ≠ '"' := by
    rintro rfl
    exact absurd hc (by decide)
  exact Passes.cons (step_plain hc d) hquote h

theorem passes_plain {front : List Char} (rest : List Char) (h : front.all plain = true)
    (d : Nat) : Passes (.outside (d + 1)) (.outside (d + 1)) 0 (front ++ rest) rest := by
  induction front with
  | nil => exact Passes.refl _ _
  | cons c front ih =>
    rw [List.all_cons,Bool.and_eq_true] at h
    exact (ih h.2).plain h.1

theorem passes_skip (cs : List Char) (d : Nat) :
    Passes (.outside (d + 1)) (.outside (d + 1)) 0 cs (skip cs) := by
  have hsplit : cs.takeWhile blank ++ skip cs = cs := List.takeWhile_append_dropWhile
  have hplain : (cs.takeWhile blank).all plain = true :=
    List.all_eq_true.2 fun c hc => plain_of_blank (List.all_eq_true.1 List.all_takeWhile c hc)
  have hpasses := passes_plain (skip cs) hplain d
  rwa [hsplit] at hpasses

theorem passes_rawString {cs raw rest : List Char} (h : rawString cs = some (raw,rest)) (d : Nat) :
    Passes (.inside d) (.outside d) 1 cs rest := by
  induction cs using rawString.induct generalizing raw rest with
  | case1 => simp [rawString] at h
  | case2 tail =>
    simp only [rawString,Option.some.injEq,Prod.mk.injEq] at h
    obtain ⟨-,rfl⟩ := h
    exact passes_one (by simp [step]) tail
  | case3 c tail ih =>
    simp only [rawString,Option.map_eq_some_iff] at h
    obtain ⟨⟨raw',rest'⟩,htail,hrest⟩ := h
    cases hrest
    have hstep : step (.escaped d) c = some (.inside d) := rfl
    have hescaped := (passes_one hstep tail).trans (ih htail)
    rw [if_neg fun hmode => hmode.1 rfl,Nat.zero_add] at hescaped
    exact Passes.cons (by simp [step]) (by decide) hescaped
  | case4 c tail hquote hslash ih =>
    have hc : c ≠ '"' := hquote
    by_cases hescape : c = '\\'
    · subst hescape
      have htail : tail = [] := by
        cases tail with
        | nil => rfl
        | cons x xs => exact (hslash x xs rfl rfl).elim
      subst htail
      simp [rawString] at h
    · rw [rawString.eq_4 _ _ hquote hslash,Option.map_eq_some_iff] at h
      obtain ⟨⟨raw',rest'⟩,htail,hrest⟩ := h
      cases hrest
      exact Passes.cons (by simp [step,hc,hescape]) hc (ih htail)

theorem passes_string {text : String} (h : readString cs = some (text,rest)) (d : Nat) :
    Passes (.inside d) (.outside d) 1 cs rest := by
  unfold readString at h
  simp only [Option.bind_eq_bind,Option.bind_eq_some_iff] at h
  obtain ⟨⟨raw,rest'⟩,hraw,ns,-,chars,-,hrest⟩ := h
  cases hrest
  exact passes_rawString hraw d

theorem plain_of_isDigit {c : Char} (h : c.isDigit = true) : plain c = true :=
  plain_of_number (numberChar_of_isDigit h)

theorem digits_plain (cs : List Char) : (digits cs).1.all plain = true :=
  List.all_eq_true.2 fun c hc => plain_of_isDigit (List.all_eq_true.1 List.all_takeWhile c hc)

theorem digits_append (cs : List Char) : (digits cs).1 ++ (digits cs).2 = cs :=
  List.takeWhile_append_dropWhile

def Parts (cs : List Char) (r : List Char × List Char) : Prop :=
  cs = r.1 ++ r.2 ∧ r.1.all plain = true

theorem parts_nil (cs : List Char) : Parts cs ([],cs) := ⟨rfl,rfl⟩

theorem parts_one {c : Char} (h : plain c = true) (rest : List Char) :
    Parts (c :: rest) ([c],rest) := ⟨rfl,by rw [List.all_cons,h]; rfl⟩

theorem parts_digits (cs : List Char) : Parts cs (digits cs) :=
  ⟨(digits_append cs).symm,digits_plain cs⟩

theorem parts_sign (cs : List Char) : Parts cs (signPart cs) := by
  unfold signPart
  split
  · exact parts_one (by decide) _
  · exact parts_nil cs

theorem parts_whole (cs : List Char) : Parts cs (wholePart cs) := by
  unfold wholePart
  split
  · exact parts_one (by decide) _
  · exact parts_digits _

theorem parts_fraction (cs : List Char) : Parts cs (fractionPart cs) := by
  unfold fractionPart
  split
  · rename_i rest
    split
    · exact parts_nil _
    · have hpoint : plain '.' = true := by decide
      exact ⟨congrArg ('.' :: ·) (digits_append rest).symm,by
        rw [List.all_cons,hpoint,digits_plain]
        rfl⟩
  · exact parts_nil cs

theorem parts_exponentSign (cs : List Char) : Parts cs (exponentSign cs) := by
  unfold exponentSign
  split
  · exact parts_one (by decide) _
  · exact parts_one (by decide) _
  · exact parts_nil cs

theorem parts_exponent (cs : List Char) : Parts cs (exponentPart cs) := by
  cases cs with
  | nil => exact parts_nil []
  | cons c rest =>
    rw [exponentPart]
    split
    · rename_i hexp
      obtain ⟨hsign,hplain⟩ := parts_exponentSign rest
      dsimp only
      split
      · exact parts_nil _
      · have hc : plain c = true := by
          rcases hexp with rfl | rfl <;> decide
        refine ⟨?_,?_⟩
        · show c :: rest = (c :: (exponentSign rest).1 ++ (digits (exponentSign rest).2).1) ++
            (digits (exponentSign rest).2).2
          rw [List.append_assoc,digits_append,List.cons_append,← hsign]
        · show (c :: (exponentSign rest).1 ++ (digits (exponentSign rest).2).1).all plain = true
          rw [List.all_append,List.all_cons,hc,hplain,digits_plain]
          rfl
    · exact parts_nil _

theorem passes_number {j : Json} (h : readNumber F cs = some (j,rest)) (d : Nat) :
    Passes (.outside (d + 1)) (.outside (d + 1)) (2 * strings j) cs rest := by
  obtain ⟨hsign,hsign'⟩ := parts_sign cs
  obtain ⟨hwhole,hwhole'⟩ := parts_whole (signPart cs).2
  obtain ⟨hfraction,hfraction'⟩ := parts_fraction (wholePart (signPart cs).2).2
  obtain ⟨hexponent,hexponent'⟩ := parts_exponent (fractionPart (wholePart (signPart cs).2).2).2
  have hnumber := (passes_plain _ hsign' d).trans ((passes_plain _ hwhole' d).trans
    ((passes_plain _ hfraction' d).trans (passes_plain
      (exponentPart (fractionPart (wholePart (signPart cs).2).2).2).2 hexponent' d)))
  rw [← hexponent,← hfraction,← hwhole,← hsign] at hnumber
  unfold readNumber at h
  dsimp only at h
  split at h
  · cases h
  · split at h
    · cases h
      exact hnumber
    · cases h
      rw [F.strings]
      exact hnumber

structure Reads (F : Floats) (n : Nat) : Prop where
  value : ∀ cs j rest, readValue F n cs = some (j,rest) →
    ∀ d, Passes (.outside (d + 1)) (.outside (d + 1)) (2 * strings j) cs rest
  elements : ∀ cs xs rest, readElements F n cs = some (xs,rest) →
    ∀ d, Passes (.outside (d + 1)) (.outside (d + 1)) (2 * stringsList xs) cs (']' :: rest)
  members : ∀ cs items rest, readMembers F n cs = some (items,rest) →
    ∀ d, Passes (.outside (d + 1)) (.outside (d + 1)) (2 * stringsItems items) cs ('}' :: rest)

theorem Passes.count {m n : Nat} (h : Passes s t m cs rest)
    (hmn : m = n) : Passes s t n cs rest := hmn ▸ h

theorem Reads.elements_succ {n : Nat} (hread : Reads F n)
    {xs : List Json} (h : readElements F (n + 1) cs = some (xs,rest)) (d : Nat) :
    Passes (.outside (d + 1)) (.outside (d + 1)) (2 * stringsList xs) cs (']' :: rest) := by
  rw [readElements,Option.bind_eq_bind,Option.bind_eq_some_iff] at h
  obtain ⟨⟨x,tail⟩,hx,h⟩ := h
  have htail := (hread.value cs x tail hx d).trans (passes_skip tail d)
  simp only at h
  split at h
  · next r heq =>
    cases h
    rw [heq] at htail
    exact htail.count (by simp only [stringsList]; omega)
  · next r heq =>
    rw [Option.bind_eq_bind,Option.bind_eq_some_iff] at h
    obtain ⟨⟨ys,r'⟩,hys,h⟩ := h
    cases h
    rw [heq] at htail
    have hrest := (hread.elements _ _ _ hys d).plain (c := ',') (by decide)
    exact (htail.trans hrest).count (by simp only [stringsList]; omega)
  · cases h

theorem Reads.members_succ {n : Nat} (hread : Reads F n)
    (h : readMembers F (n + 1) cs = some (items,rest)) (d : Nat) :
    Passes (.outside (d + 1)) (.outside (d + 1)) (2 * stringsItems items) cs ('}' :: rest) := by
  rw [readMembers] at h
  have hstart := passes_skip cs d
  split at h
  · next r heq =>
    rw [heq] at hstart
    rw [Option.bind_eq_bind,Option.bind_eq_some_iff] at h
    obtain ⟨⟨k,r₁⟩,hk,h⟩ := h
    have hkey := (hstart.trans (passes_string hk (d + 1)).opening).trans (passes_skip r₁ d)
    simp only at h
    split at h
    · next r₂ heq =>
      rw [heq] at hkey
      rw [Option.bind_eq_bind,Option.bind_eq_some_iff] at h
      obtain ⟨⟨v,r₃⟩,hv,h⟩ := h
      have hcolon := (hread.value _ _ _ hv d).plain (c := ':') (by decide)
      have hvalue := (hkey.trans hcolon).trans (passes_skip r₃ d)
      simp only at h
      split at h
      · next r₄ heq =>
        cases h
        rw [heq] at hvalue
        exact hvalue.count (by simp only [stringsItems]; omega)
      · next r₄ heq =>
        rw [Option.bind_eq_bind,Option.bind_eq_some_iff] at h
        obtain ⟨⟨items',r₅⟩,hitems,h⟩ := h
        cases h
        rw [heq] at hvalue
        have hrest := (hread.members _ _ _ hitems d).plain (c := ',') (by decide)
        exact (hvalue.trans hrest).count (by simp only [stringsItems]; omega)
      · cases h
    · cases h
  · cases h

theorem Passes.bracket {c e : Char} (hc : c = '{' ∨ c = '[') (he : e = '}' ∨ e = ']') {n d : Nat}
    (h : Passes (.outside (d + 2)) (.outside (d + 2)) n cs (e :: rest)) :
    Passes (.outside (d + 1)) (.outside (d + 1)) n (c :: cs) rest := by
  have hopen : c ≠ '"' := by rcases hc with rfl | rfl <;> decide
  have hclose : e ≠ '"' := by rcases he with rfl | rfl <;> decide
  have hend := Passes.cons (step_close he (d + 1)) hclose (Passes.refl (.outside (d + 1)) rest)
  exact Passes.cons (step_open hc d) hopen (h.trans hend)

theorem Reads.value_succ {n : Nat} (hread : Reads F n)
    {j : Json} (h : readValue F (n + 1) cs = some (j,rest)) (d : Nat) :
    Passes (.outside (d + 1)) (.outside (d + 1)) (2 * strings j) cs rest := by
  have hstart := passes_skip cs d
  have hliteral : ∀ (front : List Char) {r : List Char}, front.all plain = true →
      skip cs = front ++ r → Passes (.outside (d + 1)) (.outside (d + 1)) 0 cs r := by
    intro front r hplain heq
    rw [heq] at hstart
    exact hstart.trans (passes_plain r hplain d)
  rw [readValue] at h
  split at h
  · next r heq =>
    cases h
    exact hliteral ['n','u','l','l'] (by decide) heq
  · next r heq =>
    cases h
    exact hliteral ['t','r','u','e'] (by decide) heq
  · next r heq =>
    cases h
    exact hliteral ['f','a','l','s','e'] (by decide) heq
  · next r heq =>
    cases h
    exact hliteral ['N','a','N'] (by decide) heq
  · next r heq =>
    cases h
    exact hliteral ['I','n','f','i','n','i','t','y'] (by decide) heq
  · next r heq =>
    cases h
    exact hliteral ['-','I','n','f','i','n','i','t','y'] (by decide) heq
  · next r heq =>
    rw [heq] at hstart
    obtain ⟨⟨text,r'⟩,htext,hr⟩ := Option.map_eq_some_iff.1 h
    cases hr
    exact (hstart.trans (passes_string htext (d + 1)).opening).count (by simp [strings])
  · next r heq =>
    rw [heq] at hstart
    have hopen := passes_skip r (d + 1)
    split at h
    · next r' heq =>
      cases h
      rw [heq] at hopen
      exact (hstart.trans (hopen.bracket (.inr rfl) (.inr rfl))).count
        (by simp [strings,stringsList])
    · obtain ⟨⟨xs,r'⟩,hxs,hr⟩ := Option.map_eq_some_iff.1 h
      cases hr
      exact (hstart.trans ((hopen.trans (hread.elements _ _ _ hxs (d + 1))).bracket
        (.inr rfl) (.inr rfl))).count (by simp [strings])
  · next r heq =>
    rw [heq] at hstart
    have hopen := passes_skip r (d + 1)
    split at h
    · next r' heq =>
      cases h
      rw [heq] at hopen
      exact (hstart.trans (hopen.bracket (.inl rfl) (.inl rfl))).count
        (by simp [strings,stringsItems])
    · obtain ⟨⟨items,r'⟩,hitems,hr⟩ := Option.map_eq_some_iff.1 h
      cases hr
      exact (hstart.trans ((hopen.trans (hread.members _ _ _ hitems (d + 1))).bracket
        (.inl rfl) (.inl rfl))).count (by simp [strings])
  · exact (hstart.trans (passes_number h d)).count (by omega)

theorem reads (F : Floats) : ∀ n, Reads F n
  | 0 => by
    constructor
    · intro cs j rest h
      simp [readValue] at h
    · intro cs xs rest h
      simp [readElements] at h
    · intro cs items rest h
      simp [readMembers] at h
  | n + 1 =>
    ⟨fun _ _ _ h => (reads F n).value_succ h,fun _ _ _ h => (reads F n).elements_succ h,
      fun _ _ _ h => (reads F n).members_succ h⟩

theorem readNumber_dict : readNumber F cs ≠ some (.dict items,rest) := by
  intro h
  unfold readNumber at h
  dsimp only at h
  split at h
  · cases h
  · split at h
    · cases h
    · simp only [Option.some.injEq,Prod.mk.injEq] at h
      have hfloat := F.float ((signPart cs).1 ++ (wholePart (signPart cs).2).1 ++
        (fractionPart (wholePart (signPart cs).2).2).1 ++
        (exponentPart (fractionPart (wholePart (signPart cs).2).2).2).1)
      rw [h.1] at hfloat
      cases hfloat

/-- What stands between the braces of a dictionary. -/
structure Braced (body rest : List Char) (items : List (String × Json)) where
  front : List Char
  text : body = front ++ '}' :: rest
  closed : scan (.outside 1) front = some (.outside 1)
  quoted : quotes .outside front = 2 * stringsItems items
  /-- First comes a key, if anything. -/
  first : skip body = '}' :: rest ∨ ∃ r, skip body = '"' :: r

theorem readMembers_quote {n : Nat} {cs : List Char}
    {r : List (String × Json) × List Char} (h : readMembers F n cs = some r) :
    ∃ tail, skip cs = '"' :: tail := by
  cases n with
  | zero => simp [readMembers] at h
  | succ n =>
    rw [readMembers] at h
    split at h
    · next tail heq => exact ⟨tail,heq⟩
    · cases h

theorem skip_skip (cs : List Char) : skip (skip cs) = skip cs := by
  induction cs with
  | nil => rfl
  | cons c cs ih =>
    by_cases hc : blank c = true
    · have hdrop : skip (c :: cs) = skip cs := List.dropWhile_cons_of_pos hc
      rw [hdrop,ih]
    · have hkeep : skip (c :: cs) = c :: cs := List.dropWhile_cons_of_neg hc
      rw [hkeep,hkeep]

theorem skip_append (a : List Char) {c : Char} (cs : List Char) (h : blank c = false) :
    skip (a ++ c :: cs) = skip a ++ c :: cs := by
  induction a with
  | nil => exact skip_of_not_blank cs h
  | cons x a ih =>
    by_cases hx : blank x = true
    · have hdrop : ∀ ys : List Char, skip (x :: ys) = skip ys :=
        fun ys => List.dropWhile_cons_of_pos hx
      rw [List.cons_append,hdrop,hdrop,ih]
    · rw [List.cons_append,skip_of_not_blank _ (Bool.not_eq_true _ ▸ hx),
        skip_of_not_blank _ (Bool.not_eq_true _ ▸ hx),List.cons_append]

theorem readValue_dict {n : Nat} (h : readValue F n cs = some (.dict items,rest)) :
    ∃ body, skip cs = '{' :: body ∧ Nonempty (Braced body rest items) := by
  cases n with
  | zero => simp [readValue] at h
  | succ n =>
  rw [readValue] at h
  split at h
  iterate 6 · cases h
  · obtain ⟨⟨_,_⟩,_,hr⟩ := Option.map_eq_some_iff.1 h
    cases hr
  · split at h
    · cases h
    · obtain ⟨⟨_,_⟩,_,hr⟩ := Option.map_eq_some_iff.1 h
      cases hr
  · next body heq =>
    refine ⟨body,heq,?_⟩
    have hstart := passes_skip body 0
    split at h
    · next r hskip =>
      cases h
      rw [hskip] at hstart
      obtain ⟨front,htext,hclosed,hquoted⟩ := hstart
      exact ⟨front,htext,hclosed,hquoted,.inl hskip⟩
    · obtain ⟨⟨items',r⟩,hitems,hr⟩ := Option.map_eq_some_iff.1 h
      cases hr
      obtain ⟨front,htext,hclosed,hquoted⟩ :=
        (hstart.trans ((reads F n).members _ _ _ hitems 0))
      obtain ⟨tail,htail⟩ := readMembers_quote hitems
      rw [skip_skip] at htail
      exact ⟨front,htext,hclosed,by rw [← Nat.zero_add (2 * _)]; exact hquoted,.inr ⟨tail,htail⟩⟩
  · exact (readNumber_dict h).elim

/-- The text is that of the dictionary, from its first brace to its last, and says each of its keys
once. -/
structure Serialises (F : Floats) (items : List (String × Json)) (text : List Char) : Prop where
  opens : text.head? = some '{'
  read : readValue F (text.length + 1) text = some (.dict items,[])
  distinct : (Json.dict items).distinct = true

/-- Two readers, one of them in a string where the other is not, pass the same quotes. -/
theorem quotes_flipped {s t s' t' : State} (h : Flipped s t) {cs : List Char}
    (hs : scan s cs = some s') (ht : scan t cs = some t') :
    quotes (mode s) cs = quotes (mode t) cs := by
  have hmodes : ∀ {u v : State}, Flipped u v → mode u ≠ .escaped ∧ mode v ≠ .escaped := by
    intro u v huv
    cases huv <;> exact ⟨nofun,nofun⟩
  induction cs generalizing s t with
  | nil => rfl
  | cons c cs ih =>
    rw [scan,Option.bind_eq_some_iff] at hs ht
    obtain ⟨u,hu,hs⟩ := hs
    obtain ⟨v,hv,ht⟩ := ht
    obtain ⟨hfirst,hsecond⟩ := hmodes h
    rw [quotes,quotes,← mode_step hu,← mode_step hv,ih (h.step hu hv) hs ht]
    simp [hfirst,hsecond]

theorem quotes_piece {s s' t : State} {cs : List Char} (hs : scan s cs = some s')
    (hmode : mode s ≠ .escaped) (ht : scan (.outside 1) cs = some t) :
    quotes (mode s) cs = quotes .outside cs := by
  cases s with
  | outside d => rfl
  | inside d => exact (quotes_flipped (.inside 1 d) ht hs).symm
  | escaped d => exact (hmode rfl).elim

theorem not_mem_of_quotes {cs : List Char} (h : quotes .outside cs = 0) : '"' ∉ cs := by
  induction cs with
  | nil => exact List.not_mem_nil
  | cons c cs ih =>
    rw [quotes] at h
    have hc : c ≠ '"' := by
      rintro rfl
      simp at h
    have hnext : Mode.next .outside c = .outside := by simp [Mode.next,hc]
    rw [hnext] at h
    intro hmem
    rcases List.mem_cons.1 hmem with heq | hmem
    · exact hc heq.symm
    · exact ih (by omega) hmem

theorem blank_of_scan {cs : List Char} {s : State} (h : scan (.outside 0) cs = some s) :
    ∀ c ∈ cs, blank c = true := by
  induction cs with
  | nil => exact fun c hc => absurd hc List.not_mem_nil
  | cons c cs ih =>
    rw [scan,step] at h
    by_cases hc : blank c = true
    · rw [if_pos hc] at h
      intro e he
      rcases List.mem_cons.1 he with rfl | he
      · exact hc
      · exact ih h e he
    · rw [if_neg hc] at h
      cases h

theorem scan_front {xs ys : List Char} (h : scan s (xs ++ ys) = some t) :
    ∃ u, scan s xs = some u ∧ scan u ys = some t := by
  rw [scan_append,Option.bind_eq_some_iff] at h
  exact h

/-- After an opening brace no reader stands behind a backslash. -/
theorem step_brace (h : step s '{' = some t) : mode t ≠ .escaped := by
  have hmode := mode_step h
  cases hs : mode s <;> rw [hs] at hmode <;> rw [hmode] <;> decide

/-- The body of a dictionary, up to its last brace. -/
theorem Braced.scanned {body : List Char}
    (b : Braced body [] items) : scan (.outside 1) body = some (.outside 0) ∧
      quotes .outside body = 2 * stringsItems items := by
  have hbrace : quotes .outside ['}'] = 0 := by decide
  have hquotes := quotes_outside b.closed ['}']
  have houtside : mode (.outside 1) = .outside := rfl
  rw [houtside,hbrace] at hquotes
  rw [b.text,scan_append,b.closed,hquotes,b.quoted]
  exact ⟨rfl,rfl⟩

/-- No dictionary in a dictionary has as many texts. -/
theorem Braced.inner {body rest a b : List Char} {items raw : List (String × Json)}
    {inner : List Char} (h : Braced body [] items) (hinner : Braced inner rest raw)
    (hbody : body = a ++ '{' :: hinner.front ++ '}' :: b) :
    stringsItems raw < stringsItems items := by
  by_contra hle
  obtain ⟨hscan,hquotes⟩ := h.scanned
  have hfirst := h.first
  rw [hbody,List.append_assoc] at hscan hquotes
  obtain ⟨s,hs,hscan⟩ := scan_front hscan
  rw [quotes_outside hs] at hquotes
  rw [List.cons_append,scan,Option.bind_eq_some_iff] at hscan
  obtain ⟨t,ht,hscan⟩ := hscan
  obtain ⟨u,hu,-⟩ := scan_front hscan
  have hfront := quotes_piece hu (step_brace ht) hinner.closed
  rw [hinner.quoted] at hfront
  have hrest := quotes_append hu ('}' :: b)
  rw [List.cons_append,quotes,← mode_step ht,hrest,hfront] at hquotes
  have hnone : '"' ∉ a := not_mem_of_quotes (by omega)
  have hmem : '"' ∉ skip a := fun hq => hnone ((List.dropWhile_sublist _).subset hq)
  rw [hbody,List.append_assoc,List.cons_append,skip_append a _ (by decide)] at hfirst
  cases hskip : skip a with
  | nil =>
    rw [hskip] at hfirst
    rcases hfirst with hfirst | ⟨r,hfirst⟩ <;> cases hfirst
  | cons c cs =>
    rw [hskip] at hfirst hmem
    rcases hfirst with hfirst | ⟨r,hfirst⟩
    · simp at hfirst
    · rw [List.cons_append,List.cons.injEq] at hfirst
      exact hmem (hfirst.1 ▸ List.mem_cons_self)

theorem loads_dict {x : List Char}
    (h : loads F x = some (.dict items)) : ∃ w inner rest raw, x = w ++ '{' :: inner ∧
      stringsItems items ≤ stringsItems raw ∧ (∀ c ∈ w, blank c = true) ∧
        Nonempty (Braced inner rest raw) := by
  obtain ⟨j,hread,hkeep⟩ := Option.map_eq_some_iff.1 h
  unfold read at hread
  split at hread
  · next j' rest hvalue =>
    split at hread
    · cases hread
      have hstrings := strings_keepLast j
      cases j with
      | dict raw =>
        obtain ⟨inner,hskip,hbraced⟩ := readValue_dict hvalue
        rw [hkeep] at hstrings
        have hsplit : x.takeWhile blank ++ skip x = x := List.takeWhile_append_dropWhile
        rw [hskip] at hsplit
        exact ⟨_,inner,rest,raw,hsplit.symm,hstrings,
          fun c hc => List.all_eq_true.1 List.all_takeWhile c hc,hbraced⟩
      | list xs =>
        rw [keepLast] at hkeep
        cases hkeep
      | _ => cases hkeep
    · cases hread
  · cases hread

theorem Serialises.whole {text a x b : List Char}
    (h : Serialises F items text) (htext : text = a ++ x ++ b)
    (hx : loads F x = some (.dict items)) : a = [] ∧ b = [] := by
  obtain ⟨w,inner,rest,raw,rfl,hstrings,hblank,⟨hinner⟩⟩ := loads_dict hx
  obtain ⟨body,hskip,⟨hbody⟩⟩ := readValue_dict h.read
  obtain ⟨tail,rfl⟩ : ∃ tail, text = '{' :: tail := by
    have hopens := h.opens
    cases text with
    | nil => cases hopens
    | cons c tail =>
      cases hopens
      exact ⟨tail,rfl⟩
  rw [skip_of_not_blank tail (by decide),List.cons.injEq] at hskip
  obtain ⟨-,rfl⟩ := hskip
  have hcut : '{' :: tail = (a ++ w) ++ '{' :: (hinner.front ++ '}' :: (rest ++ b)) := by
    have hinserted := congrArg (fun l => a ++ (w ++ '{' :: l) ++ b) hinner.text
    rw [htext]
    simpa using hinserted
  cases haw : a ++ w with
  | nil =>
    obtain ⟨rfl,rfl⟩ := List.append_eq_nil_iff.1 haw
    rw [haw,List.nil_append,List.cons.injEq] at hcut
    have hscan := hbody.scanned.1
    rw [hcut.2,scan_append,hinner.closed] at hscan
    have hclosed : scan (.outside 0) (rest ++ b) = some (.outside 0) := hscan
    have hlast : tail.getLast? = some '}' := by
      rw [hbody.text]
      simp
    refine ⟨rfl,?_⟩
    by_contra hb
    rw [hcut.2,List.getLast?_append_of_ne_nil _ (by simp),← List.singleton_append,
      List.getLast?_append_of_ne_nil _ (by simp [hb])] at hlast
    have hmem : '}' ∈ rest ++ b := List.mem_of_getLast? hlast
    exact absurd (blank_of_scan hclosed _ hmem) (by decide)
  | cons c cs =>
    rw [haw,List.cons_append,List.cons.injEq] at hcut
    have hfewer := hbody.inner (a := cs) (b := rest ++ b) hinner (by rw [hcut.2]; simp)
    omega

theorem Serialises.loads {text : List Char}
    (h : Serialises F items text) : loads F text = some (.dict items) := by
  have hread : JsonText.read F text = some (.dict items) := by
    rw [JsonText.read,h.read]
    rfl
  rw [JsonText.loads,hread]
  exact congrArg some (keepLast_distinct _ h.distinct)

/-- The text of a dictionary ends with its last brace. -/
theorem Serialises.ends {text : List Char}
    (h : Serialises F items text) : ∃ middle, text = '{' :: middle ++ ['}'] := by
  obtain ⟨body,hskip,⟨hbody⟩⟩ := readValue_dict h.read
  have hopens := h.opens
  cases text with
  | nil => cases hopens
  | cons c tail =>
    cases hopens
    rw [skip_of_not_blank tail (by decide),List.cons.injEq] at hskip
    exact ⟨hbody.front,by rw [hskip.2]; exact congrArg ('{' :: ·) hbody.text⟩

end JsonText
end AgentCentric

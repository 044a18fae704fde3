import AgentCentric.Library.Text
import AgentCentric.Library.Sort

namespace AgentCentric

def numberChar (c : Char) : Bool := c.isDigit || c ∈ ['-','+','.','e','E']

def fractionChar (c : Char) : Bool := c ∈ ['.','e','E']

/-- The `repr` of a finite float. -/
structure Decimal where
  chars : List Char
  number : chars.all numberChar = true
  fraction : chars.any fractionChar = true
  deriving DecidableEq

def Decimal.zero : Decimal := ⟨['0','.','0'],by decide,by decide⟩

/-- What `json` can write. A dictionary is the list of its items. -/
inductive Json where
  | null : Json
  | bool : Bool → Json
  | int : Int → Json
  | decimal : Decimal → Json
  | nan : Json
  | infinity : Json
  | negInfinity : Json
  | str : String → Json
  | list : List Json → Json
  | dict : List (String × Json) → Json

namespace Json

def byKey (a b : String × Json) : Bool := a.1 ≤ b.1

mutual

/-- `sort_keys`: the items of every dictionary, at any depth, sorted by key. -/
def canonical : Json → Json
  | .list xs => .list (canonicalList xs)
  | .dict items => .dict ((canonicalItems items).insertionSort (byKey · ·))
  | other => other

def canonicalList : List Json → List Json
  | [] => []
  | x :: xs => canonical x :: canonicalList xs

def canonicalItems : List (String × Json) → List (String × Json)
  | [] => []
  | (k,v) :: items => (k,canonical v) :: canonicalItems items

end

/-- The characters of a text. For ASCII they are its bytes, which evaluates faster. -/
def chars (s : String) : List Char :=
  let bytes := s.toByteArray.data.toList
  if bytes.all fun b => decide (b.toNat < 128) then bytes.map fun b => Char.ofNat b.toNat
  else s.toList

theorem utf8EncodeChar_ascii {c : Char} (h : ∀ b ∈ String.utf8EncodeChar c, b.toNat < 128) :
    (String.utf8EncodeChar c).map (fun b => Char.ofNat b.toNat) = [c] := by
  unfold String.utf8EncodeChar at h ⊢
  by_cases h₁ : c.val.toNat ≤ 127
  · have hbyte : c.val.toNat % 256 = c.val.toNat := by omega
    simp only [h₁,if_true,List.map_cons,List.map_nil,UInt8.toNat_ofNat',hbyte]
    exact congrArg (fun c => [c]) (Char.ofNat_toNat c)
  · exfalso
    simp only [h₁,if_false] at h
    by_cases h₂ : c.val.toNat ≤ 2047
    · simp only [h₂,if_true,List.mem_cons,forall_eq_or_imp,UInt8.toNat_ofNat'] at h
      omega
    · by_cases h₃ : c.val.toNat ≤ 65535
      · simp only [h₂,h₃,if_true,if_false,List.mem_cons,forall_eq_or_imp,UInt8.toNat_ofNat'] at h
        omega
      · simp only [h₂,h₃,if_false,List.mem_cons,forall_eq_or_imp,UInt8.toNat_ofNat'] at h
        omega

theorem flatMap_utf8EncodeChar_ascii {cs : List Char}
    (h : ∀ b ∈ cs.flatMap String.utf8EncodeChar, b.toNat < 128) :
    (cs.flatMap String.utf8EncodeChar).map (fun b => Char.ofNat b.toNat) = cs := by
  induction cs with
  | nil => rfl
  | cons c cs ih =>
    rw [List.flatMap_cons] at h ⊢
    rw [List.map_append,utf8EncodeChar_ascii fun b hb => h b (List.mem_append_left _ hb),
      ih fun b hb => h b (List.mem_append_right _ hb)]
    rfl

@[simp] theorem chars_eq (s : String) : chars s = s.toList := by
  have hbytes : s.toByteArray.data.toList = s.toList.flatMap String.utf8EncodeChar := by
    rw [← String.utf8Encode_toList,List.utf8Encode,List.data_toByteArray]
  simp only [chars]
  split
  · rename_i hascii
    rw [hbytes]
    apply flatMap_utf8EncodeChar_ascii
    rw [hbytes] at hascii
    intro b hb
    simpa using List.all_eq_true.1 hascii b hb
  · rfl
def hex4 (n : Nat) : List Char :=
  [hexDigit (n / 4096 % 16),hexDigit (n / 256 % 16),hexDigit (n / 16 % 16),hexDigit (n % 16)]

/-- `ensure_ascii`: everything but printable ASCII is escaped, above the first plane as a
surrogate pair. -/
def escapeChar (c : Char) : List Char :=
  if c = '"' then ['\\','"']
  else if c = '\\' then ['\\','\\']
  else if c = '\n' then ['\\','n']
  else if c = '\r' then ['\\','r']
  else if c = '\t' then ['\\','t']
  else if c.toNat = 8 then ['\\','b']
  else if c.toNat = 12 then ['\\','f']
  else if 32 ≤ c.toNat ∧ c.toNat ≤ 126 then [c]
  else if c.toNat < 65536 then '\\' :: 'u' :: hex4 c.toNat
  else '\\' :: 'u' :: hex4 (55296 + (c.toNat - 65536) / 1024) ++
    '\\' :: 'u' :: hex4 (56320 + (c.toNat - 65536) % 1024)

def renderString (s : String) : List Char := '"' :: (chars s).flatMap escapeChar ++ ['"']

def renderInt : Int → List Char
  | .ofNat n => Nat.toDigits 10 n
  | .negSucc n => '-' :: Nat.toDigits 10 (n + 1)

mutual

/-- `gap` is what stands after a comma and after a colon. -/
def render (gap : List Char) : Json → List Char
  | .null => ['n','u','l','l']
  | .bool true => ['t','r','u','e']
  | .bool false => ['f','a','l','s','e']
  | .int n => renderInt n
  | .decimal d => d.chars
  | .nan => ['N','a','N']
  | .infinity => ['I','n','f','i','n','i','t','y']
  | .negInfinity => ['-','I','n','f','i','n','i','t','y']
  | .str s => renderString s
  | .list [] => ['[',']']
  | .list (x :: xs) => '[' :: render gap x ++ renderRest gap xs
  | .dict [] => ['{','}']
  | .dict ((k,v) :: items) => '{' :: renderString k ++ ':' :: (gap ++ render gap v) ++
      renderItems gap items

def renderRest (gap : List Char) : List Json → List Char
  | [] => [']']
  | x :: xs => ',' :: (gap ++ render gap x) ++ renderRest gap xs

def renderItems (gap : List Char) : List (String × Json) → List Char
  | [] => ['}']
  | (k,v) :: items => ',' :: (gap ++ renderString k) ++ ':' :: (gap ++ render gap v) ++
      renderItems gap items

end

def dumps (j : Json) : String := String.ofList (render [' '] j.canonical)

/-- `json.dumps(value, sort_keys=True, separators=(",", ":")).encode("utf-8")`. The text is ASCII,
so its bytes are its characters. -/
def bytes (j : Json) : List Char := render [] j.canonical

def compact (j : Json) : String := String.ofList j.bytes

def skip (cs : List Char) : List Char := cs.dropWhile fun c => c = ' ' || c = '\n' || c = '\r' || c = '\t'

def unhex (c : Char) : Option Nat :=
  if '0' ≤ c ∧ c ≤ '9' then some (c.toNat - 48)
  else if 'a' ≤ c ∧ c ≤ 'f' then some (c.toNat - 87)
  else none

def unhex4 (a b c d : Char) : Option Nat := do
  let a ← unhex a
  let b ← unhex b
  let c ← unhex c
  let d ← unhex d
  pure (4096 * a + 256 * b + 16 * c + d)

def unescape : Char → Option Char
  | '"' => some '"'
  | '\\' => some '\\'
  | '/' => some '/'
  | 'n' => some '\n'
  | 'r' => some '\r'
  | 't' => some '\t'
  | 'b' => some (Char.ofNat 8)
  | 'f' => some (Char.ofNat 12)
  | _ => none

def parseUnits : List Char → Option (List Nat × List Char)
  | [] => none
  | '"' :: rest => some ([],rest)
  | '\\' :: 'u' :: a :: b :: c :: d :: rest => do
      let n ← unhex4 a b c d
      let (units,r) ← parseUnits rest
      pure (n :: units,r)
  | '\\' :: c :: rest => do
      let x ← unescape c
      let (units,r) ← parseUnits rest
      pure (x.toNat :: units,r)
  | c :: rest => do
      let (units,r) ← parseUnits rest
      pure (c.toNat :: units,r)

def joinUnits : List Nat → List Char
  | [] => []
  | n :: rest =>
      if 55296 ≤ n ∧ n < 56320 then
        match rest with
        | [] => []
        | m :: rest' => Char.ofNat (65536 + 1024 * (n - 55296) + (m - 56320)) :: joinUnits rest'
      else Char.ofNat n :: joinUnits rest

def parseChars (cs : List Char) : Option (List Char × List Char) :=
  (parseUnits cs).map fun r => (joinUnits r.1,r.2)

def parseInt : List Char → Option Int
  | '-' :: ds => if ds ≠ [] ∧ ds.all Char.isDigit then some (-Nat.ofDigitChars 10 ds 0) else none
  | ds => if ds ≠ [] ∧ ds.all Char.isDigit then some (Nat.ofDigitChars 10 ds 0) else none

def parseNumber (cs : List Char) : Option (Json × List Char) :=
  let token := cs.takeWhile numberChar
  let rest := cs.dropWhile numberChar
  if h : token.all numberChar = true ∧ token.any fractionChar = true then
    some (.decimal ⟨token,h.1,h.2⟩,rest)
  else (parseInt token).map fun n => (.int n,rest)

mutual

def parseValue : Nat → List Char → Option (Json × List Char)
  | 0, _ => none
  | n+1, cs =>
    match skip cs with
    | 'n' :: 'u' :: 'l' :: 'l' :: rest => some (.null,rest)
    | 't' :: 'r' :: 'u' :: 'e' :: rest => some (.bool true,rest)
    | 'f' :: 'a' :: 'l' :: 's' :: 'e' :: rest => some (.bool false,rest)
    | 'N' :: 'a' :: 'N' :: rest => some (.nan,rest)
    | 'I' :: 'n' :: 'f' :: 'i' :: 'n' :: 'i' :: 't' :: 'y' :: rest => some (.infinity,rest)
    | '-' :: 'I' :: 'n' :: 'f' :: 'i' :: 'n' :: 'i' :: 't' :: 'y' :: rest =>
        some (.negInfinity,rest)
    | '"' :: rest => (parseChars rest).map fun r => (.str (String.ofList r.1),r.2)
    | '[' :: rest =>
      match skip rest with
      | ']' :: r => some (.list [],r)
      | r => (parseElements n r).map fun r => (.list r.1,r.2)
    | '{' :: rest =>
      match skip rest with
      | '}' :: r => some (.dict [],r)
      | r => (parseMembers n r).map fun r => (.dict r.1,r.2)
    | cs => parseNumber cs

def parseElements : Nat → List Char → Option (List Json × List Char)
  | 0, _ => none
  | n+1, cs => do
      let (x,r) ← parseValue n cs
      match skip r with
      | ']' :: r => pure ([x],r)
      | ',' :: r =>
          let (xs,r) ← parseElements n r
          pure (x :: xs,r)
      | _ => none

def parseMembers : Nat → List Char → Option (List (String × Json) × List Char)
  | 0, _ => none
  | n+1, cs =>
    match skip cs with
    | '"' :: r => do
        let (k,r) ← parseChars r
        match skip r with
        | ':' :: r =>
            let (v,r) ← parseValue n r
            match skip r with
            | '}' :: r => pure ([(String.ofList k,v)],r)
            | ',' :: r =>
                let (items,r) ← parseMembers n r
                pure ((String.ofList k,v) :: items,r)
            | _ => none
        | _ => none
    | _ => none

end

/-- `json.loads`, for the texts that `dumps` writes. -/
def loads (text : String) : Option Json :=
  match parseValue (text.length + 1) text.toList with
  | some (j,rest) => if skip rest = [] then some j else none
  | none => none

attribute [grind =] parseValue

theorem unhex_hexDigit {d : Nat} (h : d < 16) : unhex (hexDigit d) = some d := by
  have hall : ∀ d < 16, unhex (hexDigit d) = some d := by decide
  exact hall d h

theorem unhex4_hex4 {n : Nat} (h : n < 65536) :
    unhex4 (hexDigit (n / 4096 % 16)) (hexDigit (n / 256 % 16)) (hexDigit (n / 16 % 16))
      (hexDigit (n % 16)) = some n := by
  have hvalue : 4096 * (n / 4096 % 16) + 256 * (n / 256 % 16) + 16 * (n / 16 % 16) + n % 16 = n := by
    omega
  simp [unhex4,unhex_hexDigit (Nat.mod_lt _ (by omega : 0 < 16)),hvalue]

def unitsOf (c : Char) : List Nat :=
  if c.toNat < 65536 then [c.toNat]
  else [55296 + (c.toNat - 65536) / 1024,56320 + (c.toNat - 65536) % 1024]

theorem parseUnits_hex4 {n : Nat} (h : n < 65536) (rest : List Char) :
    parseUnits ('\\' :: 'u' :: hex4 n ++ rest) = (parseUnits rest).map fun r => (n :: r.1,r.2) := by
  simp only [hex4,List.cons_append,List.nil_append,parseUnits,unhex4_hex4 h]
  cases parseUnits rest <;> rfl

theorem char_toNat_lt (c : Char) : c.toNat < 1114112 := by
  have hvalid := c.valid
  simp only [UInt32.isValidChar,Nat.isValidChar] at hvalid
  have hnat : c.toNat = c.val.toNat := rfl
  omega

theorem char_not_surrogate (c : Char) : c.toNat < 55296 ∨ 57343 < c.toNat := by
  have hvalid := c.valid
  simp only [UInt32.isValidChar,Nat.isValidChar] at hvalid
  have hnat : c.toNat = c.val.toNat := rfl
  omega

theorem parseUnits_plain {c : Char} (rest : List Char) (hquote : c ≠ '"') (hslash : c ≠ '\\') :
    parseUnits (c :: rest) = (parseUnits rest).map fun r => (c.toNat :: r.1,r.2) := by
  rw [parseUnits.eq_def]
  split
  · contradiction
  · rename_i heq
    cases heq
    exact absurd rfl hquote
  · rename_i heq
    cases heq
    exact absurd rfl hslash
  · rename_i heq
    cases heq
    exact absurd rfl hslash
  · rename_i heq
    cases heq
    cases parseUnits rest <;> rfl

theorem parseUnits_unescape {x y : Char} (rest : List Char) (hx : x ≠ 'u')
    (h : unescape x = some y) :
    parseUnits ('\\' :: x :: rest) = (parseUnits rest).map fun r => (y.toNat :: r.1,r.2) := by
  rw [parseUnits.eq_def]
  split
  · contradiction
  · rename_i heq
    simp at heq
  · rename_i heq
    cases heq
    exact absurd rfl hx
  · rename_i heq
    cases heq
    simp only [h]
    cases parseUnits rest <;> rfl
  · rename_i hne heq
    cases heq
    exact (hne x rest rfl rfl).elim

theorem parseUnits_short {c : Char} {units : List Nat} {other : List Char} (rest : List Char)
    (hunits : c.toNat < 65536 → units = [c.toNat])
    (hother : c ≠ '"' → c ≠ '\\' → parseUnits (other ++ rest) =
      (parseUnits rest).map fun r => (units ++ r.1,r.2)) :
    parseUnits ((if c = '"' then ['\\','"'] else if c = '\\' then ['\\','\\']
      else if c = '\n' then ['\\','n'] else if c = '\r' then ['\\','r']
      else if c = '\t' then ['\\','t'] else if c.toNat = 8 then ['\\','b']
      else if c.toNat = 12 then ['\\','f'] else other) ++ rest) =
        (parseUnits rest).map fun r => (units ++ r.1,r.2) := by
  have hletter {x y : Char} (hx : x ≠ 'u') (h : unescape x = some y) (hc : c.toNat = y.toNat)
      (hy : y.toNat < 65536) : parseUnits (['\\',x] ++ rest) =
        (parseUnits rest).map fun r => (units ++ r.1,r.2) := by
    rw [hunits (by omega),hc]
    exact parseUnits_unescape rest hx h
  split
  · rename_i h
    exact hletter (by decide) rfl (congrArg Char.toNat h) (by decide)
  rename_i hquote
  split
  · rename_i h
    exact hletter (by decide) rfl (congrArg Char.toNat h) (by decide)
  rename_i hslash
  split
  · rename_i h
    exact hletter (by decide) rfl (congrArg Char.toNat h) (by decide)
  split
  · rename_i h
    exact hletter (by decide) rfl (congrArg Char.toNat h) (by decide)
  split
  · rename_i h
    exact hletter (by decide) rfl (congrArg Char.toNat h) (by decide)
  split
  · rename_i h
    exact hletter (y := Char.ofNat 8) (by decide) rfl h (by decide)
  split
  · rename_i h
    exact hletter (y := Char.ofNat 12) (by decide) rfl h (by decide)
  · exact hother hquote hslash

theorem parseUnits_escapeChar (c : Char) (rest : List Char) : parseUnits (escapeChar c ++ rest) =
      (parseUnits rest).map fun r => (unitsOf c ++ r.1,r.2) := by
  have hmax := char_toNat_lt c
  have hone : c.toNat < 65536 → unitsOf c = [c.toNat] := fun hc => by simp [unitsOf,hc]
  refine parseUnits_short rest hone fun hquote hslash => ?_
  split
  · rw [hone (by omega)]
    exact parseUnits_plain rest hquote hslash
  split
  · rename_i hplane
    rw [hone hplane]
    exact parseUnits_hex4 hplane rest
  · rename_i hplane
    have hunits : unitsOf c =
        [55296 + (c.toNat - 65536) / 1024,56320 + (c.toNat - 65536) % 1024] := by
      simp [unitsOf,hplane]
    rw [hunits,List.append_assoc,parseUnits_hex4 (by omega),parseUnits_hex4 (by omega)]
    cases parseUnits rest <;> rfl

theorem parseUnits_string (cs rest : List Char) :
    parseUnits (cs.flatMap escapeChar ++ '"' :: rest) = some (cs.flatMap unitsOf,rest) := by
  induction cs with
  | nil => simp [parseUnits]
  | cons c cs ih =>
    rw [List.flatMap_cons,List.append_assoc,parseUnits_escapeChar,ih]
    rfl

theorem joinUnits_plain {n : Nat} (units : List Nat) (h : ¬ (55296 ≤ n ∧ n < 56320)) :
    joinUnits (n :: units) = Char.ofNat n :: joinUnits units := by
  cases units <;> simp [joinUnits,h]

theorem joinUnits_unitsOf (c : Char) (units : List Nat) :
    joinUnits (unitsOf c ++ units) = c :: joinUnits units := by
  have hrange := char_not_surrogate c
  have hmax := char_toNat_lt c
  unfold unitsOf
  split
  · have hnot : ¬ (55296 ≤ c.toNat ∧ c.toNat < 56320) := by omega
    rw [List.cons_append,List.nil_append,joinUnits_plain _ hnot,Char.ofNat_toNat]
  · have hsurrogate : 55296 ≤ 55296 + (c.toNat - 65536) / 1024 ∧
        55296 + (c.toNat - 65536) / 1024 < 56320 := by omega
    have hvalue : 65536 + 1024 * (55296 + (c.toNat - 65536) / 1024 - 55296) +
        (56320 + (c.toNat - 65536) % 1024 - 56320) = c.toNat := by omega
    simp only [List.cons_append,List.nil_append,joinUnits,hsurrogate,and_self,if_true,hvalue,
      Char.ofNat_toNat]

theorem joinUnits_string (cs : List Char) : joinUnits (cs.flatMap unitsOf) = cs := by
  induction cs with
  | nil => rfl
  | cons c cs ih => rw [List.flatMap_cons,joinUnits_unitsOf,ih]

theorem parseChars_string (cs rest : List Char) :
    parseChars (cs.flatMap escapeChar ++ '"' :: rest) = some (cs,rest) := by
  simp [parseChars,parseUnits_string,joinUnits_string]

def Stops (rest : List Char) : Prop := ∀ c r, rest = c :: r → numberChar c = false

theorem takeWhile_number {token rest : List Char} (h : token.all numberChar = true)
    (hrest : Stops rest) : (token ++ rest).takeWhile numberChar = token ∧
      (token ++ rest).dropWhile numberChar = rest := by
  rw [List.all_eq_true] at h
  have hstop : rest.takeWhile numberChar = [] ∧ rest.dropWhile numberChar = rest := by
    cases rest with
    | nil => exact ⟨rfl,rfl⟩
    | cons c r => simp [hrest c r rfl]
  rw [List.takeWhile_append_of_pos h,List.dropWhile_append_of_pos h,hstop.1,hstop.2]
  exact ⟨List.append_nil token,rfl⟩

theorem parseNumber_decimal (d : Decimal) {rest : List Char} (hrest : Stops rest) :
    parseNumber (d.chars ++ rest) = some (.decimal d,rest) := by
  obtain ⟨htake,hdrop⟩ := takeWhile_number d.number hrest
  simp [parseNumber,htake,hdrop,d.number,d.fraction]

theorem digits_all (n : Nat) : ∀ c ∈ Nat.toDigits 10 n, c.isDigit = true :=
  fun _ hc => Nat.isDigit_of_mem_toDigits (by omega) (by omega) hc

theorem numberChar_of_isDigit {c : Char} (h : c.isDigit = true) : numberChar c = true := by
  simp [numberChar,h]

theorem renderInt_number (i : Int) : (renderInt i).all numberChar = true := by
  rw [List.all_eq_true]
  intro c hc
  cases i with
  | ofNat n => exact numberChar_of_isDigit (digits_all n c hc)
  | negSucc n =>
    rcases List.mem_cons.1 hc with rfl | hc
    · decide
    · exact numberChar_of_isDigit (digits_all (n + 1) c hc)

theorem fractionChar_of_isDigit {c : Char} (h : c.isDigit = true) : fractionChar c = false := by
  by_contra hf
  simp only [fractionChar,Bool.not_eq_false,decide_eq_true_eq,List.mem_cons,List.not_mem_nil,
    or_false] at hf
  rcases hf with rfl | rfl | rfl <;> simp [Char.isDigit] at h

theorem renderInt_whole (i : Int) : (renderInt i).any fractionChar = false := by
  rw [List.any_eq_false]
  intro c hc
  rw [Bool.not_eq_true]
  cases i with
  | ofNat n => exact fractionChar_of_isDigit (digits_all n c hc)
  | negSucc n =>
    rcases List.mem_cons.1 hc with rfl | hc
    · decide
    · exact fractionChar_of_isDigit (digits_all (n + 1) c hc)

theorem parseInt_digits {ds : List Char} (hne : ds ≠ []) (hall : ds.all Char.isDigit = true) :
    parseInt ds = some (Nat.ofDigitChars 10 ds 0 : Int) := by
  unfold parseInt
  split
  · simp [Char.isDigit] at hall
  · rw [if_pos ⟨hne,hall⟩]

theorem parseInt_renderInt (i : Int) : parseInt (renderInt i) = some i := by
  have hall : ∀ n, (Nat.toDigits 10 n).all Char.isDigit = true := fun n =>
    List.all_eq_true.2 (digits_all n)
  cases i with
  | ofNat n =>
    simp only [renderInt,parseInt_digits Nat.toDigits_ne_nil (hall n),
      Nat.ofDigitChars_ten_toDigits]
    rfl
  | negSucc n =>
    simp only [renderInt,parseInt,Nat.toDigits_ne_nil,hall (n + 1),ne_eq,not_false_eq_true,
      and_self,if_true,Nat.ofDigitChars_ten_toDigits]
    rfl

theorem parseNumber_int (i : Int) {rest : List Char} (hrest : Stops rest) :
    parseNumber (renderInt i ++ rest) = some (.int i,rest) := by
  obtain ⟨htake,hdrop⟩ := takeWhile_number (renderInt_number i) hrest
  simp [parseNumber,htake,hdrop,renderInt_whole,parseInt_renderInt]

def blank (c : Char) : Bool := c = ' ' || c = '\n' || c = '\r' || c = '\t'

theorem skip_of_not_blank {c : Char} (rest : List Char) (h : blank c = false) :
    skip (c :: rest) = c :: rest := by
  simp only [blank] at h
  simp [skip,h]

@[simp] theorem skip_space (cs : List Char) : skip (' ' :: cs) = skip cs := by
  simp [skip]

theorem blank_of_numberChar {c : Char} (h : numberChar c = true) : blank c = false := by
  by_contra hb
  simp only [blank,Bool.not_eq_false,Bool.or_eq_true,decide_eq_true_eq] at hb
  rcases hb with ((rfl | rfl) | rfl) | rfl <;> simp [numberChar,Char.isDigit] at h

theorem parseValue_number {token : List Char} (n : Nat) (rest : List Char)
    (hall : token.all numberChar = true) (hne : token ≠ []) (hsign : token ≠ ['-']) :
    parseValue (n + 1) (token ++ rest) = parseNumber (token ++ rest) := by
  obtain ⟨c,t,rfl⟩ := List.exists_cons_of_ne_nil hne
  simp only [List.all_cons,Bool.and_eq_true] at hall
  rw [parseValue,List.cons_append,skip_of_not_blank _ (blank_of_numberChar hall.1)]
  split <;> rename_i heq
  case h_6 =>
    cases t with
    | nil => simp_all
    | cons d t =>
      simp only [List.cons_append,List.cons.injEq] at heq
      simp [heq.2.1,numberChar,Char.isDigit] at hall
  case h_10 => rfl
  all_goals
    obtain ⟨rfl,-⟩ := List.cons.inj heq
    simp [numberChar,Char.isDigit] at hall

def opening (c : Char) : Bool := numberChar c || c ∈ ['n','t','f','N','I','"','[','{']

theorem render_opening (gap : List Char) (j : Json) : ∃ c cs, render gap j = c :: cs ∧ opening c = true := by
  have hnumber : ∀ token : List Char, token ≠ [] → token.all numberChar = true →
      ∃ c cs, token = c :: cs ∧ opening c = true := by
    intro token hne hall
    obtain ⟨c,cs,rfl⟩ := List.exists_cons_of_ne_nil hne
    simp only [List.all_cons,Bool.and_eq_true] at hall
    exact ⟨c,cs,rfl,by simp [opening,hall.1]⟩
  cases j with
  | int i =>
    apply hnumber _ _ (renderInt_number i)
    cases i <;> simp [renderInt,Nat.toDigits_ne_nil]
  | decimal d =>
    apply hnumber _ _ d.number
    intro hnil
    have hfraction := d.fraction
    simp [show d.chars = [] from hnil] at hfraction
  | bool b => cases b <;> exact ⟨_,_,rfl,by decide⟩
  | list xs => cases xs <;> exact ⟨_,_,rfl,by decide⟩
  | dict items => cases items <;> exact ⟨_,_,rfl,by decide⟩
  | _ => exact ⟨_,_,rfl,by decide⟩

theorem blank_of_opening {c : Char} (h : opening c = true) : blank c = false := by
  simp only [opening,Bool.or_eq_true,decide_eq_true_eq] at h
  rcases h with h | h
  · exact blank_of_numberChar h
  · simp only [List.mem_cons,List.not_mem_nil,or_false] at h
    rcases h with rfl | rfl | rfl | rfl | rfl | rfl | rfl | rfl <;> rfl

def Gap (gap : List Char) : Prop := ∀ c ∈ gap, blank c = true

theorem Gap.skip {gap : List Char} (h : Gap gap) (cs : List Char) : skip (gap ++ cs) = skip cs :=
  List.dropWhile_append_of_pos h

theorem Gap.parseValue {gap : List Char} (h : Gap gap) (n : Nat) (cs : List Char) :
    parseValue n (gap ++ cs) = parseValue n cs := by
  cases n with
  | zero => rfl
  | succ n => rw [Json.parseValue,Json.parseValue,h.skip]

theorem Gap.parseElements {gap : List Char} (h : Gap gap) (n : Nat) (cs : List Char) :
    parseElements n (gap ++ cs) = parseElements n cs := by
  cases n with
  | zero => rfl
  | succ n => rw [Json.parseElements,Json.parseElements,h.parseValue]

theorem Gap.parseMembers {gap : List Char} (h : Gap gap) (n : Nat) (cs : List Char) :
    parseMembers n (gap ++ cs) = parseMembers n cs := by
  cases n with
  | zero => rfl
  | succ n => rw [Json.parseMembers,Json.parseMembers,h.skip]

theorem stops_cons {c : Char} (rest : List Char) (h : numberChar c = false) :
    Stops (c :: rest) := by
  intro d r heq
  cases heq
  exact h

theorem stops_renderRest (gap : List Char) (xs : List Json) (rest : List Char) : Stops (renderRest gap xs ++ rest) := by
  cases xs <;> exact stops_cons _ (by decide)

theorem stops_renderItems (gap : List Char) (items : List (String × Json)) (rest : List Char) :
    Stops (renderItems gap items ++ rest) := by
  rcases items with _ | ⟨⟨k,v⟩,items⟩ <;> exact stops_cons _ (by decide)

theorem parseValue_str (n : Nat) (s : String) (rest : List Char) :
    parseValue (n + 1) (renderString s ++ rest) = some (.str s,rest) := by
  have hchars := parseChars_string s.toList rest
  simp [renderString,parseValue,skip_of_not_blank,blank,hchars]

theorem parseValue_list {n : Nat} {c : Char} {cs rest : List Char} {xs : List Json}
    (hopen : opening c = true) (h : parseElements n (c :: cs) = some (xs,rest)) :
    parseValue (n + 1) ('[' :: c :: cs) = some (.list xs,rest) := by
  have hclose : c ≠ ']' := by
    rintro rfl
    simp [opening,numberChar,Char.isDigit] at hopen
  have hinner : skip (c :: cs) = c :: cs := skip_of_not_blank _ (blank_of_opening hopen)
  rw [parseValue,skip_of_not_blank _ (by decide)]
  simp [hinner,hclose,h]

theorem parseValue_dict {n : Nat} {cs rest : List Char} {items : List (String × Json)}
    (h : parseMembers n ('"' :: cs) = some (items,rest)) :
    parseValue (n + 1) ('{' :: '"' :: cs) = some (.dict items,rest) := by
  have hinner : skip ('"' :: cs) = '"' :: cs := skip_of_not_blank _ (by decide)
  rw [parseValue,skip_of_not_blank _ (by decide)]
  simp [hinner,h]

mutual

/-- A written value reads back, whatever follows it. Its length bounds the depth. -/
theorem parseValue_render {gap : List Char} (hgap : Gap gap) : ∀ (j : Json) (n : Nat) (rest : List Char),
    (render gap j).length ≤ n → Stops rest → parseValue n (render gap j ++ rest) = some (j,rest)
  | j, 0, rest, hn, _ => by
    obtain ⟨c,cs,hcs,-⟩ := render_opening gap j
    simp [hcs] at hn
  | .null, n+1, rest, _, _ => by simp [render,parseValue,skip_of_not_blank,blank]
  | .bool true, n+1, rest, _, _ => by simp [render,parseValue,skip_of_not_blank,blank]
  | .bool false, n+1, rest, _, _ => by simp [render,parseValue,skip_of_not_blank,blank]
  | .nan, n+1, rest, _, _ => by simp [render,parseValue,skip_of_not_blank,blank]
  | .infinity, n+1, rest, _, _ => by simp [render,parseValue,skip_of_not_blank,blank]
  | .negInfinity, n+1, rest, _, _ => by simp [render,parseValue,skip_of_not_blank,blank]
  | .int i, n+1, rest, _, hrest => by
    have hne : renderInt i ≠ [] := by cases i <;> simp [renderInt,Nat.toDigits_ne_nil]
    have hsign : renderInt i ≠ ['-'] := by
      intro heq
      have hint := parseInt_renderInt i
      simp [heq,parseInt] at hint
    rw [render,parseValue_number n rest (renderInt_number i) hne hsign,parseNumber_int i hrest]
  | .decimal d, n+1, rest, _, hrest => by
    have hfraction := d.fraction
    have hne : d.chars ≠ [] := by
      intro heq
      simp [heq] at hfraction
    have hsign : d.chars ≠ ['-'] := by
      intro heq
      simp [heq,fractionChar] at hfraction
    rw [render,parseValue_number n rest d.number hne hsign,parseNumber_decimal d hrest]
  | .str s, n+1, rest, _, _ => parseValue_str n s rest
  | .list [], n+1, rest, _, _ => by simp [render,parseValue,skip_of_not_blank,blank]
  | .list (x :: xs), n+1, rest, hn, hrest => by
    have hlength : (render gap x ++ renderRest gap xs).length ≤ n := by
      simp only [render,List.cons_append,List.length_cons] at hn
      omega
    have hparse := parseElements_render hgap x xs n rest hlength
    obtain ⟨c,cs,hcs,hopen⟩ := render_opening gap x
    rw [render]
    rw [hcs] at hparse ⊢
    exact parseValue_list hopen hparse
  | .dict [], n+1, rest, _, _ => by simp [render,parseValue,skip_of_not_blank,blank]
  | .dict ((k,v) :: items), n+1, rest, hn, hrest => by
    have hlength :
        (renderString k ++ ':' :: (gap ++ render gap v) ++ renderItems gap items).length ≤ n := by
      simp only [render,List.cons_append,List.length_cons] at hn
      omega
    exact parseValue_dict (parseMembers_render hgap k v items n rest hlength)

theorem parseElements_render {gap : List Char} (hgap : Gap gap) : ∀ (x : Json) (xs : List Json) (n : Nat) (rest : List Char),
    (render gap x ++ renderRest gap xs).length ≤ n →
      parseElements n (render gap x ++ renderRest gap xs ++ rest) = some (x :: xs,rest)
  | x, xs, 0, rest, hn => by
    obtain ⟨c,cs,hcs,-⟩ := render_opening gap x
    simp [hcs] at hn
  | x, [], n+1, rest, hn => by
    have hlength : (render gap x).length ≤ n := by simpa [renderRest] using hn
    have hx := parseValue_render hgap x n (renderRest gap [] ++ rest) hlength (stops_renderRest gap [] rest)
    rw [List.append_assoc,parseElements,hx]
    simp [renderRest,skip_of_not_blank,blank]
  | x, y :: ys, n+1, rest, hn => by
    simp only [renderRest,List.length_append,List.length_cons] at hn
    have hx := parseValue_render hgap x n (renderRest gap (y :: ys) ++ rest) (by omega)
      (stops_renderRest gap (y :: ys) rest)
    have hys := parseElements_render hgap y ys n rest (by simp only [List.length_append]; omega)
    rw [List.append_assoc] at hys ⊢
    rw [parseElements,hx]
    simp [renderRest,skip_of_not_blank,blank,hgap.parseElements,hys]

theorem parseMembers_render {gap : List Char} (hgap : Gap gap) : ∀ (k : String) (v : Json)
    (items : List (String × Json)) (n : Nat) (rest : List Char),
    (renderString k ++ ':' :: (gap ++ render gap v) ++ renderItems gap items).length ≤ n →
      parseMembers n (renderString k ++ ':' :: (gap ++ render gap v) ++
        renderItems gap items ++ rest) = some ((k,v) :: items,rest)
  | k, v, items, 0, rest, hn => by simp [renderString] at hn
  | k, v, [], n+1, rest, hn => by
    simp only [renderItems,List.length_append,List.length_cons] at hn
    have hk := parseChars_string k.toList
      (':' :: (gap ++ render gap v) ++ (renderItems gap [] ++ rest))
    have hv := parseValue_render hgap v n (renderItems gap [] ++ rest) (by omega)
      (stops_renderItems gap [] rest)
    simp only [renderItems,List.cons_append,List.nil_append,List.append_assoc] at hk hv ⊢
    simp [parseMembers,renderString,skip_of_not_blank,blank,hk,hgap.parseValue,hv]
  | k, v, (k',v') :: items, n+1, rest, hn => by
    simp only [renderItems,List.length_append,List.length_cons] at hn
    have hk := parseChars_string k.toList
      (':' :: (gap ++ render gap v) ++ (renderItems gap ((k',v') :: items) ++ rest))
    have hv := parseValue_render hgap v n (renderItems gap ((k',v') :: items) ++ rest) (by omega)
      (stops_renderItems gap _ rest)
    have hitems := parseMembers_render hgap k' v' items n rest
      (by simp only [List.length_append,List.length_cons]; omega)
    simp only [renderItems,renderString,chars_eq,List.cons_append,List.append_assoc,List.nil_append]
      at hk hv hitems ⊢
    simp [parseMembers,skip_of_not_blank,blank,hk,hgap.parseValue,hv,hgap.parseMembers,hitems]

end

theorem loads_ofList_render {gap : List Char} (hgap : Gap gap) (j : Json) :
    loads (String.ofList (render gap j)) = some j := by
  have hparse := parseValue_render hgap j ((render gap j).length + 1) [] (by omega)
    (by simp [Stops])
  rw [List.append_nil] at hparse
  simp [loads,hparse,skip]

theorem gap_space : Gap [' '] := by simp [Gap,blank]

theorem gap_nil : Gap [] := by simp [Gap]

/-- What `dumps` writes is read back with the keys in order. -/
theorem loads_dumps (j : Json) : loads (dumps j) = some j.canonical :=
  loads_ofList_render gap_space j.canonical

theorem loads_compact (j : Json) : loads (compact j) = some j.canonical :=
  loads_ofList_render gap_nil j.canonical

/-- Two values are written alike exactly if they differ in the order of keys only. -/
theorem dumps_inj {a b : Json} : dumps a = dumps b ↔ a.canonical = b.canonical := by
  constructor
  · intro h
    have hread := loads_dumps a
    rw [h,loads_dumps] at hread
    exact (Option.some.inj hread).symm
  · intro h
    simp only [dumps,h]

theorem canonicalItems_eq (items : List (String × Json)) :
    canonicalItems items = items.map fun e => (e.1,e.2.canonical) := by
  induction items with
  | nil => rfl
  | cons e items ih => rw [canonicalItems,List.map_cons,ih]

def sorted (items : List (String × Json)) : List (String × Json) :=
  (canonicalItems items).insertionSort (byKey · ·)

theorem canonical_dict (items : List (String × Json)) :
    (Json.dict items).canonical = .dict (sorted items) := by rw [canonical,sorted]

theorem canonical_list (xs : List Json) : (Json.list xs).canonical = .list (xs.map canonical) := by
  have hlist : ∀ ys, canonicalList ys = ys.map canonical := by
    intro ys
    induction ys with
    | nil => rfl
    | cons y ys ih => rw [canonicalList,ih,List.map_cons]
  rw [canonical,hlist]

/-- What stands under a key, once the keys are in order. -/
theorem lookup_sorted (items : List (String × Json)) (key : String) :
    Dict.lookup (sorted items) key = (Dict.lookup items key).map canonical := by
  have hr : ∀ a b : String × Json, byKey a b = true ↔ a.1 ≤ b.1 := fun a b => by simp [byKey]
  have hfilter := filter_insertionSort Prod.fst (fun a b => byKey a b = true) hr key
    (canonicalItems items)
  rw [sorted,Dict.lookup_eq_head,hfilter,← Dict.lookup_eq_head,canonicalItems_eq,Dict.lookup_map]

/-- Dictionaries that are written alike have the same items, up to order. -/
theorem perm_of_dumps {es fs : List (String × Json)}
    (h : (Json.dict es).dumps = (Json.dict fs).dumps) :
    (canonicalItems es).Perm (canonicalItems fs) := by
  have hsort : (canonicalItems es).insertionSort (byKey · ·) =
      (canonicalItems fs).insertionSort (byKey · ·) := Json.dict.inj (dumps_inj.1 h)
  have hes := List.perm_insertionSort (byKey · ·) (canonicalItems es)
  have hfs := List.perm_insertionSort (byKey · ·) (canonicalItems fs)
  exact hes.symm.trans (hsort ▸ hfs)

instance : Std.Total fun a b : String × Json => byKey a b = true where
  total a b := by simpa [byKey] using le_total a.1 b.1

instance : IsTrans (String × Json) fun a b => byKey a b = true where
  trans a b c hab hbc := by
    simp only [byKey,decide_eq_true_eq] at *
    exact le_trans hab hbc

mutual

/-- A value in canonical form stays as it is. -/
theorem canonical_canonical : ∀ j : Json, j.canonical.canonical = j.canonical
  | .null | .bool _ | .int _ | .decimal _ | .nan | .infinity | .negInfinity | .str _ => by
    simp [canonical]
  | .list xs => by simp only [canonical,canonicalList_canonicalList xs]
  | .dict items => by
    have hitems := canonicalItems_canonicalItems items
    have hsorted : canonicalItems ((canonicalItems items).insertionSort (byKey · ·)) =
        (canonicalItems items).insertionSort (byKey · ·) := by
      rw [canonicalItems_eq]
      conv_rhs => rw [← List.map_id ((canonicalItems items).insertionSort (byKey · ·))]
      apply List.map_congr_left
      intro e he
      rw [hitems e ((List.mem_insertionSort _).1 he)]
      rfl
    have hpair := List.pairwise_insertionSort (fun a b : String × Json => byKey a b = true)
      (canonicalItems items)
    simp only [canonical]
    rw [hsorted,hpair.insertionSort_eq]

theorem canonicalList_canonicalList : ∀ xs, canonicalList (canonicalList xs) = canonicalList xs
  | [] => rfl
  | x :: xs => by simp only [canonicalList,canonical_canonical x,canonicalList_canonicalList xs]

theorem canonicalItems_canonicalItems : ∀ items, ∀ e ∈ canonicalItems items, e.2.canonical = e.2
  | [] => by simp [canonicalItems]
  | e :: items => by
    obtain ⟨k,v⟩ := e
    intro e he
    rw [canonicalItems] at he
    rcases List.mem_cons.1 he with rfl | he
    · exact canonical_canonical v
    · exact canonicalItems_canonicalItems items e he

end

@[simp] theorem bytes_canonical (j : Json) : j.canonical.bytes = j.bytes := by
  rw [bytes,canonical_canonical,bytes]

/-- What is written alike is the same up to the order of keys. -/
theorem bytes_inj {a b : Json} : a.bytes = b.bytes ↔ a.canonical = b.canonical := by
  constructor
  · intro h
    have hread := loads_compact a
    rw [compact,h,← compact,loads_compact] at hread
    exact (Option.some.inj hread).symm
  · intro h
    rw [bytes,h,bytes]

theorem eq_of_perm_of_keys {es fs : List (String × Json)} (h : es.Perm fs)
    (hkeys : es.map Prod.fst = fs.map Prod.fst) (hnodup : (es.map Prod.fst).Nodup) : es = fs := by
  induction es generalizing fs with
  | nil => exact h.nil_eq
  | cons e es ih =>
    cases fs with
    | nil => exact absurd h.length_eq (by simp)
    | cons f fs =>
      simp only [List.map_cons,List.cons.injEq] at hkeys
      rw [List.map_cons,List.nodup_cons] at hnodup
      have heq : e = f := by
        cases List.mem_cons.1 (h.mem_iff.1 List.mem_cons_self) with
        | inl heq => exact heq
        | inr hmem => exact absurd (hkeys.2 ▸ List.mem_map_of_mem hmem) hnodup.1
      subst heq
      rw [ih h.cons_inv hkeys.2 hnodup.2]

/-- Dictionaries with the same keys in the same order. -/
theorem canonical_dict_inj {es fs : List (String × Json)}
    (hkeys : es.map Prod.fst = fs.map Prod.fst) (hnodup : (es.map Prod.fst).Nodup) :
    (Json.dict es).canonical = (Json.dict fs).canonical ↔
      (es.map fun e => (e.1,e.2.canonical)) = fs.map fun e => (e.1,e.2.canonical) := by
  rw [canonical_dict,canonical_dict,Json.dict.injEq,sorted,sorted,← canonicalItems_eq,
    ← canonicalItems_eq]
  constructor
  · intro h
    have hperm := (List.perm_insertionSort (byKey · ·) (canonicalItems es)).symm.trans
      (h ▸ List.perm_insertionSort (byKey · ·) (canonicalItems fs))
    refine eq_of_perm_of_keys hperm ?_ ?_
    · simpa [canonicalItems_eq,Function.comp_def] using hkeys
    · simpa [canonicalItems_eq,Function.comp_def] using hnodup
  · intro h
    rw [h]

end Json
end AgentCentric

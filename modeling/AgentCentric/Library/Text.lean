import Mathlib.Data.List.Sort
import Mathlib.Data.String.Basic

namespace AgentCentric

def hexDigit (n : Nat) : Char :=
  if n < 10 then Char.ofNat (48+n) else Char.ofNat (87+n)

/-- One character inside `repr`: the quote and the backslash are escaped, control
characters are spelled out, every other character stands for itself. -/
def reprChar (quote c : Char) : List Char :=
  if c = quote ∨ c = '\\' then ['\\',c]
  else if c = '\n' then ['\\','n']
  else if c = '\r' then ['\\','r']
  else if c = '\t' then ['\\','t']
  else if c.toNat < 32 ∨ c.toNat = 127 then
    ['\\','x',hexDigit (c.toNat/16),hexDigit (c.toNat%16)]
  else [c]

/-- `repr` of a string (`!r`): single quotes unless only those occur in the text. -/
def pyRepr (s : String) : String :=
  let single := Char.ofNat 39
  let double := Char.ofNat 34
  let quote := if single ∈ s.toList ∧ double ∉ s.toList then double else single
  String.ofList (quote :: (s.toList.flatMap (reprChar quote) ++ [quote]))

/-- `repr` of a list of strings. -/
def pyReprList (xs : List String) : String :=
  "[" ++ String.intercalate ", " (xs.map pyRepr) ++ "]"

/-- `sorted` of strings: by code points, as Python compares them. -/
def sortStrings (xs : List String) : List String := xs.insertionSort (· ≤ ·)

theorem sortStrings_perm (xs : List String) : (sortStrings xs).Perm xs :=
  List.perm_insertionSort _ xs

def isHex64 (cs : List Char) : Bool :=
  cs.length = 64 && cs.all fun c =>
    (decide ('0' ≤ c) && decide (c ≤ '9')) || (decide ('a' ≤ c) && decide (c ≤ 'f'))

/-- 64 lowercase hexadecimal characters. The final `$` of the pattern also matches before a line
break at the end. -/
def isSha256 (s : String) : Bool :=
  isHex64 s.toList || (s.toList.getLast? = some '\n' && isHex64 s.toList.dropLast)

/-- A content address. -/
structure Digest where
  text : String
  hex : isSha256 text = true
  deriving DecidableEq

/-- What `hexdigest` gives, without a line break. -/
structure HexDigest where
  text : String
  hex : isHex64 text.toList = true
  deriving DecidableEq

theorem hexDigit_lower (n : Nat) :
    ((decide ('0' ≤ hexDigit (n % 16)) && decide (hexDigit (n % 16) ≤ '9')) ||
      (decide ('a' ≤ hexDigit (n % 16)) && decide (hexDigit (n % 16) ≤ 'f'))) = true := by
  have hall : ∀ d, d < 16 → ((decide ('0' ≤ hexDigit d) && decide (hexDigit d ≤ '9')) ||
      (decide ('a' ≤ hexDigit d) && decide (hexDigit d ≤ 'f'))) = true := by decide
  exact hall _ (Nat.mod_lt n (by omega))

def HexDigest.repeated (c : Char) (h : isHex64 (List.replicate 64 c) = true) : HexDigest :=
  ⟨String.ofList (List.replicate 64 c),by rw [String.toList_ofList]; exact h⟩

def HexDigest.zeros : HexDigest := .repeated '0' (by decide)

def HexDigest.ones : HexDigest := .repeated '1' (by decide)

namespace Digest

def ofNat (n : Nat) : Digest where
  text := String.ofList (hexDigit (n / 256 % 16) :: hexDigit (n / 16 % 16) :: hexDigit (n % 16) ::
    List.replicate 61 '0')
  hex := by
    have hzeros : (List.replicate 61 '0').all (fun c =>
        (decide ('0' ≤ c) && decide (c ≤ '9')) || (decide ('a' ≤ c) && decide (c ≤ 'f'))) = true := by
      decide
    simp only [isSha256,String.toList_ofList,isHex64,List.length_cons,List.length_replicate,
      List.all_cons,hexDigit_lower,hzeros]
    rfl

def ofChars (text : List Char) : Digest :=
  ofNat (text.foldl (fun n c => (n * 257 + c.toNat) % 4093) 7)

end Digest
end AgentCentric

import AgentCentric.Library.Checked
import AgentCentric.Library.Json
import Mathlib.Algebra.Order.Ring.Rat

namespace AgentCentric.Json

/-- `bool(value)`. -/
def truthy : Json → Bool
  | .null => false
  | .bool b => b
  | .int n => n ≠ 0
  | .decimal d => d.chars ≠ ['0','.','0'] ∧ d.chars ≠ ['-','0','.','0']
  | .nan | .infinity | .negInfinity => true
  | .str s => s ≠ ""
  | .list xs => xs ≠ []
  | .dict items => items ≠ []

def typeName : Json → String
  | .null => "NoneType"
  | .bool _ => "bool"
  | .int _ => "int"
  | .decimal _ | .nan | .infinity | .negInfinity => "float"
  | .str _ => "str"
  | .list _ => "list"
  | .dict _ => "dict"

mutual

def repr : Json → String
  | .null => "None"
  | .bool true => "True"
  | .bool false => "False"
  | .int n => String.ofList (renderInt n)
  | .decimal d => String.ofList d.chars
  | .nan => "nan"
  | .infinity => "inf"
  | .negInfinity => "-inf"
  | .str s => pyRepr s
  | .list [] => "[]"
  | .list (x :: xs) => "[" ++ repr x ++ reprRest xs
  | .dict [] => "\x7b\x7d"
  | .dict ((k,v) :: items) => "\x7b" ++ pyRepr k ++ ": " ++ repr v ++ reprItems items

def reprRest : List Json → String
  | [] => "]"
  | x :: xs => ", " ++ repr x ++ reprRest xs

def reprItems : List (String × Json) → String
  | [] => "\x7d"
  | (k,v) :: items => ", " ++ pyRepr k ++ ": " ++ repr v ++ reprItems items

end

end AgentCentric.Json

namespace AgentCentric

def Decimal.value (d : Decimal) : Rat :=
  let (sign,chars) := match d.chars with
    | '-' :: cs => (-1,cs)
    | cs => ((1 : Rat),cs)
  let (mantissa,exponent) := chars.span (· ≠ 'e')
  let (whole,fraction) := mantissa.span (· ≠ '.')
  let digits := Nat.ofDigitChars 10 (whole ++ fraction.drop 1) 0
  let scale : Rat := 10 ^ (fraction.length - 1)
  let power : Rat := match exponent with
    | 'e' :: '-' :: ds => 1 / 10 ^ Nat.ofDigitChars 10 ds 0
    | 'e' :: '+' :: ds => 10 ^ Nat.ofDigitChars 10 ds 0
    | _ => 1
  sign * digits / scale * power

/-- The multiple of a power of two that is nearest, with at most 53 binary digits, ties to even. -/
def nearestDouble (n : Nat) : Nat :=
  let unit := 2 ^ (Nat.log2 n - 52)
  let low := n / unit
  if unit < 2 * (n % unit) ∨ unit = 2 * (n % unit) ∧ low % 2 = 1 then (low + 1) * unit
  else low * unit

/-- The number that a float is. From `2 ^ 53` on its `repr` may stand for another one nearby. -/
def Decimal.double (d : Decimal) : Rat :=
  let size := d.value.num.natAbs / d.value.den
  if size < 2 ^ 53 then d.value
  else if d.value < 0 then -(nearestDouble size : Rat)
  else nearestDouble size

namespace Json

def number : Json → Option Rat
  | .bool b => some (if b then 1 else 0)
  | .int n => some n
  | .decimal d => some d.double
  | _ => none

mutual

/-- `a == b` of values that `json` can write. Dictionaries have no order, and `nan` stands for one
object, which a container compares by identity. -/
def pyEq : Json → Json → Bool
  | .null, .null => true
  | .nan, .nan => true
  | .infinity, .infinity => true
  | .negInfinity, .negInfinity => true
  | .str s, .str t => s = t
  | .list xs, .list ys => pyEqList xs ys
  | .dict es, .dict fs => es.length = fs.length && pyEqItems es fs
  | .bool a, b => b.number = some (if a then 1 else 0)
  | .int n, b => b.number = some n
  | .decimal d, b => b.number = some d.double
  | _, _ => false

def pyEqList : List Json → List Json → Bool
  | [], [] => true
  | x :: xs, y :: ys => pyEq x y && pyEqList xs ys
  | _, _ => false

def pyEqItems : List (String × Json) → List (String × Json) → Bool
  | [], _ => true
  | (k,v) :: es, fs =>
    (match Dict.lookup fs k with
      | some w => pyEq v w
      | none => false) && pyEqItems es fs

end

mutual

/-- What JSON can hold: no `nan` at any depth, and the keys of a dictionary differ. -/
def native : Json → Bool
  | .nan => false
  | .list xs => nativeList xs
  | .dict items => decide (items.map Prod.fst).Nodup && nativeItems items
  | _ => true

def nativeList : List Json → Bool
  | [] => true
  | x :: xs => native x && nativeList xs

def nativeItems : List (String × Json) → Bool
  | [] => true
  | (_,v) :: items => native v && nativeItems items

end

mutual

/-- The order of the keys does not matter. -/
theorem pyEq_canonical : ∀ j : Json, j.native = true → pyEq j j.canonical = true
  | .null, _ => by simp [canonical,pyEq]
  | .bool _, _ => by simp [canonical,pyEq,number]
  | .int _, _ => by simp [canonical,pyEq,number]
  | .decimal _, _ => by simp [canonical,pyEq,number]
  | .nan, h => by simp [native] at h
  | .infinity, _ => by simp [canonical,pyEq]
  | .negInfinity, _ => by simp [canonical,pyEq]
  | .str _, _ => by simp [canonical,pyEq]
  | .list xs, h => by
    rw [native] at h
    rw [canonical,pyEq]
    exact pyEqList_canonical xs h
  | .dict items, h => by
    rw [native,Bool.and_eq_true,decide_eq_true_eq] at h
    have hperm := List.perm_insertionSort (byKey · ·) (canonicalItems items)
    have hlength : (sorted items).length = items.length := by
      rw [sorted,hperm.length_eq,canonicalItems_eq,List.length_map]
    rw [canonical_dict,pyEq,hlength,decide_eq_true rfl,Bool.true_and]
    refine pyEqItems_canonical items (sorted items) h.2 ?_
    intro k v hmem
    rw [lookup_sorted,(Dict.lookup_eq_some_iff h.1).2 hmem]
    rfl

theorem pyEqList_canonical : ∀ xs, nativeList xs = true → pyEqList xs (canonicalList xs) = true
  | [], _ => by simp [canonicalList,pyEqList]
  | x :: xs, h => by
    rw [nativeList,Bool.and_eq_true] at h
    rw [canonicalList,pyEqList,pyEq_canonical x h.1,pyEqList_canonical xs h.2,Bool.and_self]

theorem pyEqItems_canonical : ∀ (items fs : List (String × Json)), nativeItems items = true →
    (∀ k v, (k,v) ∈ items → Dict.lookup fs k = some v.canonical) → pyEqItems items fs = true
  | [], _, _, _ => by simp [pyEqItems]
  | (k,v) :: items, fs, h, hfs => by
    rw [nativeItems,Bool.and_eq_true] at h
    have hv := pyEq_canonical v h.1
    have hrest := pyEqItems_canonical items fs h.2 fun k' v' hmem =>
      hfs k' v' (List.mem_cons_of_mem _ hmem)
    have hk : Dict.lookup fs k = some v.canonical := hfs k v (by simp)
    simp [pyEqItems,hk,hv,hrest]

end

end Json
end AgentCentric

namespace AgentCentric.Json

/-- `str(value)`. -/
def text : Json → String
  | .str s => s
  | other => other.repr

/-- `tuple(value)`, where there is one. -/
def iterate : Json → Option (List Json)
  | .list xs => some xs
  | .str s => some (s.toList.map fun c => .str (String.ofList [c]))
  | .dict items => some (items.map fun item => .str item.1)
  | _ => none

/-- `int(value)`, where there is one. -/
def toInt (intOf : String → Option Int) : Json → Option Int
  | .int n => some n
  | .bool b => some (if b then 1 else 0)
  | .decimal d => some (d.double.num.tdiv d.double.den)
  | .str s => intOf s
  | _ => none

/-- `json.loads` of a text that is given by its characters. -/
def loadsChars (text : List Char) : Option Json :=
  match parseValue (text.length + 1) text with
  | some (j,rest) => if skip rest = [] then some j else none
  | none => none

theorem loads_eq_loadsChars (text : String) : loads text = loadsChars text.toList := by
  unfold loadsChars
  rw [String.length_toList]
  rfl

theorem loadsChars_bytes (j : Json) : loadsChars j.bytes = some j.canonical := by
  have hread := loads_compact j
  rw [loads_eq_loadsChars,compact,String.toList_ofList] at hread
  exact hread

mutual

/-- A dictionary that is read has each key once: the last value stays. -/
def keepLast : Json → Json
  | .list xs => .list (keepLastList xs)
  | .dict items => .dict (keepLastItems [] items)
  | other => other

def keepLastList : List Json → List Json
  | [] => []
  | x :: xs => keepLast x :: keepLastList xs

def keepLastItems : List (String × Json) → List (String × Json) → List (String × Json)
  | kept, [] => kept
  | kept, (k,v) :: items => keepLastItems (Dict.insert kept k (keepLast v)) items

end

theorem keepLast_list (xs : List Json) : keepLast (.list xs) = .list (xs.map keepLast) := by
  have hlist : keepLastList xs = xs.map keepLast := by
    induction xs with
    | nil => rfl
    | cons x xs ih => rw [keepLastList,ih,List.map_cons]
  rw [keepLast,hlist]

@[simp] theorem text_str (s : String) : text (.str s) = s := rfl

end AgentCentric.Json

namespace AgentCentric
namespace Dict

/-- Dictionaries with the same values under all keys have the same items. -/
theorem perm_of_lookup {κ α : Type} [DecidableEq κ] {es fs : List (κ × α)}
    (hes : (es.map Prod.fst).Nodup) (hfs : (fs.map Prod.fst).Nodup)
    (h : ∀ k, lookup es k = lookup fs k) : es.Perm fs := by
  rw [List.perm_ext_iff_of_nodup hes.of_map hfs.of_map]
  rintro ⟨k,v⟩
  rw [← lookup_eq_some_iff hes,h,lookup_eq_some_iff hfs]

end Dict

namespace Json

/-- Dictionaries are written alike if, under each key, the values are. -/
theorem canonical_dict_iff {es fs : List (String × Json)} (hes : (es.map Prod.fst).Nodup)
    (hfs : (fs.map Prod.fst).Nodup) : (Json.dict es).canonical = (Json.dict fs).canonical ↔
      ∀ k, (Dict.lookup es k).map canonical = (Dict.lookup fs k).map canonical := by
  constructor
  · intro h k
    rw [canonical_dict,canonical_dict,Json.dict.injEq] at h
    rw [← lookup_sorted,← lookup_sorted,h]
  · intro h
    have hkeys {items : List (String × Json)} (hitems : (items.map Prod.fst).Nodup) :
        ((canonicalItems items).map Prod.fst).Nodup := by
      rw [canonicalItems_eq,List.map_map]
      exact hitems
    have hperm : (canonicalItems es).Perm (canonicalItems fs) := by
      refine Dict.perm_of_lookup (hkeys hes) (hkeys hfs) fun k => ?_
      rw [canonicalItems_eq,canonicalItems_eq,Dict.lookup_map,Dict.lookup_map,h]
    rw [canonical_dict,canonical_dict,sorted,sorted,insertionSort_congr _ hperm]
    intro a ha b hb hab hba
    have hkey : a.1 = b.1 := le_antisymm (of_decide_eq_true hab) (of_decide_eq_true hba)
    exact List.inj_on_of_nodup_map (hkeys hes) ha hb hkey

/-- An element of a list that equals another is in that one, too. -/
theorem mem_of_pyEqList {xs ys : List Json} (h : pyEqList xs ys = true) {x : Json} (hx : x ∈ xs) :
    ∃ y ∈ ys, pyEq x y = true := by
  induction xs generalizing ys with
  | nil => cases hx
  | cons head xs ih =>
    cases ys with
    | nil => cases h
    | cons y ys =>
      rw [pyEqList,Bool.and_eq_true] at h
      rcases List.mem_cons.1 hx with rfl | hx
      · exact ⟨y,List.mem_cons_self,h.1⟩
      · obtain ⟨z,hz,heq⟩ := ih h.2 hx
        exact ⟨z,List.mem_cons_of_mem _ hz,heq⟩

theorem lookup_of_pyEqItems {es fs : List (String × Json)} (h : pyEqItems es fs = true)
    {key : String} {value : Json} (hmem : (key,value) ∈ es) :
    ∃ other, Dict.lookup fs key = some other ∧ pyEq value other = true := by
  induction es with
  | nil => cases hmem
  | cons e es ih =>
    rw [pyEqItems,Bool.and_eq_true] at h
    rcases List.mem_cons.1 hmem with rfl | hmem
    · cases hother : Dict.lookup fs key with
      | none => simp [hother] at h
      | some other => exact ⟨other,rfl,by simpa [hother] using h.1⟩
    · exact ih h.2 hmem

end Json
end AgentCentric

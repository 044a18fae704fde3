import Mathlib.Data.Seq.Basic

namespace AgentCentric.Network
open Stream'

/-- A Python value as it travels between components. A float is kept as its `repr`;
`iterable` is any other iterable object, given by the answers of its iterator, and
may go on for ever. -/
inductive Value where
  | null : Value
  | bool : Bool → Value
  | int : Int → Value
  | float : String → Value
  | str : String → Value
  | list : List Value → Value
  | dict : List (String × Value) → Value
  | iterable : (Nat → Option Value) → Value

/-- The names of `_TYPE_CHECKERS`. -/
inductive ValueType where
  | str | int | float | bool | dict | list | null | any
  deriving DecidableEq, Repr

def ValueType.name : ValueType → String
  | .str => "str"
  | .int => "int"
  | .float => "float"
  | .bool => "bool"
  | .dict => "dict"
  | .list => "list"
  | .null => "null"
  | .any => "any"

def valueMatchesType : Value → ValueType → Bool
  | _, .any => true
  | .str _, .str => true
  | .int _, .int => true
  | .float _, .float => true
  | .bool _, .bool => true
  | .dict _, .dict => true
  | .list _, .list => true
  | .null, .null => true
  | _, _ => false

def typesCompatible (source target : ValueType) : Bool :=
  source = target || source = .any || target = .any

/-- The items an iterator gives before its first `StopIteration`. -/
def sequence (next : Nat → Option Value) : Seq Value :=
  ⟨fun n => if ∀ m ≤ n, (next m).isSome then next n else none, by
    intro n h
    change (if ∀ m ≤ n, (next m).isSome then next n else none) = none at h
    change (if ∀ m ≤ n + 1, (next m).isSome then next (n + 1) else none) = none
    rw [if_neg]
    intro hall
    have hn : ∀ m ≤ n, (next m).isSome := fun m hm => hall m (Nat.le_succ_of_le hm)
    rw [if_pos hn] at h
    have := hn n (Nat.le_refl n)
    simp [h] at this⟩

/-- `iter(value)`: the elements of the traversal, `none` for the `TypeError` of a
value that is not iterable. -/
def Value.elements : Value → Option (Seq Value)
  | .list xs => some (Seq.ofList xs)
  | .dict items => some (Seq.ofList (items.map fun item => .str item.1))
  | .str s => some (Seq.ofList (s.toList.map fun c => .str (String.singleton c)))
  | .iterable next => some (sequence next)
  | _ => none

end AgentCentric.Network

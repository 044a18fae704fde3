import Mathlib.Algebra.GroupWithZero.Nat
import Mathlib.Data.String.Basic

namespace AgentCentric.IsoDate

def isLeap (year : Nat) : Bool := year % 4 = 0 && (year % 100 ≠ 0 || year % 400 = 0)

def daysInMonth (year month : Nat) : Nat :=
  if month = 2 then (if isLeap year then 29 else 28)
  else if month ∈ [4,6,9,11] then 30
  else 31

def daysBeforeYear (year : Nat) : Nat :=
  (year - 1) * 365 + (year - 1) / 4 - (year - 1) / 100 + (year - 1) / 400

def daysBeforeMonth (year month : Nat) : Nat :=
  ((List.range' 1 (month - 1)).map (daysInMonth year)).sum

def ofCalendar (year month day : Nat) : Option Nat :=
  if 1 ≤ year ∧ year ≤ 9999 ∧ 1 ≤ month ∧ month ≤ 12 ∧ 1 ≤ day ∧ day ≤ daysInMonth year month then
    some (daysBeforeYear year + daysBeforeMonth year month + day)
  else none

def maxOrdinal : Nat := 3652059

def firstWeekday (year : Nat) : Nat := daysBeforeYear year % 7

def weekOneMonday (year : Nat) : Nat :=
  if 3 < firstWeekday year then daysBeforeYear year + 8 - firstWeekday year
  else daysBeforeYear year + 1 - firstWeekday year

def weeksInYear (year : Nat) : Nat :=
  if firstWeekday year = 3 ∨ firstWeekday year = 2 ∧ isLeap year = true then 53 else 52

def ofWeek (year week day : Nat) : Option Nat :=
  if 1 ≤ year ∧ 1 ≤ week ∧ week ≤ weeksInYear year ∧ 1 ≤ day ∧ day ≤ 7 then
    let ordinal := weekOneMonday year + (week - 1) * 7 + (day - 1)
    if ordinal ≤ maxOrdinal then some ordinal else none
  else none

def digits : Nat → Nat → List Char → Option (Nat × List Char)
  | 0, value, rest => some (value,rest)
  | count + 1, value, c :: rest =>
    if c.isDigit then digits count (10 * value + (c.toNat - '0'.toNat)) rest else none
  | _ + 1, _, [] => none

def separator (dashed : Bool) (rest : List Char) : Option (List Char) :=
  if dashed then (if rest.head? = some '-' then some rest.tail else none) else some rest

/-- The day that a text names. What follows the day in a text of ten bytes is not looked at. -/
def fromIsoFormat (text : String) : Option Nat := do
  guard (text.utf8ByteSize ∈ [7,8,10])
  let (year,rest) ← digits 4 0 text.toList
  let dashed := decide (rest.head? = some '-')
  match if dashed then rest.tail else rest with
  | 'W' :: rest => do
    let (week,rest) ← digits 2 0 rest
    if rest = [] then ofWeek year week 1 else
      let (day,_) ← digits 1 0 (← separator dashed rest)
      ofWeek year week day
  | rest => do
    let (month,rest) ← digits 2 0 rest
    let (day,_) ← digits 2 0 (← separator dashed rest)
    ofCalendar year month day

def ofText (text : String) : Option Nat :=
  match text.toList with
  | [a,b,c,d,'-',e,f,'-',g,h] => do
    let (year,_) ← digits 4 0 [a,b,c,d]
    let (month,_) ← digits 2 0 [e,f]
    let (day,_) ← digits 2 0 [g,h]
    ofCalendar year month day
  | _ => none

/-- No text without characters is a date. -/
theorem fromIsoFormat_ne {text : String} (h : (fromIsoFormat text).isSome) : text ≠ "" := by
  rintro rfl
  exact absurd h (by decide +kernel)

example : fromIsoFormat "2024-02-29" = some 738945 ∧ fromIsoFormat "2023-02-29" = none ∧
    fromIsoFormat "2024-W09-4" = some 738945 := by decide +kernel

end AgentCentric.IsoDate

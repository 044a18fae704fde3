import AgentCentric.Library.JsonAccess
import Mathlib.Tactic.Positivity

namespace AgentCentric

/-- A float, a finite one by its `repr`. -/
inductive PyFloat where
  | decimal (d : Decimal)
  | nan
  | infinity
  | negInfinity

def PyFloat.json : PyFloat → Json
  | decimal d => .decimal d
  | nan => .nan
  | infinity => .infinity
  | negInfinity => .negInfinity

/-- What `int` and `float` raise. -/
inductive NumberError where
  | value (message : String)
  | type (name : String)
  | overflow (message : String)

/-- What the number types make of a text, and `float` of an integer that is not too large. -/
structure Numerals where
  floatOfInt : Int → Option Decimal
  floatOfText : String → Option PyFloat
  intOfText : String → Option Int

namespace Numerals
variable (numerals : Numerals)

/-- `float(value)`. -/
def floatOf : Json → Except NumberError PyFloat
  | .decimal d => .ok (.decimal d)
  | .nan => .ok .nan
  | .infinity => .ok .infinity
  | .negInfinity => .ok .negInfinity
  | .int n => ofInt n
  | .bool b => ofInt b.toNat
  | .str s => expect (numerals.floatOfText s)
      (.value ("could not convert string to float: " ++ pyRepr s))
  | other => .error (.type other.typeName)
where
  ofInt (n : Int) : Except NumberError PyFloat := do
    let d ← expect (numerals.floatOfInt n) (.overflow "int too large to convert to float")
    pure (.decimal d)

/-- `int(value)`. -/
def intOf : Json → Except NumberError Int
  | .int n => .ok n
  | .bool b => .ok b.toNat
  | .decimal d => .ok (d.double.num.tdiv d.double.den)
  | .nan => .error (.value "cannot convert float NaN to integer")
  | .infinity => .error (.overflow "cannot convert float infinity to integer")
  | .negInfinity => .error (.overflow "cannot convert float infinity to integer")
  | .str s => expect (numerals.intOfText s)
      (.value ("invalid literal for int() with base 10: " ++ pyRepr s))
  | other => .error (.type other.typeName)

theorem floatOf_json (x : PyFloat) : numerals.floatOf x.json = .ok x := by
  cases x <;> rfl

end Numerals
end AgentCentric

namespace AgentCentric.Double

def roundHalfEven (a b : Nat) : Nat :=
  if b < 2 * (a % b) ∨ b = 2 * (a % b) ∧ a / b % 2 = 1 then a / b + 1 else a / b

/-- The binary digits after the point that a quotient of at most one has. -/
def scale (a b : Nat) : Nat := 53 + Nat.log2 (b / a)

/-- `a / b` for `a` no greater than `b`: the nearest double. -/
def trueDiv (a b : Nat) : Rat := (roundHalfEven (a * 2 ^ scale a b) b : Rat) / 2 ^ scale a b

theorem roundHalfEven_le {a b n : Nat} (h : a ≤ n * b) : roundHalfEven a b ≤ n := by
  rcases Nat.eq_zero_or_pos b with rfl | hb
  · have ha : a = 0 := by omega
    subst ha
    simp [roundHalfEven]
  have hle : a / b ≤ n := Nat.div_le_of_le_mul (by rw [Nat.mul_comm]; exact h)
  have hdiv : b * (a / b) + a % b = a := Nat.div_add_mod a b
  unfold roundHalfEven
  split
  · next hup =>
    have hmod : 0 < a % b := by omega
    have hne : a / b ≠ n := by
      intro heq
      rw [heq,Nat.mul_comm] at hdiv
      omega
    omega
  · exact hle

theorem le_roundHalfEven (a b : Nat) : a / b ≤ roundHalfEven a b := by
  unfold roundHalfEven
  split <;> omega

@[simp] theorem trueDiv_zero (b : Nat) : trueDiv 0 b = 0 := by
  have hround : roundHalfEven 0 b = 0 := Nat.le_zero.1 (roundHalfEven_le (by simp))
  simp [trueDiv,hround]

theorem trueDiv_le_one {a b : Nat} (h : a ≤ b) : trueDiv a b ≤ 1 := by
  have hround : roundHalfEven (a * 2 ^ scale a b) b ≤ 2 ^ scale a b := by
    apply roundHalfEven_le
    rw [Nat.mul_comm]
    exact Nat.mul_le_mul_left _ h
  unfold trueDiv
  rw [div_le_one (by positivity)]
  exact_mod_cast hround

theorem trueDiv_pos {a b : Nat} (ha : 0 < a) (h : a ≤ b) : 0 < trueDiv a b := by
  have hlog : b / a < 2 ^ (Nat.log2 (b / a) + 1) := Nat.lt_log2_self
  have hsmall : b < a * 2 ^ (Nat.log2 (b / a) + 1) := by
    rw [Nat.mul_comm]
    exact (Nat.div_lt_iff_lt_mul ha).1 hlog
  have hscaled : b ≤ a * 2 ^ scale a b :=
    hsmall.le.trans (Nat.mul_le_mul_left a (Nat.pow_le_pow_right (by omega) (by
      unfold scale
      omega)))
  have hone : 1 ≤ a * 2 ^ scale a b / b := (Nat.one_le_div_iff (by omega)).2 hscaled
  have hround := hone.trans (le_roundHalfEven _ b)
  unfold trueDiv
  apply div_pos
  · exact_mod_cast hround
  · positivity

example : trueDiv 1 3 = 6004799503160661 / 18014398509481984 := by decide +kernel

end AgentCentric.Double

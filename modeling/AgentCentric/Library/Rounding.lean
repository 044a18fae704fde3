import Mathlib.Data.Rat.Floor

namespace AgentCentric.Rounding

def halfUp (n d : Int) : Int := (n + d / 2) / d

/-- The nearest integer; halves go to the even one. -/
def halfEven (q : Rat) : Int :=
  if q - ⌊q⌋ < 1 / 2 then ⌊q⌋
  else if 1 / 2 < q - ⌊q⌋ then ⌊q⌋ + 1
  else if ⌊q⌋ % 2 = 0 then ⌊q⌋ else ⌊q⌋ + 1

section
variable {d : Int} (hd : 0 < d)
include hd

theorem halfUp_nonneg {n : Int} (hn : 0 ≤ n) : 0 ≤ halfUp n d :=
  Int.ediv_nonneg (by omega) hd.le

theorem halfUp_mono {n m : Int} (h : n ≤ m) : halfUp n d ≤ halfUp m d :=
  Int.ediv_le_ediv hd (by omega)

/-- What is no more than a multiple is rounded to no more than the factor. -/
theorem halfUp_le {n k : Int} (h : n ≤ k * d) : halfUp n d ≤ k := by
  have hlt : n + d / 2 < (k + 1) * d := by
    have hring : (k + 1) * d = k * d + d := by ring
    omega
  have hdiv := (Int.ediv_lt_iff_lt_mul hd).mpr hlt
  rw [halfUp]
  omega

theorem halfUp_add_mul (n k : Int) : halfUp (n + k * d) d = halfUp n d + k := by
  have hring : n + k * d + d / 2 = n + d / 2 + k * d := by ring
  rw [halfUp,halfUp,hring,Int.add_mul_ediv_right _ _ hd.ne']

/-- Going up by a rate of at most one goes up by no more than the number. -/
theorem halfUp_add_le {n k r : Int} (hk : 0 ≤ k) (hr : r ≤ d) :
    halfUp (n + k * r) d ≤ halfUp n d + k := by
  rw [← halfUp_add_mul hd]
  exact halfUp_mono hd (by have := mul_le_mul_of_nonneg_left hr hk; omega)

theorem floor_quotient (n : Int) : ⌊(n / d : Rat)⌋ = n / d := by
  obtain ⟨k,rfl⟩ := Int.eq_ofNat_of_zero_le hd.le
  exact_mod_cast Rat.floor_intCast_div_natCast n k

theorem fract_quotient (n : Int) : (n / d : Rat) - (n / d : Int) = (n % d : Int) / d := by
  have hpos : (d : Rat) ≠ 0 := by exact_mod_cast hd.ne'
  have hdiv : (n : Rat) = d * (n / d : Int) + (n % d : Int) := by
    exact_mod_cast (Int.mul_ediv_add_emod n d).symm
  rw [eq_div_iff hpos,sub_mul,div_mul_cancel₀ _ hpos]
  linarith

theorem halfEven_quotient (n : Int) : halfEven (n / d) =
    if 2 * (n % d) < d ∨ 2 * (n % d) = d ∧ n / d % 2 = 0 then n / d else n / d + 1 := by
  have hpos : (0 : Rat) < d := by exact_mod_cast hd
  have hlow : (n % d : Int) / (d : Rat) < 1 / 2 ↔ 2 * (n % d) < d := by
    rw [div_lt_div_iff₀ hpos two_pos]
    constructor
    · intro h
      have h' : (n % d) * 2 < 1 * d := by exact_mod_cast h
      omega
    · intro h
      have h' : (n % d) * 2 < 1 * d := by omega
      exact_mod_cast h'
  have hhigh : 1 / 2 < (n % d : Int) / (d : Rat) ↔ d < 2 * (n % d) := by
    rw [div_lt_div_iff₀ two_pos hpos]
    constructor
    · intro h
      have h' : 1 * d < (n % d) * 2 := by exact_mod_cast h
      omega
    · intro h
      have h' : 1 * d < (n % d) * 2 := by omega
      exact_mod_cast h'
  rw [halfEven,floor_quotient hd,fract_quotient hd,if_congr hlow rfl rfl,if_congr hhigh rfl rfl]
  split
  · rename_i h
    rw [if_pos (.inl h)]
  · split
    · rename_i h
      rw [if_neg (by omega)]
    · rename_i h h'
      split
      · rename_i heven
        rw [if_pos (.inr ⟨by omega,heven⟩)]
      · rename_i hodd
        rw [if_neg (by omega)]

/-- An even denominator halves. -/
theorem halfUp_quotient (heven : d % 2 = 0) (n : Int) :
    halfUp n d = if 2 * (n % d) < d then n / d else n / d + 1 := by
  have hn : n + d / 2 = n % d + d / 2 + n / d * d := by
    have hdiv := Int.mul_ediv_add_emod n d
    have hring : n / d * d = d * (n / d) := by ring
    omega
  have hlow := Int.emod_nonneg n hd.ne'
  have hhigh := Int.emod_lt_of_pos n hd
  rw [halfUp,hn,Int.add_mul_ediv_right _ _ hd.ne']
  split
  · rw [Int.ediv_eq_zero_of_lt (by omega) (by omega),zero_add]
  · have hone : (n % d + d / 2) / d = 1 := by
      rw [Int.ediv_eq_iff_of_pos hd]
      omega
    rw [hone,add_comm]

/-- Both agree but for the halves over an even number. -/
theorem halfEven_eq_halfUp_iff (heven : d % 2 = 0) (n : Int) :
    halfEven (n / d) = halfUp n d ↔ n % (2 * d) ≠ d / 2 := by
  have hn := Int.mul_ediv_add_emod n d
  have hlow := Int.emod_nonneg n hd.ne'
  have hhigh := Int.emod_lt_of_pos n hd
  have hquotient := Int.mul_ediv_add_emod (n / d) 2
  have hmod : n % (2 * d) = d * (n / d % 2) + n % d := by
    have hring : n = d * (n / d % 2) + n % d + n / d / 2 * (2 * d) := by
      calc n = d * (2 * (n / d / 2) + n / d % 2) + n % d := by rw [hquotient,hn]
        _ = d * (n / d % 2) + n % d + n / d / 2 * (2 * d) := by ring
    have hsmall : d * (n / d % 2) ≤ d := by
      rcases Int.emod_two_eq (n / d) with h | h <;> rw [h] <;> omega
    have hpos : 0 ≤ d * (n / d % 2) := mul_nonneg hd.le (by omega)
    conv_lhs => rw [hring]
    rw [Int.add_mul_emod_self_right]
    exact Int.emod_eq_of_lt (by omega) (by omega)
  rw [halfEven_quotient hd,halfUp_quotient hd heven,hmod]
  rcases Int.emod_two_eq (n / d) with h | h
  · rw [h,mul_zero,zero_add]
    split <;> split <;> omega
  · rw [h,mul_one]
    split <;> split <;> omega

end

example : halfEven (5 / 2) = 2 ∧ halfUp 5 2 = 3 := by decide +kernel

end AgentCentric.Rounding

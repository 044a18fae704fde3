import Mathlib.Data.UInt

namespace AgentCentric.Base64

def alphabet : List Char :=
  "ABCDEFGHIJKLMNOPQRSTUVWXYZabcdefghijklmnopqrstuvwxyz0123456789+/".toList

def digit (n : Nat) : Char := alphabet.getD n 'A'

def value (c : Char) : Option Nat := alphabet.idxOf? c

def digits (n : Nat) : List Char :=
  [digit (n / 262144),digit (n / 4096 % 64),digit (n / 64 % 64),digit (n % 64)]

def encode : List UInt8 → List Char
  | [] => []
  | [a] => [digit (a.toNat * 16 / 64),digit (a.toNat * 16 % 64),'=','=']
  | [a,b] =>
    let n := (a.toNat * 256 + b.toNat) * 4
    [digit (n / 4096),digit (n / 64 % 64),digit (n % 64),'=']
  | a :: b :: c :: rest => digits (a.toNat * 65536 + b.toNat * 256 + c.toNat) ++ encode rest

/-- Bits that the padding leaves over are dropped. -/
def decode : List Char → Option (List UInt8)
  | [] => some []
  | a :: b :: c :: d :: rest =>
    if rest = [] ∧ c = '=' ∧ d = '=' then do
      let x ← value a
      let y ← value b
      pure [UInt8.ofNat ((x * 64 + y) / 16)]
    else if rest = [] ∧ d = '=' then do
      let x ← value a
      let y ← value b
      let z ← value c
      let n := ((x * 64 + y) * 64 + z) / 4
      pure [UInt8.ofNat (n / 256),UInt8.ofNat (n % 256)]
    else do
      let x ← value a
      let y ← value b
      let z ← value c
      let w ← value d
      let n := ((x * 64 + y) * 64 + z) * 64 + w
      let more ← decode rest
      pure (UInt8.ofNat (n / 65536) :: UInt8.ofNat (n / 256 % 256) :: UInt8.ofNat (n % 256) :: more)
  | _ => none

def canonical : List Char → Bool
  | _ :: b :: c :: d :: rest =>
    if rest = [] ∧ c = '=' ∧ d = '=' then (value b).all (· % 16 = 0)
    else if rest = [] ∧ d = '=' then (value c).all (· % 4 = 0)
    else canonical rest
  | _ => true

theorem value_digit {n : Nat} (h : n < 64) : value (digit n) = some n := by
  have hall : ∀ m < 64, value (digit m) = some m := by decide
  exact hall n h

theorem digit_value {c : Char} {n : Nat} (h : value c = some n) : n < 64 ∧ digit n = c := by
  obtain ⟨hlt,hget,-⟩ := List.idxOf?_eq_some_iff.1 h
  refine ⟨hlt,?_⟩
  rw [digit,List.getD_eq_getElem?_getD,List.getElem?_eq_getElem hlt,Option.getD_some]
  exact hget

theorem value_padding : value '=' = none := by decide

theorem digit_ne_padding {n : Nat} (h : n < 64) : digit n ≠ '=' := by
  intro heq
  have hvalue := value_digit h
  rw [heq,value_padding] at hvalue
  cases hvalue

theorem ne_padding {c : Char} {n : Nat} (h : value c = some n) : c ≠ '=' := by
  rintro rfl
  rw [value_padding] at h
  cases h

theorem decode_group {a b c d : Char} {rest : List Char} {x y z w : Nat} (hx : value a = some x)
    (hy : value b = some y) (hz : value c = some z) (hw : value d = some w) :
    decode (a :: b :: c :: d :: rest) = (decode rest).map fun more =>
      UInt8.ofNat ((((x * 64 + y) * 64 + z) * 64 + w) / 65536) ::
        UInt8.ofNat ((((x * 64 + y) * 64 + z) * 64 + w) / 256 % 256) ::
          UInt8.ofNat ((((x * 64 + y) * 64 + z) * 64 + w) % 256) :: more := by
  rw [decode,if_neg fun h => ne_padding hw h.2.2,if_neg fun h => ne_padding hw h.2,hx,hy,hz,hw]
  cases decode rest <;> rfl

theorem decode_two {a b c : Char} {x y z : Nat} (hx : value a = some x) (hy : value b = some y)
    (hz : value c = some z) : decode [a,b,c,'='] =
      some [UInt8.ofNat (((x * 64 + y) * 64 + z) / 4 / 256),
        UInt8.ofNat (((x * 64 + y) * 64 + z) / 4 % 256)] := by
  rw [decode,if_neg fun h => ne_padding hz h.2.1,if_pos ⟨rfl,rfl⟩,hx,hy,hz]
  rfl

theorem decode_one {a b : Char} {x y : Nat} (hx : value a = some x) (hy : value b = some y) :
    decode [a,b,'=','='] = some [UInt8.ofNat ((x * 64 + y) / 16)] := by
  rw [decode,if_pos ⟨rfl,rfl,rfl⟩,hx,hy]
  rfl

theorem decode_encode (bs : List UInt8) : decode (encode bs) = some bs := by
  induction bs using encode.induct with
  | case1 => rfl
  | case2 a =>
    have ha := a.toNat_lt
    rw [encode,decode_one (value_digit (by omega)) (value_digit (by omega))]
    have hn : (a.toNat * 16 / 64 * 64 + a.toNat * 16 % 64) / 16 = a.toNat := by omega
    rw [hn,UInt8.ofNat_toNat]
  | case3 a b =>
    have ha := a.toNat_lt
    have hb := b.toNat_lt
    simp only [encode]
    generalize hn : (a.toNat * 256 + b.toNat) * 4 = n
    rw [decode_two (value_digit (by omega)) (value_digit (by omega))
      (value_digit (by omega))]
    have hwhole : ((n / 4096 * 64 + n / 64 % 64) * 64 + n % 64) = n := by omega
    have hhigh : n / 4 / 256 = a.toNat := by omega
    have hlow : n / 4 % 256 = b.toNat := by omega
    rw [hwhole,hhigh,hlow,UInt8.ofNat_toNat,UInt8.ofNat_toNat]
  | case4 a b c rest ih =>
    have ha := a.toNat_lt
    have hb := b.toNat_lt
    have hc := c.toNat_lt
    rw [encode]
    generalize hn : a.toNat * 65536 + b.toNat * 256 + c.toNat = n
    have hgroup := @decode_group _ _ _ _ (encode rest) _ _ _ _
      (value_digit (show n / 262144 < 64 by omega)) (value_digit (show n / 4096 % 64 < 64 by omega))
      (value_digit (show n / 64 % 64 < 64 by omega)) (value_digit (show n % 64 < 64 by omega))
    have hwhole : (((n / 262144 * 64 + n / 4096 % 64) * 64 + n / 64 % 64) * 64 + n % 64) = n := by
      omega
    have hhigh : n / 65536 = a.toNat := by omega
    have hmid : n / 256 % 256 = b.toNat := by omega
    have hlow : n % 256 = c.toNat := by omega
    rw [hwhole,hhigh,hmid,hlow,ih] at hgroup
    show decode (digit (n / 262144) :: digit (n / 4096 % 64) :: digit (n / 64 % 64) ::
      digit (n % 64) :: encode rest) = _
    rw [hgroup]
    simp

theorem digit_inj {n m : Nat} (hn : n < 64) (hm : m < 64) : digit n = digit m ↔ n = m := by
  constructor
  · intro h
    have hvalue := value_digit hn
    rw [h,value_digit hm,Option.some.injEq] at hvalue
    exact hvalue.symm
  · rintro rfl
    rfl

/-- What is read is written again as it stood exactly if no left over bit is set. -/
theorem encode_decode {cs : List Char} {bs : List UInt8} (h : decode cs = some bs) :
    encode bs = cs ↔ canonical cs = true := by
  induction cs using decode.induct generalizing bs with
  | case1 =>
    cases h
    simp [encode,canonical]
  | case2 a b c d rest hone =>
    obtain ⟨rfl,rfl,rfl⟩ := hone
    rw [decode,if_pos ⟨rfl,rfl,rfl⟩] at h
    simp only [bind,Option.bind_eq_some_iff,pure,Option.some.injEq] at h
    obtain ⟨x,hx,y,hy,rfl⟩ := h
    obtain ⟨hxlt,rfl⟩ := digit_value hx
    obtain ⟨hylt,rfl⟩ := digit_value hy
    have hfirst : (x * 64 + y) / 16 % 256 * 16 / 64 = x := by omega
    have hsecond : (x * 64 + y) / 16 % 256 * 16 % 64 = y - y % 16 := by omega
    have hlt : y - y % 16 < 64 := by omega
    simp only [encode,UInt8.toNat_ofNat',hfirst,hsecond,canonical,hy,Option.all_some,
      List.cons.injEq,true_and,and_true,if_true,decide_eq_true_eq,digit_inj hlt hylt]
    omega
  | case3 a b c d rest hone htwo =>
    obtain ⟨rfl,rfl⟩ := htwo
    rw [decode,if_neg hone,if_pos ⟨rfl,rfl⟩] at h
    simp only [bind,Option.bind_eq_some_iff,pure,Option.some.injEq] at h
    obtain ⟨x,hx,y,hy,z,hz,rfl⟩ := h
    obtain ⟨hxlt,rfl⟩ := digit_value hx
    obtain ⟨hylt,rfl⟩ := digit_value hy
    obtain ⟨hzlt,rfl⟩ := digit_value hz
    generalize hn : (x * 64 + y) * 64 + z = n
    have hwhole : (n / 4 / 256 % 256 * 256 + n / 4 % 256 % 256) * 4 = n - n % 4 := by omega
    have hfirst : (n - n % 4) / 4096 = x := by omega
    have hsecond : (n - n % 4) / 64 % 64 = y := by omega
    have hthird : (n - n % 4) % 64 = z - z % 4 := by omega
    have hlt : z - z % 4 < 64 := by omega
    simp only [encode,UInt8.toNat_ofNat',hwhole,hfirst,hsecond,hthird,canonical,hz,Option.all_some,
      List.cons.injEq,true_and,and_true,if_true,if_neg (digit_ne_padding hzlt),decide_eq_true_eq,
      digit_inj hlt hzlt]
    omega
  | case4 a b c d rest hone htwo ih =>
    rw [decode,if_neg hone,if_neg htwo] at h
    simp only [bind,Option.bind_eq_some_iff,pure,Option.some.injEq] at h
    obtain ⟨x,hx,y,hy,z,hz,w,hw,more,hmore,rfl⟩ := h
    obtain ⟨hxlt,rfl⟩ := digit_value hx
    obtain ⟨hylt,rfl⟩ := digit_value hy
    obtain ⟨hzlt,rfl⟩ := digit_value hz
    obtain ⟨hwlt,rfl⟩ := digit_value hw
    generalize hn : ((x * 64 + y) * 64 + z) * 64 + w = n
    have hwhole : n / 65536 % 256 * 65536 + n / 256 % 256 % 256 * 256 + n % 256 % 256 = n := by
      omega
    have hfirst : n / 262144 = x := by omega
    have hsecond : n / 4096 % 64 = y := by omega
    have hthird : n / 64 % 64 = z := by omega
    have hfourth : n % 64 = w := by omega
    simp only [encode,digits,UInt8.toNat_ofNat',hwhole,hfirst,hsecond,hthird,hfourth,canonical,
      if_neg hone,if_neg htwo,List.cons_append,List.nil_append,List.cons.injEq,true_and]
    exact ih hmore
  | case5 cs hnil hgroup =>
    rw [decode.eq_def] at h
    split at h
    · exact absurd rfl hnil
    · exact absurd rfl (hgroup _ _ _ _ _)
    · cases h

end AgentCentric.Base64

import AgentCentric.Library.Json
import Mathlib.Data.Nat.Digits.Defs

namespace AgentCentric

theorem toString_nat_inj {m n : Nat} (h : toString m = toString n) : m = n := by
  have hdigits : Nat.toDigits 10 m = Nat.toDigits 10 n := String.ofList_injective h
  rw [← Nat.ofDigitChars_ten_toDigits (n := m),hdigits,Nat.ofDigitChars_ten_toDigits]

/-- What follows the last separator is read off from the end. -/
theorem append_cons_inj_of_notMem {α : Type} {c : α} {xs ys ds es : List α} (hd : c ∉ ds)
    (he : c ∉ es) (h : xs ++ c :: ds = ys ++ c :: es) : xs = ys ∧ ds = es := by
  rcases List.append_eq_append_iff.1 h with ⟨zs,hys,hzs⟩ | ⟨zs,hxs,hzs⟩
  · cases zs with
    | nil => simp_all
    | cons z zs =>
      simp only [List.cons_append,List.cons.injEq] at hzs
      exact absurd (by simp [hzs.2]) hd
  · cases zs with
    | nil => simp_all
    | cons z zs =>
      simp only [List.cons_append,List.cons.injEq] at hzs
      exact absurd (by simp [hzs.2]) he

/-- What stands before the first separator is read off from the front. -/
theorem append_cons_inj_front {α : Type} {c : α} {xs ys ds es : List α} (hx : c ∉ xs)
    (hy : c ∉ ys) (h : xs ++ c :: ds = ys ++ c :: es) : xs = ys ∧ ds = es := by
  have hreverse := congrArg List.reverse h
  simp only [List.reverse_append,List.reverse_cons,List.append_assoc,List.singleton_append]
    at hreverse
  obtain ⟨hback,hfront⟩ := append_cons_inj_of_notMem (by simpa using hx) (by simpa using hy)
    hreverse
  exact ⟨List.reverse_injective hfront,List.reverse_injective hback⟩

theorem notMem_toString {c : Char} (hc : c.isDigit = false) (n : Nat) :
    c ∉ (toString n).toList := by
  intro hmem
  have hdigit := Nat.isDigit_of_mem_toDigits (b := 10) (n := n) (by omega) (by omega)
    (by simpa [toString,Nat.repr] using hmem)
  rw [hc] at hdigit
  cases hdigit

/-- The number is what follows the last separator, also where the name has one. -/
theorem numbered_inj {c : Char} (hc : c.isDigit = false) {s t : String} {m n : Nat}
    (h : s.toList ++ c :: (toString m).toList = t.toList ++ c :: (toString n).toList) :
    s = t ∧ m = n := by
  obtain ⟨hname,hnumber⟩ := append_cons_inj_of_notMem (notMem_toString hc m)
    (notMem_toString hc n) h
  exact ⟨String.toList_injective hname,toString_nat_inj (String.toList_injective hnumber)⟩

theorem foldr_max_range' (n start : Nat) : (List.range' (start + 1) n).foldr max 0 =
    if n = 0 then 0 else start + n := by
  induction n generalizing start with
  | zero => rfl
  | succ n ih =>
    rw [List.range'_succ,List.foldr_cons,ih]
    split <;> simp <;> omega

/-- The greatest number of rows that are numbered from one on. -/
theorem foldr_max_numbered (n : Nat) : (List.range' 1 n).foldr max 0 = n := by
  have hmax := foldr_max_range' n 0
  rw [Nat.zero_add] at hmax
  rw [hmax]
  split <;> omega

end AgentCentric

namespace AgentCentric.Utf8

def charBytes (c : Char) : List Nat := (String.utf8EncodeChar c).map (·.toNat)

def bytes (cs : List Char) : List Nat := cs.flatMap charBytes

theorem charBytes_eq (c : Char) : charBytes c = if c.toNat ≤ 0x7f then [c.toNat]
    else if c.toNat ≤ 0x7ff then [c.toNat / 64 + 0xc0,c.toNat % 64 + 0x80]
    else if c.toNat ≤ 0xffff then [c.toNat / 4096 + 0xe0,c.toNat / 64 % 64 + 0x80,
      c.toNat % 64 + 0x80]
    else [c.toNat / 262144 + 0xf0,c.toNat / 4096 % 64 + 0x80,c.toNat / 64 % 64 + 0x80,
      c.toNat % 64 + 0x80] := by
  have hmax := Json.char_toNat_lt c
  have hval : c.val.toNat = c.toNat := rfl
  rw [charBytes,String.utf8EncodeChar]
  simp only [hval]
  split_ifs with h1 h2 h3
  · simp only [List.map_cons,List.map_nil,UInt8.toNat_ofNat',Nat.reducePow,List.cons.injEq,and_true]
    omega
  · simp only [List.map_cons,List.map_nil,UInt8.toNat_ofNat',Nat.reducePow,List.cons.injEq,and_true]
    omega
  · simp only [List.map_cons,List.map_nil,UInt8.toNat_ofNat',Nat.reducePow,List.cons.injEq,and_true]
    omega
  · simp only [List.map_cons,List.map_nil,UInt8.toNat_ofNat',Nat.reducePow,List.cons.injEq,and_true]
    omega

/-- The first byte in which two characters differ decides, whatever follows. -/
theorem charBytes_lt {c d : Char} (h : c < d) (xs ys : List Nat) :
    charBytes c ++ xs < charBytes d ++ ys := by
  have hlt : c.toNat < d.toNat := h
  have hmax := Json.char_toNat_lt d
  rw [charBytes_eq,charBytes_eq]
  split_ifs <;> simp only [List.cons_append,List.nil_append,List.cons_lt_cons_iff] <;> omega

theorem bytes_cons (c : Char) (cs : List Char) : bytes (c :: cs) = charBytes c ++ bytes cs := rfl

theorem charBytes_ne_nil (c : Char) : charBytes c ≠ [] := by
  rw [charBytes_eq]
  split_ifs <;> simp

theorem append_lt_append (xs : List Nat) {ys zs : List Nat} (h : ys < zs) :
    xs ++ ys < xs ++ zs := by
  induction xs with
  | nil => exact h
  | cons x xs ih => exact List.cons_lt_cons_iff.2 (.inr ⟨rfl,ih⟩)

theorem bytes_lt {cs ds : List Char} (h : cs < ds) : bytes cs < bytes ds := by
  induction cs generalizing ds with
  | nil =>
    cases ds with
    | nil => exact absurd h (lt_irrefl _)
    | cons d ds =>
      rw [bytes_cons]
      cases hd : charBytes d with
      | nil => exact absurd hd (charBytes_ne_nil d)
      | cons b bs => exact List.nil_lt_cons b _
  | cons c cs ih =>
    cases ds with
    | nil => exact absurd h (List.not_lt_nil _)
    | cons d ds =>
      rw [bytes_cons,bytes_cons]
      rcases List.cons_lt_cons_iff.1 h with hcd | ⟨rfl,hrest⟩
      · exact charBytes_lt hcd _ _
      · exact append_lt_append _ (ih hrest)

end AgentCentric.Utf8

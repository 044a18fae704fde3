import AgentCentric.Bills.Email

namespace AgentCentric.BillsLoop
open Json Regex

def digits (n : Nat) : List Char := Nat.toDigits 10 n

def padded (width n : Nat) : List Char :=
  List.replicate (width - (digits n).length) '0' ++ digits n

def grouped (n : Nat) : List Char :=
  if n < 1000 then digits n else grouped (n / 1000) ++ ',' :: padded 3 (n % 1000)
termination_by n
decreasing_by omega

def signText (sign : Bool) : List Char := if sign then ['$'] else []

/-- How an amount is written. -/
structure Rendering where
  dollars : Nat
  cents : Nat
  sign : Bool
  separators : Bool
  decimals : Bool
  cents_lt : cents < 100
  whole : decimals = false → cents = 0

namespace Rendering
variable (r : Rendering)

def text : List Char :=
  signText r.sign ++
    (if r.separators then grouped r.dollars else digits r.dollars) ++
    if r.decimals then '.' :: padded 2 r.cents else []

def amount : Nat := 100 * r.dollars + r.cents

end Rendering

theorem digits_ne_nil (n : Nat) : digits n ≠ [] := Nat.toDigits_ne_nil

theorem isDigit_digits {n : Nat} {c : Char} (h : c ∈ digits n) : c.isDigit = true :=
  Nat.isDigit_of_mem_toDigits (by decide) (by decide) h

theorem ofDigits_digits (n : Nat) : ofDigits (digits n) = n := Nat.ofDigitChars_ten_toDigits

theorem isDigit_padded {width n : Nat} {c : Char} (h : c ∈ padded width n) : c.isDigit = true := by
  rcases List.mem_append.mp h with hzero | hdigit
  · rw [List.eq_of_mem_replicate hzero]
    rfl
  · exact isDigit_digits hdigit

theorem ofDigits_padded (width n : Nat) : ofDigits (padded width n) = n := by
  rw [ofDigits,padded,Nat.ofDigitChars_append,Nat.ofDigitChars_replicate_zero,Nat.mul_zero]
  exact ofDigits_digits n

theorem length_digits_lt {n width : Nat} (h : n < 10 ^ width) (hwidth : 0 < width) :
    (digits n).length ≤ width := (Nat.length_toDigits_le_iff (by decide) hwidth).mpr h

theorem length_padded {n width : Nat} (h : n < 10 ^ width) (hwidth : 0 < width) :
    (padded width n).length = width := by
  have hdigits := length_digits_lt h hwidth
  simp [padded]
  omega

theorem grouped_cut {n : Nat} (h : 1000 ≤ n) :
    ∃ lead rest, grouped n = digits lead ++ ',' :: rest ∧ lead ≤ n := by
  induction n using Nat.strong_induction_on with
  | _ n ih =>
    rw [grouped,if_neg (by omega)]
    by_cases hsmall : n / 1000 < 1000
    · rw [grouped,if_pos hsmall]
      exact ⟨n / 1000,padded 3 (n % 1000),rfl,by omega⟩
    · obtain ⟨lead,rest,hcut,hlead⟩ := ih (n / 1000) (by omega) (by omega)
      exact ⟨lead,rest ++ ',' :: padded 3 (n % 1000),by rw [hcut]; simp,by omega⟩

variable {t : Tables} {before read after : List Char} {groups : List (Nat × List Char)}

theorem isDigit_toNat {c : Char} (h : c.isDigit = true) : 48 ≤ c.val.toNat ∧ c.val.toNat ≤ 57 := by
  simpa [Char.isDigit,UInt32.le_iff_toNat_le] using h

theorem digit_ascii {c : Char} (h : c.isDigit = true) : c.val < 128 := by
  have hval := isDigit_toNat h
  rw [UInt32.lt_iff_toNat_lt]
  change c.val.toNat < 128
  omega

theorem word_digit {c : Char} (h : c.isDigit = true) : t.word c = true := by
  rw [t.word_ascii c (digit_ascii h)]
  simp [Char.isAlphanum,h]

theorem space_digit {c : Char} (h : c.isDigit = true) : t.space c = false := by
  have hval := isDigit_toNat h
  rw [t.space_ascii c (digit_ascii h)]
  simp only [UInt32.le_iff_toNat_le,decide_eq_false_iff_not]
  change ¬(9 ≤ c.val.toNat ∧ c.val.toNat ≤ 13 ∨ 28 ≤ c.val.toNat ∧ c.val.toNat ≤ 32)
  omega

theorem figure_whole (hne : read ≠ []) (hread : ∀ c ∈ read, c.isDigit = true)
    (hafter : ∀ c ∈ after.head?, c.isDigit = false)
    (hpoint : ∀ c rest, after = '.' :: c :: rest → c.isDigit = false) :
    Regex.First figure ⟨before,read ++ after,groups⟩ ⟨read.reverse ++ before,after,groups⟩ := by
  refine (first_some hne hread hafter).seq (first_optional_none ?_)
  match after with
  | [] => rfl
  | c :: rest =>
    by_cases hc : c = '.'
    · subst hc
      match rest with
      | [] => rfl
      | d :: rest => simp [Pattern.all,ways,digit,hpoint d rest rfl]
    · simp [Pattern.all,ways,hc]

theorem figure_fraction {a b : Char} (hne : read ≠ []) (hread : ∀ c ∈ read, c.isDigit = true)
    (ha : a.isDigit = true) (hb : b.isDigit = true)
    (hafter : ∀ c ∈ after.head?, c.isDigit = false) :
    Regex.First figure ⟨before,(read ++ ['.',a,b]) ++ after,groups⟩
      ⟨(read ++ ['.',a,b]).reverse ++ before,after,groups⟩ := by
  have hwhole := @first_some Char.isDigit before read ('.' :: a :: b :: after) groups hne hread
    (by simp)
  have hpoint := @first_set (· = '.') '.' (read.reverse ++ before) (a :: b :: after) groups
    (by simp)
  have hone := @first_set Char.isDigit a ('.' :: (read.reverse ++ before)) (b :: after) groups ha
  have htwo := @first_upTo Char.isDigit (a :: '.' :: (read.reverse ++ before)) [b] after groups 1
    (by simpa using hb) hafter (by simp)
  have hfraction := (hpoint.all_cons (hone.all_cons (htwo.all_cons first_all_nil))).optional
  have h := hwhole.seq hfraction
  simpa [figure,digit] using h

theorem word_first {word : List Char} (hword : word ∈ ["total".toList,"amount".toList]) :
    Regex.First (.either (t.literal "total") (t.literal "amount")) ⟨before,word ++ after,groups⟩
      ⟨word.reverse ++ before,after,groups⟩ := by
  have hlower (c : Char) (hc : c ∈ "total".toList ++ "amount".toList) : t.lower c ∈ alike c := by
    have hascii : c.val < 128 ∧ c.toLower ∈ alike c := by
      have hall : (("total".toList ++ "amount".toList).all fun c =>
          decide (c.val < 128 ∧ c.toLower ∈ alike c)) = true := by decide
      exact of_decide_eq_true (List.all_eq_true.1 hall c hc)
    rw [t.lower_ascii c hascii.1]
    exact hascii.2
  rcases List.mem_pair.mp hword with rfl | rfl
  · exact (Tables.first_letters (fun c hc => hlower c (List.mem_append_left _ hc)) before).left
  · have ha : t.lower 'a' = 'a' := t.lower_ascii 'a' (by decide)
    have hnone : ways (t.letter 't') ⟨before,"amount".toList ++ after,groups⟩ = [] := by
      simp [Tables.letter,ways,ha,alike]
    exact Regex.First.right (ways_all_none hnone)
      (Tables.first_letters (fun c hc => hlower c (List.mem_append_right _ hc)) before)

theorem any_head {p : Char → Bool} {text : List Char} (h : ∀ c ∈ text.head?, p c = false) :
    text.head?.any p = false := by
  cases hhead : text.head? with
  | none => rfl
  | some c => exact h c hhead

theorem amountRe_first {word : List Char} (hword : word ∈ ["total".toList,"amount".toList])
    (sign : Bool) {c d : Char} {rest front : List Char} (hfirst : read = c :: rest)
    (hlast : read = front ++ [d]) (hc : c.isDigit = true) (hd : d.isDigit = true)
    (hedge : ∀ c ∈ before.head?, t.word c = false) (hafter : ∀ c ∈ after.head?, t.word c = false)
    (hfigure : ∀ before, Regex.First figure ⟨before,read ++ after,[]⟩ ⟨read.reverse ++ before,after,[]⟩) :
    ∃ before', Regex.First (amountRe t)
      ⟨before,word ++ (':' :: ' ' :: signText sign ++ (read ++ after)),[]⟩
      ⟨before',after,[(1,read)]⟩ := by
  have hcolon : t.space ':' = false := by
    rw [t.space_ascii ':' (by decide)]
    decide
  have hblank : t.space ' ' = true := by
    rw [t.space_ascii ' ' (by decide)]
    decide
  have hdollar : t.space '$' = false := by
    rw [t.space_ascii '$' (by decide)]
    decide
  have hnext : ∀ e ∈ (signText sign ++ (read ++ after)).head?, t.space e = false := by
    cases sign with
    | true => simpa [signText] using hdollar
    | false => simpa [signText,hfirst] using space_digit hc
  have hstart : atBoundary t.word
      ⟨before,word ++ (':' :: ' ' :: signText sign ++ (read ++ after)),[]⟩ = true := by
    have ht : t.word 't' = true := (t.word_ascii 't' (by decide)).trans (by decide)
    have ha : t.word 'a' = true := (t.word_ascii 'a' (by decide)).trans (by decide)
    have hside := any_head hedge
    rcases List.mem_pair.mp hword with rfl | rfl
    · simp [atBoundary,hside,ht]
    · simp [atBoundary,hside,ha]
  have hend (before' : List Char) :
      atBoundary t.word ⟨read.reverse ++ before',after,[(1,read)]⟩ = true := by
    have hside := any_head hafter
    simp [atBoundary,hside,hlast,word_digit hd]
  have hspace := @first_many t.space (word.reverse ++ before) []
    (':' :: ' ' :: signText sign ++ (read ++ after)) [] (by simp) (by simpa using hcolon)
  have hmark := (@first_set (fun c => c = ':' || c = '$') ':' (word.reverse ++ before)
    (' ' :: signText sign ++ (read ++ after)) [] (by simp)).optional
  have hgap := @first_many t.space (':' :: (word.reverse ++ before)) [' ']
    (signText sign ++ (read ++ after)) [] (by simpa using hblank) hnext
  have hsign : Regex.First (maybe (· = '$'))
      ⟨' ' :: ':' :: (word.reverse ++ before),signText sign ++ (read ++ after),[]⟩
      ⟨(signText sign).reverse ++ ' ' :: ':' :: (word.reverse ++ before),read ++ after,[]⟩ := by
    cases sign with
    | true => exact (@first_set (· = '$') '$' _ (read ++ after) [] (by simp)).optional
    | false =>
      refine first_optional_none (ways_set_none ?_)
      have hne : c ≠ '$' := by
        rintro rfl
        cases hc
      simpa [signText,hfirst] using hne
  refine ⟨_,(first_boundary hstart).all_cons ((word_first hword).all_cons (hspace.all_cons
    (hmark.all_cons (hgap.all_cons (hsign.all_cons ((Regex.First.group (hfigure _)).all_cons
      ((first_boundary (hend _)).all_cons first_all_nil)))))))⟩

theorem dropWhile_none {p : Char → Bool} {text : List Char} (h : ∀ c ∈ text, p c = false) :
    text.dropWhile p = text := by
  cases text with
  | nil => rfl
  | cons c rest => simp [h c List.mem_cons_self]

theorem strip_self {text : List Char} (h : ∀ c ∈ text, t.space c = false) :
    strip t text = text := by
  rw [strip,dropWhile_none h,dropWhile_none (by simpa using h),List.reverse_reverse]

theorem point_notMem (h : ∀ c ∈ read, c.isDigit = true) : '.' ∉ read := by
  intro hmem
  have hpoint := h '.' hmem
  cases hpoint

theorem parseMoney_digits (hne : read ≠ []) (hread : ∀ c ∈ read, c.isDigit = true) :
    parseMoney t read = some (ofDigits read) := by
  have hstrip : strip t read = read := strip_self fun c hc => space_digit (hread c hc)
  have hcount : read.count '.' = 0 := List.count_eq_zero.mpr (point_notMem hread)
  have hall : allDigits read = true := by simpa [allDigits,hne] using hread
  simp [parseMoney,hstrip,hcount,hall]

theorem parseMoney_fraction {a b : Char} (hne : read ≠ [])
    (hread : ∀ c ∈ read, c.isDigit = true) (ha : a.isDigit = true) (hb : b.isDigit = true) :
    parseMoney t (read ++ ['.',a,b]) = some (ofDigits read * 100 + ofDigits [a,b]) := by
  have hpoint := point_notMem hread
  have hspace : t.space '.' = false := (t.space_ascii '.' (by decide)).trans (by decide)
  have hstrip : strip t (read ++ ['.',a,b]) = read ++ ['.',a,b] := by
    refine strip_self fun c hc => ?_
    simp only [List.mem_append,List.mem_cons,List.not_mem_nil,or_false] at hc
    rcases hc with hc | rfl | rfl | rfl
    · exact space_digit (hread c hc)
    · exact hspace
    · exact space_digit ha
    · exact space_digit hb
  have hdots : a ≠ '.' ∧ b ≠ '.' := by
    constructor
    · rintro rfl
      cases ha
    · rintro rfl
      cases hb
  have hcount : (read ++ ['.',a,b]).count '.' = 1 := by
    simp [List.count_append,List.count_eq_zero.mpr hpoint,hdots]
  have htake : (read ++ ['.',a,b]).takeWhile (· ≠ '.') = read := by
    rw [List.takeWhile_append_of_pos]
    · simp
    · intro c hc
      simpa using fun heq : c = '.' => hpoint (heq ▸ hc)
  have hdrop : (read ++ ['.',a,b]).dropWhile (· ≠ '.') = ['.',a,b] := by
    rw [List.dropWhile_append_of_pos]
    · simp
    · intro c hc
      simpa using fun heq : c = '.' => hpoint (heq ▸ hc)
  have hall : allDigits read = true := by simpa [allDigits,hne] using hread
  have hfrac : allDigits [a,b] = true := by simp [allDigits,ha,hb]
  simp only [parseMoney,hstrip,hcount,htake,hdrop]
  simp [hall,hfrac]

structure Announces (t : Tables) (text : List Char) (r : Rendering)
    (before word after : List Char) : Prop where
  text_eq : text = before ++ (word ++ (':' :: ' ' :: (r.text ++ after)))
  word_mem : word ∈ ["total".toList,"amount".toList]
  edge : ∀ c ∈ before.getLast?, t.word c = false
  first : ∀ xs c ys, before = xs ++ c :: ys →
    ways (amountRe t) ⟨xs.reverse,c :: ys ++ (word ++ (':' :: ' ' :: (r.text ++ after))),[]⟩ = []
  ended : ∀ c ∈ after.head?, t.word c = false
  /-- The figure does not go on. -/
  whole : ∀ c rest, after = '.' :: c :: rest → c.isDigit = false

variable {text word : List Char} {r : Rendering} {message : List (String × Json)}

theorem not_digit_of_word {c : Char} (h : t.word c = false) : c.isDigit = false := by
  cases hc : c.isDigit with
  | false => rfl
  | true => rw [word_digit hc] at h; cases h

theorem Announces.found_eq (h : Announces t text r before word after) {rest : List Char}
    (hsplit : r.text ++ after = signText r.sign ++ (read ++ rest)) (hne : read ≠ [])
    (hfirst : ∀ c ∈ read.head?, c.isDigit = true) (hlast : ∀ c ∈ read.getLast?, c.isDigit = true)
    (hrest : ∀ c ∈ rest.head?, t.word c = false)
    (hfigure : ∀ before, Regex.First figure ⟨before,read ++ rest,[]⟩ ⟨read.reverse ++ before,rest,[]⟩) :
    found (amountRe t) 1 text = some read := by
  obtain ⟨c,more,hcons⟩ := List.exists_cons_of_ne_nil hne
  obtain ⟨front,d,hconcat⟩ := (List.eq_nil_or_concat' read).resolve_left hne
  have hedge : ∀ c ∈ before.reverse.head?, t.word c = false := by
    simpa using h.edge
  obtain ⟨before',hway⟩ := amountRe_first h.word_mem r.sign hcons hconcat
    (hfirst c (by rw [hcons]; rfl)) (hlast d (by simp [hconcat])) hedge hrest hfigure
  have hsearch := search_first h.first (t := ⟨before',rest,[(1,read)]⟩) (by rw [hsplit]; exact hway)
  rw [found,h.text_eq,hsearch]
  rfl

def Rendering.cut (r : Rendering) : Prop := r.separators = true ∧ 1000 ≤ r.dollars

theorem head_digit {c : Char} {xs : List Char} (hxs : ∀ c ∈ xs, c.isDigit = true)
    (h : c ∈ xs.head?) : c.isDigit = true := hxs c (List.mem_of_mem_head? h)

theorem Announces.reads (h : Announces t text r before word after) :
    ∃ n, (found (amountRe t) 1 text).bind (parseMoney t) = some n ∧ (r.cut → n ≤ r.dollars) ∧
      (¬r.cut → n = if r.decimals then r.amount else r.dollars) := by
  have hplain : ∀ c ∈ after.head?, c.isDigit = false := fun c hc => not_digit_of_word (h.ended c hc)
  by_cases hcut : r.cut
  · obtain ⟨lead,rest,hgrouped,hlead⟩ := grouped_cut hcut.2
    have hcomma : t.word ',' = false := (t.word_ascii ',' (by decide)).trans (by decide)
    have hread : ∀ c ∈ digits lead, c.isDigit = true := fun c hc => isDigit_digits hc
    obtain ⟨tail,hsplit⟩ : ∃ tail, r.text ++ after =
        signText r.sign ++ (digits lead ++ ',' :: tail) := by
      refine ⟨rest ++ ((if r.decimals then '.' :: padded 2 r.cents else []) ++ after),?_⟩
      simp [Rendering.text,hcut.1,hgrouped]
    have hfound := h.found_eq hsplit (digits_ne_nil lead) (fun c hc => head_digit hread hc)
      (fun c hc => hread c (List.mem_of_mem_getLast? hc)) (by simpa using hcomma)
      (fun before => figure_whole (digits_ne_nil lead) hread (by simp [Char.isDigit]) (by simp))
    refine ⟨lead,?_,fun _ => hlead,fun hnot => absurd hcut hnot⟩
    rw [hfound]
    exact (parseMoney_digits (digits_ne_nil lead) hread).trans (by rw [ofDigits_digits])
  · have hnumber : (if r.separators then grouped r.dollars else digits r.dollars) =
        digits r.dollars := by
      split
      · rename_i hseparators
        rw [grouped,if_pos]
        by_contra hlarge
        exact hcut ⟨hseparators,by omega⟩
      · rfl
    have hread : ∀ c ∈ digits r.dollars, c.isDigit = true := fun c hc => isDigit_digits hc
    have hne := digits_ne_nil r.dollars
    cases hdecimals : r.decimals with
    | false =>
      have hsplit : r.text ++ after = signText r.sign ++ (digits r.dollars ++ after) := by
        simp [Rendering.text,hnumber,hdecimals]
      have hfound := h.found_eq hsplit hne (fun c hc => head_digit hread hc)
        (fun c hc => hread c (List.mem_of_mem_getLast? hc)) h.ended
        (fun before => figure_whole hne hread hplain h.whole)
      refine ⟨r.dollars,?_,fun _ => le_refl _,fun _ => by simp⟩
      rw [hfound]
      exact (parseMoney_digits hne hread).trans (by rw [ofDigits_digits])
    | true =>
      obtain ⟨a,b,hcents⟩ : ∃ a b, padded 2 r.cents = [a,b] :=
        List.length_eq_two.mp (@length_padded r.cents 2 (by simpa using r.cents_lt) (by decide))
      have ha : a.isDigit = true := @isDigit_padded 2 r.cents _ (by rw [hcents]; simp)
      have hb : b.isDigit = true := @isDigit_padded 2 r.cents _ (by rw [hcents]; simp)
      have hsplit : r.text ++ after =
          signText r.sign ++ ((digits r.dollars ++ ['.',a,b]) ++ after) := by
        simp [Rendering.text,hnumber,hdecimals,hcents]
      have hfound := h.found_eq hsplit (by simp)
        (fun c hc => by
          rw [List.head?_append_of_ne_nil _ hne] at hc
          exact head_digit hread hc)
        (fun c hc => by
          obtain rfl : b = c := by simpa using hc
          exact hb) h.ended
        (fun before => figure_fraction hne hread ha hb hplain)
      refine ⟨r.amount,?_,fun hcut' => absurd hcut' hcut,fun _ => by simp⟩
      rw [hfound]
      refine (parseMoney_fraction hne hread ha hb).trans ?_
      rw [← hcents,ofDigits_padded,ofDigits_digits,Rendering.amount,Nat.mul_comm]

/-- The message is not complete without the amount. -/
def Lacks (t : Tables) (message : List (String × Json)) : Prop :=
  textOf (get message "folder") = none ∨ textOf (get message "id") = none ∨
    ((found (vendorEmailRe t) 1 (emailText message)).map (strip t)).getD [] = [] ∨
    found (dueRe t) 1 (emailText message) = none

/-- `draft["amount_cents"]` -/
def draftAmount : Json → Json
  | .dict items => get items "amount_cents"
  | _ => .null

theorem email_draft {n : Nat}
    (hread : (found (amountRe t) 1 (emailText message)).bind (parseMoney t) = some n) :
    (¬Lacks t message → ∃ draft, draftFromEmail t message = .ok draft) ∧
      ∀ draft, draftFromEmail t message = .ok draft →
        ¬Lacks t message ∧ draftAmount draft = .int n := by
  have hcomplete : (parsed t message).incomplete = false ↔
      ((found (vendorEmailRe t) 1 (emailText message)).map (strip t)).getD [] ≠ [] ∧
        found (dueRe t) 1 (emailText message) ≠ none := by
    cases hfound : found (dueRe t) 1 (emailText message) with
    | none => simp [Parsed.incomplete,parsed,emailParsed,hfound]
    | some due =>
      have hdue : due ≠ [] := by
        rintro rfl
        exact absurd (due_length hfound) (by decide)
      simp [Parsed.incomplete,parsed,emailParsed,hfound,hread,hdue]
  constructor
  · intro hlacks
    simp only [Lacks,not_or] at hlacks
    obtain ⟨hfolder,hid,hvendor,hdue⟩ := hlacks
    obtain ⟨folder,hfolder⟩ := Option.ne_none_iff_exists'.mp hfolder
    obtain ⟨id,hid⟩ := Option.ne_none_iff_exists'.mp hid
    exact ⟨_,draftFromEmail_ok.mpr ⟨folder,id,hfolder,hid,hcomplete.mpr ⟨hvendor,hdue⟩,rfl⟩⟩
  · intro draft hdraft
    obtain ⟨folder,id,hfolder,hid,hfields,rfl⟩ := draftFromEmail_ok.mp hdraft
    obtain ⟨hvendor,hdue⟩ := hcomplete.mp hfields
    refine ⟨by simp [Lacks,hfolder,hid,hvendor,hdue],?_⟩
    simp [draftAmount,Parsed.draft,get,Dict.lookup,parsed,emailParsed,hread]

/-- The amount of a draft is the one in the message exactly where the message has decimals and no
comma in the figure, or no dollars. -/
theorem email_amount_iff (h : Announces t (emailText message) r before word after) :
    (∀ draft, draftFromEmail t message = .ok draft → draftAmount draft = .int r.amount) ↔
      Lacks t message ∨ r.decimals = true ∧ (r.separators = false ∨ r.dollars < 1000) ∨
        r.dollars = 0 := by
  obtain ⟨n,hread,hcut,hplain⟩ := h.reads
  obtain ⟨hmade,hdraft⟩ := email_draft hread
  have hfigure : ¬r.cut ↔ r.separators = false ∨ r.dollars < 1000 := by
    rw [Rendering.cut]
    cases r.separators <;> simp
  have hamount : r.amount = 100 * r.dollars + r.cents := rfl
  constructor
  · intro hall
    by_cases hlacks : Lacks t message
    · exact .inl hlacks
    · obtain ⟨draft,hok⟩ := hmade hlacks
      have hsame : n = r.amount := by
        have hint := (hdraft draft hok).2.symm.trans (hall draft hok)
        simpa using hint
      by_cases hcomma : r.cut
      · have hle := hcut hcomma
        exact .inr (.inr (by omega))
      · have hn := hplain hcomma
        cases hdecimals : r.decimals with
        | true => exact .inr (.inl ⟨rfl,hfigure.mp hcomma⟩)
        | false =>
          rw [hdecimals] at hn
          have hd : n = r.dollars := hn
          exact .inr (.inr (by omega))
  · rintro (hlacks | ⟨hdecimals,hcomma⟩ | hzero) draft hok
    · exact absurd hlacks (hdraft draft hok).1
    · have hn := hplain (hfigure.mpr hcomma)
      rw [hdecimals] at hn
      rw [(hdraft draft hok).2,hn]
      rfl
    · have hn := hplain fun hcomma => absurd hcomma.2 (by omega)
      have hsame : n = r.amount := by
        cases hdecimals : r.decimals with
        | true => rw [hn,hdecimals]; rfl
        | false =>
          have hcents := r.whole hdecimals
          rw [hn,hdecimals,hamount,hcents,hzero]
          rfl
      rw [(hdraft draft hok).2,hsame]

namespace EmailExample

/-- `$100.00` -/
def hundred : Rendering := ⟨100,0,true,false,true,by decide,fun h => by cases h⟩

/-- `$1,234.56` -/
def thousands : Rendering := ⟨1234,56,true,true,true,by decide,fun h => by cases h⟩

def lead : List Char := "from A due 2024-01-01 ".toList

def bill (figure : String) : List (String × Json) :=
  mail "inbox" ("due 2024-01-01 total: " ++ figure)

theorem no_way {r : Pattern} {before after : List Char}
    (h : ((List.range before.length).all fun n =>
      (ways r ⟨(before.take n).reverse,before.drop n ++ after,[]⟩).isEmpty) = true) :
    ∀ xs c ys, before = xs ++ c :: ys → ways r ⟨xs.reverse,c :: ys ++ after,[]⟩ = [] := by
  rintro xs c ys rfl
  have hxs := List.all_eq_true.mp h xs.length (by simp)
  simpa using hxs

theorem announces {r : Rendering} {figure : String} (htext : r.text = figure.toList)
    (hbill : emailText (bill figure) = lead ++ ("total".toList ++ (':' :: ' ' :: figure.toList)))
    (hfirst : ((List.range lead.length).all fun n => (ways (amountRe ascii) ⟨(lead.take n).reverse,
      lead.drop n ++ ("total".toList ++ (':' :: ' ' :: figure.toList)),[]⟩).isEmpty) = true) :
    Announces ascii (emailText (bill figure)) r lead "total".toList [] where
  text_eq := by rw [hbill,htext,List.append_nil]
  word_mem := by decide
  edge := by
    intro c hc
    have hword : (lead.getLast?.all fun c => !ascii.word c) = true := by decide
    rw [Option.mem_def.1 hc] at hword
    simpa using hword
  first := by
    rw [htext,List.append_nil]
    exact no_way hfirst
  ended := by simp
  whole := by simp

theorem thousands_text : thousands.text = "$1,234.56".toList := by
  have hgrouped : grouped 1234 = digits 1 ++ ',' :: padded 3 234 := by
    rw [grouped,if_neg (by decide),grouped,if_pos (by decide)]
  change signText true ++ grouped 1234 ++ '.' :: padded 2 56 = _
  rw [hgrouped]
  decide

end EmailExample

open EmailExample in
theorem email_amount_hundred : ∃ draft, draftFromEmail ascii (bill "$100.00") = .ok draft ∧
    draftAmount draft = .int 10000 := by
  obtain ⟨draft,hdraft⟩ := @returns (bill "$100.00") (by decide +kernel)
  have hannounces : Announces ascii (emailText (bill "$100.00")) hundred lead "total".toList [] :=
    announces (by decide) (by decide +kernel) (by decide +kernel)
  exact ⟨draft,hdraft,(email_amount_iff hannounces).mpr (.inr (.inl ⟨rfl,.inl rfl⟩)) draft hdraft⟩

open EmailExample in
/-- A figure is cut at its comma. -/
theorem amount_cut_at_comma : ¬∀ (t : Tables) (message : List (String × Json)) (r : Rendering)
    (before word after : List Char) (draft : Json),
    Announces t (emailText message) r before word after → draftFromEmail t message = .ok draft →
      draftAmount draft = .int r.amount := by
  intro h
  obtain ⟨draft,hdraft⟩ := @returns (bill "$1,234.56") (by decide +kernel)
  have hannounces : Announces ascii (emailText (bill "$1,234.56")) thousands lead
      "total".toList [] := announces thousands_text (by decide +kernel) (by decide +kernel)
  obtain ⟨n,hread,hcut,-⟩ := hannounces.reads
  have hn : n ≤ 1234 := hcut ⟨rfl,by decide⟩
  have hgiven := ((email_draft hread).2 draft hdraft).2.symm.trans
    (h ascii _ thousands _ _ _ draft hannounces hdraft)
  have hamount : n = 123456 := by exact_mod_cast Json.int.inj hgiven
  omega

end AgentCentric.BillsLoop

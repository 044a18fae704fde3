import AgentCentric.Bills.Loop
import AgentCentric.Bills.Registry
import Mathlib.Algebra.Order.BigOperators.Group.List

namespace AgentCentric.Bills
open Json Rounding

def requireWhole (value : Json) (name : String) : Except Raised Int :=
  match value with
  | .int n => .ok n
  | value => .error (.valueError (name ++ " must be an integer, got " ++ value.repr ++ "."))

def requireInt (value : Json) (name : String) : Except Raised {n : Int // 0 ≤ n} := do
  let n ← requireWhole value name
  if h : 0 ≤ n then .ok ⟨n,h⟩
  else .error (.valueError (name ++ " must be non-negative, got " ++ toString n ++ "."))

def requirePositiveInt (value : Json) (name : String) : Except Raised {n : Int // 0 < n} := do
  let n ← requireWhole value name
  if h : 0 < n then .ok ⟨n,h⟩
  else .error (.valueError (name ++ " must be positive, got " ++ toString n ++ "."))

abbrev Bps := {n : Int // 0 ≤ n ∧ n ≤ 10000}

def requireBps (value : Json) (name : String) : Except Raised Bps := do
  let n ← requireWhole value name
  if h : 0 ≤ n ∧ n ≤ 10000 then .ok ⟨n,h⟩
  else .error (.valueError (name ++ " must be between 0 and 10000 (0%..100%), got " ++
    toString n ++ "."))

structure BillLine where
  description : Text
  quantity : {n : Int // 0 < n}
  unitPriceCents : {n : Int // 0 ≤ n}

namespace BillLine

def fromMapping : Json → Except Raised BillLine
  | .dict data => do
    let description ← requireText (get data "description" (.str ""))
      "BillLine description must be a non-empty string."
    let quantity ← requirePositiveInt (get data "quantity" .null) "quantity"
    let unitPriceCents ← requireInt (get data "unit_price_cents" .null) "unit_price_cents"
    pure ⟨description,quantity,unitPriceCents⟩
  | data => .error (.valueError ("Bill line must be a mapping, got " ++ data.repr ++ "."))

def asMapping (line : BillLine) : Json :=
  .dict [("description",.str line.description),("quantity",.int line.quantity),
    ("unit_price_cents",.int line.unitPriceCents)]

def amount (line : BillLine) : Int := line.quantity * line.unitPriceCents

end BillLine

structure Bill where
  lines : List BillLine
  discountBps : Bps
  taxBps : Bps
  nonempty : lines ≠ []

namespace Bill

def fromMapping : Json → Except Raised Bill
  | .dict data => do
    let given ← match get data "lines" .null with
      | .list (line :: rest) => .ok (line :: rest)
      | _ => .error (.valueError "Bill 'lines' must be a non-empty list.")
    let lines ← given.mapM BillLine.fromMapping
    if h : lines ≠ [] then
      let discountBps ← requireBps (get data "discount_bps" (.int 0)) "discount_bps"
      let taxBps ← requireBps (get data "tax_bps" (.int 0)) "tax_bps"
      pure ⟨lines,discountBps,taxBps,h⟩
    else .error (.valueError "Bill must contain at least one line.")
  | data => .error (.valueError ("Bill must be a mapping, got " ++ data.repr ++ "."))

def linesMapping (bill : Bill) : Json := .list (bill.lines.map BillLine.asMapping)

def asMapping (bill : Bill) : Json :=
  .dict [("lines",bill.linesMapping),("discount_bps",.int bill.discountBps),
    ("tax_bps",.int bill.taxBps)]

/-- `sum(line.quantity * line.unit_price_cents for line in bill.lines)`. -/
def subtotal (bill : Bill) : Int := (bill.lines.map BillLine.amount).sum

end Bill

structure BillTotal where
  lineSubtotalCents : {n : Int // 0 ≤ n}
  discountCents : {n : Int // 0 ≤ n}
  taxableAmountCents : {n : Int // 0 ≤ n}
  taxCents : {n : Int // 0 ≤ n}
  grandTotalCents : {n : Int // 0 ≤ n}

def roundHalfUp (numerator denominator : Int) : Int := halfUp numerator denominator

def BillTotal.make (subtotal discount taxable tax total : Int) : Except Raised BillTotal := do
  let subtotal ← requireInt (.int subtotal) "line_subtotal_cents"
  let discount ← requireInt (.int discount) "discount_cents"
  let taxable ← requireInt (.int taxable) "taxable_amount_cents"
  let tax ← requireInt (.int tax) "tax_cents"
  let total ← requireInt (.int total) "grand_total_cents"
  pure ⟨subtotal,discount,taxable,tax,total⟩

def BillTotal.compute (bill : Bill) : Except Raised BillTotal :=
  let lineSubtotal := bill.subtotal
  let discount := roundHalfUp (lineSubtotal * bill.discountBps) 10000
  let taxable := lineSubtotal - discount
  let tax := roundHalfUp (taxable * bill.taxBps) 10000
  BillTotal.make lineSubtotal discount taxable tax (taxable + tax)

theorem requireInt_written (n : {n : Int // 0 ≤ n}) (name : String) :
    requireInt (.int n) name = .ok n := dif_pos n.2

theorem requirePositiveInt_written (n : {n : Int // 0 < n}) (name : String) :
    requirePositiveInt (.int n) name = .ok n := dif_pos n.2

theorem requireBps_written (n : Bps) (name : String) : requireBps (.int n) name = .ok n :=
  dif_pos n.2

theorem requireText_written (s : Text) (message : String) :
    requireText (.str s) message = .ok s := dif_pos s.2

theorem BillLine.fromMapping_asMapping (line : BillLine) :
    BillLine.fromMapping line.asMapping = .ok line :=
  bind_ok.mpr ⟨_,requireText_written line.description _,bind_ok.mpr ⟨_,
    requirePositiveInt_written line.quantity _,bind_ok.mpr ⟨_,
      requireInt_written line.unitPriceCents _,rfl⟩⟩⟩

theorem Bill.fromMapping_asMapping (bill : Bill) : Bill.fromMapping bill.asMapping = .ok bill := by
  have hlines := mapM_written BillLine.fromMapping_asMapping bill.lines
  obtain ⟨lines,discountBps,taxBps,hne⟩ := bill
  cases lines with
  | nil => exact absurd rfl hne
  | cons line rest =>
    refine bind_ok.mpr ⟨_,rfl,bind_ok.mpr ⟨_,hlines,?_⟩⟩
    rw [dif_pos hne]
    exact bind_ok.mpr ⟨_,requireBps_written discountBps _,bind_ok.mpr ⟨_,
      requireBps_written taxBps _,rfl⟩⟩

theorem BillLine.amount_nonneg (line : BillLine) : 0 ≤ line.amount :=
  mul_nonneg line.quantity.2.le line.unitPriceCents.2

theorem Bill.subtotal_nonneg (bill : Bill) : 0 ≤ bill.subtotal := by
  refine List.sum_nonneg fun amount hamount => ?_
  obtain ⟨line,-,rfl⟩ := List.mem_map.mp hamount
  exact line.amount_nonneg

theorem share_bounds {n : Int} (hn : 0 ≤ n) (rate : Bps) :
    0 ≤ roundHalfUp (n * rate) 10000 ∧ roundHalfUp (n * rate) 10000 ≤ n := by
  constructor
  · exact halfUp_nonneg (by decide) (mul_nonneg hn rate.2.1)
  · exact halfUp_le (by decide) (mul_le_mul_of_nonneg_left rate.2.2 hn)

def taxableOf (n : Int) (rate : Bps) : Int := n - roundHalfUp (n * rate) 10000

def withTax (n : Int) (rate : Bps) : Int := n + roundHalfUp (n * rate) 10000

theorem taxableOf_nonneg {n : Int} (hn : 0 ≤ n) (rate : Bps) : 0 ≤ taxableOf n rate := by
  have hshare := share_bounds hn rate
  rw [taxableOf]
  omega

theorem taxableOf_mono {n m : Int} (h : n ≤ m) (rate : Bps) :
    taxableOf n rate ≤ taxableOf m rate := by
  have hgrown : m * rate = n * rate + (m - n) * rate := by ring
  have hshare := halfUp_add_le (d := 10000) (by decide) (n := n * rate) (k := m - n) (by omega)
    rate.2.2
  rw [taxableOf,taxableOf,hgrown,roundHalfUp,roundHalfUp]
  omega

theorem taxableOf_anti {n : Int} (hn : 0 ≤ n) {rate rate' : Bps} (h : rate'.1 ≤ rate.1) :
    taxableOf n rate ≤ taxableOf n rate' := by
  have hshare := halfUp_mono (d := 10000) (by decide) (mul_le_mul_of_nonneg_left h hn)
  rw [taxableOf,taxableOf,roundHalfUp,roundHalfUp]
  omega

theorem withTax_mono {n m : Int} (hn : 0 ≤ n) (h : n ≤ m) {rate rate' : Bps}
    (hrate : rate.1 ≤ rate'.1) : withTax n rate ≤ withTax m rate' := by
  have hshare := halfUp_mono (d := 10000) (by decide)
    (mul_le_mul h hrate rate.2.1 (hn.trans h))
  rw [withTax,withTax,roundHalfUp,roundHalfUp]
  omega

theorem BillTotal.compute_ok (bill : Bill) : ∃ total, BillTotal.compute bill = .ok total ∧
    total.lineSubtotalCents = bill.subtotal ∧
    total.discountCents = roundHalfUp (bill.subtotal * bill.discountBps) 10000 ∧
    total.taxableAmountCents = taxableOf bill.subtotal bill.discountBps ∧ total.taxCents =
      roundHalfUp (taxableOf bill.subtotal bill.discountBps * bill.taxBps) 10000 ∧
    total.grandTotalCents = withTax (taxableOf bill.subtotal bill.discountBps) bill.taxBps := by
  have hsubtotal := bill.subtotal_nonneg
  have hdiscount := share_bounds hsubtotal bill.discountBps
  have htaxable := taxableOf_nonneg hsubtotal bill.discountBps
  have htax := share_bounds htaxable bill.taxBps
  have htotal : 0 ≤ withTax (taxableOf bill.subtotal bill.discountBps) bill.taxBps := by
    rw [withTax]
    omega
  refine ⟨⟨⟨_,hsubtotal⟩,⟨_,hdiscount.1⟩,⟨_,htaxable⟩,⟨_,htax.1⟩,⟨_,htotal⟩⟩,?_,rfl,rfl,rfl,rfl,rfl⟩
  exact bind_ok.mpr ⟨_,requireInt_written ⟨_,hsubtotal⟩ _,bind_ok.mpr ⟨_,
    requireInt_written ⟨_,hdiscount.1⟩ _,bind_ok.mpr ⟨_,requireInt_written ⟨_,htaxable⟩ _,
      bind_ok.mpr ⟨_,requireInt_written ⟨_,htax.1⟩ _,bind_ok.mpr ⟨_,
        requireInt_written ⟨_,htotal⟩ _,rfl⟩⟩⟩⟩⟩

structure Bill.Grows (bill bill' : Bill) : Prop where
  lines : List.Forall₂ (fun line line' : BillLine => line.quantity.1 ≤ line'.quantity.1 ∧
    line.unitPriceCents.1 ≤ line'.unitPriceCents.1) bill.lines bill'.lines
  discount : bill'.discountBps.1 ≤ bill.discountBps.1
  tax : bill.taxBps.1 ≤ bill'.taxBps.1

theorem Bill.Grows.subtotal {bill bill' : Bill} (h : bill.Grows bill') :
    bill.subtotal ≤ bill'.subtotal := by
  have hamounts : List.Forall₂ (· ≤ ·) (bill.lines.map BillLine.amount)
      (bill'.lines.map BillLine.amount) := by
    rw [List.forall₂_map_left_iff,List.forall₂_map_right_iff]
    exact h.lines.imp fun line line' hline =>
      mul_le_mul hline.1 hline.2 line.unitPriceCents.2 line'.quantity.2.le
  exact hamounts.sum_le_sum

/-- The totals of a bill can be computed; the discount is part of the subtotal and the tax of the
taxable amount; and a bill that grows has no smaller grand total. -/
theorem compute_bounded_monotone (bill bill' : Bill) :
    (∃ total, BillTotal.compute bill = .ok total ∧
      0 ≤ total.discountCents.1 ∧ total.discountCents.1 ≤ total.lineSubtotalCents.1 ∧
      0 ≤ total.taxCents.1 ∧ total.taxCents.1 ≤ total.taxableAmountCents.1) ∧
    (bill.Grows bill' → ∀ total total', BillTotal.compute bill = .ok total →
      BillTotal.compute bill' = .ok total' →
      total.grandTotalCents.1 ≤ total'.grandTotalCents.1) := by
  obtain ⟨total,htotal,hsubtotal,hdiscount,htaxable,htax,hgrand⟩ := BillTotal.compute_ok bill
  constructor
  · have hshare := share_bounds bill.subtotal_nonneg bill.discountBps
    have hrest := share_bounds (taxableOf_nonneg bill.subtotal_nonneg bill.discountBps) bill.taxBps
    refine ⟨total,htotal,total.discountCents.2,?_,total.taxCents.2,?_⟩
    · rw [hdiscount,hsubtotal]
      exact hshare.2
    · rw [htax,htaxable]
      exact hrest.2
  · intro hgrows computed computed' hcomputed hcomputed'
    obtain ⟨total',htotal',-,-,-,-,hgrand'⟩ := BillTotal.compute_ok bill'
    obtain rfl := Except.ok.inj (htotal.symm.trans hcomputed)
    obtain rfl := Except.ok.inj (htotal'.symm.trans hcomputed')
    rw [hgrand,hgrand']
    refine withTax_mono (taxableOf_nonneg bill.subtotal_nonneg _) ?_ hgrows.tax
    calc taxableOf bill.subtotal bill.discountBps
        ≤ taxableOf bill'.subtotal bill.discountBps := taxableOf_mono hgrows.subtotal _
      _ ≤ taxableOf bill'.subtotal bill'.discountBps :=
        taxableOf_anti bill'.subtotal_nonneg hgrows.discount

namespace Sample

def halfDiscount : Bill :=
  ⟨[⟨⟨"pen",by decide⟩,⟨1,by decide⟩,⟨1,by decide⟩⟩],⟨5000,by decide⟩,⟨0,by decide⟩,by decide⟩

def taxed : Bill :=
  ⟨[⟨⟨"pen",by decide⟩,⟨2,by decide⟩,⟨1,by decide⟩⟩],⟨5000,by decide⟩,⟨2500,by decide⟩,by decide⟩

theorem grows : halfDiscount.Grows taxed :=
  ⟨.cons ⟨by decide,by decide⟩ .nil,by decide,by decide⟩

end Sample

theorem compute_bounded_monotone_pens : ∃ total total',
    BillTotal.compute Sample.halfDiscount = .ok total ∧
      BillTotal.compute Sample.taxed = .ok total' ∧
      total.grandTotalCents.1 ≤ total'.grandTotalCents.1 := by
  obtain ⟨total,htotal,-⟩ := BillTotal.compute_ok Sample.halfDiscount
  obtain ⟨total',htotal',-⟩ := BillTotal.compute_ok Sample.taxed
  exact ⟨total,total',htotal,htotal',(compute_bounded_monotone Sample.halfDiscount Sample.taxed).2
    Sample.grows total total' htotal htotal'⟩

def BillTotal.entries (total : BillTotal) : List (String × Json) :=
  [("subtotal_cents",.int total.lineSubtotalCents),("discount_cents",.int total.discountCents),
    ("tax_cents",.int total.taxCents),("total_cents",.int total.grandTotalCents)]

theorem lineAmount_written (line : BillLine) :
    BillsLoop.lineAmount line.asMapping = .ok line.amount := by
  have hquantity : BillsLoop.wholeOf (.int line.quantity) = some line.quantity.1 :=
    if_pos line.quantity.2.le
  have hprice : BillsLoop.wholeOf (.int line.unitPriceCents) = some line.unitPriceCents.1 :=
    if_pos line.unitPriceCents.2
  exact bind_ok.mpr ⟨_,expect_ok.mpr hquantity,bind_ok.mpr ⟨_,expect_ok.mpr hprice,rfl⟩⟩

def evenShare (n rate : Int) : Int := halfEven ((n * rate : Int) / 10000 : Rat)

theorem billTotal_written (bill : Bill) (discountBps taxBps : Int) :
    BillsLoop.billTotal bill.linesMapping discountBps taxBps =
      let discount := evenShare bill.subtotal discountBps
      let tax := evenShare (bill.subtotal - discount) taxBps
      .ok [("subtotal_cents",.int bill.subtotal),("discount_cents",.int discount),
        ("tax_cents",.int tax),("total_cents",.int (bill.subtotal - discount + tax))] := by
  have hamounts : (bill.lines.map BillLine.asMapping).mapM BillsLoop.lineAmount =
      .ok (bill.lines.map BillLine.amount) := by
    rw [List.mapM_map]
    exact mapM_ok fun line _ => lineAmount_written line
  obtain ⟨lines,_,_,hne⟩ := bill
  cases lines with
  | nil => exact absurd rfl hne
  | cons line rest => exact bind_ok.mpr ⟨_,rfl,bind_ok.mpr ⟨_,hamounts,rfl⟩⟩

/-- Ten-thousandths of a cent that are half-way over an even number of cents. -/
def OverEven (n : Int) : Prop := n % 20000 = 5000

theorem evenShare_eq_iff (n rate : Int) :
    evenShare n rate = roundHalfUp (n * rate) 10000 ↔ ¬OverEven (n * rate) :=
  halfEven_eq_halfUp_iff (d := 10000) (by decide) (by decide) (n * rate)

theorem entries_eq_iff (bill : Bill) : (∃ total, BillTotal.compute bill = .ok total ∧
      BillsLoop.billTotal bill.linesMapping bill.discountBps bill.taxBps = .ok total.entries) ↔
    evenShare bill.subtotal bill.discountBps =
        roundHalfUp (bill.subtotal * bill.discountBps) 10000 ∧
      evenShare (taxableOf bill.subtotal bill.discountBps) bill.taxBps =
        roundHalfUp (taxableOf bill.subtotal bill.discountBps * bill.taxBps) 10000 := by
  obtain ⟨total,htotal,hsubtotal,hdiscount,htaxable,htax,hgrand⟩ := BillTotal.compute_ok bill
  rw [billTotal_written]
  constructor
  · rintro ⟨computed,hcomputed,hloop⟩
    obtain rfl := Except.ok.inj (htotal.symm.trans hcomputed)
    have hentries := Except.ok.inj hloop
    rw [BillTotal.entries,hdiscount,htax] at hentries
    simp only [List.cons.injEq,Prod.mk.injEq,Json.int.injEq,true_and,and_true] at hentries
    obtain ⟨-,hsame,hrest,-⟩ := hentries
    rw [hsame] at hrest
    exact ⟨hsame,hrest⟩
  · rintro ⟨hsame,hrest⟩
    refine ⟨total,htotal,?_⟩
    rw [BillTotal.entries,hsubtotal,hdiscount,htax,hgrand]
    dsimp only
    rw [hsame]
    rw [taxableOf] at hrest
    rw [hrest]
    rfl

/-- Both totals agree if and only if neither the discount nor the tax of what is left is half-way
over an even number of cents. -/
theorem billTotal_agrees_iff (bill : Bill) :
    (∃ total, BillTotal.compute bill = .ok total ∧
      BillsLoop.billTotal bill.linesMapping bill.discountBps bill.taxBps = .ok total.entries) ↔
    ¬OverEven (bill.subtotal * bill.discountBps) ∧
      ¬OverEven ((bill.subtotal - (bill.subtotal * bill.discountBps + 5000) / 10000) *
        bill.taxBps) := by
  rw [entries_eq_iff,evenShare_eq_iff,evenShare_eq_iff]
  rfl

/-- Half a cent of discount is none for the loop, and one for the contract. -/
theorem half_cent_differs : ¬∀ bill : Bill, ∃ total, BillTotal.compute bill = .ok total ∧
    BillsLoop.billTotal bill.linesMapping bill.discountBps bill.taxBps = .ok total.entries := by
  intro h
  have hsame := ((entries_eq_iff Sample.halfDiscount).mp (h Sample.halfDiscount)).1
  exact (evenShare_eq_iff _ _).mp hsame rfl

end AgentCentric.Bills

import AgentCentric.Agent.Message
import AgentCentric.Library.Rounding

namespace AgentCentric.BillsLoop
open Json

def get (items : List (String × Json)) (key : String) : Json :=
  (Dict.lookup items key).getD .null

def textOf : Json → Option String
  | .str s => if s = "" then none else some s
  | _ => none

def stringOf : Json → Option String
  | .str s => some s
  | _ => none

/-- `isinstance(value, int) and value >= 0`; a boolean is an integer, too. -/
def isNonnegative : Json → Bool
  | .int n => 0 ≤ n
  | .bool _ => true
  | _ => false

/-- The draft, or the message of a `BillsError`. -/
def draftFromIntake (raw : List (String × Json)) : Except String Json := do
  let id ← expect (textOf (get raw "id")) "draft requires a string 'id'"
  let draft := "draft " ++ pyRepr id ++ " requires "
  let vendor ← expect (textOf (get raw "vendor")) (draft ++ "a string 'vendor'")
  require (isNonnegative (get raw "amount_cents"))
    (draft ++ "a non-negative integer 'amount_cents'")
  let due ← expect (stringOf (get raw "due_date"))
    (draft ++ "an ISO 'due_date' (YYYY-MM-DD)")
  require (due.length = 10) (draft ++ "an ISO 'due_date' (YYYY-MM-DD)")
  pure (.dict [("id",.str id),("vendor",.str vendor),("amount_cents",get raw "amount_cents"),
    ("due_date",.str due)])

inductive AcceptError where
  | billsError (message : String)
  | keyError (key : String)

/-- `draft[key]`. -/
def item (draft : List (String × Json)) (key : String) : Except AcceptError Json :=
  expect (Dict.lookup draft key) (.keyError key)

def acceptDraft (draft : List (String × Json)) : Except AcceptError (List (String × Json)) := do
  require (get draft "id").truthy (.billsError "accept requires a well-formed draft")
  let id ← item draft "id"
  let vendor ← item draft "vendor"
  let amount ← item draft "amount_cents"
  let due ← item draft "due_date"
  pure [("id",id),("vendor",vendor),("amount_cents",amount),("due_date",due),
    ("status",.str "open")]

def allowedStatuses : List String := ["open","paid","void","overdue"]

/-- The bill with the status, and the note if there is one; or the message of a `BillsError`. -/
def markBillStatus (bill : List (String × Json)) (status : String) (note : Json) :
    Except String (List (String × Json)) := do
  require (status ∈ allowedStatuses) ("invalid status " ++ pyRepr status ++ " (allowed: " ++
    String.intercalate ", " allowedStatuses ++ ")")
  require (get bill "id").truthy "mark_status requires a well-formed registry bill"
  let updated := Dict.insert bill "status" (.str status)
  pure (if note.truthy then Dict.insert updated "note" note else updated)

def wholeOf : Json → Option Int
  | .int n => if 0 ≤ n then some n else none
  | .bool b => some (if b then 1 else 0)
  | _ => none

def lineAmount : Json → Except String Int
  | .dict line => do
    let quantity ← expect (wholeOf (get line "quantity"))
      ("line requires a non-negative integer 'quantity': " ++ (Json.dict line).repr)
    let price ← expect (wholeOf (get line "unit_price_cents"))
      ("line requires a non-negative integer 'unit_price_cents': " ++ (Json.dict line).repr)
    pure (quantity * price)
  | line => .error ("line is not a dict: " ++ line.repr)

/-- The totals of a list of lines, with division read exactly; or the message of a `BillsError`. -/
def billTotal (lines : Json) (discountBps taxBps : Int) :
    Except String (List (String × Json)) := do
  let lines ← match lines with
    | .list (line :: rest) => .ok (line :: rest)
    | _ => .error "bill_total requires a non-empty 'lines' list"
  let amounts ← lines.mapM lineAmount
  let subtotal := amounts.sum
  let discount := Rounding.halfEven ((subtotal * discountBps : Int) / 10000 : Rat)
  let tax := Rounding.halfEven (((subtotal - discount) * taxBps : Int) / 10000 : Rat)
  pure [("subtotal_cents",.int subtotal),("discount_cents",.int discount),("tax_cents",.int tax),
    ("total_cents",.int (subtotal - discount + tax))]

/-- `bill[key]`. -/
def member (bill : List (String × Json)) (key : String) : Except Raised Json :=
  expect (Dict.lookup bill key) (.rejected (pyRepr key))

def entryOf (fromDate toDate : String) (bill : List (String × Json)) :
    Except Raised (Option (List (String × Json))) :=
  if ¬ pyEq (get bill "status") (.str "open") then .ok none
  else
    match get bill "due_date" with
    | .null => .ok none
    | .str due =>
      if fromDate ≤ due ∧ due ≤ toDate then do
        let id ← member bill "id"
        let vendor ← member bill "vendor"
        let amount ← member bill "amount_cents"
        pure (some [("id",id),("vendor",vendor),("amount_cents",amount),("due_date",.str due),
          ("status",get bill "status")])
      else .ok none
    | other => .error (.escaped
        ("'<=' not supported between instances of 'str' and '" ++ other.typeName ++ "'"))

def entryLe (a b : List (String × Json)) : Prop :=
  (get a "due_date").text < (get b "due_date").text ∨
    (get a "due_date").text = (get b "due_date").text ∧ (get a "id").text ≤ (get b "id").text

instance : DecidableRel entryLe := fun a b =>
  inferInstanceAs (Decidable ((get a "due_date").text < (get b "due_date").text ∨
    (get a "due_date").text = (get b "due_date").text ∧ (get a "id").text ≤ (get b "id").text))

def isAddend : Json → Bool
  | .bool _ => true
  | other => other.isNumber

def integerOf : Json → Option Int
  | .int n => some n
  | .bool b => some (if b then 1 else 0)
  | _ => none

/-- `sum(amounts)`. What floats come to is given. -/
def amountSum (floatSum : List Json → Json) (amounts : List Json) : Except Raised Json :=
  match amounts.find? fun amount => !isAddend amount with
  | some other => .error (.escaped
      ("unsupported operand type(s) for +: 'int' and '" ++ other.typeName ++ "'"))
  | none =>
    match amounts.mapM integerOf with
    | some ns => .ok (.int ns.sum)
    | none => .ok (floatSum amounts)

def projectCalendar (floatSum : List Json → Json) (registry : List (String × Json))
    (fromDate toDate : String) : Except Raised Json := do
  let bills := registry.insertionSort fun a b => a.1 ≤ b.1
  let found ← bills.mapM fun bill =>
    match bill.2 with
    | .dict items => entryOf fromDate toDate items
    | other => .error (.escaped ("'" ++ other.typeName ++ "' object has no attribute 'get'"))
  let entries := found.reduceOption.insertionSort entryLe
  let total ← amountSum floatSum (entries.map fun entry => get entry "amount_cents")
  pure (.dict [("entries",.list (entries.map .dict)),("total_cents",total)])

structure Rule where
  id : String
  domain : String
  method : String
  matcher : List (Json × Json)

def hashable : Json → Bool
  | .list _ | .dict _ => false
  | _ => true

/-- An element of a sequence that `dict` takes. -/
def pairOf (part : Json) : Except Raised (Json × Json) := do
  match ← part.elements with
  | [key,value] => do
    require (hashable key) (.escaped ("unhashable type: '" ++ key.typeName ++ "'"))
    pure (key,value)
  | _ => .error (.rejected "dictionary update sequence element has not length 2")

/-- The last value of a key stays, in the place of the first. -/
def setPair (pairs : List (Json × Json)) (pair : Json × Json) : List (Json × Json) :=
  if pairs.any fun p => pyEq p.1 pair.1 then
    pairs.map fun p => if pyEq p.1 pair.1 then (p.1,pair.2) else p
  else pairs ++ [pair]

/-- `dict(value)`. -/
def dictOf : Json → Except Raised (List (Json × Json))
  | .dict items => .ok (items.map fun item => (.str item.1,item.2))
  | other => do
    let parts ← other.elements
    let pairs ← parts.mapM pairOf
    pure (pairs.foldl setPair [])

/-- `rr.get("matcher", {}) or {}`. -/
def matcherOf (rr : List (String × Json)) : Json :=
  if (get rr "matcher").truthy then get rr "matcher" else .dict []

/-- `Rule(...)`. -/
def ruleOf (id : String) (rr : List (String × Json)) : Except Raised Rule := do
  let matcher ← dictOf (matcherOf rr)
  pure ⟨id,((Dict.lookup rr "domain").getD (.str "")).text,
    ((Dict.lookup rr "method").getD (.str "")).text,matcher⟩

/-- `draft.get(k) == v` for every item. -/
def Rule.matches (rule : Rule) (draft : List (String × Json)) : Bool :=
  rule.matcher.all fun pair =>
    match pair.1 with
    | .str key => pyEq (get draft key) pair.2
    | _ => pyEq .null pair.2

abbrev RuleSet := Dict String Rule

namespace RuleSet

def add (rules : RuleSet) (rule : Rule) : RuleSet := rules.set rule.id rule

def all (rules : RuleSet) : List Rule :=
  (rules.entries.map Prod.snd).insertionSort fun a b => a.id ≤ b.id

def firstMatch (rules : RuleSet) (draft : List (String × Json)) : Option Rule :=
  rules.all.find? fun rule => rule.matches draft

def load (rules : RuleSet) : List Json → Except Raised Unit × RuleSet
  | [] => (.ok (),rules)
  | .dict rr :: rest =>
    match get rr "id" with
    | .str id =>
      match ruleOf id rr with
      | .error e => (.error e,rules)
      | .ok rule => (rules.add rule).load rest
    | _ => rules.load rest
  | _ :: rest => rules.load rest

end RuleSet
end AgentCentric.BillsLoop

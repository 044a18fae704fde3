import AgentCentric.Library.IsoDate
import AgentCentric.Library.JsonAccess
import Mathlib.Algebra.Ring.Int.Defs

namespace AgentCentric.Bills
open IsoDate

inductive Raised where
  | toolExecutionError (message : String)
  | valueError (message : String)
  | typeError (message : String)
  deriving DecidableEq

inductive BillStatus where
  | due
  | paid
  | skipped
  deriving DecidableEq

def BillStatus.value : BillStatus → String
  | due => "due"
  | paid => "paid"
  | skipped => "skipped"

/-- `BillStatus(value)`, where there is one. -/
def BillStatus.ofValue : Json → Option BillStatus
  | .str "due" => some due
  | .str "paid" => some paid
  | .str "skipped" => some skipped
  | _ => none

theorem BillStatus.ofValue_value (status : BillStatus) :
    ofValue (.str status.value) = some status := by
  cases status <;> rfl

abbrev Text := {s : String // s ≠ ""}

abbrev IsoDate := {s : String // (fromIsoFormat s).isSome}

def get (items : List (String × Json)) (key : String) (default : Json) : Json :=
  (Dict.lookup items key).getD default

def requireText (value : Json) (message : String) : Except Raised Text :=
  match value with
  | .str s => if h : s ≠ "" then .ok ⟨s,h⟩ else .error (.valueError message)
  | _ => .error (.valueError message)

def requireIsoDate (value : Json) (name : String) : Except Raised IsoDate :=
  match value with
  | .str s =>
    if s = "" then .error (.valueError (name ++ " must be a non-empty ISO date string, got ''."))
    else if h : (fromIsoFormat s).isSome then .ok ⟨s,h⟩
    else .error (.valueError
      (name ++ " must be a valid YYYY-MM-DD date, got " ++ value.repr ++ "."))
  | _ => .error (.valueError
      (name ++ " must be a non-empty ISO date string, got " ++ value.repr ++ "."))

def requireCents (value : Json) (name : String) : Except Raised Nat :=
  match value with
  | .int (.ofNat n) => .ok n
  | .int n => .error (.valueError (name ++ " must be non-negative, got " ++ toString n ++ "."))
  | _ => .error (.valueError (name ++ " must be an integer, got " ++ value.repr ++ "."))

def requireString (value : Json) (message : String) : Except Raised String :=
  match value with
  | .str s => .ok s
  | _ => .error (.valueError message)

theorem requireText_self (text : Text) (message : String) :
    requireText (.str text.1) message = .ok text := by
  rw [requireText,dif_pos text.2]

theorem requireIsoDate_self (date : IsoDate) (name : String) :
    requireIsoDate (.str date.1) name = .ok date := by
  rw [requireIsoDate,if_neg (fromIsoFormat_ne date.2),dif_pos date.2]

structure RegistryBill where
  id : Text
  vendor : Text
  amountCents : Nat
  dueDate : IsoDate
  status : BillStatus
  category : String
  deriving DecidableEq

namespace RegistryBill

def fromMapping (data : Json) : Except Raised RegistryBill :=
  match data with
  | .dict items => do
    let amountCents ← requireCents (get items "amount_cents" .null) "amount_cents"
    let dueDate ← requireIsoDate (get items "due_date" .null) "due_date"
    let id ← requireText (get items "id" (.str "")) "Bill id must be a non-empty string."
    let vendor ← requireText (get items "vendor" (.str ""))
      "Bill vendor must be a non-empty string."
    let category ← requireString (get items "category" (.str "")) "Bill category must be a string."
    let given := get items "status" (.str "due")
    let status ← expect (BillStatus.ofValue given)
      (.valueError ("Bill status must be one of due/paid/skipped, got " ++ given.repr ++ "."))
    pure ⟨id,vendor,amountCents,dueDate,status,category⟩
  | _ => .error (.valueError ("Bill record must be a mapping, got " ++ data.repr ++ "."))

def asMapping (bill : RegistryBill) : Json :=
  .dict [("id",.str bill.id.1),("vendor",.str bill.vendor.1),("amount_cents",.int bill.amountCents),
    ("due_date",.str bill.dueDate.1),("status",.str bill.status.value),
    ("category",.str bill.category)]

def written (bill : RegistryBill) : Json :=
  .dict [("amount_cents",.int bill.amountCents),("category",.str bill.category),
    ("due_date",.str bill.dueDate.1),("id",.str bill.id.1),("status",.str bill.status.value),
    ("vendor",.str bill.vendor.1)]

theorem canonical_asMapping (bill : RegistryBill) : bill.asMapping.canonical = bill.written := by
  simp [asMapping,written,Json.canonical,Json.canonicalItems,Json.byKey]

theorem keepLast_written (bill : RegistryBill) : bill.written.keepLast = bill.written := rfl

theorem fromMapping_written (bill : RegistryBill) : fromMapping bill.written = .ok bill := by
  obtain ⟨id,vendor,amountCents,dueDate,status,category⟩ := bill
  have hcents : requireCents (.int amountCents) "amount_cents" = .ok amountCents := rfl
  simp only [fromMapping,written,get,Dict.lookup]
  simp [hcents,requireIsoDate_self,requireText_self,requireString,BillStatus.ofValue_value,expect,
    bind,Except.bind,pure,Except.pure]

end RegistryBill

structure BillsRegistry where
  bills : List RegistryBill
  description : String
  nonempty : bills ≠ []
  unique : (bills.map RegistryBill.id).Nodup

namespace BillsRegistry

/-- The constructor; the version is the only one there is. -/
def new (bills : List RegistryBill) (description : Json) : Except Raised BillsRegistry :=
  if hne : bills = [] then
    .error (.valueError "BillsRegistry must contain at least one bill.")
  else if hunique : (bills.map RegistryBill.id).Nodup then
    match description with
    | .str description => .ok ⟨bills,description,hne,hunique⟩
    | _ => .error (.valueError "description must be a string.")
  else .error (.valueError "BillsRegistry bill ids must be unique.")

theorem new_ok {bills : List RegistryBill} {description : Json} {registry : BillsRegistry}
    (h : new bills description = .ok registry) :
    registry.bills = bills ∧ description = .str registry.description := by
  rw [new] at h
  split at h
  · cases h
  · split at h
    · cases description with
      | str description =>
        obtain rfl := Except.ok.inj h
        exact ⟨rfl,rfl⟩
      | _ => cases h
    · cases h

theorem new_self (registry : BillsRegistry) :
    new registry.bills (.str registry.description) = .ok registry := by
  rw [new,dif_neg registry.nonempty,dif_pos registry.unique]

def fromMapping (data : Json) : Except Raised BillsRegistry :=
  match data with
  | .dict items =>
    match get items "bills" .null with
    | .list (first :: rest) => do
      let bills ← (first :: rest).mapM RegistryBill.fromMapping
      new bills (get items "description" (.str ""))
    | _ => .error (.valueError "BillsRegistry 'bills' must be a non-empty list.")
  | _ => .error (.valueError ("BillsRegistry must be a mapping, got " ++ data.repr ++ "."))

def asMapping (registry : BillsRegistry) : Json :=
  .dict [("version",.str "bills_registry.v1"),
    ("bills",.list (registry.bills.map RegistryBill.asMapping)),
    ("description",.str registry.description)]

end BillsRegistry

def loadRegistry (content : String) : Except Raised BillsRegistry := do
  let data ← expect (Json.loads content) (.valueError "Bills registry is not valid JSON")
  BillsRegistry.fromMapping data.keepLast

theorem BillsRegistry.canonical_asMapping (registry : BillsRegistry) :
    registry.asMapping.canonical = .dict [("bills",.list (registry.bills.map RegistryBill.written)),
      ("description",.str registry.description),("version",.str "bills_registry.v1")] := by
  have hbills : (Json.list (registry.bills.map RegistryBill.asMapping)).canonical =
      .list (registry.bills.map RegistryBill.written) := by
    rw [Json.canonical_list,List.map_map]
    exact congrArg Json.list (List.map_congr_left fun bill _ => bill.canonical_asMapping)
  rw [asMapping,Json.canonical_dict,Json.sorted,Json.canonicalItems_eq]
  simp only [List.map_cons,List.map_nil,hbills]
  simp [Json.canonical,Json.byKey]

theorem loadRegistry_dumps (registry : BillsRegistry) :
    loadRegistry registry.asMapping.dumps = .ok registry := by
  have hkept : (Json.list (registry.bills.map RegistryBill.written)).keepLast =
      .list (registry.bills.map RegistryBill.written) := by
    rw [Json.keepLast_list,List.map_map]
    exact congrArg Json.list (List.map_congr_left fun bill _ => bill.keepLast_written)
  have hbills : (registry.bills.map RegistryBill.written).mapM RegistryBill.fromMapping =
      .ok registry.bills := mapM_written RegistryBill.fromMapping_written registry.bills
  have hnew := registry.new_self
  obtain ⟨first,rest,hcons⟩ := List.exists_cons_of_ne_nil registry.nonempty
  rw [loadRegistry,Json.loads_dumps,registry.canonical_asMapping]
  simp only [expect,bind,Except.bind,Json.keepLast,Json.keepLastItems]
  rw [← Json.keepLast,hkept]
  simp only [hcons,List.map_cons] at hbills hnew ⊢
  simp [BillsRegistry.fromMapping,get,Dict.insert,Dict.lookup,hbills,hnew,bind,Except.bind]

inductive MaintainOperation where
  | upsert
  | markPaid
  | markStatus
  deriving DecidableEq

def MaintainOperation.name : MaintainOperation → String
  | upsert => "upsert"
  | markPaid => "mark_paid"
  | markStatus => "mark_status"

structure MaintainResult where
  operation : MaintainOperation
  billId : Text
  created : Bool
  bill : RegistryBill

def MaintainResult.asMapping (result : MaintainResult) : Json :=
  .dict [("operation",.str result.operation.name),("bill_id",.str result.billId.1),
    ("created",.bool result.created),("bill",result.bill.asMapping)]

def upsertBill (registry : BillsRegistry) (bill : RegistryBill) :
    Except Raised (BillsRegistry × MaintainResult) := do
  let created := decide (bill.id ∉ registry.bills.map RegistryBill.id)
  let newBills :=
    if created then registry.bills ++ [bill]
    else registry.bills.map fun b => if b.id = bill.id then bill else b
  let merged ← BillsRegistry.new newBills (.str registry.description)
  pure (merged,⟨.upsert,bill.id,created,bill⟩)

def operationFor : BillStatus → MaintainOperation
  | .paid => .markPaid
  | .skipped => .markStatus
  | .due => .markStatus

/-- `current.id == bill_id`. -/
def RegistryBill.named (billId : Json) (bill : RegistryBill) : Bool :=
  match billId with
  | .str s => bill.id.1 = s
  | _ => false

def setStatus (registry : BillsRegistry) (billId : Json) (status : BillStatus) :
    Except Raised (BillsRegistry × MaintainResult) := do
  let newBills := registry.bills.map fun current =>
    if current.named billId then { current with status := status } else current
  -- the bill that the loop matched last
  let matched ← expect (newBills.reverse.find? (RegistryBill.named billId))
    (.valueError ("Unknown bill id " ++ billId.repr ++ "."))
  let merged ← BillsRegistry.new newBills (.str registry.description)
  pure (merged,⟨operationFor status,matched.id,false,matched⟩)

structure AgendaEntry where
  dueDate : IsoDate
  billId : Text
  vendor : Text
  amountCents : Nat
  status : BillStatus

namespace AgendaEntry

def asMapping (entry : AgendaEntry) : Json :=
  .dict [("due_date",.str entry.dueDate.1),("bill_id",.str entry.billId.1),
    ("vendor",.str entry.vendor.1),("amount_cents",.int entry.amountCents),
    ("status",.str entry.status.value)]

/-- The order of the agenda: by the texts of the dates, then by the ids. -/
def le (a b : AgendaEntry) : Bool :=
  a.dueDate.1 < b.dueDate.1 || a.dueDate.1 = b.dueDate.1 && a.billId.1 ≤ b.billId.1

end AgendaEntry

structure CalendarProjection where
  fromDate : IsoDate
  toDate : IsoDate
  includePaid : Json
  entries : List AgendaEntry
  totalOutstandingCents : Nat

def CalendarProjection.asMapping (projection : CalendarProjection) : Json :=
  .dict [("from_date",.str projection.fromDate.1),("to_date",.str projection.toDate.1),
    ("include_paid",projection.includePaid),("count",.int projection.entries.length),
    ("entries",.list (projection.entries.map AgendaEntry.asMapping)),
    ("total_outstanding_cents",.int projection.totalOutstandingCents)]

def statusIncluded (status : BillStatus) (includePaid : Bool) : Bool :=
  includePaid || status ≠ .paid

/-- `date.fromisoformat(value)`, with the text. -/
def parseDate (value : Json) : Except Raised (IsoDate × Nat) :=
  match value with
  | .str s =>
    match h : fromIsoFormat s with
    | some day => .ok (⟨s,by rw [h]; rfl⟩,day)
    | none => .error (.valueError ("Invalid isoformat string: " ++ value.repr))
  | _ => .error (.typeError "fromisoformat: argument must be str")

def projectCalendar (registry : BillsRegistry) (fromDate toDate includePaid : Json) :
    Except Raised CalendarProjection := do
  let (fromDate,first) ← parseDate fromDate
  let (toDate,last) ← parseDate toDate
  require (first ≤ last) (.valueError "from_date must not be after to_date.")
  let chosen := registry.bills.filter fun bill =>
    (fromIsoFormat bill.dueDate.1).any (fun due => first ≤ due && due ≤ last) &&
      statusIncluded bill.status includePaid.truthy
  let entries := (chosen.map fun bill => (⟨bill.dueDate,bill.id,bill.vendor,bill.amountCents,
    bill.status⟩ : AgendaEntry)).insertionSort (AgendaEntry.le · ·)
  pure ⟨fromDate,toDate,includePaid,entries,(entries.map AgendaEntry.amountCents).sum⟩

end AgentCentric.Bills

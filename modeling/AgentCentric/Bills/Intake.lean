import AgentCentric.Bills.Registry
import AgentCentric.Library.Names
import Mathlib.Data.List.Perm.Subperm

namespace AgentCentric.Bills

structure BillDraft where
  draftId : Text
  vendor : Text
  amountCents : Nat
  dueDate : IsoDate
  sourcePath : Text
  notes : String
  confidence : String
  deriving DecidableEq

namespace BillDraft

def requireNonempty (value : Json) (name : String) : Except Raised Text :=
  requireText value (name ++ " must be a non-empty string, got " ++ value.repr ++ ".")

def fromMapping (data : Json) : Except Raised BillDraft :=
  match data with
  | .dict items => do
    let amountCents ← requireCents (get items "amount_cents" .null) "amount_cents"
    let draftId ← requireNonempty (get items "draft_id" (.str "")) "draft_id"
    let vendor ← requireNonempty (get items "vendor" (.str "")) "vendor"
    let dueDate ← requireIsoDate (get items "due_date" (.str "")) "due_date"
    let sourcePath ← requireNonempty (get items "source_path" (.str "")) "source_path"
    let notes ← requireString (get items "notes" (.str "")) "notes must be a string."
    let confidence ← requireString (get items "confidence" (.str ""))
      "confidence must be a string."
    pure ⟨draftId,vendor,amountCents,dueDate,sourcePath,notes,confidence⟩
  | _ => .error (.valueError ("Draft must be a mapping, got " ++ data.repr ++ "."))

def asMapping (draft : BillDraft) : Json :=
  .dict [("draft_id",.str draft.draftId.1),("vendor",.str draft.vendor.1),
    ("amount_cents",.int draft.amountCents),("due_date",.str draft.dueDate.1),
    ("source_path",.str draft.sourcePath.1),("unverified",.bool true),("notes",.str draft.notes),
    ("confidence",.str draft.confidence)]

theorem fromMapping_asMapping (draft : BillDraft) : fromMapping draft.asMapping = .ok draft := by
  have hcents : requireCents (.int draft.amountCents) "amount_cents" = .ok draft.amountCents := rfl
  simp only [fromMapping,asMapping,get,Dict.lookup]
  simp [hcents,requireNonempty,requireIsoDate_self,requireText_self,requireString,
    bind,Except.bind,pure,Except.pure]

def toRegistryBill (draft : BillDraft) (billId : Text) : RegistryBill :=
  ⟨billId,draft.vendor,draft.amountCents,draft.dueDate,.due,""⟩

end BillDraft

/-- `DraftProposals(...).as_mapping()`. -/
def proposals (drafts : List BillDraft) : Json :=
  .dict [("count",.int drafts.length),("unverified",.bool true),
    ("drafts",.list (drafts.map BillDraft.asMapping))]

/-- The readers of the sources that are not JSON: what each finds is a function of the source. -/
structure Readers where
  fromCsv : String → String → Except Raised BillDraft
  fromTxt : String → String → Except Raised BillDraft
  fromPdf : String → List UInt8 → Except Raised BillDraft
  fromEmail : List (String × Json) → Except Raised (List BillDraft)

def extractFromJson (sourcePath content : String) : Except Raised BillDraft := do
  let data ← expect (Json.loads content) (.valueError (sourcePath ++ ": not valid JSON"))
  match data.keepLast with
  | .dict items =>
    let given := get items "draft_id" .null
    BillDraft.fromMapping (.dict [("draft_id",if given.truthy then given else .str sourcePath),
      ("vendor",get items "vendor" (.str "")),("amount_cents",get items "amount_cents" .null),
      ("due_date",get items "due_date" (.str "")),("source_path",.str sourcePath),
      ("notes",get items "notes" (.str ""))])
  | _ => .error (.valueError (sourcePath ++ ": JSON must be an object."))

structure AcceptResult where
  acceptedIds : List Text
  registryBillIds : List Text

def AcceptResult.asMapping (result : AcceptResult) : Json :=
  .dict [("accepted",.list (result.acceptedIds.map fun id => .str id.1)),
    ("registry_bill_ids",.list (result.registryBillIds.map fun id => .str id.1))]

/-- `by_id.get(draft_id)`: what cannot be hashed cannot be looked up. -/
def draftOf (drafts : List BillDraft) (draftId : Json) : Except Raised BillDraft :=
  match draftId with
  | .list _ | .dict _ => .error (.typeError ("unhashable type: '" ++ draftId.typeName ++ "'"))
  | .str s => expect (drafts.find? fun draft => draft.draftId.1 = s)
      (.valueError ("Unknown draft id " ++ draftId.repr ++ "."))
  | _ => .error (.valueError ("Unknown draft id " ++ draftId.repr ++ "."))

def Text.numbered (base : Text) (counter : Nat) : Text :=
  ⟨base.1 ++ "#" ++ toString counter,by
    intro h
    have hlist := congrArg String.toList h
    rw [String.toList_append,String.toList_append] at hlist
    have hfront := List.append_eq_nil_iff.mp (List.append_eq_nil_iff.mp hlist).1
    exact base.2 (String.toList_injective hfront.1)⟩

local instance lawfulText : LawfulBEq Text := inferInstance

def freshFrom (existing : List Text) (base : Text) : Nat → Nat → Text → Text
  | 0, _, billId => billId
  | turns + 1, counter, billId =>
    if billId ∈ existing then freshFrom existing base turns (counter + 1) (base.numbered counter)
    else billId

def freshId (existing : List Text) (base : Text) : Text :=
  freshFrom existing base (existing.length + 1) 1 base

def acceptEach (drafts : List BillDraft) : List Text → List Json →
    Except Raised (List (BillDraft × RegistryBill))
  | _, [] => .ok []
  | existing, draftId :: rest => do
    let draft ← draftOf drafts draftId
    let billId := freshId existing draft.draftId
    let accepted ← acceptEach drafts (billId :: existing) rest
    pure ((draft,draft.toRegistryBill billId) :: accepted)

def draftsOf (draftsMapping : List (String × Json)) : Except Raised (List BillDraft) := do
  let given := get draftsMapping "drafts" (.list [])
  let raw ← expect given.iterate (.typeError ("'" ++ given.typeName ++ "' object is not iterable"))
  let drafts ← raw.mapM BillDraft.fromMapping
  require (drafts.map BillDraft.draftId).Nodup (.valueError "Draft ids must be unique.")
  pure drafts

def acceptDrafts (registryContent : String) (draftsMapping : List (String × Json))
    (acceptIds : List Json) : Except Raised (BillsRegistry × AcceptResult) := do
  let registry ← loadRegistry registryContent
  require (!acceptIds.isEmpty) (.valueError "accept requires at least one draft id.")
  let drafts ← draftsOf draftsMapping
  let accepted ← acceptEach drafts (registry.bills.map RegistryBill.id) acceptIds
  let merged ← BillsRegistry.new (registry.bills ++ accepted.map Prod.snd)
    (.str registry.description)
  pure (merged,⟨accepted.map (·.1.draftId),accepted.map (·.2.id)⟩)

theorem numbered_ne (base : Text) (counter : Nat) : base.numbered counter ≠ base := by
  intro h
  have hlength := congrArg (fun t : Text => t.1.length) h
  simp only [Text.numbered,String.length_append] at hlength
  have hhash : "#".length = 1 := rfl
  omega

theorem numbered_inj {base : Text} {m n : Nat} (h : base.numbered m = base.numbered n) : m = n := by
  have hlist := congrArg (fun t : Text => t.1.toList) h
  simp only [Text.numbered,String.toList_append] at hlist
  exact toString_nat_inj (String.toList_injective (List.append_cancel_left hlist))

theorem freshFrom_taken {existing : List Text} {base billId : Text} {turns counter : Nat}
    (h : freshFrom existing base (turns + 1) counter billId ∈ existing) :
    billId ∈ existing ∧ ∀ k < turns, base.numbered (counter + k) ∈ existing := by
  induction turns generalizing counter billId with
  | zero =>
    rw [freshFrom] at h
    split at h
    · rename_i htaken
      exact ⟨htaken,fun k hk => by omega⟩
    · rename_i hfree
      exact absurd h hfree
  | succ turns ih =>
    rw [freshFrom] at h
    split at h
    · rename_i htaken
      obtain ⟨hfirst,hlater⟩ := ih h
      refine ⟨htaken,fun k hk => ?_⟩
      cases k with
      | zero => exact hfirst
      | succ k =>
        have hnext := hlater k (by omega)
        have heq : counter + 1 + k = counter + (k + 1) := by omega
        rwa [heq] at hnext
    · rename_i hfree
      exact absurd h hfree

/-- There are not as many ids as were tried. -/
theorem freshId_notMem (existing : List Text) (base : Text) : freshId existing base ∉ existing := by
  intro h
  obtain ⟨hbase,hnumbered⟩ := freshFrom_taken h
  let tried := base :: (List.range existing.length).map fun k => base.numbered (1 + k)
  have hnodup : tried.Nodup := by
    rw [List.nodup_cons]
    constructor
    · intro hmem
      obtain ⟨k,-,hk⟩ := List.mem_map.mp hmem
      exact numbered_ne base _ hk
    · refine List.nodup_range.map fun m n hmn => ?_
      have heq := numbered_inj hmn
      omega
  have hsubset : tried ⊆ existing := by
    intro id hid
    rcases List.mem_cons.mp hid with rfl | hid
    · exact hbase
    · obtain ⟨k,hk,rfl⟩ := List.mem_map.mp hid
      exact hnumbered k (List.mem_range.mp hk)
  have hlength := (List.subperm_of_subset hnodup hsubset).length_le
  rw [List.length_cons,List.length_map,List.length_range] at hlength
  omega

end AgentCentric.Bills

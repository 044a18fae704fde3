import AgentCentric.Bills.Intake

namespace AgentCentric.Bills
open Json

structure VerificationResult where
  passed : Bool
  message : String

def refused (message : String) : Except Raised VerificationResult := .ok ⟨false,message⟩

def passed (message : String) : Except Raised VerificationResult := .ok ⟨true,message⟩

/-- A `ValueError` or a `TypeError` is a refusal. -/
def recomputed {α : Type} (what : String) (x : Except Raised α)
    (k : α → Except Raised VerificationResult) : Except Raised VerificationResult :=
  match x with
  | .ok a => k a
  | .error (.valueError message) => refused ("Cannot recompute " ++ what ++ ": " ++ message)
  | .error (.typeError message) => refused ("Cannot recompute " ++ what ++ ": " ++ message)
  | .error e => .error e

def isHashable : Json → Bool
  | .list _ | .dict _ => false
  | _ => true

/-- `set(value)`, as a list. -/
def setOf (value : Json) : Except Raised (List Json) := do
  let elements ← expect value.iterate
    (.typeError ("'" ++ value.typeName ++ "' object is not iterable"))
  match elements.find? fun element => !isHashable element with
  | some element => .error (.typeError ("unhashable type: '" ++ element.typeName ++ "'"))
  | none => pure elements

def sameSet (xs ys : List Json) : Bool :=
  xs.all (fun x => ys.any (pyEq x)) && ys.all fun y => xs.any (pyEq y)

/-- `json.dumps(value)`. -/
def plainDumps (value : Json) : String := String.ofList (render [' '] value)

def isInventoryEntry : Json → Bool
  | .dict entry =>
    match get entry "relative_path" .null with
    | .str _ => true
    | _ => false
  | _ => false

def isUnverified : Json → Bool
  | .dict draft =>
    match get draft "unverified" .null with
    | .bool true => true
    | _ => false
  | _ => false

def verifyInventory (output : List (String × Json)) : Except Raised VerificationResult :=
  match get output "entries" .null with
  | .list entries =>
    if entries.all isInventoryEntry then passed "Output is a well-formed inbox inventory."
    else refused "Output inventory has a malformed entry."
  | _ => refused "Output inventory is missing 'entries'."

def verifyDrafts (output : List (String × Json)) : Except Raised VerificationResult :=
  match get output "drafts" .null with
  | .list drafts =>
    if drafts.all isUnverified then passed "Output drafts are all explicitly unverified."
    else refused "Drafts must all be explicitly unverified."
  | _ => refused "Output drafts is missing 'drafts'."

def verifyEmailDraft (readers : Readers) (payload output : List (String × Json)) :
    Except Raised VerificationResult :=
  match get payload "message" .null with
  | .dict message =>
    recomputed "email draft" (readers.fromEmail message) fun drafts =>
      if ¬ pyEq (.dict output) (proposals drafts) then
        refused "Output does not match the recomputed email draft."
      else do
        let given := get output "drafts" (.list [])
        let drafts ← expect given.iterate
          (.typeError ("'" ++ given.typeName ++ "' object is not iterable"))
        if drafts.all isUnverified then
          passed "Output matches the recomputed email draft and is unverified."
        else refused "Email drafts must all be explicitly unverified."
  | _ => refused "Payload is missing a valid 'message'."

def verifyAccept (payload output : List (String × Json)) : Except Raised VerificationResult :=
  match get payload "drafts" .null,get payload "accept_ids" .null with
  | .dict draftsMapping,.list acceptIds =>
    recomputed "accept"
      (acceptDrafts (plainDumps (get payload "registry" (.dict []))) draftsMapping acceptIds)
      fun _ => do
        let accepted ← setOf (.list acceptIds)
        let given ← setOf (get output "accepted" (.list []))
        if ¬ sameSet given accepted then
          refused "Output accepted ids do not match the explicit accept."
        else passed "Output matches the explicit accept and registry merge."
  | _,_ => refused "Payload is missing valid accept inputs."

def verifyIntakeOutput (readers : Readers) (payload output : Json) :
    Except Raised VerificationResult :=
  match payload with
  | .dict payload =>
    match get payload "operation" .null with
    | .str operation =>
      if operation = "" then refused "Payload is missing a valid 'operation'."
      else match output with
      | .dict output =>
        if operation = "inventory" then verifyInventory output
        else if operation = "drafts" then verifyDrafts output
        else if operation = "draft_from_email" then verifyEmailDraft readers payload output
        else if operation = "accept" then verifyAccept payload output
        else refused ("Unknown intake operation " ++ pyRepr operation ++ ".")
      | _ => refused "Output is not a mapping."
    | _ => refused "Payload is missing a valid 'operation'."
  | _ => refused "Payload is not a mapping."

/-- What is raised is a `ValueError` or a `TypeError`. -/
def Plain {α : Type} (x : Except Raised α) : Prop :=
  ∀ e, x = .error e → ∃ message, e = .valueError message ∨ e = .typeError message

theorem Plain.ok {α : Type} (a : α) : Plain (.ok a : Except Raised α) := fun _ h => by cases h

theorem Plain.valueError {α : Type} (message : String) :
    Plain (.error (.valueError message) : Except Raised α) := by
  intro e h
  cases h
  exact ⟨message,.inl rfl⟩

theorem Plain.typeError {α : Type} (message : String) :
    Plain (.error (.typeError message) : Except Raised α) := by
  intro e h
  cases h
  exact ⟨message,.inr rfl⟩

theorem Plain.bind {α β : Type} {x : Except Raised α} {f : α → Except Raised β} (hx : Plain x)
    (hf : ∀ a, Plain (f a)) : Plain (x >>= f) := by
  intro e h
  rcases bind_error.mp h with h | ⟨a,-,h⟩
  · exact hx e h
  · exact hf a e h

theorem plain_expect {α : Type} (value : Option α) (message : String) :
    Plain (expect value (.valueError message)) := by
  cases value with
  | none => exact .valueError message
  | some a => exact .ok a

theorem plain_require (p : Bool) (message : String) : Plain (require p (.valueError message)) := by
  cases p with
  | false => exact .valueError message
  | true => exact .ok ()

theorem plain_mapM {α β : Type} {f : α → Except Raised β} (hf : ∀ a, Plain (f a)) (xs : List α) :
    Plain (xs.mapM f) := by
  induction xs with
  | nil => exact .ok []
  | cons x xs ih =>
    rw [List.mapM_cons]
    exact (hf x).bind fun y => ih.bind fun ys => .ok (y :: ys)

theorem plain_requireText (value : Json) (message : String) :
    Plain (requireText value message) := by
  cases value with
  | str s =>
    rw [requireText]
    split
    · exact .ok _
    · exact .valueError message
  | _ => exact .valueError message

theorem plain_requireString (value : Json) (message : String) :
    Plain (requireString value message) := by
  cases value with
  | str s => exact .ok s
  | _ => exact .valueError message

theorem plain_requireCents (value : Json) (name : String) : Plain (requireCents value name) := by
  cases value with
  | int n =>
    cases n with
    | ofNat n => exact .ok n
    | negSucc n => exact .valueError _
  | _ => exact .valueError _

theorem plain_requireIsoDate (value : Json) (name : String) :
    Plain (requireIsoDate value name) := by
  cases value with
  | str s =>
    rw [requireIsoDate]
    split
    · exact .valueError _
    · split
      · exact .ok _
      · exact .valueError _
  | _ => exact .valueError _

theorem plain_registryBill (data : Json) : Plain (RegistryBill.fromMapping data) := by
  cases data with
  | dict items =>
    exact (plain_requireCents _ _).bind fun _ => (plain_requireIsoDate _ _).bind fun _ =>
      (plain_requireText _ _).bind fun _ => (plain_requireText _ _).bind fun _ =>
        (plain_requireString _ _).bind fun _ => (plain_expect _ _).bind fun _ => .ok _
  | _ => exact .valueError _

theorem plain_newRegistry (bills : List RegistryBill) (description : Json) :
    Plain (BillsRegistry.new bills description) := by
  rw [BillsRegistry.new]
  split
  · exact .valueError _
  · split
    · cases description with
      | str description => exact .ok _
      | _ => exact .valueError _
    · exact .valueError _

theorem plain_loadRegistry (content : String) : Plain (loadRegistry content) := by
  refine (plain_expect _ _).bind fun data => ?_
  cases data.keepLast with
  | dict items =>
    rw [BillsRegistry.fromMapping.eq_def]
    dsimp only
    split
    · exact (plain_mapM plain_registryBill _).bind fun _ => plain_newRegistry _ _
    · exact .valueError _
  | _ => exact .valueError _

theorem plain_draft (data : Json) : Plain (BillDraft.fromMapping data) := by
  cases data with
  | dict items =>
    exact (plain_requireCents _ _).bind fun _ => (plain_requireText _ _).bind fun _ =>
      (plain_requireText _ _).bind fun _ => (plain_requireIsoDate _ _).bind fun _ =>
        (plain_requireText _ _).bind fun _ => (plain_requireString _ _).bind fun _ =>
          (plain_requireString _ _).bind fun _ => .ok _
  | _ => exact .valueError _

theorem plain_draftsOf (draftsMapping : List (String × Json)) : Plain (draftsOf draftsMapping) := by
  refine Plain.bind ?_ fun raw => (plain_mapM plain_draft raw).bind fun drafts =>
    (plain_require _ _).bind fun _ => .ok drafts
  cases (get draftsMapping "drafts" (.list [])).iterate with
  | none => exact .typeError _
  | some raw => exact .ok raw

theorem plain_draftOf (drafts : List BillDraft) (draftId : Json) :
    Plain (draftOf drafts draftId) := by
  cases draftId with
  | str s => exact plain_expect _ _
  | list xs => exact .typeError _
  | dict items => exact .typeError _
  | _ => exact .valueError _

theorem plain_acceptEach (drafts : List BillDraft) (existing : List Text) (ids : List Json) :
    Plain (acceptEach drafts existing ids) := by
  induction ids generalizing existing with
  | nil => exact .ok []
  | cons id ids ih =>
    exact (plain_draftOf drafts id).bind fun draft => (ih _).bind fun _ => .ok _

theorem plain_acceptDrafts (content : String) (draftsMapping : List (String × Json))
    (acceptIds : List Json) : Plain (acceptDrafts content draftsMapping acceptIds) :=
  (plain_loadRegistry content).bind fun _ => (plain_require _ _).bind fun _ =>
    (plain_draftsOf draftsMapping).bind fun _ => (plain_acceptEach _ _ _).bind fun _ =>
      (plain_newRegistry _ _).bind fun _ => .ok _

theorem acceptEach_ids {drafts : List BillDraft} {existing : List Text} {ids : List Json}
    {accepted : List (BillDraft × RegistryBill)}
    (h : acceptEach drafts existing ids = .ok accepted) :
    ids = accepted.map fun pair => .str pair.1.draftId.1 := by
  induction ids generalizing existing accepted with
  | nil =>
    obtain rfl := Except.ok.inj h
    rfl
  | cons id ids ih =>
    obtain ⟨draft,hdraft,h⟩ := bind_ok.mp h
    obtain ⟨rest,hrest,h⟩ := bind_ok.mp h
    obtain rfl := Except.ok.inj h
    rw [List.map_cons,← ih hrest]
    congr 1
    cases id with
    | str s =>
      have hfound := expect_ok.mp hdraft
      have hname : draft.draftId.1 = s := by simpa using List.find?_some hfound
      exact congrArg Json.str hname.symm
    | _ => cases hdraft

theorem acceptDrafts_ids {content : String} {draftsMapping : List (String × Json)}
    {acceptIds : List Json} {merged : BillsRegistry} {result : AcceptResult}
    (h : acceptDrafts content draftsMapping acceptIds = .ok (merged,result)) :
    acceptIds = result.acceptedIds.map fun id => .str id.1 := by
  obtain ⟨registry,-,h⟩ := bind_ok.mp h
  obtain ⟨_,-,h⟩ := bind_ok.mp h
  obtain ⟨drafts,-,h⟩ := bind_ok.mp h
  obtain ⟨accepted,haccepted,h⟩ := bind_ok.mp h
  obtain ⟨merged',-,h⟩ := bind_ok.mp h
  obtain ⟨-,rfl⟩ := Prod.mk.inj (Except.ok.inj h)
  rw [acceptEach_ids haccepted,List.map_map]
  rfl

theorem setOf_texts (texts : List Text) :
    setOf (.list (texts.map fun t => .str t.1)) = .ok (texts.map fun t => .str t.1) := by
  refine bind_ok.mpr ⟨texts.map fun t => .str t.1,rfl,?_⟩
  have hnone : (texts.map fun t => Json.str t.1).find? (fun element => !isHashable element) =
      none := by
    rw [List.find?_eq_none]
    intro element helement
    obtain ⟨t,-,rfl⟩ := List.mem_map.mp helement
    simp [isHashable]
  rw [hnone]
  rfl

theorem sameSet_texts (texts : List Text) :
    sameSet (texts.map fun t => .str t.1) (texts.map fun t => .str t.1) = true := by
  have heach : (texts.map fun t => Json.str t.1).all
      (fun x => (texts.map fun t => Json.str t.1).any (pyEq x)) = true := by
    rw [List.all_eq_true]
    intro x hx
    rw [List.any_eq_true]
    refine ⟨x,hx,?_⟩
    obtain ⟨t,-,rfl⟩ := List.mem_map.mp hx
    simp [pyEq]
  rw [sameSet,heach]
  rfl

theorem eq_of_pyEq_texts {texts : List Text} {other : Json}
    (h : pyEq (.list (texts.map fun t => .str t.1)) other = true) :
    other = .list (texts.map fun t => .str t.1) := by
  cases other with
  | list ys =>
    rw [pyEq] at h
    congr 1
    induction texts generalizing ys with
    | nil =>
      cases ys with
      | nil => rfl
      | cons y ys => cases h
    | cons t texts ih =>
      cases ys with
      | nil => cases h
      | cons y ys =>
        rw [List.map_cons,pyEqList,Bool.and_eq_true] at h
        rw [List.map_cons,ih ys h.2]
        congr 1
        cases y with
        | str s => simpa [pyEq,eq_comm] using h.1
        | _ => cases h.1
  | _ => cases h

def accepts (payload : List (String × Json)) : Option AcceptResult :=
  match get payload "drafts" .null,get payload "accept_ids" .null with
  | .dict draftsMapping,.list acceptIds =>
    ((acceptDrafts (plainDumps (get payload "registry" (.dict []))) draftsMapping
      acceptIds).toOption).map Prod.snd
  | _,_ => none

def AcceptResult.ids (result : AcceptResult) : List Json :=
  result.acceptedIds.map fun id => .str id.1

section
variable {payload output : List (String × Json)} {result : AcceptResult}

theorem verifyAccept_none (output : List (String × Json)) (h : accepts payload = none) :
    ∃ message, verifyAccept payload output = refused message := by
  rw [accepts.eq_def] at h
  rw [verifyAccept.eq_def]
  split at h
  · rename_i draftsMapping acceptIds _ _
    cases haccept : acceptDrafts (plainDumps (get payload "registry" (.dict []))) draftsMapping
        acceptIds with
    | ok accepted =>
      rw [haccept] at h
      cases h
    | error e =>
      obtain ⟨message,rfl | rfl⟩ := plain_acceptDrafts _ _ _ e haccept
      · exact ⟨_,rfl⟩
      · exact ⟨_,rfl⟩
  · exact ⟨_,rfl⟩

theorem verifyAccept_some (h : accepts payload = some result) : verifyAccept payload output = (do
    let given ← setOf (get output "accepted" (.list []))
    if ¬ sameSet given result.ids then
      refused "Output accepted ids do not match the explicit accept."
    else passed "Output matches the explicit accept and registry merge.") := by
  rw [accepts.eq_def] at h
  rw [verifyAccept.eq_def]
  split at h
  · rename_i draftsMapping acceptIds _ _
    cases haccept : acceptDrafts (plainDumps (get payload "registry" (.dict []))) draftsMapping
        acceptIds with
    | error e =>
      rw [haccept] at h
      cases h
    | ok accepted =>
      obtain ⟨merged,result'⟩ := accepted
      rw [haccept] at h
      obtain rfl := Option.some.inj h
      obtain rfl := acceptDrafts_ids haccept
      have hset := setOf_texts result'.acceptedIds
      dsimp only [recomputed]
      rw [hset]
      rfl
  · cases h

theorem verifyAccept_mapping (h : accepts payload = some result)
    (heq : pyEq result.asMapping (.dict output) = true) : verifyAccept payload output =
      passed "Output matches the explicit accept and registry merge." := by
  rw [AcceptResult.asMapping,pyEq,Bool.and_eq_true] at heq
  obtain ⟨other,hother,hsame⟩ := lookup_of_pyEqItems heq.2 List.mem_cons_self
  obtain rfl := eq_of_pyEq_texts hsame
  have hget : get output "accepted" (.list []) = .list result.ids := by
    rw [get,hother]
    rfl
  have hset : setOf (.list result.ids) = .ok result.ids := setOf_texts result.acceptedIds
  have hids : sameSet result.ids result.ids = true := sameSet_texts result.acceptedIds
  rw [verifyAccept_some h,hget,hset]
  dsimp only [bind,Except.bind]
  rw [hids]
  rfl

/-- The gate of an accept passes the mapping of its result and nothing else, and does not raise, if
and only if there is no result, or the output is its mapping, or the accepted ids of the output can
be made a set and are others. -/
theorem verify_accept_iff (readers : Readers)
    (haccept : get payload "operation" .null = .str "accept") :
    (∃ verdict, verifyIntakeOutput readers (.dict payload) (.dict output) = .ok verdict ∧
      (verdict.passed = true ↔ ∃ result, accepts payload = some result ∧
        pyEq result.asMapping (.dict output) = true)) ↔
    ∀ result, accepts payload = some result → pyEq result.asMapping (.dict output) = true ∨
      ∃ given, setOf (get output "accepted" (.list [])) = .ok given ∧
        sameSet given result.ids = false := by
  have hverify : verifyIntakeOutput readers (.dict payload) (.dict output) =
      verifyAccept payload output := by
    rw [verifyIntakeOutput.eq_def]
    dsimp only
    rw [haccept]
    rfl
  rw [hverify]
  cases hresult : accepts payload with
  | none =>
    obtain ⟨message,hrefused⟩ := verifyAccept_none output hresult
    rw [hrefused]
    simp [refused]
  | some result =>
    simp only [Option.some.injEq,forall_eq',exists_eq_left']
    by_cases heq : pyEq result.asMapping (.dict output) = true
    · have hpassed := verifyAccept_mapping hresult heq
      rw [hpassed]
      simp [passed,heq]
    · rw [verifyAccept_some hresult]
      cases hgiven : setOf (get output "accepted" (.list [])) with
      | error e => simp [heq,bind,Except.bind]
      | ok given =>
        cases hsame : sameSet given result.ids with
        | true => simp [heq,hsame,bind,Except.bind,passed]
        | false => simp [heq,hsame,bind,Except.bind,refused]

end

namespace Gate

def bill : Json := .dict [("id",.str "b1"),("vendor",.str "WaterCo"),("amount_cents",.int 2000),
  ("due_date",.str "2026-09-01")]

def draft : Json := .dict [("draft_id",.str "d1"),("vendor",.str "PowerCo"),
  ("amount_cents",.int 5000),("due_date",.str "2026-09-01"),("source_path",.str "inbox/a.json")]

def payload : List (String × Json) :=
  [("operation",.str "accept"),("registry",.dict [("bills",.list [bill])]),
    ("drafts",.dict [("drafts",.list [draft])]),("accept_ids",.list [.str "d1"])]

def readers : Readers :=
  ⟨fun _ _ => .error (.valueError "csv"),fun _ _ => .error (.valueError "txt"),
    fun _ _ => .error (.valueError "pdf"),fun _ => .ok []⟩

def output (accepted billIds : List Json) : List (String × Json) :=
  [("accepted",.list accepted),("registry_bill_ids",.list billIds)]

end Gate

theorem verify_accept_one_draft : ∃ verdict,
    verifyIntakeOutput Gate.readers (.dict Gate.payload)
      (.dict (Gate.output [.str "d1"] [.str "d1"])) = .ok verdict ∧
    (verdict.passed = true ↔ ∃ result, accepts Gate.payload = some result ∧
      pyEq result.asMapping (.dict (Gate.output [.str "d1"] [.str "d1"])) = true) := by
  refine (verify_accept_iff Gate.readers rfl).mpr fun result hresult => .inl ?_
  have heq : (accepts Gate.payload).all (fun result =>
      pyEq result.asMapping (.dict (Gate.output [.str "d1"] [.str "d1"]))) = true := by
    decide +kernel
  rw [hresult] at heq
  exact heq

/-- The ids of the bills are not compared. -/
theorem bill_ids_not_compared : ¬∀ (readers : Readers) (payload output : List (String × Json)),
    get payload "operation" .null = .str "accept" → ∃ verdict,
      verifyIntakeOutput readers (.dict payload) (.dict output) = .ok verdict ∧
      (verdict.passed = true ↔ ∃ result, accepts payload = some result ∧
        pyEq result.asMapping (.dict output) = true) := by
  intro h
  obtain ⟨verdict,hverdict,hiff⟩ := h Gate.readers Gate.payload
    (Gate.output [.str "d1"] [.str "made up"]) rfl
  have hpassed : (verifyIntakeOutput Gate.readers (.dict Gate.payload)
      (.dict (Gate.output [.str "d1"] [.str "made up"]))).toOption.all (·.passed) = true := by
    decide +kernel
  rw [hverdict] at hpassed
  obtain ⟨result,hresult,heq⟩ := hiff.mp hpassed
  have hne : (accepts Gate.payload).all (fun result =>
      !pyEq result.asMapping (.dict (Gate.output [.str "d1"] [.str "made up"]))) = true := by
    decide +kernel
  rw [hresult,Option.all_some,heq] at hne
  cases hne

end AgentCentric.Bills

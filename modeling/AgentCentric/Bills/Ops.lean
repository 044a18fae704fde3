import AgentCentric.Bills.Intake
import AgentCentric.Holdout.Record
import AgentCentric.Workspace.Mediated

namespace AgentCentric.Bills
open Files

def utf8 : Encoding String where
  encode text := some text.toUTF8.data.toList
  decode bytes := (String.fromUTF8? ⟨bytes.toArray⟩).map fun text =>
    String.ofList (Holdout.universal text.toList)

def registryPath : String := "bills/registry.json"

def inboxPrefix : String := "inbox/"

def toolError : Raised → Raised
  | .valueError message => .toolExecutionError message
  | e => e

/-- `except ValueError` in `load`. -/
def invalidRegistry : Raised → Raised
  | .valueError message => .toolExecutionError ("Invalid bills registry: " ++ message)
  | e => e

/-- `except WorkspaceError`: other exceptions pass. -/
def mediated : Files.Error → Raised
  | .workspaceError message => .toolExecutionError message
  | .valueError message => .valueError message

/-- `workspace.read_workspace_file(rel).content`, which is a text. -/
def readText (workspace : Workspace) (rel : String) (tree : Tree) : Except Raised String := do
  let value ← (workspace.readWorkspaceFile utf8 rel tree).result.mapError mediated
  match value with
  | .entry _ _ (some content) => pure content
  | _ => .error (.typeError "no content")

def readRegistry (workspace : Workspace) (tree : Tree) : Except Raised String :=
  readText workspace registryPath tree

/-- What a call leaves behind and comes back with. -/
structure Outcome where
  tree : Tree
  result : Except Raised Json

def look (tree : Tree) (result : Except Raised Json) : Outcome := ⟨tree,result⟩

def persist (workspace : Workspace) (tree : Tree) (made : Except Raised (BillsRegistry × Json)) :
    Outcome :=
  match made with
  | .error e => ⟨tree,.error e⟩
  | .ok (merged,value) =>
    let turn := workspace.writeWorkspaceFile utf8 registryPath merged.asMapping.dumps tree
    ⟨turn.tree,do
      let _ ← turn.result.mapError mediated
      pure value⟩

namespace BillsOps
variable (workspace : Workspace) (tree : Tree)

def load : Outcome :=
  look tree (do
    let registry ← (readRegistry workspace tree >>= loadRegistry).mapError invalidRegistry
    pure registry.asMapping)

def calendar (fromDate toDate includePaid : Json) : Outcome :=
  look tree ((do
    let registry ← loadRegistry (← readRegistry workspace tree)
    let projection ← projectCalendar registry fromDate toDate includePaid
    pure projection.asMapping).mapError toolError)

def maintain (change : BillsRegistry → Except Raised (BillsRegistry × MaintainResult)) : Outcome :=
  let outcome := persist workspace tree (do
    let registry ← loadRegistry (← readRegistry workspace tree)
    let (merged,result) ← change registry
    pure (merged,result.asMapping))
  { outcome with result := outcome.result.mapError toolError }

def upsert (bill : Json) : Outcome :=
  maintain workspace tree fun registry => do upsertBill registry (← RegistryBill.fromMapping bill)

def markPaid (billId : Json) : Outcome :=
  maintain workspace tree fun registry => setStatus registry billId .paid

def markStatus (billId status : Json) : Outcome :=
  maintain workspace tree fun registry => do
    let status ← expect (BillStatus.ofValue status)
      (.valueError (status.repr ++ " is not a valid BillStatus"))
    setStatus registry billId status

end BillsOps

namespace IntakeOps
variable (readers : Readers) (workspace : Workspace) (tree : Tree)

def listing : Except Raised (List String) := do
  let value ← ((workspace.listPrefix inboxPrefix tree : Files.Turn String).result).mapError mediated
  match value with
  | .listing kinds => pure (sortStrings (kinds.map Prod.fst))
  | _ => .error (.typeError "no listing")

def inventory : Outcome :=
  look tree (do
    let entries ← listing workspace tree
    pure (.dict [("count",.int entries.length),("entries",.list (entries.map fun rel =>
      .dict [("relative_path",.str rel),("kind",.str "file")]))]))

def endsWith (rel suffix : String) : Bool := suffix.toList.isSuffixOf rel.toList

def extract (rel : String) : Except Raised (Option BillDraft) :=
  if endsWith rel ".pdf" then do
    let value ← (workspace.readBytes rel tree : Files.Turn String).result.mapError mediated
    match value with
    | .bytes content => do
      let draft ← (readers.fromPdf rel content).mapError toolError
      pure (some draft)
    | _ => .error (.typeError "no bytes")
  else if [".json",".csv",".txt"].any (endsWith rel) then do
    let content ← readText workspace rel tree
    let reader :=
      if endsWith rel ".json" then extractFromJson
      else if endsWith rel ".csv" then readers.fromCsv
      else readers.fromTxt
    let draft ← (reader rel content).mapError toolError
    pure (some draft)
  else pure none

def drafts : Outcome :=
  look tree (do
    let found ← (← listing workspace tree).mapM (extract readers workspace tree)
    pure (proposals found.reduceOption))

def emailDraft (message : Json) : Outcome :=
  look tree (match message with
    | .dict items => (do
        let found ← readers.fromEmail items
        pure (proposals found)).mapError toolError
    | _ => .error (.toolExecutionError "email_draft requires a message mapping."))

def accept (drafts acceptIds : Json) : Outcome :=
  persist workspace tree (do
    let draftsMapping ← expect (match drafts with | .dict items => some items | _ => none)
      (.toolExecutionError "accept requires a drafts mapping.")
    let ids ← expect (match acceptIds with | .list ids => some ids | _ => none)
      (.toolExecutionError "accept requires a list of draft ids.")
    require (!ids.isEmpty) (.toolExecutionError "accept requires at least one draft id.")
    let content ← readRegistry workspace tree
    let (merged,result) ← (acceptDrafts content draftsMapping ids).mapError toolError
    pure (merged,result.asMapping))

end IntakeOps

inductive Call where
  | load
  | calendar (fromDate toDate includePaid : Json)
  | upsert (bill : Json)
  | markPaid (billId : Json)
  | markStatus (billId status : Json)
  | inventory
  | drafts
  | emailDraft (message : Json)
  | accept (drafts acceptIds : Json)

def call (readers : Readers) (workspace : Workspace) (c : Call) (tree : Tree) : Outcome :=
  match c with
  | .load => BillsOps.load workspace tree
  | .calendar fromDate toDate includePaid =>
    BillsOps.calendar workspace tree fromDate toDate includePaid
  | .upsert bill => BillsOps.upsert workspace tree bill
  | .markPaid billId => BillsOps.markPaid workspace tree billId
  | .markStatus billId status => BillsOps.markStatus workspace tree billId status
  | .inventory => IntakeOps.inventory workspace tree
  | .drafts => IntakeOps.drafts readers workspace tree
  | .emailDraft message => IntakeOps.emailDraft readers tree message
  | .accept drafts acceptIds => IntakeOps.accept workspace tree drafts acceptIds

end AgentCentric.Bills

import AgentCentric.Library.JsonLines
import AgentCentric.Manager.Contract

namespace AgentCentric.Manager
open JsonLines

/-- What a store raises. The second is a kind of the first. -/
inductive StoreRaised where
  | trajectoryStore : String → StoreRaised
  | corruptTrajectory : String → StoreRaised
  | value : String → StoreRaised
  | other : String → StoreRaised

def StoreRaised.isStoreError : StoreRaised → Bool
  | .trajectoryStore _ | .corruptTrajectory _ => true
  | .value _ | .other _ => false

def validateTrajectoryId (trajectoryId : String) : Except StoreRaised Unit :=
  if trajectoryId = "" then .error (.value "trajectory_id must be non-empty.") else .ok ()

def alreadyExists (trajectoryId : String) : StoreRaised :=
  .trajectoryStore ("Trajectory " ++ pyRepr trajectoryId ++ " already exists.")

def alreadyRecorded (trajectoryId : String) : StoreRaised :=
  .trajectoryStore ("Outcome for trajectory " ++ pyRepr trajectoryId ++ " already recorded.")

structure Kept where
  taskId : String
  agentName : String
  steps : List (StepRecord Json)
  outcome : Option (StoredOutcome Json)

abbrev InMemory := Dict String Kept

namespace InMemory

def require (store : InMemory) (trajectoryId : String) : Except StoreRaised Kept :=
  match store.get trajectoryId with
  | none => .error (.trajectoryStore ("Trajectory " ++ pyRepr trajectoryId ++ " has not been begun."))
  | some kept => .ok kept

def begin (store : InMemory) (trajectoryId taskId agentName : String) :
    Except StoreRaised InMemory := do
  validateTrajectoryId trajectoryId
  match store.get trajectoryId with
  | some _ => .error (alreadyExists trajectoryId)
  | none => .ok (store.set trajectoryId ⟨taskId,agentName,[],none⟩)

def appendStep (store : InMemory) (trajectoryId : String) (step : StepRecord Json) :
    Except StoreRaised InMemory := do
  let kept ← store.require trajectoryId
  .ok (store.set trajectoryId { kept with steps := kept.steps ++ [step] })

def recordOutcome (store : InMemory) (trajectoryId : String) (outcome : StoredOutcome Json) :
    Except StoreRaised InMemory := do
  let kept ← store.require trajectoryId
  match kept.outcome with
  | some _ => .error (alreadyRecorded trajectoryId)
  | none => .ok (store.set trajectoryId { kept with outcome := some outcome })

def load (store : InMemory) (trajectoryId : String) : Option (StoredTrajectory Json) :=
  (store.get trajectoryId).map fun kept =>
    ⟨trajectoryId,kept.taskId,kept.agentName,kept.steps,kept.outcome.getD .interrupted⟩

def contains (store : InMemory) (trajectoryId : String) : Bool :=
  (store.get trajectoryId).isSome

end InMemory

/-- The directory's file system: the names it takes, and its error for any other. -/
structure Disk where
  takes : String → Bool
  refusal : String → String

/-- `int`, `float` and `str` of any value, and the texts of the interpreter's errors. -/
structure Python where
  int : Json → Except String Int
  float : Json → Except String Decimal
  str : Json → String
  decodeError : String → String
  int_int : ∀ n, int (.int n) = .ok n
  float_decimal : ∀ d, float (.decimal d) = .ok d
  str_str : ∀ s, str (.str s) = s

abbrev Files := Dict String (List Char)

def hex (bytes : List UInt8) : List Char :=
  bytes.flatMap fun b => [hexDigit (b.toNat / 16),hexDigit (b.toNat % 16)]

def fileName (trajectoryId : String) : String :=
  String.ofList (hex trajectoryId.toByteArray.data.toList ++ ".jsonl".toList)

namespace Disk

def find (disk : Disk) (files : Files) (name : String) : Except StoreRaised (Option (List Char)) :=
  if disk.takes name then .ok (files.get name) else .error (.other (disk.refusal name))

/-- The file is opened to append: it is made if it does not exist. -/
def writeLine (disk : Disk) (files : Files) (name : String) (line : List Char) :
    Except StoreRaised Files :=
  if disk.takes name then .ok (files.set name ((files.get name).getD [] ++ line))
  else .error (.other (disk.refusal name))

end Disk

def stepToRecord (step : StepRecord Json) : List (String × Json) :=
  [("kind",.str "step"),("step_index",.int step.stepIndex),("status",.str step.status.value),
    ("description",.str step.description),("input",step.input),("output",step.output),
    ("error",(step.error.map Json.str).getD .null),("elapsed_seconds",.decimal step.elapsedSeconds)]

def outcomeToRecord (outcome : StoredOutcome Json) : List (String × Json) :=
  [("kind",.str "outcome"),("outcome_kind",.str outcome.kind.value)] ++
    match outcome.kind with
    | .verified => [("output",outcome.output)]
    | .failure =>
      [("reason",(outcome.reason.map Json.str).getD .null),("message",.str outcome.message)]
    | .interrupted => []

/-- `data.get(key)` where the code leaves the value unchecked and the store writes a text or
`None`. -/
def optionalText (items : List (String × Json)) (key : String) : Except StoreRaised (Option String) :=
  match Dict.lookup items key with
  | none | some .null => .ok none
  | some (.str s) => .ok (some s)
  | some other => .error (.other ("not a text: " ++ other.repr))

/-- `data[key]`, likewise. -/
def text (items : List (String × Json)) (key : String) : Except StoreRaised String :=
  match Dict.lookup items key with
  | none => .error (.other (pyRepr key))
  | some (.str s) => .ok s
  | some other => .error (.other ("not a text: " ++ other.repr))

/-- An error that `_record_to_step` catches. -/
def malformed (message : String) : StoreRaised :=
  .corruptTrajectory ("Malformed step record: " ++ message)

def field (items : List (String × Json)) (key : String) : Except StoreRaised Json :=
  match Dict.lookup items key with
  | none => .error (malformed (pyRepr key))
  | some value => .ok value

def cast {α : Type} (result : Except String α) : Except StoreRaised α :=
  match result with
  | .ok value => .ok value
  | .error message => .error (malformed message)

def readStatus (value : Json) : Except StoreRaised StepStatus :=
  match value with
  | .str s =>
    match StepStatus.ofValue s with
    | some status => .ok status
    | none => .error (malformed (pyRepr s ++ " is not a valid StepStatus"))
  | other => .error (malformed (other.repr ++ " is not a valid StepStatus"))

def recordToStep (python : Python) (items : List (String × Json)) :
    Except StoreRaised (StepRecord Json) := do
  let index ← field items "step_index"
  let stepIndex ← cast (python.int index)
  let status ← (field items "status").bind readStatus
  let description ← field items "description"
  let input := (Dict.lookup items "input").getD .null
  let output := (Dict.lookup items "output").getD .null
  let error ← optionalText items "error"
  let elapsed := (Dict.lookup items "elapsed_seconds").getD (.decimal zeroSeconds)
  let elapsedSeconds ← cast (python.float elapsed)
  .ok ⟨stepIndex,status,python.str description,input,output,error,elapsedSeconds⟩

def textAt (items : List (String × Json)) (key : String) : Option String :=
  match Dict.lookup items key with
  | some (.str s) => some s
  | _ => none

def decodeOutcome (items : List (String × Json)) : Except StoreRaised (StoredOutcome Json) :=
  if textAt items "outcome_kind" = some "verified" then
    .ok (.verified ((Dict.lookup items "output").getD .null))
  else if textAt items "outcome_kind" = some "failure" then do
    let reason ← optionalText items "reason"
    let message ← optionalText items "message"
    .ok ⟨.failure,.null,reason,message.getD ""⟩
  else if textAt items "outcome_kind" = some "interrupted" then .ok .interrupted
  else .error (.corruptTrajectory ("Unknown outcome kind: " ++ (Json.dict items).repr))

def isBlank (line : List Char) : Bool := line.all isSpace

def noAttribute (value : Json) : StoreRaised :=
  .other (pyRepr value.typeName ++ " object has no attribute 'get'")

/-- `_has_outcome`: a line that is no JSON is passed over. -/
def anyOutcome : List (List Char) → Except StoreRaised Bool
  | [] => .ok false
  | line :: lines =>
    if isBlank line then anyOutcome lines
    else
      match Json.loads (String.ofList line) with
      | none => anyOutcome lines
      | some (.dict items) =>
        if textAt items "kind" = some "outcome" then .ok true else anyOutcome lines
      | some other => .error (noAttribute other)

/-- The lines are counted from `lineno`. -/
def readLines (python : Python) (name : String) : Nat → List (List Char) →
    Except StoreRaised (List Json)
  | _, [] => .ok []
  | lineno, line :: lines =>
    if isBlank line then readLines python name (lineno + 1) lines
    else
      match Json.loads (String.ofList line) with
      | none => .error (.corruptTrajectory ("Corrupt record on line " ++ toString lineno ++ " of " ++
          name ++ ": " ++ python.decodeError (String.ofList line)))
      | some record => do
        let records ← readLines python name (lineno + 1) lines
        .ok (record :: records)

structure Reading where
  head : Option (List (String × Json))
  steps : List (StepRecord Json)
  outcome : Option (StoredOutcome Json)

def readRecord (python : Python) (reading : Reading) (record : Json) : Except StoreRaised Reading :=
  match record with
  | .dict items =>
    if textAt items "kind" = some "meta" then .ok { reading with head := some items }
    else if textAt items "kind" = some "step" then do
      let step ← recordToStep python items
      .ok { reading with steps := reading.steps ++ [step] }
    else if textAt items "kind" = some "outcome" then do
      let outcome ← decodeOutcome items
      .ok { reading with outcome := some outcome }
    else .error (.corruptTrajectory ("Unknown record kind: " ++ record.repr))
  | other => .error (noAttribute other)

namespace FileStore

def metaItems (trajectoryId taskId agentName : String) : List (String × String) :=
  [("kind","meta"),("trajectory_id",trajectoryId),("task_id",taskId),("agent_name",agentName)]

def metaLine (trajectoryId taskId agentName : String) : List Char :=
  rawDumps (metaItems trajectoryId taskId agentName) ++ ['\n']

def recordLine (items : List (String × Json)) : List Char :=
  (Json.dict items).dumps.toList ++ ['\n']

def begin (disk : Disk) (files : Files) (trajectoryId taskId agentName : String) :
    Except StoreRaised Files := do
  validateTrajectoryId trajectoryId
  let found ← disk.find files (fileName trajectoryId)
  match found with
  | some _ => .error (alreadyExists trajectoryId)
  | none => .ok (files.set (fileName trajectoryId) (metaLine trajectoryId taskId agentName))

def appendStep (disk : Disk) (files : Files) (trajectoryId : String) (step : StepRecord Json) :
    Except StoreRaised Files :=
  disk.writeLine files (fileName trajectoryId) (recordLine (stepToRecord step))

def hasOutcome (disk : Disk) (files : Files) (trajectoryId : String) : Except StoreRaised Bool := do
  let found ← disk.find files (fileName trajectoryId)
  match found with
  | none => .ok false
  | some content => anyOutcome (splitLines content)

def recordOutcome (disk : Disk) (files : Files) (trajectoryId : String)
    (outcome : StoredOutcome Json) : Except StoreRaised Files := do
  let recorded ← hasOutcome disk files trajectoryId
  if recorded then .error (alreadyRecorded trajectoryId)
  else disk.writeLine files (fileName trajectoryId) (recordLine (outcomeToRecord outcome))

def read (python : Python) (trajectoryId : String) (content : List Char) :
    Except StoreRaised (StoredTrajectory Json) := do
  let records ← readLines python (fileName trajectoryId) 1 (splitLines content)
  let reading ← records.foldlM (readRecord python) ⟨none,[],none⟩
  match reading.head with
  | none => .error (.corruptTrajectory
      ("Trajectory " ++ fileName trajectoryId ++ " is missing a meta record."))
  | some items => do
    let taskId ← text items "task_id"
    let agentName ← text items "agent_name"
    .ok ⟨trajectoryId,taskId,agentName,reading.steps,reading.outcome.getD .interrupted⟩

def load (python : Python) (disk : Disk) (files : Files) (trajectoryId : String) :
    Except StoreRaised (Option (StoredTrajectory Json)) := do
  let found ← disk.find files (fileName trajectoryId)
  match found with
  | none => .ok none
  | some content => do
    let trajectory ← read python trajectoryId content
    .ok (some trajectory)

def contains (disk : Disk) (files : Files) (trajectoryId : String) : Except StoreRaised Bool := do
  let found ← disk.find files (fileName trajectoryId)
  .ok found.isSome

end FileStore

inductive Call where
  | begin (trajectoryId taskId agentName : String)
  | appendStep (trajectoryId : String) (step : StepRecord Json)
  | recordOutcome (trajectoryId : String) (outcome : StoredOutcome Json)
  | load (trajectoryId : String)
  | contains (trajectoryId : String)

inductive Reply where
  | done : Reply
  | found : Bool → Reply
  | loaded : Option (StoredTrajectory Json) → Reply
  | raised : StoreRaised → Reply

def Reply.change {σ : Type} (store : σ) (result : Except StoreRaised σ) : Reply × σ :=
  match result with
  | .ok store' => (.done,store')
  | .error e => (.raised e,store)

def Reply.answer {α : Type} (reply : α → Reply) (result : Except StoreRaised α) : Reply :=
  match result with
  | .ok value => reply value
  | .error e => .raised e

def InMemory.call (store : InMemory) : Call → Reply × InMemory
  | .begin id taskId agentName => Reply.change store (store.begin id taskId agentName)
  | .appendStep id step => Reply.change store (store.appendStep id step)
  | .recordOutcome id outcome => Reply.change store (store.recordOutcome id outcome)
  | .load id => (.loaded (store.load id),store)
  | .contains id => (.found (store.contains id),store)

def FileStore.call (python : Python) (disk : Disk) (files : Files) : Call → Reply × Files
  | .begin id taskId agentName => Reply.change files (begin disk files id taskId agentName)
  | .appendStep id step => Reply.change files (appendStep disk files id step)
  | .recordOutcome id outcome => Reply.change files (recordOutcome disk files id outcome)
  | .load id => (Reply.answer .loaded (load python disk files id),files)
  | .contains id => (Reply.answer .found (contains disk files id),files)

end AgentCentric.Manager

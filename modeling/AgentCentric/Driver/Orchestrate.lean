import AgentCentric.Library.First
import AgentCentric.Library.Numerals
import AgentCentric.Network.Parse

namespace AgentCentric.Orchestrate

inductive PlanError where
  | valueError (message : String)
  | typeError (message : String)
  | overflowError (message : String)
  deriving DecidableEq

def PlanError.ofNumber : NumberError → PlanError
  | .value m => valueError m
  | .type name => typeError name
  | .overflow m => overflowError m

/-- What the standard library makes of numbers and of upper-case letters. -/
structure Builtins where
  numerals : Numerals
  lower : String → String

def stripText (s : String) : String := String.ofList (Network.strip s.toList)

def defaultStepLimit : Nat := 512

def supportedIntents : List String :=
  ["run","inspect","status","double","sum","bills_intake","bills_accept","bills_calendar",
    "bills_registry","bills_mark_paid","bills_mark_status","bills_accept_deterministic",
    "bills_rule_add"]

inductive FieldType where
  | int | float | bool | str | object
  deriving DecidableEq

structure Field where
  name : String
  type : FieldType
  required : Bool
  default : Option String

structure Schema where
  task : Option String
  child : Option String
  fields : List Field

def intentField (intent : String) : Field := ⟨"intent",.str,false,some intent⟩
def needed (name : String) (type : FieldType) : Field := ⟨name,type,true,none⟩
def allowed (name : String) (type : FieldType) : Field := ⟨name,type,false,none⟩

/-- The schema of an intent that the child `bills` serves. -/
def billsSchema (intent : String) (fields : List Field) : String × Schema :=
  (intent,⟨some intent,some "bills",intentField intent :: fields⟩)

def schemas : List (String × Schema) :=
  [("run",⟨none,none,[intentField "run",needed "task" .str,allowed "args" .object]⟩),
    ("double",⟨none,none,[intentField "double",needed "value" .int]⟩),
    ("sum",⟨none,none,[intentField "sum",needed "a" .int,needed "b" .int]⟩),
    billsSchema "bills_intake" [needed "draft" .object],
    billsSchema "bills_accept" [needed "draft" .object],
    billsSchema "bills_calendar" [needed "from_date" .str,needed "to_date" .str],
    billsSchema "bills_registry" [],
    billsSchema "bills_mark_paid" [needed "id" .str,allowed "note" .str],
    billsSchema "bills_mark_status" [needed "id" .str,needed "status" .str,allowed "note" .str],
    billsSchema "bills_accept_deterministic" [needed "draft" .object],
    billsSchema "bills_rule_add" [needed "rule" .object]]

/-- The step of a plan. The keys of its arguments need not be texts. -/
structure PlanStep where
  task : String
  args : List (Json × Json)
  verifier : Option Json
  child : Option Json

def hashable : Json → Bool
  | .list _ => false
  | .dict _ => false
  | _ => true

def pairOf (i : Nat) (element : Json) : Except PlanError (Json × Json) :=
  match element.iterate with
  | none => .error (.typeError ("cannot convert dictionary update sequence element #" ++
      toString i ++ " to a sequence"))
  | some [key,value] => do
      require (hashable key) (.typeError ("unhashable type: '" ++ key.typeName ++ "'"))
      pure (key,value)
  | some parts => .error (.valueError ("dictionary update sequence element #" ++ toString i ++
      " has length " ++ toString parts.length ++ "; 2 is required"))

def setItem : List (Json × Json) → Json × Json → List (Json × Json)
  | [], item => [item]
  | (key,value) :: items, item =>
      if key.pyEq item.1 then (key,item.2) :: items else (key,value) :: setItem items item

def dictOfElements (elements : List Json) : Except PlanError (List (Json × Json)) := do
  let pairs ← mapFrom pairOf 0 elements
  pure (pairs.foldl setItem [])

def dictOf (value : Json) : Except PlanError (List (Json × Json)) :=
  match value with
  | .dict items => .ok (items.map fun item => (.str item.1,item.2))
  | value =>
    match value.iterate with
    | none => .error (.typeError ("'" ++ value.typeName ++ "' object is not iterable"))
    | some elements => dictOfElements elements

def fieldsOf : Json → List (String × Json)
  | .dict items => items
  | _ => []

def get (items : List (String × Json)) (key : String) : Json :=
  (Dict.lookup items key).getD .null

def textOf : Json → Option String
  | .str s => if s = "" then none else some s
  | _ => none

def extractIntent (builtins : Builtins) (items : List (String × Json)) :
    Except PlanError String := do
  let intent := match Dict.lookup items "intent" with
    | some (.str s) => s
    | _ => "run"
  let intent := builtins.lower (stripText intent)
  require (intent ∈ supportedIntents) (.valueError ("unsupported intent: " ++ pyRepr intent))
  pure intent

/-- `step.get("verifier") or default_verifier`. -/
def verifierOf (verifier : Option String) (own : Json) : Option Json :=
  if own.truthy then some own
  else (verifier.filter fun v => v ≠ "").map Json.str

/-- `dict(step.get("args") or {})`. -/
def argsOf (args : Json) : Except PlanError (List (Json × Json)) :=
  if args.truthy then dictOf args else .ok []

def stepOf (verifier : Option String) (i : Nat) (step : Json) : Except PlanError PlanStep := do
  let items := fieldsOf step
  let task ← expect (textOf (get items "task"))
    (.valueError ("plan step " ++ toString i ++ ": missing 'task' string"))
  let args ← argsOf (get items "args")
  let child := get items "child"
  pure ⟨task,args,verifierOf verifier (get items "verifier"),
    if child.truthy then some child else none⟩

def stepsFromList (verifier : Option String) (steps : List Json) :
    Except PlanError (List PlanStep) := do
  require (steps.length ≤ defaultStepLimit) (.valueError ("plan has " ++ toString steps.length ++
    " steps, exceeding the " ++ toString defaultStepLimit ++ "-step limit (fail-closed)"))
  mapFrom (stepOf verifier) 0 steps

def offered (items : List (String × Json)) : Option (List Json) :=
  match Dict.lookup items "steps" with
  | some (.list (step :: steps)) => some (step :: steps)
  | _ => (textOf (get items "task")).map fun _ => [.dict items]

def planFromArtifact (verifier : Option String) (items : List (String × Json)) :
    Except PlanError (List PlanStep) := do
  let steps ← expect (offered items) (.valueError
    "artifact is not orchestratable: give a 'task' or a non-empty 'steps' list")
  stepsFromList verifier steps

def trueWords : List String := ["true","yes","y","1","ok"]
def falseWords : List String := ["false","no","n","0",""]

def coerceField (builtins : Builtins) (value : Json) (type : FieldType) (name : String) :
    Except PlanError Json :=
  let refused (target : String) : PlanError :=
    .valueError ("field " ++ pyRepr name ++ " cannot be coerced to " ++ target)
  match type with
  | .object =>
    match value with
    | .dict items => .ok (.dict items)
    | _ => .error (.valueError ("field " ++ pyRepr name ++ " must be an object"))
  | .bool =>
    match value with
    | .bool b => .ok (.bool b)
    | value =>
      let s := builtins.lower (stripText value.text)
      if s ∈ trueWords then .ok (.bool true)
      else if s ∈ falseWords then .ok (.bool false)
      else .error (refused "bool")
  | .int =>
    match value with
    | .bool b => .ok (.int b.toNat)
    | .int n => .ok (.int n)
    | .str s => do
        let n ← expect (builtins.numerals.intOfText (stripText s)) (refused "int")
        pure (.int n)
    | .null => .error (refused "int")
    | .list _ => .error (refused "int")
    | .dict _ => .error (refused "int")
    | float => do
        let n ← (builtins.numerals.intOf float).mapError PlanError.ofNumber
        pure (.int n)
  | .float =>
    match builtins.numerals.floatOf value with
    | .ok x => .ok x.json
    | .error (.overflow m) => .error (.overflowError m)
    | .error _ => .error (refused "float")
  | .str => .ok (.str value.text)

def argOf (builtins : Builtins) (items : List (String × Json)) (_ : Nat) (field : Field) :
    Except PlanError (Option (Json × Json)) :=
  if field.name = "intent" then .ok none
  else
    match get items field.name with
    | .null =>
      if field.required then .error (.valueError ("missing required field: " ++ field.name))
      else .ok (field.default.map fun d => (.str field.name,.str d))
    | value => do
        let value ← coerceField builtins value field.type field.name
        pure (some (.str field.name,value))

def planFromSchema (builtins : Builtins) (verifier : Option String) (artifact : Json) :
    Except PlanError (List PlanStep) :=
  match artifact with
  | .dict items => do
      let intent ← extractIntent builtins items
      if intent = "run" then planFromArtifact verifier items
      else do
        let schema ← expect (Dict.lookup schemas intent)
          (.valueError ("no schema for intent " ++ pyRepr intent))
        let args ← mapFrom (argOf builtins items) 0 schema.fields
        pure [⟨schema.task.getD intent,args.reduceOption,
          (verifier.filter fun v => v ≠ "").map Json.str,
          schema.child.map Json.str⟩]
  | _ => .error (.valueError "artifact must be a JSON object")

/-- What a directive comes back with. -/
structure Reply where
  verified : Json
  value : Json
  error : Json

abbrev Result := List (String × Json)

/-- A driver, as far as a plan uses it: `run` on its state, and the observer of the steps. What
they raise is told by its text. -/
structure CbpDriver (σ : Type) where
  run : PlanStep → σ → Except String Reply × σ
  onStep : Option (Result → σ → Except String Unit × σ)

namespace CbpDriver
variable {σ : Type} (driver : CbpDriver σ)

def observe (result : Result) (s : σ) : Except String Unit × σ :=
  match driver.onStep with
  | none => (.ok (),s)
  | some onStep => onStep result s

/-- The loop of `run_plan`, with the results so far. -/
def runSteps (results : List Json) : List PlanStep → σ → Except String Result × σ
  | [], s => (.ok [("ok",.bool true),("results",.list results),
      ("completed",.int results.length),("failed",.null)],s)
  | step :: steps, s =>
    match driver.run step s with
    | (.error e,s) => (.error e,s)
    | (.ok reply,s) =>
      let result : Result := [("step",.int results.length),("task",.str step.task),
        ("verified",reply.verified),("value",reply.value),("error",reply.error)]
      match driver.observe result s with
      | (.error e,s) => (.error e,s)
      | (.ok (),s) =>
        let results' := results ++ [.dict result]
        if reply.verified.truthy then runSteps results' steps s
        else (.ok [("ok",.bool false),("results",.list results'),
          ("completed",.int results.length),("failed",.dict result)],s)

def runPlan (steps : List PlanStep) (s : σ) : Except String Result × σ :=
  match steps with
  | [] => (.error "run_plan requires a non-empty 'steps' list",s)
  | steps => driver.runSteps [] steps s

end CbpDriver

def failed (error : String) : Result :=
  [("ok",.bool false),("results",.list []),("completed",.int 0),("error",.str error)]

/-- Of what planning raises, only a `ValueError` is caught. -/
def runArtifactPlan {σ : Type} (builtins : Builtins) (driver : CbpDriver σ)
    (verifier : Option String) (artifact : Json) (s : σ) : Except PlanError Result × σ :=
  match planFromSchema builtins verifier artifact with
  | .error (.valueError m) => (.ok (failed m),s)
  | .error e => (.error e,s)
  | .ok steps =>
    match driver.runPlan steps s with
    | (.error e,s) => (.ok (failed ("plan execution failed: " ++ e)),s)
    | (.ok result,s) => (.ok result,s)

end AgentCentric.Orchestrate

import AgentCentric.Agent.StoreAgent
import AgentCentric.Bills.Loop

namespace AgentCentric.BillsLoop
open Json

inductive Task where
  | intake | intakeFile | intakeEmail | intakePdf | accept | acceptDeterministic | ruleAdd
  | calendar | registry | markPaid | markStatus | setup
  deriving DecidableEq

namespace Task

def name : Task → String
  | intake => "bills_intake"
  | intakeFile => "bills_intake_file"
  | intakeEmail => "bills_intake_email"
  | intakePdf => "bills_intake_pdf"
  | accept => "bills_accept"
  | acceptDeterministic => "bills_accept_deterministic"
  | ruleAdd => "bills_rule_add"
  | calendar => "bills_calendar"
  | registry => "bills_registry"
  | markPaid => "bills_mark_paid"
  | markStatus => "bills_mark_status"
  | setup => "bills_setup"

def all : List Task :=
  [intake,intakeFile,intakeEmail,intakePdf,accept,acceptDeterministic,ruleAdd,calendar,registry,
    markPaid,markStatus,setup]

def ofName : Json → Option Task
  | .str s => all.find? fun task => task.name = s
  | _ => none

end Task

/-- The capabilities that only read: what they make of a source or of the registry is a function of
it. A source may be refused with a message. -/
structure Capabilities where
  intakeSource : Task → List (String × Json) → Except Raised (Except String Json)
  projectCalendar : List (String × Json) → String → String → Except Raised Json

def storeChild : String := "store"

def rulesKey : String := "__rules"

structure BillsAgent (W : Type) where
  base : Agent W
  ruleSet : RuleSet
  store : Option (StoreAgent W)

/-- What a run directive comes to. -/
structure Outcome (W : Type) where
  result : Except Raised Response
  agent : BillsAgent W
  world : W

def childDirective (d : Directive) (suffix task : String) (args : List (String × Json)) :
    Directive :=
  ⟨d.correlationId ++ suffix,.run,⟨[("task",.str task),("args",.dict args)],by simp⟩⟩

def setDirective (d : Directive) (key value : Json) : Directive :=
  childDirective d ":store" "store_set" [("key",key),("value",value)]

namespace BillsAgent
variable {W : Type} (b : BillsAgent W) (d : Directive)

def error (message : String) : Response := b.base.error d message

def refuse (w : W) (message : String) : Outcome W := ⟨.ok (b.error d message),b,w⟩

def valued (value : Json) : Response :=
  { Response.plain d.correlationId .result true b.base.identity with value := .json value }

def storeSet (child : StoreAgent W) (key value : Json) : Response × BillsAgent W :=
  let r := child.base.opStoreSet child.storeKeys (setDirective d key value)
  (r.1,{ b with store := some { child with base := r.2 } })

def storeGet (child : StoreAgent W) (key : Json) :
    Except Raised (Option (List (String × Json))) := do
  let response ← child.base.opStoreGet child.storeKeys
    (childDirective d ":store-get" "store_get" [("key",key)])
  pure (if response.verified.truthy then
    match response.value with
    | .json (.dict items) => some items
    | _ => none
  else none)

def readAll (child : StoreAgent W) (keep : String → Bool) :
    Except Raised (Except Json (List (String × Json))) := do
  let listed := child.base.opStoreKeys child.storeKeys
    (childDirective d ":store-keys" "store_keys" [])
  if ¬ listed.verified.truthy then pure (.error listed.error)
  else
    let keys := match listed.value with
      | .json (.list keys) => (keys.filterMap stringOf).filter keep
      | _ => []
    let found ← keys.mapM fun key => do
      let items ← storeGet d child (.str key)
      pure (items.map fun items => (key,Json.dict items))
    pure (.ok found.reduceOption)

def opIntake (w : W) (args : List (String × Json)) : Outcome W :=
  match get args "draft" with
  | .dict raw =>
    match draftFromIntake raw with
    | .error message => b.refuse d w ("bills_intake rejected: " ++ message)
    | .ok draft => ⟨.ok (b.valued d draft),b,w⟩
  | _ => b.refuse d w "bills_intake requires a 'draft' dict"

def opIntakeSource (tools : Capabilities) (task : Task) (w : W) (args : List (String × Json)) :
    Outcome W :=
  ⟨(tools.intakeSource task args).map fun
    | .error message => b.error d message
    | .ok draft => b.valued d draft,b,w⟩

def promote (task : Task) (w : W) (draft : List (String × Json)) (sources : Json) : Outcome W :=
  match acceptDraft draft with
  | .error (.billsError message) => b.refuse d w (task.name ++ " rejected: " ++ message)
  | .error (.keyError key) => ⟨.error (.rejected (pyRepr key)),b,w⟩
  | .ok bill =>
    match b.store with
    | none => b.refuse d w "bills agent has no store child"
    | some child =>
      let r := b.storeSet d child (get bill "id") (.dict bill)
      if r.1.verified.truthy then
        ⟨.ok { b.base.ok d with value := .json (get bill "id"), sources := sources },r.2,w⟩
      else r.2.refuse d w ("registry write failed: " ++ r.1.error.text)

def opAccept (w : W) (args : List (String × Json)) : Outcome W :=
  match get args "draft" with
  | .dict draft => b.promote d .accept w draft .null
  | _ => b.refuse d w "bills_accept requires a 'draft' dict"

def raisedBy : StoreError → Raised
  | .decode => .rejected StoreError.decode.text
  | e => .escaped e.text

def loadRulesFromStore : Except Raised Unit × BillsAgent W :=
  match b.store.bind fun child => child.base.stateStore with
  | none => (.ok (),b)
  | some store =>
    match store.get rulesKey with
    | .error e => (.error (raisedBy e),b)
    | .ok (.list raw) =>
      let r := b.ruleSet.load raw
      (r.1,{ b with ruleSet := r.2 })
    | .ok _ => (.ok (),b)

def opAcceptDeterministic (w : W) (args : List (String × Json)) : Outcome W :=
  match get args "draft" with
  | .dict draft =>
    match b.loadRulesFromStore with
    | (.error e,loaded) => ⟨.error e,loaded,w⟩
    | (.ok _,loaded) =>
      match loaded.ruleSet.firstMatch draft with
      | none => loaded.refuse d w "no approved rule matches; requires human review (bills_accept)"
      | some rule => loaded.promote d .acceptDeterministic w draft
          (.list [.dict [("kind",.str "rule"),("id",.str rule.id)]])
  | _ => b.refuse d w "bills_accept_deterministic requires a 'draft' dict"

/-- `args.get("rule") or args`. -/
def ruleGiven (args : List (String × Json)) : Json :=
  if (get args "rule").truthy then get args "rule" else .dict args

def hasId (id : String) : Json → Bool
  | .dict items => pyEq (get items "id") (.str id)
  | _ => false

def rulesWith (raw : Json) (id : String) (rr : List (String × Json)) : List Json :=
  let rules := match raw with
    | .list rules => rules
    | _ => []
  rules.filter (fun rule => !hasId id rule) ++ [.dict rr]

def opRuleAdd (w : W) (args : List (String × Json)) : Outcome W :=
  match ruleGiven args with
  | .dict rr =>
    match get rr "id" with
    | .str id =>
      match b.store with
      | none => b.refuse d w "bills agent has no store child"
      | some child =>
        match child.base.stateStore with
        | none => b.refuse d w "bills agent has no state store"
        | some store =>
          match store.get rulesKey with
          | .error e => ⟨.error (raisedBy e),b,w⟩
          | .ok raw =>
            let r := b.storeSet d child (.str rulesKey) (.list (rulesWith raw id rr))
            if r.1.verified.truthy then
              -- the rule is stored before it is read
              match ruleOf id rr with
              | .error e => ⟨.error e,r.2,w⟩
              | .ok rule => ⟨.ok { b.base.ok d with value := .json (.str id) },
                  { r.2 with ruleSet := r.2.ruleSet.add rule },w⟩
            else r.2.refuse d w ("rules write failed: " ++ r.1.error.text)
    | _ => b.refuse d w "bills_rule_add requires a rule mapping with an 'id'"
  | _ => b.refuse d w "bills_rule_add requires a rule mapping with an 'id'"

def opMarkStatus (task : Task) (w : W) (args : List (String × Json)) : Outcome W :=
  match textOf (get args "id") with
  | none => b.refuse d w (task.name ++ " requires a 'id' (bill id)")
  | some id =>
    match textOf (if task = .markPaid then .str "paid" else get args "status") with
    | none => b.refuse d w (task.name ++ " requires a 'status'")
    | some status =>
      match b.store with
      | none => b.refuse d w "bills agent has no store child"
      | some child =>
        match storeGet d child (.str id) with
        | .error e => ⟨.error e,b,w⟩
        | .ok none => b.refuse d w (task.name ++ ": bill " ++ pyRepr id ++ " not in registry")
        | .ok (some current) =>
          match markBillStatus current status (get args "note") with
          | .error message => b.refuse d w (task.name ++ " rejected: " ++ message)
          | .ok updated =>
            let r := b.storeSet d child (.str id) (.dict updated)
            if r.1.verified.truthy then ⟨.ok (b.valued d (.dict updated)),r.2,w⟩
            else r.2.refuse d w ("registry update failed: " ++ r.1.error.text)

def opCalendar (tools : Capabilities) (w : W) (args : List (String × Json)) : Outcome W :=
  match get args "from_date",get args "to_date" with
  | .str fromDate,.str toDate =>
    match b.store with
    | none => b.refuse d w "bills agent has no store child"
    | some child =>
      match readAll d child fun _ => true with
      | .error e => ⟨.error e,b,w⟩
      | .ok (.error message) => b.refuse d w ("registry read failed: " ++ message.text)
      | .ok (.ok registry) =>
        ⟨(tools.projectCalendar registry fromDate toDate).map (b.valued d),b,w⟩
  | _,_ => b.refuse d w "bills_calendar requires from_date/to_date"

def opRegistry (w : W) : Outcome W :=
  match b.store with
  | none => b.refuse d w "bills agent has no store child"
  | some child =>
    match readAll d child fun key => key ≠ rulesKey with
    | .error e => ⟨.error e,b,w⟩
    | .ok (.error message) => b.refuse d w ("registry read failed: " ++ message.text)
    | .ok (.ok registry) => ⟨.ok (b.valued d (.dict [("registry",.dict registry),
        ("count",.int registry.length)])),b,w⟩

def grantedKeys (keys : List Json) : List Json :=
  if keys.any (fun key => pyEq key (.str rulesKey)) then keys else keys ++ [.str rulesKey]

def spawnDirective : Directive :=
  ⟨d.correlationId ++ ":spawn-store",.spawn,⟨[("identity",.str storeChild),
    ("endpoint",.str "child"),("kind",.str storeChild)],by simp⟩⟩

/-- The directive of `configure_child`. -/
def configureDirective (path : String) (keys : List Json) : Directive :=
  ⟨"configure-child",.configure,⟨[("tasks",.list []),("verifiers",.list []),("rules",.list []),
    ("state",.str path),("state_read_only",.bool false),("store_keys",.list keys)],by simp⟩⟩

def spawnStore (o : Outside) : Except Raised Response × BillsAgent W :=
  let r := b.base.spawn o (spawnDirective d)
  match r.1 with
  | .error e => (.error e,{ b with base := r.2 })
  | .ok response =>
    if response.verified.truthy then
      (.ok response,⟨r.2,b.ruleSet,
        some ⟨Agent.new storeChild b.base.catalog b.base.childKinds,[]⟩⟩)
    else (.ok response,{ b with base := r.2 })

def configureStore (o : Outside) (w : W) (child : StoreAgent W) (path : String)
    (keys : List Json) : Outcome W :=
  let directive := configureDirective path keys
  let r := child.base.configure o directive
  match r.1 with
  | .error e => ⟨.error e,{ b with store := some { child with base := r.2 } },w⟩
  | .ok response =>
    let configured : BillsAgent W :=
      { b with store := some ⟨r.2,configureExtra child.storeKeys directive.payload⟩ }
    if response.verified.truthy then ⟨.ok (b.base.ok d),configured,w⟩
    else configured.refuse d w ("store configure failed: " ++ response.error.text)

def opSetup (o : Outside) (w : W) (args : List (String × Json)) : Outcome W :=
  match ((Dict.lookup args "store_keys").getD (.list [])).elements with
  | .error e => ⟨.error e,b,w⟩
  | .ok keys =>
    match textOf (get args "state") with
    | none => b.refuse d w "bills_setup requires a 'state' path"
    | some path =>
      match b.store with
      | some child => b.configureStore d o w child path (grantedKeys keys)
      | none =>
        let r := b.spawnStore d o
        match r.1,r.2.store with
        | .error e,_ => ⟨.error e,r.2,w⟩
        | .ok _,some child => r.2.configureStore d o w child path (grantedKeys keys)
        | .ok response,none => r.2.refuse d w ("store spawn failed: " ++ response.error.text)

/-- `_handle` of a run directive. -/
def run (tools : Capabilities) (o : Outside) (w : W) : Outcome W :=
  let args := opArgs d
  match Task.ofName (field d.payload "task") with
  | some .intake => b.opIntake d w args
  | some .intakeFile => b.opIntakeSource d tools .intakeFile w args
  | some .intakeEmail => b.opIntakeSource d tools .intakeEmail w args
  | some .intakePdf => b.opIntakeSource d tools .intakePdf w args
  | some .accept => b.opAccept d w args
  | some .acceptDeterministic => b.opAcceptDeterministic d w args
  | some .ruleAdd => b.opRuleAdd d w args
  | some .calendar => b.opCalendar d tools w args
  | some .registry => b.opRegistry d w
  | some .markPaid => b.opMarkStatus d .markPaid w args
  | some .markStatus => b.opMarkStatus d .markStatus w args
  | some .setup => b.opSetup d o w args
  | none =>
    let turn := b.base.runTask o.late d w
    ⟨turn.outcome,{ b with base := turn.agent },turn.world⟩

end BillsAgent
end AgentCentric.BillsLoop

import AgentCentric.Library.Transducer
import AgentCentric.Agent.Dispatch

namespace AgentCentric
open Json Transducer Unwinding

/-- `granted.endswith("*") and key.startswith(granted[:-1])`. -/
def grantsInitial (granted key : String) : Bool :=
  granted.toList.getLast? = some '*' ∧ granted.toList.dropLast <+: key.toList

def isServed (storeKeys : List String) (key : String) : Bool :=
  key ∈ storeKeys ∨ storeKeys.any fun granted => grantsInitial granted key

/-- `_op_args`: the arguments of a run, or else its payload. -/
def opArgs (d : Directive) : List (String × Json) :=
  match d.payload.get "args" with
  | some (.dict args) => args
  | _ => d.payload.entries

def keyNamed : Json → Option String
  | .str key => if key = "" then none else some key
  | _ => none

def ungranted (key : String) : String :=
  "store key " ++ pyRepr key ++ " is not granted to this store"

/-- The operation that a directive asks for. -/
inductive StoreOp where
  | set | get | keys
  deriving DecidableEq

def StoreOp.ofTask : Json → Option StoreOp
  | .str task =>
    if task = "store_set" then some .set
    else if task = "store_get" then some .get
    else if task = "store_keys" then some .keys
    else none
  | _ => none

/-- `_configure_extra`: the keys that a configuration grants. -/
def configureExtra (storeKeys : List String) (payload : Dict String Json) : List String :=
  match (payload.get "store_keys").getD (.list []) with
  | .list keys => keys.filterMap fun
    | .str key => some key
    | _ => none
  | _ => storeKeys

namespace Agent
variable {W : Type}

def opStoreSet (a : Agent W) (storeKeys : List String) (d : Directive) : Response × Agent W :=
  match a.stateStore with
  | none => (a.error d "store agent has no granted state store",a)
  | some store =>
    match keyNamed ((Dict.lookup (opArgs d) "key").getD .null) with
    | none => (a.error d "store_set requires a 'key'",a)
    | some key =>
      if ¬ isServed storeKeys key then (a.error d (ungranted key),a)
      else
        let value := (Dict.lookup (opArgs d) "value").getD .null
        match store.set key value d.fingerprint.text with
        | .error e => (a.error d ("store write failed: " ++ e.text),a)
        | .ok store' => (a.ok d,{ a with stateStore := some store' })

/-- `_op_store_get`. A row that is no JSON is no `StoreError`. -/
def opStoreGet (a : Agent W) (storeKeys : List String) (d : Directive) : Except Raised Response :=
  match a.stateStore with
  | none => .ok (a.error d "store agent has no granted state store")
  | some store =>
    match keyNamed ((Dict.lookup (opArgs d) "key").getD .null) with
    | none => .ok (a.error d "store_get requires a 'key'")
    | some key =>
      if ¬ isServed storeKeys key then .ok (a.error d (ungranted key))
      else
        match store.get key with
        | .error .decode => .error (.rejected StoreError.decode.text)
        | .error e => .ok (a.error d ("store read failed: " ++ e.text))
        | .ok .null => .ok (a.error d ("store key " ++ pyRepr key ++ " not found"))
        | .ok value => .ok
            { Response.plain d.correlationId .result true a.identity with value := .json value }

def opStoreKeys (a : Agent W) (storeKeys : List String) (d : Directive) : Response :=
  match a.stateStore with
  | none => a.error d "store agent has no granted state store"
  | some store =>
    match store.keys with
    | .error e => a.error d ("store read failed: " ++ e.text)
    | .ok allKeys =>
      let served := (allKeys.filter (isServed storeKeys)).insertionSort (· ≤ ·)
      { Response.plain d.correlationId .result true a.identity with
        value := .json (.list (served.map .str)) }

end Agent

/-- A domain agent that owns a state store and serves it. -/
structure StoreAgent (W : Type) where
  base : Agent W
  storeKeys : List String

namespace StoreAgent
variable {W : Type}

/-- `_handle`, as far as the agent under it goes. -/
def handle (storeKeys : List String) (a : Agent W) (o : Outside) (d : Directive) (w : W) :
    Turn W :=
  if d.kind = .run then
    match StoreOp.ofTask (field d.payload "task") with
    | some .set => let r := a.opStoreSet storeKeys d; ⟨.ok r.1,r.2,w,false⟩
    | some .get => ⟨a.opStoreGet storeKeys d,a,w,false⟩
    | some .keys => a.answer w (a.opStoreKeys storeKeys d)
    | none => a.handle o d w
  else a.handle o d w

theorem handle_delegated (storeKeys : List String) (a : Agent W) (o : Outside) (d : Directive)
    (w : W) : (handle storeKeys a o d w).agent.delegated = a.delegated := by
  unfold handle
  split
  · split
    · unfold Agent.opStoreSet
      dsimp only
      repeat' split
      all_goals rfl
    · rfl
    · rfl
    · exact Agent.handle_delegated a o d w
  · exact Agent.handle_delegated a o d w

def handler (storeKeys : List String) : Handler W :=
  ⟨handle storeKeys,handle_delegated storeKeys⟩

def keysAfter (s : StoreAgent W) (o : Outside) (d : Directive) : List String :=
  if d.kind = .configure then
    match (s.base.configure o d).1 with
    | .ok _ => configureExtra s.storeKeys d.payload
    | .error _ => s.storeKeys
  else s.storeKeys

def dispatch (I : Integrity) (s : StoreAgent W) (o : Outside) (d : Directive) (w : W) :
    Effect × StoreAgent W × W :=
  let r := s.base.dispatch (handler s.storeKeys) I o d w
  (r.effect,⟨r.agent,s.keysAfter o d⟩,r.world)

end StoreAgent
end AgentCentric

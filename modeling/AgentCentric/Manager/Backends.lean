import AgentCentric.Manager.Manage

namespace AgentCentric.Manager

namespace Value

mutual

/-- A JSON value: `json.loads(json.dumps(value))` is the value again. -/
def isJson : Value → Bool
  | .none | .bool _ | .int _ | .float _ | .str _ => true
  | .list xs => allJson xs
  | .dict items => itemsJson items
  | .tuple _ | .object _ _ => false

def allJson : List Value → Bool
  | [] => true
  | x :: xs => isJson x && allJson xs

def itemsJson : List (String × Value) → Bool
  | [] => true
  | (_,v) :: items => isJson v && itemsJson items

end

def unserializable (typeName : String) : Raised :=
  ⟨true,"Object of type " ++ typeName ++ " is not JSON serializable"⟩

mutual

/-- `json.dumps`: a tuple is written as a list, and what has no JSON raises. -/
def wire : Value → Except Raised Json
  | .none => .ok .null
  | .bool b => .ok (.bool b)
  | .int i => .ok (.int i)
  | .float d => .ok (.decimal d)
  | .str s => .ok (.str s)
  | .list xs => (wireAll xs).map .list
  | .tuple xs => (wireAll xs).map .list
  | .dict items => (wireItems items).map .dict
  | .object typeName _ => .error (unserializable typeName)

def wireAll : List Value → Except Raised (List Json)
  | [] => .ok []
  | x :: xs => do
    let j ← wire x
    let js ← wireAll xs
    pure (j :: js)

def wireItems : List (String × Value) → Except Raised (List (String × Json))
  | [] => .ok []
  | (k,v) :: items => do
    let j ← wire v
    let js ← wireItems items
    pure ((k,j) :: js)

end

mutual

/-- `json.loads`. -/
def unwire : Json → Value
  | .null => .none
  | .bool b => .bool b
  | .int i => .int i
  | .decimal d => .float d
  | .nan => .object "float" 0
  | .infinity => .object "float" 1
  | .negInfinity => .object "float" 2
  | .str s => .str s
  | .list xs => .list (unwireAll xs)
  | .dict items => .dict (unwireItems items)

def unwireAll : List Json → List Value
  | [] => []
  | x :: xs => unwire x :: unwireAll xs

def unwireItems : List (String × Json) → List (String × Value)
  | [] => []
  | (k,v) :: items => (k,unwire v) :: unwireItems items

end

mutual

/-- What is JSON comes back as it was. -/
theorem wire_isJson (v : Value) (h : v.isJson = true) : ∃ j, v.wire = .ok j ∧ unwire j = v := by
  cases v with
  | none => exact ⟨_,rfl,rfl⟩
  | bool b => exact ⟨_,rfl,rfl⟩
  | int i => exact ⟨_,rfl,rfl⟩
  | float d => exact ⟨_,rfl,rfl⟩
  | str s => exact ⟨_,rfl,rfl⟩
  | list xs =>
    obtain ⟨js,hjs,hback⟩ := wireAll_isJson xs h
    exact ⟨.list js,by rw [wire,hjs]; rfl,by rw [unwire,hback]⟩
  | dict items =>
    obtain ⟨js,hjs,hback⟩ := wireItems_isJson items h
    exact ⟨.dict js,by rw [wire,hjs]; rfl,by rw [unwire,hback]⟩
  | tuple xs => simp [isJson] at h
  | object typeName id => simp [isJson] at h

theorem wireAll_isJson (xs : List Value) (h : allJson xs = true) :
    ∃ js, wireAll xs = .ok js ∧ unwireAll js = xs := by
  cases xs with
  | nil => exact ⟨[],rfl,rfl⟩
  | cons x xs =>
    simp only [allJson,Bool.and_eq_true] at h
    obtain ⟨j,hj,hback⟩ := wire_isJson x h.1
    obtain ⟨js,hjs,hrest⟩ := wireAll_isJson xs h.2
    exact ⟨j :: js,by rw [wireAll,hj,hjs]; rfl,by rw [unwireAll,hback,hrest]⟩

theorem wireItems_isJson (items : List (String × Value)) (h : itemsJson items = true) :
    ∃ js, wireItems items = .ok js ∧ unwireItems js = items := by
  cases items with
  | nil => exact ⟨[],rfl,rfl⟩
  | cons item items =>
    obtain ⟨k,v⟩ := item
    simp only [itemsJson,Bool.and_eq_true] at h
    obtain ⟨j,hj,hback⟩ := wire_isJson v h.1
    obtain ⟨js,hjs,hrest⟩ := wireItems_isJson items h.2
    exact ⟨(k,j) :: js,by rw [wireItems,hj,hjs]; rfl,by rw [unwireItems,hback,hrest]⟩

end

end Value

abbrev JsonValue : Type := { v : Value // v.isJson = true }

abbrev JsonItems : Type := { items : List (String × Value) // Value.itemsJson items = true }

/-- What `gen.send` is given. -/
inductive Sent where
  | none : Sent
  | toolResult : ToolResult → Sent
  | cancelled : String → Sent

/-- What a generator does with it, and what is left of it. -/
inductive Resumption (σ : Type) where
  | step (description : String) (detail : JsonValue) (gen : σ) : Resumption σ
  | request (name : String) (args : JsonItems) (gen : σ) : Resumption σ
  /-- It yields an `AgentResult`. -/
  | yieldedResult (output : JsonValue) (gen : σ) : Resumption σ
  /-- It yields anything else. -/
  | yieldedOther (gen : σ) : Resumption σ
  | returned (output : JsonValue) : Resumption σ
  /-- It returns what is no `AgentResult`. -/
  | returnedOther : Resumption σ
  | raised : Raised → Resumption σ

/-- The agents behind entry points, as deterministic generators. To start one is to import its
factory, call it and call the agent. -/
structure Agents (σ : Type) where
  start : String → Value → Nat → List String → Except Raised σ
  resume : σ → Sent → Resumption σ
  /-- What `gen.close()` raises. -/
  close : σ → Option Raised

/-- What passed between the Manager and a generator. -/
inductive Exchange (σ : Type) where
  | started : Except Raised Unit → Exchange σ
  | resumed : Sent → Resumption σ → Exchange σ
  | closed : Option Raised → Exchange σ

def Sent.isJson : Sent → Bool
  | .toolResult result => result.output.isJson
  | _ => true

def sentOf : Option ToolResult → Sent
  | Option.none => .none
  | some result => .toolResult result

structure Hosted (W σ : Type) where
  world : W
  /-- Nothing is left of a generator that ended or was closed. -/
  gen : Option σ
  /-- What was exchanged so far. -/
  exchanges : List (Exchange σ)

section
variable {W S σ : Type}

def Hosted.ask {α : Type} (call : W → α × W) (h : Hosted W σ) : α × Hosted W σ :=
  ((call h.world).1,{ h with world := (call h.world).2 })

/-- `InProcessSession.next_step`: a yielded item, or the result. -/
def inProcessStep : Resumption σ → NextStep × Option σ
  | .step description detail gen => (.item (.step description detail.1),some gen)
  | .request name args gen => (.item (.request name args.1),some gen)
  | .yieldedResult output gen => (.item (.result output.1),some gen)
  | .yieldedOther gen => (.item .unsupported,some gen)
  | .returned output => (.item (.result output.1),none)
  | .returnedOther => (.agentExecution "Agent returned a non-AgentResult value.",none)
  | .raised r =>
    (if r.ordinary then .agentExecution ("Agent raised an exception: " ++ r.text) else .raised r,
      none)

namespace Hosted

def resume (agents : Agents σ) (gen : σ) (sent : Sent) (h : Hosted W σ) :
    NextStep × Hosted W σ :=
  let r := agents.resume gen sent
  ((inProcessStep r).1,
    { h with gen := (inProcessStep r).2,exchanges := h.exchanges ++ [.resumed sent r] })

def session (agents : Agents σ) (manifest : AgentComponentManifest) (payload : Value)
    (budget : Nat) (tools : List String) (h : Hosted W σ) : Except Raised Unit × Hosted W σ :=
  match agents.start manifest.entryPoint payload budget tools with
  | .error r => (.error r,
      { h with gen := none,exchanges := h.exchanges ++ [.started (.error r)] })
  | .ok gen => (.ok (),
      { h with gen := some gen,exchanges := h.exchanges ++ [.started (.ok ())] })

def nextStep (agents : Agents σ) (sent : Option ToolResult) (h : Hosted W σ) :
    NextStep × Hosted W σ :=
  match h.gen with
  | none => (.agentExecution "Agent returned a non-AgentResult value.",h)
  | some gen => h.resume agents gen (sentOf sent)

/-- What the generator does when it is told does not matter, unless it raises what is no
`Exception`. -/
def cancel (agents : Agents σ) (reason : String) (h : Hosted W σ) : Hosted W σ :=
  match h.gen with
  | none => h
  | some gen => (h.resume agents gen (.cancelled reason)).2

def close (agents : Agents σ) (h : Hosted W σ) : Hosted W σ :=
  match h.gen with
  | none => h
  | some gen =>
    { h with gen := none,exchanges := h.exchanges ++ [.closed (agents.close gen)] }

end Hosted

def inProcess (env : Host W S) (agents : Agents σ) : Host (Hosted W σ) Unit where
  monotonic := Hosted.ask env.monotonic
  minus := env.minus
  session manifest payload budget tools _ := Hosted.session agents manifest payload budget tools
  nextStep _ sent := Hosted.nextStep agents sent
  cancel _ reason := Hosted.cancel agents reason
  close _ := Hosted.close agents
  forced _ _ := false
  describes := env.describes
  execute name args := Hosted.ask (env.execute name args)
  verify := env.verify
  begin := Hosted.ask env.begin
  append record := Hosted.ask (env.append record)
  record outcome := Hosted.ask (env.record outcome)
  picks := env.picks

end

def ipcVersion : String := "agent-ipc.v1"

/-- `data.get(name)`. -/
def got (data : Json) (name : String) : Json :=
  match data with
  | .dict items => (Dict.lookup items name).getD .null
  | _ => .null

/-- `data.get(name) or {}`. -/
def gotDict (data : Json) (name : String) : Json :=
  match got data name with
  | .dict items => .dict items
  | _ => .dict []

def wordAt (data : Json) (name : String) : String :=
  match got data name with
  | .str s => s
  | _ => ""

def optionText : Option String → Json
  | some s => .str s
  | none => .null

def textOption : Json → Option String
  | .str s => some s
  | _ => none

def encodeSent : Sent → Except Raised Json
  | .none => .ok (.dict [("kind",.str "none")])
  | .toolResult r => r.output.wire.map fun output =>
      .dict [("kind",.str "tool_result"),("success",.bool r.success),("output",output),
        ("error",optionText r.error)]
  | .cancelled reason => .ok (.dict [("kind",.str "cancelled"),("reason",.str reason)])

/-- `_decode_sent`. An unknown kind raises. -/
def decodeSent (data : Json) : Option Sent :=
  match got data "kind" with
  | .str kind =>
    if kind = "none" then some .none
    else if kind = "tool_result" then
      some (.toolResult ⟨(got data "success").truthy,Value.unwire (got data "output"),
        textOption (got data "error")⟩)
    else if kind = "cancelled" then some (.cancelled (wordAt data "reason"))
    else none
  | _ => none

/-- `_encode_yield` of an `AgentStep`. -/
def encodeStep (description : String) (detail : Value) : Except Raised Json :=
  detail.wire.map fun detail => .dict [("kind",.str "agent_step"),
    ("description",.str description),("detail",detail)]

/-- `_encode_yield` of a `ToolRequest`. -/
def encodeRequest (name : String) (args : List (String × Value)) : Except Raised Json :=
  (Value.wireItems args).map fun args => .dict [("kind",.str "tool_request"),("name",.str name),
    ("args",.dict args)]

def decodeYield (data : Json) : NextStep :=
  match got data "kind" with
  | .str kind =>
    if kind = "agent_step" then
      .item (.step (wordAt data "description") (Value.unwire (got data "detail")))
    else if kind = "tool_request" then
      match gotDict data "args" with
      | .dict args => .item (.request (wordAt data "name") (Value.unwireItems args))
      | _ => .item (.request (wordAt data "name") [])
    else .agentExecution ("Unknown yielded item kind: " ++ pyRepr kind)
  | other => .agentExecution ("Unknown yielded item kind: " ++ other.repr)

def message (type : String) (name : String) (content : Json) : Json :=
  .dict [("type",.str type),(name,content)]

def errorMessage (text : String) : Json := message "error" "message" (.str text)

def startMessage (entryPoint : String) (payload : Json) (budget : Nat) (tools : List String) :
    Json :=
  .dict [("type",.str "start"),("version",.str ipcVersion),("entry_point",.str entryPoint),
    ("payload",payload),("step_budget",.int budget),
    ("tools",.list (tools.map fun tool => .dict [("name",.str tool)]))]

def toolNames : Json → List String
  | .list tools => tools.map fun tool => wordAt tool "name"
  | _ => []

def natOf : Json → Nat
  | .int i => i.toNat
  | _ => 0

theorem got_message (type name : String) (content : Json) (h : name ≠ "type") :
    got (message type name content) name = content := by
  simp [message,got,Dict.lookup,Ne.symm h]

@[simp] theorem wordAt_message (type name : String) (content : Json) :
    wordAt (message type name content) "type" = type := by
  simp [message,wordAt,got,Dict.lookup]

@[simp] theorem gotDict_message (type : String) (items : List (String × Json)) :
    gotDict (message type "value" (.dict items)) "value" = .dict items := by
  rw [gotDict,got_message type "value" (.dict items) (by decide)]

@[simp] theorem textOption_optionText (text : Option String) :
    textOption (optionText text) = text := by
  cases text <;> rfl

theorem decodeSent_encodeSent (sent : Sent) (h : sent.isJson = true) :
    ∃ items, encodeSent sent = .ok (.dict items) ∧ decodeSent (.dict items) = some sent := by
  cases sent with
  | none => exact ⟨_,rfl,by simp [decodeSent,got,Dict.lookup]⟩
  | cancelled reason => exact ⟨_,rfl,by simp [decodeSent,wordAt,got,Dict.lookup]⟩
  | toolResult result =>
    obtain ⟨j,hj,hback⟩ := Value.wire_isJson result.output h
    refine ⟨_,by rw [encodeSent,hj]; rfl,?_⟩
    simp [decodeSent,got,Dict.lookup,Json.truthy,hback]

theorem decodeYield_encodeStep (description : String) (detail : JsonValue) :
    ∃ items, encodeStep description detail.1 = .ok (.dict items) ∧
      decodeYield (.dict items) = .item (.step description detail.1) := by
  obtain ⟨j,hj,hback⟩ := Value.wire_isJson detail.1 detail.2
  refine ⟨_,by rw [encodeStep,hj]; rfl,?_⟩
  simp [decodeYield,wordAt,got,Dict.lookup,hback]

theorem decodeYield_encodeRequest (name : String) (args : JsonItems) :
    ∃ items, encodeRequest name args.1 = .ok (.dict items) ∧
      decodeYield (.dict items) = .item (.request name args.1) := by
  obtain ⟨js,hjs,hback⟩ := Value.wireItems_isJson args.1 args.2
  refine ⟨_,by rw [encodeRequest,hjs]; rfl,?_⟩
  simp [decodeYield,wordAt,gotDict,got,Dict.lookup,hback]

theorem toolNames_map (tools : List String) :
    toolNames (.list (tools.map fun tool => .dict [("name",.str tool)])) = tools := by
  induction tools with
  | nil => rfl
  | cons tool tools ih =>
    simp only [toolNames,List.map_cons,List.map_map] at ih ⊢
    rw [ih]
    simp [wordAt,got,Dict.lookup]

/-- A child waits for its next line, or it has ended. -/
inductive Child (σ : Type) where
  | waiting : σ → Child σ
  | exited : Child σ

namespace Child
variable {σ : Type}

/-- What is written is JSON, or the child dies with what `json.dumps` raises. -/
def writes (content : Except Raised Json) (type : String) (next : Child σ) : List Json × Child σ :=
  match content with
  | .ok content => ([message type "value" content],next)
  | .error _ => ([],.exited)

/-- What the worker makes of what the generator does. An exception that is not ordinary ends it
without a word. The texts leave out the type of an exception and what was yielded. -/
def answer : Resumption σ → List Json × Child σ
  | .step description detail gen => writes (encodeStep description detail.1) "step" (.waiting gen)
  | .request name args gen => writes (encodeRequest name args.1) "step" (.waiting gen)
  | .yieldedResult _ _ => ([errorMessage "unsupported yield: AgentResult"],.exited)
  | .yieldedOther _ => ([errorMessage "unsupported yield"],.exited)
  | .returned output =>
    writes (output.1.wire.map fun output => .dict [("output",output)]) "result" .exited
  | .returnedOther => ([errorMessage "Agent returned a non-AgentResult value."],.exited)
  | .raised r => (if r.ordinary then [errorMessage r.text] else [],.exited)

/-- `_subprocess_main` up to its loop. -/
def startup (agents : Agents σ) (start : Json) : List Json × Child σ :=
  if wordAt start "version" ≠ ipcVersion then ([errorMessage "IPC version mismatch."],.exited)
  else
    match agents.start (wordAt start "entry_point") (Value.unwire (got start "payload"))
        (natOf (got start "step_budget")) (toolNames (got start "tools")) with
    | .ok gen => ([],.waiting gen)
    | .error r => (if r.ordinary then [errorMessage ("startup failed: " ++ r.text)] else [],.exited)

def receive (agents : Agents σ) (line : Json) : Child σ → List Json × Child σ
  | .exited => ([],.exited)
  | .waiting gen =>
    if wordAt line "type" = "send" then
      match decodeSent (gotDict line "value") with
      | some sent => answer (agents.resume gen sent)
      | none => ([],.exited)
    else if wordAt line "type" = "close" then ([],.exited)
    else ([errorMessage ("unknown message: " ++ (got line "type").repr)],.exited)

end Child

/-- A world with a child process in it, and the lines that it has written. -/
structure Piped (W σ : Type) where
  world : W
  child : Child σ
  stdout : List Json

section
variable {W S σ : Type}

namespace Piped

def ask {α : Type} (call : W → α × W) (p : Piped W σ) : α × Piped W σ :=
  ((call p.world).1,{ p with world := (call p.world).2 })

def session (agents : Agents σ) (manifest : AgentComponentManifest) (payload : Value)
    (budget : Nat) (tools : List String) (p : Piped W σ) : Except Raised Unit × Piped W σ :=
  match payload.wire with
  | .error r => (.error r,{ p with child := .exited,stdout := [] })
  | .ok payload =>
    let r := Child.startup agents (startMessage manifest.entryPoint payload budget tools)
    (.ok (),{ p with child := r.2,stdout := r.1 })

/-- `_write`, as far as the child takes the line. -/
def write (agents : Agents σ) (line : Json) (p : Piped W σ) : Piped W σ :=
  let r := p.child.receive agents line
  { p with child := r.2,stdout := p.stdout ++ r.1 }

def terminated : NextStep := .agentExecution "Agent subprocess terminated unexpectedly."

def readMessage (line : Json) : NextStep :=
  let type := wordAt line "type"
  if type = "step" then decodeYield (gotDict line "value")
  else if type = "result" then
    .item (.result (Value.unwire (got (gotDict line "value") "output")))
  else if type = "error" then .agentExecution (wordAt line "message")
  else terminated

/-- `_read`: a child that neither writes nor ends does not respond. -/
def read (p : Piped W σ) : NextStep × Piped W σ :=
  match p.stdout,p.child with
  | line :: rest,_ => (readMessage line,{ p with stdout := rest })
  | [],.exited => (terminated,p)
  | [],.waiting _ => (.subprocessTimeout
      "Agent subprocess did not respond within the envelope timeout.",p)

def nextStep (agents : Agents σ) (sent : Option ToolResult) (p : Piped W σ) :
    NextStep × Piped W σ :=
  match encodeSent (sentOf sent) with
  | .error r => (.raised r,p)
  | .ok value => (p.write agents (message "send" "value" value)).read

def cancel (agents : Agents σ) (reason : String) (p : Piped W σ) : Piped W σ :=
  match encodeSent (.cancelled reason) with
  | .error _ => p
  | .ok value => p.write agents (message "send" "value" value)

/-- `SubprocessSession.close`: a child that is still there is told to end, and does. What it wrote
is not read any more. -/
def close (agents : Agents σ) (p : Piped W σ) : Piped W σ :=
  { p.write agents (.dict [("type",.str "close")]) with stdout := [] }

end Piped

/-- `SubprocessBackend`. No child has to be killed, where time does not matter. -/
def subprocess (env : Host W S) (agents : Agents σ) : Host (Piped W σ) Unit where
  monotonic := Piped.ask env.monotonic
  minus := env.minus
  session manifest payload budget tools _ := Piped.session agents manifest payload budget tools
  nextStep _ sent := Piped.nextStep agents sent
  cancel _ reason := Piped.cancel agents reason
  close _ := Piped.close agents
  forced _ _ := false
  describes := env.describes
  execute name args := Piped.ask (env.execute name args)
  verify := env.verify
  begin := Piped.ask env.begin
  append record := Piped.ask (env.append record)
  record outcome := Piped.ask (env.record outcome)
  picks := env.picks

end

end AgentCentric.Manager

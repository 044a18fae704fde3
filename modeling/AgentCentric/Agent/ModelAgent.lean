import AgentCentric.Library.JsonLines
import AgentCentric.Agent.Dispatch

namespace AgentCentric
open Json

/-- A model, as it is called by an agent. It may answer otherwise each time, and it may raise. -/
structure ModelProvider (W : Type) where
  complete : String → List (String × Json) → W → Except Raised String × W

inductive ProviderKind where
  | stub | external
  deriving DecidableEq

def ProviderKind.text : ProviderKind → String
  | .stub => "stub"
  | .external => "external"

structure ModelConfidence where
  score : Decimal
  reason : String

def isBlankText (text : String) : Bool := text.toList.all JsonLines.isSpace

def scoreModelConfidence (deterministic : Bool) (prompt output : String) : ModelConfidence :=
  let zero := Decimal.zero
  if isBlankText prompt then ⟨zero,"empty prompt; nothing to reproduce"⟩
  else if isBlankText output then ⟨zero,"empty output; nothing to reproduce"⟩
  else if ¬ deterministic then
    ⟨⟨['0','.','5'],by decide,by decide⟩,
      "external provider output; recorded and re-verified, not relied upon"⟩
  else ⟨⟨['0','.','9'],by decide,by decide⟩,
    "deterministic provider output; reproducible byte-for-byte"⟩

structure ModelRecord where
  modelId : String
  providerKind : ProviderKind
  deterministic : Bool
  promptSha256 : HexDigest
  outputSha256 : HexDigest
  confidence : ModelConfidence

namespace ModelRecord

def build (sha256 : String → HexDigest) (modelId : String) (providerKind : ProviderKind)
    (deterministic : Bool) (prompt output : String) : Except Raised ModelRecord := do
  require (modelId ≠ "") (.rejected "model_id must be non-empty")
  pure ⟨modelId,providerKind,deterministic,sha256 prompt,sha256 output,
    scoreModelConfidence deterministic prompt output⟩

def toDict (r : ModelRecord) : Json :=
  .dict [("schema",.str "cbp.model-record.v1"),("model_id",.str r.modelId),
    ("provider_kind",.str r.providerKind.text),("deterministic",.bool r.deterministic),
    ("prompt_sha256",.str r.promptSha256.text),("output_sha256",.str r.outputSha256.text),
    ("confidence",.decimal r.confidence.score),("confidence_reason",.str r.confidence.reason)]

/-- `record_hash`. The canonical bytes are ASCII. -/
def recordHash (sha256 : String → HexDigest) (r : ModelRecord) : HexDigest :=
  sha256 r.toDict.compact

end ModelRecord

def promptOf (d : Directive) : Option (String × List (String × Json)) :=
  match d.payload.get "args" with
  | some (.dict args) =>
    match Dict.lookup args "prompt" with
    | some (.str prompt) =>
      if isBlankText prompt then none else some (prompt,args.filter fun arg => arg.1 ≠ "prompt")
    | _ => none
  | _ => none

def stubComplete (prompt : String) : String :=
  "stub response to: " ++ String.ofList (prompt.toList.take 80)

def textOf : Json → Option String
  | .str text => some text
  | _ => none

def isModelTask (d : Directive) : Bool :=
  d.kind = .run ∧ textOf (field d.payload "task") = some "model"

/-- An agent behind which there is a model: a stub, unless a provider is wired. -/
structure ModelAgent (W : Type) where
  base : Agent W
  modelId : String
  provider : Option (ModelProvider W)
  /-- The records by their content address. -/
  modelRecords : Dict String ModelRecord
  /-- What takes a response that needs a review. -/
  reviewQueue : Option (Response → W → W)

namespace ModelAgent
variable {W : Type}

def invoke (m : ModelAgent W) (prompt : String) (kwargs : List (String × Json)) (w : W) :
    Except Raised String × W :=
  match m.provider with
  | some provider => provider.complete prompt kwargs w
  | none => (.ok (stubComplete prompt),w)

def providerKind (m : ModelAgent W) : ProviderKind :=
  match m.provider with
  | some _ => .external
  | none => .stub

def completion (sha256 : String → HexDigest) (m : ModelAgent W) (d : Directive) (output : String)
    (record : ModelRecord) : Response where
  correlationId := d.correlationId
  kind := .result
  value := .json (.str output)
  verified := .bool true
  node := .str m.base.identity
  error := .null
  source := .str ""
  sources := .list [.dict [("kind",.str "model"),("id",.str m.modelId)],
    .dict [("kind",.str "model-record"),("id",.str (record.recordHash sha256).text),
      ("confidence",.decimal record.confidence.score),("deterministic",.bool record.deterministic)]]
  confidence := .decimal record.confidence.score
  modelRecord := .str (record.recordHash sha256).text

def record (sha256 : String → HexDigest) (m : ModelAgent W) (r : ModelRecord) :
    Dict String ModelRecord :=
  let address := (r.recordHash sha256).text
  match m.modelRecords.get address with
  | some _ => m.modelRecords
  | none => m.modelRecords.set address r

def enqueue (m : ModelAgent W) (response : Response) (w : W) : W :=
  match m.reviewQueue with
  | some queue => queue response w
  | none => w

/-- `_op_model`, with the records that it leaves. A turn tells whether the provider was called. -/
def opModel (sha256 : String → HexDigest) (m : ModelAgent W) (d : Directive) (w : W) :
    Turn W × Dict String ModelRecord :=
  match promptOf d with
  | none => (m.base.refuse w d "model requires a non-empty 'prompt'",m.modelRecords)
  | some (prompt,kwargs) =>
    let called := m.provider.isSome
    match m.invoke prompt kwargs w with
    | (.error e,w) => (⟨.error e,m.base,w,called⟩,m.modelRecords)
    | (.ok output,w) =>
      match ModelRecord.build sha256 m.modelId m.providerKind (¬ called) prompt output with
      | .error e => (⟨.error e,m.base,w,called⟩,m.modelRecords)
      | .ok r =>
        let response := m.completion sha256 d output r
        (⟨.ok response,m.base,m.enqueue response w,called⟩,m.record sha256 r)

def handle (sha256 : String → HexDigest) (m : ModelAgent W) (o : Outside) (d : Directive) (w : W) :
    Turn W × Dict String ModelRecord :=
  if isModelTask d then m.opModel sha256 d w else (m.base.handle o d w,m.modelRecords)

theorem handle_delegated (sha256 : String → HexDigest) (m : ModelAgent W) (o : Outside)
    (d : Directive) (w : W) : (m.handle sha256 o d w).1.agent.delegated = m.base.delegated := by
  unfold handle
  split
  · unfold opModel
    dsimp only
    repeat' split
    all_goals rfl
  · exact Agent.handle_delegated m.base o d w

def handler (sha256 : String → HexDigest) (m : ModelAgent W) : Handler W :=
  ⟨fun a o d w => ({ m with base := a }.handle sha256 o d w).1,
    fun a o d w => handle_delegated sha256 { m with base := a } o d w⟩

def dispatch (sha256 : String → HexDigest) (I : Integrity) (m : ModelAgent W) (o : Outside)
    (d : Directive) (w : W) : Effect × ModelAgent W × W :=
  let r := m.base.dispatch (m.handler sha256) I o d w
  let records := match Agent.maybeDelegate d with
    | some _ => m.modelRecords
    | none => (m.handle sha256 o d w).2
  (r.effect,{ m with base := r.agent,modelRecords := records },r.world)

/-- One directive, as `poll` receives it: an agent without channels raises. -/
def receive (sha256 : String → HexDigest) (I : Integrity) (m : ModelAgent W) (o : Outside)
    (d : Directive) (w : W) : Effect × ModelAgent W × W :=
  if m.base.alive then m.dispatch sha256 I o d w else (.raised m.base.unsent,m,w)

end ModelAgent
end AgentCentric

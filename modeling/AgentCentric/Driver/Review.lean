import AgentCentric.Agent.Message
import AgentCentric.Library.Names

namespace AgentCentric.Durable

def reviewSchema : String := "review.v1"

def unitFloat (text : String) (h : text.toList.all numberChar = true)
    (h' : text.toList.any fractionChar = true) : Decimal := ⟨text.toList,h,h'⟩

def zeroFloat : Decimal := unitFloat "0.0" (by decide) (by decide)

def oneFloat : Decimal := unitFloat "1.0" (by decide) (by decide)

/-- `float(value)`, for a number that is not outside of `[0.0, 1.0]`. -/
def floatOf : Json → Option Decimal
  | .int n => if n = 0 then some zeroFloat else if n = 1 then some oneFloat else none
  | .decimal d => if 0 ≤ d.value ∧ d.value ≤ 1 then some d else none
  | _ => none

structure ReviewItem where
  correlationId : String
  domain : String
  confidence : Decimal
  provenance : List String
  identified : correlationId ≠ ""
  named : domain ≠ ""
  bounded : 0 ≤ confidence.value ∧ confidence.value ≤ 1
  stated : "" ∉ provenance

namespace ReviewItem

def new (correlationId domain : String) (confidence : Json) (provenance : List String)
    (schema : String := reviewSchema) : Except String ReviewItem :=
  if schema ≠ reviewSchema then .error ("Unsupported review schema: " ++ pyRepr schema)
  else if hid : correlationId = "" then .error "ReviewItem correlation_id must be non-empty."
  else if hdomain : domain = "" then .error "ReviewItem domain must be non-empty."
  else if ¬confidence.isNumber then
    .error ("ReviewItem confidence must be numeric: " ++ confidence.repr)
  else
    match floatOf confidence with
    | none => .error ("ReviewItem confidence must be in [0.0, 1.0]: " ++ confidence.repr)
    | some float =>
      if hbound : 0 ≤ float.value ∧ float.value ≤ 1 then
        if hstated : "" ∈ provenance then
          .error "ReviewItem provenance entries must be non-empty strings."
        else .ok ⟨correlationId,domain,float,provenance,hid,hdomain,hbound,hstated⟩
      else .error ("ReviewItem confidence must be in [0.0, 1.0]: " ++ confidence.repr)

def toDict (item : ReviewItem) : Json :=
  .dict [("schema",.str reviewSchema),("correlation_id",.str item.correlationId),
    ("domain",.str item.domain),("confidence",.decimal item.confidence),
    ("provenance",.list (item.provenance.map .str))]

def itemHash (sha256 : List Char → HexDigest) (item : ReviewItem) : String :=
  (sha256 item.toDict.bytes).text

def fromDict (data : Json) : Except String ReviewItem :=
  match data with
  | .dict items => do
    let correlationId ← expect (Dict.lookup items "correlation_id")
      "ReviewItem missing field: KeyError('correlation_id')"
    let domain ← expect (Dict.lookup items "domain") "ReviewItem missing field: KeyError('domain')"
    let confidence ← expect (Dict.lookup items "confidence")
      "ReviewItem missing field: KeyError('confidence')"
    let schema := ((Dict.lookup items "schema").getD (.str reviewSchema)).text
    match (Dict.lookup items "provenance").getD (.list []) with
    | .list entries =>
      new correlationId.text domain.text confidence (entries.map Json.text) schema
    | _ => .error "ReviewItem provenance must be a list."
  | _ => .error "TypeError"

end ReviewItem

/-- The columns of `review_items` that are read. -/
structure ItemRow where
  seq : Nat
  itemHash : String
  document : String

structure ResolutionRow where
  seq : Nat
  resolutionHash : String
  itemHash : String

structure ReviewQueue where
  items : List ItemRow
  resolutions : List ResolutionRow
  seqItems : Nat
  seqResolutions : Nat

namespace ReviewQueue
variable (sha256 : List Char → HexDigest)

/-- `open`. -/
def reopen (queue : ReviewQueue) : ReviewQueue :=
  ⟨queue.items,queue.resolutions,(queue.items.map ItemRow.seq).foldr max 0,
    (queue.resolutions.map ResolutionRow.seq).foldr max 0⟩

def enqueue (queue : ReviewQueue) (item : ReviewItem) : (Nat × Bool) × ReviewQueue :=
  let itemHash := item.itemHash sha256
  match queue.items.find? fun row => row.itemHash = itemHash with
  | some row => ((row.seq,false),queue)
  | none =>
    let seq := queue.seqItems + 1
    ((seq,true),⟨queue.items ++ [⟨seq,itemHash,item.toDict.dumps⟩],queue.resolutions,seq,
      queue.seqResolutions⟩)

/-- `ReviewResolution`, by its content address. -/
def resolutionHash (itemHash resolution resolver : String) : String :=
  (sha256 (Json.dict [("schema",.str reviewSchema),("item_hash",.str itemHash),
    ("resolution",.str resolution),("resolver",.str resolver)]).bytes).text

def resolve (queue : ReviewQueue) (itemHash resolution resolver : String) :
    Except String (Nat × Bool) × ReviewQueue :=
  if itemHash ∉ queue.items.map ItemRow.itemHash then
    (.error ("cannot resolve unknown review item " ++ pyRepr itemHash),queue)
  else if resolution = "" then (.error "ReviewResolution resolution must be non-empty.",queue)
  else
    let hash := resolutionHash sha256 itemHash resolution resolver
    match queue.resolutions.find? fun row => row.resolutionHash = hash with
    | some row => (.ok (row.seq,false),queue)
    | none =>
      let seq := queue.seqResolutions + 1
      (.ok (seq,true),⟨queue.items,queue.resolutions ++ [⟨seq,hash,itemHash⟩],queue.seqItems,seq⟩)

def allItems (queue : ReviewQueue) : Except String (List ReviewItem) :=
  (queue.items.insertionSort fun a b => a.seq ≤ b.seq).mapM fun row => do
    let document ← expect (Json.loads row.document) "Expecting value"
    ReviewItem.fromDict document

def pending (queue : ReviewQueue) : Except String (List ReviewItem) := do
  let items ← queue.allItems
  pure (items.filter fun item =>
    item.itemHash sha256 ∉ queue.resolutions.map ResolutionRow.itemHash)

end ReviewQueue

def stampConfidence (msg : Response) : Response :=
  match msg.confidence with
  | .null => { msg with
      confidence := .decimal (if msg.verified.truthy then oneFloat else zeroFloat) }
  | _ => msg

/-- `needs_review`, with the default threshold. -/
def needsReview (verified confidence : Json) : Bool :=
  if ¬verified.truthy then true
  else
    match confidence with
    | .null => false
    | value =>
      match floatOf value with
      | none => true
      | some float => float.value < 1

def provenanceOf (response : Response) : List String :=
  (if response.modelRecord.truthy then ["model-record:" ++ response.modelRecord.text] else []) ++
  (if response.node.truthy then ["node:" ++ response.node.text] else []) ++
  (if response.source.truthy then ["source:" ++ response.source.text] else [])

def itemFor (response : Response) (domain : String) : Except String ReviewItem :=
  ReviewItem.new response.correlationId domain
    (match response.confidence with
      | .null => .decimal zeroFloat
      | confidence => confidence)
    (provenanceOf response)

def enqueueForReview (sha256 : List Char → HexDigest) (queue : ReviewQueue) (response : Response)
    (domain : String) : Except String (Option ReviewItem) × ReviewQueue :=
  if needsReview response.verified response.confidence then
    match itemFor response domain with
    | .error e => (.error e,queue)
    | .ok item => (.ok (some item),(queue.enqueue sha256 item).2)
  else (.ok none,queue)

structure Answer where
  response : Response
  valid : validateResponse response = .ok ()

/-- What happens around a queue. -/
inductive Event where
  /-- A new driver, on the queue opened again. -/
  | driver : Event
  /-- A directive that is not a `run`, or that has no response. -/
  | other : Event
  | run (task : Json) (answer : Answer)
  | resolve (itemHash resolution resolver : String)

structure Reviewed where
  seq : Nat
  queue : ReviewQueue

namespace Reviewed
variable (sha256 : List Char → HexDigest)

def start : Reviewed := ⟨0,⟨[],[],0,0⟩⟩

/-- The response to the run of a number, as `_roundtrip` returns it. -/
def responseTo (number : Nat) (answer : Answer) : Response :=
  stampConfidence { answer.response with correlationId := "run-" ++ toString number }

def domainOf : Json → String
  | .str task => task
  | _ => DirectiveKind.run.text

def step (s : Reviewed) : Event → Reviewed
  | .driver => ⟨0,s.queue.reopen⟩
  | .other => ⟨s.seq + 1,s.queue⟩
  | .run task answer => ⟨s.seq + 1,
      (enqueueForReview sha256 s.queue (responseTo (s.seq + 1) answer) (domainOf task)).2⟩
  | .resolve itemHash resolution resolver =>
    ⟨s.seq,(s.queue.resolve sha256 itemHash resolution resolver).2⟩

def play (s : Reviewed) (events : List Event) : Reviewed := events.foldl (step sha256) s

def Left (s : Reviewed) (task : Json) (answer : Answer) : Prop :=
  let response := responseTo (s.seq + 1) answer
  needsReview response.verified response.confidence = true →
    ∃ item old, itemFor response (domainOf task) = .ok item ∧ s.queue.pending sha256 = .ok old ∧
      (s.step sha256 (.run task answer)).queue.pending sha256 = .ok (old ++ [item])

end Reviewed

def Answer.reviewed (answer : Answer) : Bool :=
  needsReview answer.response.verified (stampConfidence answer.response).confidence

def toReview : Nat → List Event → List ReviewItem
  | _, [] => []
  | _, .driver :: events => toReview 0 events
  | number, .other :: events => toReview (number + 1) events
  | number, .resolve _ _ _ :: events => toReview number events
  | number, .run task answer :: events =>
    if answer.reviewed then
      let item := itemFor (Reviewed.responseTo (number + 1) answer) (Reviewed.domainOf task)
      item.toOption.toList ++ toReview (number + 1) events
    else toReview (number + 1) events

/-- Runs that need review have a domain, and no two of them are written alike. -/
structure Distinct (sha256 : List Char → HexDigest) (events : List Event) : Prop where
  named : ∀ task answer, .run task answer ∈ events → answer.reviewed = true →
    Reviewed.domainOf task ≠ ""
  apart : ((toReview 0 events).map (ReviewItem.itemHash sha256)).Nodup

end AgentCentric.Durable

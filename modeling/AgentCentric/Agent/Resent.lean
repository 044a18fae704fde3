import AgentCentric.Agent.ModelAgent

namespace AgentCentric
open Json

theorem textOf_canonical (j : Json) : textOf j.canonical = textOf j := by
  cases j <;> simp [textOf,canonical]

theorem textOf_field {d e : Directive} (h : d.fingerprint = e.fingerprint) (key : String) :
    textOf (field d.payload key) = textOf (field e.payload key) := by
  have hget := Directive.get_of_fingerprint h key
  unfold field
  cases hd : d.payload.get key <;> cases he : e.payload.get key <;>
    simp only [hd,he,Option.map_some,Option.map_none,reduceCtorEq,Option.some.injEq] at hget
  · rfl
  · rw [Option.getD_some,Option.getD_some,← textOf_canonical,hget,textOf_canonical]

theorem isModelTask_congr {d e : Directive} (h : d.fingerprint = e.fingerprint) :
    isModelTask d = isModelTask e := by
  have hkind : d.kind = e.kind := congrArg Fingerprint.kind h
  unfold isModelTask
  rw [hkind,textOf_field h "task"]

theorem maybeDelegate_eq (d : Directive) : Agent.maybeDelegate d = if d.kind ≠ .run then none
    else (textOf (field d.payload "child")).bind fun target =>
      if target = "" then none else some target := by
  unfold Agent.maybeDelegate
  cases field d.payload "child" <;> rfl

theorem maybeDelegate_congr {d e : Directive} (h : d.fingerprint = e.fingerprint) :
    Agent.maybeDelegate d = Agent.maybeDelegate e := by
  have hkind : d.kind = e.kind := congrArg Fingerprint.kind h
  rw [maybeDelegate_eq,maybeDelegate_eq,hkind,textOf_field h "child"]

def promptText (d : Directive) : Option String := (promptOf d).map Prod.fst

def argsPrompt : Json → Option String
  | .dict args =>
    ((Dict.lookup args "prompt").bind textOf).filter fun prompt => !isBlankText prompt
  | _ => none

theorem promptText_eq (d : Directive) : promptText d = (d.payload.get "args").bind argsPrompt := by
  unfold promptText promptOf
  cases d.payload.get "args" with
  | none => rfl
  | some j =>
    cases j with
    | dict args =>
      simp only [Option.bind_some,argsPrompt]
      cases Dict.lookup args "prompt" with
      | none => rfl
      | some value =>
        cases value with
        | str prompt => by_cases hblank : isBlankText prompt <;> simp [textOf,Option.filter,hblank]
        | _ => rfl
    | _ => rfl

theorem argsPrompt_canonical (j : Json) : argsPrompt j.canonical = argsPrompt j := by
  cases j with
  | dict args =>
    rw [canonical_dict,argsPrompt,argsPrompt,lookup_sorted]
    cases Dict.lookup args "prompt" with
    | none => rfl
    | some value => rw [Option.map_some,Option.bind_some,Option.bind_some,textOf_canonical]
  | _ => simp [argsPrompt,canonical]

theorem promptText_congr {d e : Directive} (h : d.fingerprint = e.fingerprint) :
    promptText d = promptText e := by
  have hcanonical (x : Option Json) : (x.map canonical).bind argsPrompt = x.bind argsPrompt := by
    cases x with
    | none => rfl
    | some j => exact argsPrompt_canonical j
  rw [promptText_eq,promptText_eq,← hcanonical,Directive.get_of_fingerprint h "args",hcanonical]

def isModel (d : Directive) : Bool := isModelTask d && (Agent.maybeDelegate d).isNone

def asks (d : Directive) : Bool := isModel d && (promptText d).isSome

theorem isModel_congr {d e : Directive} (h : d.fingerprint = e.fingerprint) :
    isModel d = isModel e := by
  rw [isModel,isModel,isModelTask_congr h,maybeDelegate_congr h]

theorem asks_congr {d e : Directive} (h : d.fingerprint = e.fingerprint) : asks d = asks e := by
  rw [asks,asks,isModel_congr h,promptText_congr h]

structure Receipt (W : Type) where
  agent : ModelAgent W
  world : W
  outside : Outside
  directive : Directive

namespace Receipt
variable {W : Type}

def fingerprint (r : Receipt W) : Fingerprint := r.directive.fingerprint

def alive (r : Receipt W) : Bool := r.agent.base.alive

def turn (sha256 : String → HexDigest) (I : Integrity) (r : Receipt W) :
    Effect × ModelAgent W × W :=
  r.agent.receive sha256 I r.outside r.directive r.world

def called (sha256 : String → HexDigest) (r : Receipt W) : Bool :=
  r.alive && isModel r.directive &&
    (r.agent.handle sha256 r.outside r.directive r.world).1.called

def value (sha256 : String → HexDigest) (I : Integrity) (r : Receipt W) : Option PyValue :=
  match (r.turn sha256 I).1 with
  | .answered response => some response.value
  | _ => none

end Receipt

def ModelAgent.receiveAll {W : Type} (sha256 : String → HexDigest) (I : Integrity)
    (m : ModelAgent W) (w : W) : List (Directive × Outside) → List (Receipt W)
  | [] => []
  | (d,o) :: rest =>
      let r : Receipt W := ⟨m,w,o,d⟩
      r :: (r.turn sha256 I).2.1.receiveAll sha256 I (r.turn sha256 I).2.2 rest

structure OncePerDirective {W : Type} (sha256 : String → HexDigest) (I : Integrity)
    (rs : List (Receipt W)) : Prop where
  once : rs.Pairwise fun r s => r.fingerprint = s.fingerprint →
    ¬ (r.called sha256 ∧ s.called sha256)
  same : rs.Pairwise fun r s => r.fingerprint = s.fingerprint → isModel r.directive = true →
    r.alive = true → s.alive = true → s.value sha256 I = r.value sha256 I

def heard (ds : List Directive) : List Directive := ds.takeWhile fun d => d.kind ≠ .kill

def Unrepeated {W : Type} (m : ModelAgent W) (ds : List Directive) : Prop :=
  m.provider.isSome = true → m.base.alive = true →
    (((heard ds).filter asks).map Directive.fingerprint).Nodup

namespace ModelAgent
variable {W : Type} {sha256 : String → HexDigest} {I : Integrity}

theorem opModel_called (m : ModelAgent W) (d : Directive) (w : W) :
    (m.opModel sha256 d w).1.called = (m.provider.isSome && (promptText d).isSome) := by
  unfold opModel promptText
  cases hprompt : promptOf d with
  | none => simp [Agent.refuse,Agent.answer]
  | some prompt =>
    rw [Option.map_some,Option.isSome_some,Bool.and_true]
    dsimp only
    repeat' split
    all_goals rfl

theorem opModel_agent (m : ModelAgent W) (d : Directive) (w : W) :
    (m.opModel sha256 d w).1.agent = m.base := by
  unfold opModel
  dsimp only
  repeat' split
  all_goals rfl

theorem called_eq (r : Receipt W) : r.called sha256 =
    (r.alive && r.agent.provider.isSome && asks r.directive) := by
  unfold Receipt.called asks handle
  cases hmodel : isModel r.directive with
  | false => simp
  | true =>
    have htask : isModelTask r.directive = true := by
      simp only [isModel,Bool.and_eq_true] at hmodel
      exact hmodel.1
    rw [if_pos htask,opModel_called,Bool.and_true,Bool.true_and,Bool.and_assoc]

theorem receive_keeps (m : ModelAgent W) (o : Outside) (d : Directive) (w : W) :
    (m.receive sha256 I o d w).2.1.provider = m.provider ∧
      (m.receive sha256 I o d w).2.1.modelId = m.modelId := by
  unfold receive
  split <;> exact ⟨rfl,rfl⟩

theorem handle_alive (m : ModelAgent W) (o : Outside) (d : Directive) (w : W) :
    (m.handle sha256 o d w).1.agent.alive = (m.base.alive && d.kind ≠ .kill) := by
  unfold handle
  by_cases htask : isModelTask d = true
  · have hrun : d.kind = .run := by
      simp only [isModelTask,decide_eq_true_eq] at htask
      exact htask.1
    rw [if_pos htask,opModel_agent,hrun]
    simp
  · rw [if_neg htask]
    by_cases hkill : d.kind = .kill
    · unfold Agent.handle
      rw [hkill]
      simp [Agent.kill]
    · rw [Agent.handle_alive m.base o d w hkill]
      simp [hkill]

theorem receive_alive (m : ModelAgent W) (o : Outside) (d : Directive) (w : W) :
    (m.receive sha256 I o d w).2.1.base.alive = (m.base.alive && d.kind ≠ .kill) := by
  unfold receive
  cases halive : m.base.alive with
  | false => simp [halive]
  | true =>
    rw [if_pos rfl]
    unfold dispatch
    dsimp only
    cases hroute : Agent.maybeDelegate d with
    | some target =>
      have hkind : d.kind ≠ .kill := by
        intro hkill
        simp [Agent.maybeDelegate,hkill] at hroute
      by_cases hchild : target ∈ m.base.children
      · rw [Agent.dispatch_delegated I o w hroute hchild]
        simp [halive,hkind]
      · rw [Agent.dispatch_misrouted I o w hroute hchild]
        simp [halive,hkind]
    | none =>
      rw [Agent.dispatch_handled I m.base o w hroute]
      exact (handle_alive m o d w).trans (by rw [halive])

def quietValue (m : ModelAgent W) (d : Directive) : Option PyValue :=
  if d.correlationId = "" then none
  else match promptText d with
    | none => some (.json .null)
    | some prompt =>
      if m.modelId = "" then some (.json .null) else some (.json (.str (stubComplete prompt)))

theorem receive_model {m : ModelAgent W} (o : Outside) {d : Directive} (w : W)
    (halive : m.base.alive = true) (hmodel : isModel d = true) : (m.receive sha256 I o d w).1 =
      m.base.effectOf d (m.opModel sha256 d w).1.outcome := by
  simp only [isModel,Bool.and_eq_true,Option.isNone_iff_eq_none] at hmodel
  have hhandle : (m.handler sha256).handle m.base o d w = (m.opModel sha256 d w).1 := by
    show (m.handle sha256 o d w).1 = _
    rw [handle,if_pos hmodel.1]
  unfold receive dispatch
  rw [if_pos halive]
  dsimp only
  rw [Agent.dispatch_handled I m.base o w hmodel.2,hhandle,opModel_agent]

theorem completion_valid (m : ModelAgent W) {d : Directive} (hid : d.correlationId ≠ "")
    (output : String) (r : ModelRecord) (hscore : confidenceInRange (.decimal r.confidence.score)) :
    validateResponse (m.completion sha256 d output r) = .ok () := by
  have hhash : isSha256 (r.recordHash sha256).text = true := by
    simp [isSha256,(r.recordHash sha256).hex]
  simp [validateResponse,completion,require,hid,truthy,isStr,isNumber,hscore,isContentHash,hhash]
  rfl

theorem score_inRange (deterministic : Bool) (prompt output : String) :
    confidenceInRange (.decimal (scoreModelConfidence deterministic prompt output).score) =
      true := by
  unfold scoreModelConfidence
  dsimp only
  repeat' split
  all_goals decide +kernel

theorem effectOf_error {a : Agent W} {d : Directive} (halive : a.alive = true)
    (hid : d.correlationId ≠ "") (message : String) :
    a.effectOf d (.ok (a.error d message)) = .answered (a.error d message) := by
  simp only [Agent.effectOf,Agent.sends_error halive hid]

theorem build_rejected {modelId : String} (h : modelId = "") (kind : ProviderKind)
    (deterministic : Bool) (prompt output : String) :
    ModelRecord.build sha256 modelId kind deterministic prompt output =
      .error (.rejected "model_id must be non-empty") := by
  simp [ModelRecord.build,require,h]

theorem build_scored {modelId : String} (h : modelId ≠ "") (kind : ProviderKind)
    (deterministic : Bool) (prompt output : String) :
    ∃ r, ModelRecord.build sha256 modelId kind deterministic prompt output = .ok r ∧
      confidenceInRange (.decimal r.confidence.score) = true := by
  refine ⟨⟨modelId,kind,deterministic,sha256 prompt,sha256 output,
    scoreModelConfidence deterministic prompt output⟩,?_,score_inRange deterministic prompt output⟩
  simp [ModelRecord.build,require,h]

theorem opModel_quiet (sha256 : String → HexDigest) {m : ModelAgent W} {d : Directive} (w : W)
    (hquiet : (m.provider.isSome && (promptText d).isSome) = false) :
    (promptText d = none ∧ (m.opModel sha256 d w).1.outcome =
        .ok (m.base.error d "model requires a non-empty 'prompt'")) ∨
      ∃ prompt, promptText d = some prompt ∧ ((m.modelId = "" ∧ (m.opModel sha256 d w).1.outcome =
            .error (.rejected "model_id must be non-empty")) ∨
          (m.modelId ≠ "" ∧ ∃ r, confidenceInRange (.decimal r.confidence.score) = true ∧
            (m.opModel sha256 d w).1.outcome =
              .ok (m.completion sha256 d (stubComplete prompt) r))) := by
  cases hprompt : promptOf d with
  | none =>
    refine .inl ⟨by rw [promptText,hprompt]; rfl,?_⟩
    simp only [opModel,hprompt]
    rfl
  | some prompt =>
    have hnone : m.provider = none := by simpa [promptText,hprompt] using hquiet
    have hinvoke : m.invoke prompt.1 prompt.2 w = (.ok (stubComplete prompt.1),w) := by
      simp only [invoke,hnone]
    refine .inr ⟨prompt.1,by rw [promptText,hprompt]; rfl,?_⟩
    unfold opModel
    simp only [hprompt,hinvoke]
    by_cases hmodelId : m.modelId = ""
    · rw [build_rejected hmodelId]
      exact .inl ⟨hmodelId,rfl⟩
    · obtain ⟨r,hbuild,hscore⟩ := build_scored hmodelId m.providerKind
        (¬ m.provider.isSome = true) prompt.1 (stubComplete prompt.1)
      rw [hbuild]
      exact .inr ⟨hmodelId,r,hscore,rfl⟩

theorem value_quiet {r : Receipt W} (halive : r.alive = true) (hmodel : isModel r.directive = true)
    (hquiet : (r.agent.provider.isSome && (promptText r.directive).isSome) = false) :
    r.value sha256 I = r.agent.quietValue r.directive := by
  unfold Receipt.value Receipt.turn
  rw [receive_model r.outside r.world halive hmodel]
  by_cases hid : r.directive.correlationId = ""
  · rw [quietValue,if_pos hid]
    rcases opModel_quiet sha256 r.world hquiet with
      ⟨-,hout⟩ | ⟨prompt,-,⟨-,hout⟩ | ⟨-,record,-,hout⟩⟩
    · rw [hout,Agent.effectOf_unsent (.inr hid) rfl]
    · rw [hout,Agent.effectOf,Agent.excused_unsent (.inr hid)]
    · rw [hout,Agent.effectOf_unsent (.inr hid) rfl]
  · rw [quietValue,if_neg hid]
    rcases opModel_quiet sha256 r.world hquiet with
      ⟨hprompt,hout⟩ | ⟨prompt,hprompt,⟨hmodelId,hout⟩ | ⟨hmodelId,record,hscore,hout⟩⟩
    · rw [hout,hprompt,effectOf_error halive hid]
      rfl
    · have hsends := Agent.sends_error halive hid
        ("directive rejected: " ++ "model_id must be non-empty")
      simp only [hout,hprompt,if_pos hmodelId,Agent.effectOf,Agent.excused,hsends]
      rfl
    · have hsends : r.agent.base.sends (r.agent.completion sha256 r.directive
          (stubComplete prompt) record) = .ok () :=
        Agent.sends_ok halive (completion_valid r.agent hid _ record hscore) rfl
      simp only [hout,hprompt,if_neg hmodelId,Agent.effectOf,hsends]
      rfl

theorem receiveAll_keeps {m : ModelAgent W} {w : W} {ds : List (Directive × Outside)}
    {r : Receipt W} (hr : r ∈ m.receiveAll sha256 I w ds) :
    r.agent.provider = m.provider ∧ r.agent.modelId = m.modelId := by
  induction ds generalizing m w with
  | nil => cases hr
  | cons d rest ih =>
    rcases List.mem_cons.1 hr with rfl | hr
    · exact ⟨rfl,rfl⟩
    · have hnext := @receive_keeps W sha256 I m d.2 d.1 w
      exact ⟨(ih hr).1.trans hnext.1,(ih hr).2.trans hnext.2⟩

theorem receiveAll_calls (m : ModelAgent W) (w : W) (ds : List (Directive × Outside)) :
    ((m.receiveAll sha256 I w ds).filter (Receipt.called sha256)).map Receipt.directive =
      if m.provider.isSome && m.base.alive then (heard (ds.map Prod.fst)).filter asks else [] := by
  induction ds generalizing m w with
  | nil => simp [receiveAll,heard]
  | cons d rest ih =>
    obtain ⟨d,o⟩ := d
    let r : Receipt W := ⟨m,w,o,d⟩
    have hprovider : (r.turn sha256 I).2.1.provider = m.provider := (receive_keeps m o d w).1
    have halive : (r.turn sha256 I).2.1.base.alive = (m.base.alive && d.kind ≠ .kill) :=
      receive_alive m o d w
    have hrest := ih (r.turn sha256 I).2.1 (r.turn sha256 I).2.2
    rw [hprovider,halive] at hrest
    have hcalled : r.called sha256 = (m.base.alive && m.provider.isSome && asks d) := called_eq r
    rw [receiveAll,List.filter_cons,List.map_cons,heard,List.takeWhile_cons]
    by_cases hkill : d.kind = .kill
    · have hasks : asks d = false := by simp [asks,isModel,isModelTask,hkill]
      rw [hasks,Bool.and_false] at hcalled
      rw [if_neg (by rw [hcalled]; exact Bool.false_ne_true),hrest]
      simp [hkill]
    · cases hready : m.provider.isSome && m.base.alive with
      | true =>
        have hasks : r.called sha256 = asks d := by
          rw [hcalled,Bool.and_comm m.base.alive,hready,Bool.true_and]
        simp only [hkill,ne_eq,not_false_eq_true,decide_true,Bool.and_true,hready,
          if_true] at hrest ⊢
        rw [hasks,List.filter_cons,← heard]
        by_cases hask : asks d = true
        · rw [if_pos hask,if_pos hask,List.map_cons,hrest]
        · rw [if_neg hask,if_neg hask,hrest]
      | false =>
        have hnone : r.called sha256 = false := by
          rw [hcalled,Bool.and_comm m.base.alive,hready,Bool.false_and]
        simp only [hkill,ne_eq,not_false_eq_true,decide_true,Bool.and_true,hready] at hrest
        rw [if_neg (by rw [hnone]; exact Bool.false_ne_true),hrest]
        rfl

/-- The calls of the provider are for different directives exactly if no directive that asks it
comes again. -/
theorem once_iff (m : ModelAgent W) (w : W) (ds : List (Directive × Outside)) :
    ((m.receiveAll sha256 I w ds).Pairwise fun r s => r.fingerprint = s.fingerprint →
      ¬ (r.called sha256 ∧ s.called sha256)) ↔ Unrepeated m (ds.map Prod.fst) := by
  have hcalls := @receiveAll_calls W sha256 I m w ds
  have hpairs : ((m.receiveAll sha256 I w ds).Pairwise fun r s =>
      r.fingerprint = s.fingerprint → ¬ (r.called sha256 ∧ s.called sha256)) ↔
      ((((m.receiveAll sha256 I w ds).filter (Receipt.called sha256)).map
        Receipt.directive).map Directive.fingerprint).Nodup := by
    rw [List.Nodup,List.pairwise_map,List.pairwise_map,List.pairwise_filter]
    constructor
    · intro h
      exact h.imp fun hpair hr hs hsame => hpair hsame ⟨hr,hs⟩
    · intro h
      exact h.imp fun hpair hsame hcalled => hpair hcalled.1 hcalled.2 hsame
  rw [hpairs,hcalls,Unrepeated]
  cases m.provider.isSome <;> cases m.base.alive <;> simp

theorem quietValue_congr {m n : ModelAgent W} {d e : Directive}
    (h : d.fingerprint = e.fingerprint) (hmodelId : m.modelId = n.modelId) :
    m.quietValue d = n.quietValue e := by
  have hid : d.correlationId = e.correlationId := congrArg Fingerprint.correlationId h
  rw [quietValue,quietValue,hid,hmodelId,promptText_congr h]

theorem value_again {m : ModelAgent W} {w : W} {ds : List (Directive × Outside)} {r s : Receipt W}
    (hr : r ∈ m.receiveAll sha256 I w ds) (hs : s ∈ m.receiveAll sha256 I w ds)
    (hsame : r.fingerprint = s.fingerprint) (honce : ¬ (r.called sha256 ∧ s.called sha256))
    (hmodel : isModel r.directive = true) (hralive : r.alive = true) (hsalive : s.alive = true) :
    s.value sha256 I = r.value sha256 I := by
  have hprovider : s.agent.provider = r.agent.provider :=
    (receiveAll_keeps hs).1.trans (receiveAll_keeps hr).1.symm
  have hmodelId : s.agent.modelId = r.agent.modelId :=
    (receiveAll_keeps hs).2.trans (receiveAll_keeps hr).2.symm
  have hsmodel : isModel s.directive = true := (isModel_congr hsame).symm.trans hmodel
  have hquiet : (r.agent.provider.isSome && (promptText r.directive).isSome) = false := by
    rw [← Bool.not_eq_true]
    intro hasked
    refine honce ⟨?_,?_⟩
    · rw [called_eq,hralive,asks,hmodel]
      simpa using hasked
    · rw [called_eq,hsalive,← asks_congr hsame,asks,hmodel,hprovider]
      simpa using hasked
  rw [value_quiet hralive hmodel hquiet,
    value_quiet hsalive hsmodel (by rw [hprovider,← promptText_congr hsame]; exact hquiet)]
  exact quietValue_congr hsame.symm hmodelId

/-- The provider is called once at most for a directive, and every directive gets one value, exactly
if no directive that asks a provider is received again. -/
theorem oncePerDirective_iff (sha256 : String → HexDigest) (I : Integrity) (m : ModelAgent W)
    (w : W) (ds : List (Directive × Outside)) :
    OncePerDirective sha256 I (m.receiveAll sha256 I w ds) ↔ Unrepeated m (ds.map Prod.fst) := by
  constructor
  · intro h
    exact (once_iff m w ds).1 h.once
  · intro h
    have honce := (@once_iff W sha256 I m w ds).2 h
    refine ⟨honce,?_⟩
    exact honce.imp_of_mem fun hr hs hpair hsame => value_again hr hs hsame (hpair hsame)

end ModelAgent

def counting : ModelProvider Nat :=
  ⟨fun _ _ calls => (.ok ("answer " ++ toString calls),calls + 1)⟩

def advisor : ModelAgent Nat :=
  ⟨.new "advisor" none [],"model-1",some counting,Dict.empty,none⟩

def question : Directive :=
  ⟨"run-1",.run,(Dict.empty.set "task" (.str "model")).set "args"
    (.dict [("prompt",.str "which one?")])⟩

def zeros (_ : String) : HexDigest := .zeros

def isAnswer (v : Option PyValue) (text : String) : Bool :=
  match v with
  | some (.json (.str answer)) => answer = text
  | _ => false

/-- The driver sends the directive until it sees a response. -/
def asked : List (Receipt Nat) :=
  advisor.receiveAll zeros .off 0 [(question,Poll.quiet),(question,Poll.quiet)]

/-- The model is asked twice, and the second answer is another one. -/
theorem asked_twice : ¬ OncePerDirective zeros .off asked ∧
    ∃ r s, asked = [r,s] ∧ r.fingerprint = s.fingerprint ∧ r.called zeros = true ∧
      s.called zeros = true ∧ isAnswer (r.value zeros .off) "answer 0" = true ∧
      isAnswer (s.value zeros .off) "answer 1" = true := by
  have hcalled : (asked.map fun r => (r.called zeros,isAnswer (r.value zeros .off) "answer 0",
      isAnswer (r.value zeros .off) "answer 1")) = [(true,true,false),(true,false,true)] := by
    decide +kernel
  have hlist : ∃ r s, asked = [r,s] ∧ r.fingerprint = s.fingerprint := ⟨_,_,rfl,rfl⟩
  obtain ⟨r,s,hasked,hsame⟩ := hlist
  simp only [hasked,List.map_cons,List.map_nil,List.cons.injEq,Prod.mk.injEq,and_true] at hcalled
  refine ⟨?_,r,s,hasked,hsame,hcalled.1.1,hcalled.2.1,hcalled.1.2.1,hcalled.2.2.2⟩
  intro h
  have honce := h.once
  rw [hasked,List.pairwise_pair] at honce
  exact honce hsame ⟨hcalled.1.1,hcalled.2.1⟩

end AgentCentric

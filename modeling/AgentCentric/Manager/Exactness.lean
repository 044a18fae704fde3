import AgentCentric.Manager.Tallied

namespace AgentCentric.Manager

variable {tool : String}

namespace Recording
variable {r : Recording}

theorem requested_of_call {m : Mark Json} (hm : m ∈ r.marks) {seat : Seat}
    {what : CallStep} (hdeed : m.deed = .call seat tool what) : r.Requested tool := by
  cases hanswer : what.isAnswer with
  | false =>
    refine ⟨m,hm,?_⟩
    rw [Mark.does_call hdeed,Mark.does_call hdeed]
    cases what with
    | request => simp
    | rejected => simp
    | result => cases hanswer
    | executionFailed => cases hanswer
  | true =>
    obtain ⟨u,v,huv⟩ := List.append_of_mem hm
    have hcall : m.callAt seat = some (tool,what) := by simp [Mark.callAt,hdeed]
    have hlast := r.answering seat (calls seat u) tool what (calls seat v) (by
      rw [huv,calls_append,calls_cons,hcall]
      rfl) hanswer
    obtain ⟨m',hm',hcall'⟩ := List.mem_filterMap.1 (List.mem_of_getLast? hlast)
    refine ⟨m',by rw [huv]; exact List.mem_append_left _ hm',.inl ?_⟩
    by_contra hnot
    exact callAt_ne seat (Bool.eq_false_iff.2 hnot) hcall'

theorem requested_of_does {m : Mark Json} (hm : m ∈ r.marks) {what : CallStep}
    (h : m.does tool what = true) : r.Requested tool := by
  obtain ⟨seat,hdeed⟩ := Mark.does_iff.1 h
  exact requested_of_call hm hdeed

theorem quoted_steps (r : Recording) : Quoted r.steps := by
  intro step hstep hrequest
  obtain ⟨m,hm,rfl⟩ := List.mem_map.1 hstep
  exact Mark.quoted (r.told m hm) hrequest

theorem patternExact_iff (r : Recording) : r.PatternExact ↔
    ∀ tool, r.Named tool → countsOf tool r.steps = r.recorded tool := by
  obtain ⟨pattern,hpattern,htallied⟩ := tallied_toolPattern r.quoted_steps r.taskId r.agentName
  refine forall₂_congr fun tool _ => ?_
  rw [← htallied]
  constructor
  · rintro ⟨pattern',hpattern',hexact⟩
    cases hpattern.symm.trans hpattern'
    exact hexact
  · exact fun hexact => ⟨pattern,hpattern,hexact⟩

theorem summaryExact_iff (r : Recording) : r.SummaryExact ↔
    ∀ tool, r.Named tool → (if tool = modelTool then ⟨0,0,0,0⟩
      else countsOf tool (r.steps.map quiet)) = r.recorded tool := by
  obtain ⟨summaries,hsummaries,hreported⟩ :=
    reported_toolSummaries r.quoted_steps r.taskId r.agentName
  refine forall₂_congr fun tool _ => ?_
  rw [← hreported]
  constructor
  · rintro ⟨summaries',hsummaries',hexact⟩
    cases hsummaries.symm.trans hsummaries'
    exact hexact
  · exact fun hexact => ⟨summaries,hsummaries,hexact⟩

theorem recorded_unrequested (h : ¬ r.Requested tool) : r.recorded tool = ⟨0,0,0,0⟩ := by
  have hnone : ∀ m ∈ r.marks, ∀ what, m.does tool what = false :=
    fun m hm what => Bool.eq_false_iff.2 fun hdoes => h (requested_of_does hm hdoes)
  have hcount : ∀ what, r.marks.countP (·.does tool what) = 0 := by
    intro what
    rw [List.countP_eq_zero]
    intro m hm
    simp [hnone m hm what]
  have hrequests : (r.marks.countP fun m => m.does tool .request || m.does tool .rejected) = 0 := by
    rw [List.countP_eq_zero]
    intro m hm
    simp [hnone m hm]
  simp only [recorded,hcount,hrequests]

section
variable (hverbatim : ∀ tool, r.Requested tool → Verbatim tool)
include hverbatim

theorem callsVerbatim {m : Mark Json} (hm : m ∈ r.marks) : m.CallsVerbatim :=
  fun _ tool _ hdeed => hverbatim tool (requested_of_call hm hdeed)

theorem countsOf_requests (tool : String) :
    (countsOf tool r.steps).requests = r.marks.countP (·.reads tool) := by
  simp only [countsOf,steps,List.countP_map]
  exact List.countP_congr fun m hm => by
    rw [Function.comp_apply,Mark.reads_eq (r.told m hm) (callsVerbatim hverbatim hm)]

theorem countsOf_rejected (tool : String) :
    (countsOf tool r.steps).rejected = (r.recorded tool).rejected := by
  simp only [countsOf,steps,List.countP_map,recorded]
  exact List.countP_congr fun m hm => by
    rw [Function.comp_apply,Mark.reads_eq (r.told m hm) (callsVerbatim hverbatim hm),
      Mark.rejected_eq (r.told m hm)]

theorem countsOf_answered (htool : Verbatim tool) :
    (countsOf tool r.steps).failed = 0 ∧ (countsOf tool r.steps).succeeded =
      countSplits (fun m v => asks tool m.step && v.any (·.answers tool)) r.marks := by
  have hanswer := fun m hm => Mark.answer_eq (r.told m hm) (callsVerbatim hverbatim hm) htool
  exact ⟨answered_marks false hanswer,answered_marks true hanswer⟩

end

section
variable (hexact : ∀ tool, r.Named tool → countsOf tool r.steps = r.recorded tool)
include hexact

theorem read_of_exact (h : r.Requested tool) :
    ∃ m ∈ r.marks, isRequest m.step.description = true ∧ toolName m.step.description = .ok tool := by
  have hcount : 0 < (r.recorded tool).requests := by
    obtain ⟨m,hm,hdoes⟩ := h
    rw [recorded,List.countP_pos_iff]
    exact ⟨m,hm,by simpa using hdoes⟩
  rw [← hexact tool (.inr h),countsOf,List.countP_pos_iff] at hcount
  obtain ⟨step,hstep,hread⟩ := hcount
  obtain ⟨m,hm,rfl⟩ := List.mem_map.1 hstep
  rw [Bool.and_eq_true,decide_eq_true_eq] at hread
  exact ⟨m,hm,hread⟩

theorem escaped_of_exact (h : r.Requested tool) :
    ∃ name, r.Requested name ∧ tool.toList = escaped name := by
  obtain ⟨m,hm,hrequest,hname⟩ := read_of_exact hexact h
  cases hdeed : m.deed with
  | other =>
    rw [isRequest,(Mark.told_other (r.told m hm) hdeed).1] at hrequest
    cases hrequest
  | call seat name what =>
    have hcalled : r.Requested name := requested_of_call hm hdeed
    obtain ⟨_,_,_,hread⟩ := read_of_exact hexact hcalled
    rw [(Mark.told_call (r.told m hm) hdeed).2,
      toolName_described (unquoted_of_toolName hread)] at hname
    cases hname
    exact ⟨name,hcalled,String.toList_ofList⟩

theorem verbatim_of_exact (h : r.Requested tool) : Verbatim tool := by
  generalize hlength : tool.toList.length = n
  induction n using Nat.strong_induction_on generalizing tool with
  | _ n ih =>
    subst hlength
    obtain ⟨_,_,_,hread⟩ := read_of_exact hexact h
    obtain ⟨name,hname,htool⟩ := escaped_of_exact hexact h
    by_cases hfixed : escaped name = name.toList
    · have hsame : tool = name := String.toList_inj.1 (htool.trans hfixed)
      subst hsame
      exact (verbatim_iff tool).2 ⟨unquoted_of_toolName hread,hfixed⟩
    · have hshorter : name.toList.length < tool.toList.length := by
        rw [htool]
        exact escaped_longer hfixed
      exact absurd ((verbatim_iff name).1 (ih _ hshorter hname rfl)).2 hfixed

theorem fine_of_exact : ∀ m ∈ r.marks, ∀ tool, m.does tool .executionFailed = false := by
  intro m hm tool
  rw [Bool.eq_false_iff]
  intro hdoes
  have hrequested := requested_of_does hm hdoes
  have hfailed := (countsOf_answered (fun _ => verbatim_of_exact hexact)
    (verbatim_of_exact hexact hrequested)).1
  rw [hexact tool (.inr hrequested),recorded,List.countP_eq_zero] at hfailed
  exact hfailed m hm hdoes

theorem marker_of_exact : ∀ m ∈ r.marks, ∀ tool, m.does tool .result = true →
    includes tool " request" = false := by
  intro m hm tool hdoes
  have hrequested := requested_of_does hm hdoes
  have hcount : (r.marks.countP fun m => m.does tool .request || m.does tool .rejected) =
      r.marks.countP (Mark.reads tool) := by
    have hrequests := countsOf_requests (fun _ => verbatim_of_exact hexact) tool
    rwa [hexact tool (.inr hrequested)] at hrequests
  rw [Bool.eq_false_iff]
  intro hincludes
  -- The result itself counts as a request.
  have hnot : (m.does tool .request || m.does tool .rejected) = false := by
    obtain ⟨seat,hdeed⟩ := Mark.does_iff.1 hdoes
    simp [Mark.does_call hdeed]
  obtain ⟨u,v,huv⟩ := List.append_of_mem hm
  have hle : ∀ l : List (Mark Json),
      (l.countP fun m => m.does tool .request || m.does tool .rejected) ≤
        l.countP (Mark.reads tool) := by
    intro l
    apply List.countP_mono_left
    intro x _ hx
    rw [Mark.reads,hx,Bool.true_or]
  have hu := hle u
  have hv := hle v
  have hreads : m.reads tool = true := by simp [Mark.reads,hincludes,hdoes]
  rw [huv,List.countP_append,List.countP_append,List.countP_cons_of_neg (by simp [hnot]),
    List.countP_cons_of_pos hreads] at hcount
  omega

end

/-- The successes that are told are those recorded exactly if every request that is followed by what
is taken for a result gets its own. -/
theorem succeeded_iff {told : Mark Json → Bool}
    (hasks : ∀ m ∈ r.marks, asks tool m.step = m.does tool .request)
    (htold : ∀ m, m.does tool .result = true → told m = true) : (r.recorded tool).succeeded =
        countSplits (fun m v => asks tool m.step && v.any told) r.marks ↔
      ∀ u m v, r.marks = u ++ m :: v → ∀ seat, m.deed = .call seat tool .request →
        v.any told = true → (calls seat v).head? = some (tool,.result) := by
  have hgets : ∀ u m v, r.marks = u ++ m :: v → getsResult tool m v = true →
      (asks tool m.step && v.any told) = true := by
    intro u m v huv hget
    have hm : m ∈ r.marks := by
      rw [huv]
      exact List.mem_append_right _ List.mem_cons_self
    have hrequest : m.does tool .request = true := by
      by_contra hnot
      rw [getsResult_of_not (Bool.eq_false_iff.2 hnot)] at hget
      cases hget
    obtain ⟨seat,hdeed⟩ := Mark.does_iff.1 hrequest
    rw [getsResult_call hdeed,decide_eq_true_eq] at hget
    obtain ⟨m',hm',hcall⟩ := List.mem_filterMap.1 (List.mem_of_head? hget)
    have hdoes : m'.does tool .result = true := by
      by_contra hnot
      exact callAt_ne seat (Bool.eq_false_iff.2 hnot) hcall
    rw [hasks m hm,hrequest,Bool.true_and,List.any_eq_true]
    exact ⟨m',hm',htold m' hdoes⟩
  rw [recorded,countP_result tool r.marks r.answering,countSplits_eq_iff hgets]
  refine forall₃_congr fun u m v => forall_congr' fun huv => ?_
  have hm : m ∈ r.marks := by
    rw [huv]
    exact List.mem_append_right _ List.mem_cons_self
  rw [hasks m hm,Bool.and_eq_true]
  constructor
  · intro h seat hdeed hany
    have hget := h ⟨Mark.does_iff.2 ⟨seat,hdeed⟩,hany⟩
    rwa [getsResult_call hdeed,decide_eq_true_eq] at hget
  · rintro h ⟨hdoes,hany⟩
    obtain ⟨seat,hdeed⟩ := Mark.does_iff.1 hdoes
    rw [getsResult_call hdeed,decide_eq_true_eq]
    exact h seat hdeed hany

theorem asks_of_fine (hverbatim : ∀ tool, r.Requested tool → Verbatim tool)
    (hfine : ∀ m ∈ r.marks, ∀ tool, m.does tool .executionFailed = false)
    (hmarker : ∀ m ∈ r.marks, ∀ tool, m.does tool .result = true → includes tool " request" = false)
    (tool : String) : ∀ m ∈ r.marks, asks tool m.step = m.does tool .request := by
  intro m hm
  rw [Mark.asks_eq (r.told m hm) (callsVerbatim hverbatim hm),hfine m hm]
  cases hresult : m.does tool .result with
  | false => simp
  | true => simp [hmarker m hm tool hresult]

theorem any_answers {v : List (Mark Json)} :
    v.any (·.answers tool) = false ↔ Unanswered tool v := by
  simp only [List.any_eq_false,Unanswered,Mark.answers,Bool.or_eq_true,decide_eq_true_eq,not_or,
    Bool.not_eq_true,ne_eq]

theorem settled_of_exact (hexact : ∀ tool, r.Named tool → countsOf tool r.steps = r.recorded tool) :
    ∀ u m v, r.marks = u ++ m :: v → ∀ seat tool, m.deed = .call seat tool .request →
      (calls seat v).head? ≠ some (tool,.result) → Unanswered tool v := by
  intro u m v huv seat tool hdeed hhead
  have hm : m ∈ r.marks := by
    rw [huv]
    exact List.mem_append_right _ List.mem_cons_self
  have hverbatim : ∀ tool, r.Requested tool → Verbatim tool := fun _ => verbatim_of_exact hexact
  have hrequested : r.Requested tool := requested_of_call hm hdeed
  have hsucceeded := (countsOf_answered hverbatim (hverbatim tool hrequested)).2
  rw [hexact tool (.inr hrequested),succeeded_iff
    (asks_of_fine hverbatim (fine_of_exact hexact) (marker_of_exact hexact) tool)
    fun m hdoes => by rw [Mark.answers,hdoes,Bool.true_or]] at hsucceeded
  rw [← any_answers,Bool.eq_false_iff]
  exact fun hany => hhead (hsucceeded u m v huv seat hdeed hany)

namespace Readable
variable (h : r.Readable)
include h

theorem asks_eq (tool : String) : ∀ m ∈ r.marks, asks tool m.step = m.does tool .request :=
  asks_of_fine h.plain h.fine h.marker tool

theorem requests_eq (tool : String) :
    (countsOf tool r.steps).requests = (r.recorded tool).requests := by
  rw [countsOf_requests h.plain,recorded]
  refine List.countP_congr fun m hm => ?_
  rw [Mark.reads,h.fine m hm]
  cases hresult : m.does tool .result with
  | false => simp
  | true => simp [h.marker m hm tool hresult]

theorem failed_eq (tool : String) : (r.recorded tool).failed = 0 := by
  rw [recorded,List.countP_eq_zero]
  exact fun m hm => by simp [h.fine m hm tool]

theorem succeeded_eq (tool : String) {told : Mark Json → Bool}
    (hresult : ∀ m, m.does tool .result = true → told m = true)
    (htold : ∀ m, told m = true → m.answers tool = true) : (r.recorded tool).succeeded =
      countSplits (fun m v => asks tool m.step && v.any told) r.marks := by
  rw [succeeded_iff (h.asks_eq tool) hresult]
  intro u m v huv seat hdeed hany
  by_contra hhead
  have hunanswered := h.settled u m v huv seat tool hdeed hhead
  obtain ⟨m',hm',htold'⟩ := List.any_eq_true.1 hany
  exact List.any_eq_false.1 (any_answers.2 hunanswered) m' hm' (htold m' htold')

theorem countsOf_eq (htool : r.Requested tool) : countsOf tool r.steps = r.recorded tool := by
  obtain ⟨hfailed,hsucceeded⟩ := countsOf_answered h.plain (h.plain tool htool)
  have hcounts : ∀ c d : Counts, c.requests = d.requests → c.succeeded = d.succeeded →
      c.failed = d.failed → c.rejected = d.rejected → c = d := by
    rintro ⟨_,_,_,_⟩ ⟨_,_,_,_⟩ rfl rfl rfl rfl
    rfl
  refine hcounts _ _ (h.requests_eq tool) ?_ ?_ (countsOf_rejected h.plain tool)
  · rw [hsucceeded,h.succeeded_eq tool (fun m hdoes => by rw [Mark.answers,hdoes,Bool.true_or])
      fun _ htold => htold]
  · rw [hfailed,h.failed_eq]

theorem countsOf_quiet_eq (htool : r.Requested tool) :
    countsOf tool (r.steps.map quiet) = countsOf tool r.steps := by
  have hverbatim := h.plain tool htool
  have hanswer : ∀ m ∈ r.marks, answer tool (quiet m.step) =
      if m.does tool .result = true then some true else none :=
    fun m hm => Mark.answer_quiet (r.told m hm) (callsVerbatim h.plain hm) hverbatim
  obtain ⟨hfailed,hsucceeded⟩ := countsOf_answered h.plain hverbatim
  have hquiet : ∀ b, answered tool b (r.steps.map quiet) none = answered tool b r.steps none := by
    intro b
    rw [steps,List.map_map]
    have hboth := @answered_marks tool r.marks (fun m => quiet m.step) (·.does tool .result) b hanswer
    cases b with
    | false => exact hboth.trans hfailed.symm
    | true =>
      refine hboth.trans (Eq.trans ?_ hsucceeded.symm)
      simp only [if_true,asks_quiet]
      rw [← h.succeeded_eq tool (fun _ hdoes => hdoes)
        fun m hdoes => by rw [Mark.answers,hdoes,Bool.true_or]]
      exact h.succeeded_eq tool (fun m hdoes => by rw [Mark.answers,hdoes,Bool.true_or])
        fun _ htold => htold
  have hname : ∀ step : StepRecord Json, isRequest step.description = true →
      (quiet step).description = step.description :=
    fun step hrequest => by rw [quiet_of_request hrequest]
  have hcount : ∀ p : StepRecord Json → Bool,
      ((r.steps.map quiet).countP fun s => isRequest s.description &&
        decide (toolName s.description = .ok tool) && p s) =
      r.steps.countP fun s => isRequest s.description &&
        decide (toolName s.description = .ok tool) && p (quiet s) := by
    intro p
    rw [List.countP_map]
    refine List.countP_congr fun step _ => ?_
    rw [Function.comp_apply,isRequest_quiet]
    cases hrequest : isRequest step.description with
    | false => simp
    | true => rw [hname step hrequest]
  have hrequests := hcount fun _ => true
  have hrejected := hcount fun s => decide (s.status = .rejected)
  simp only [Bool.and_true,quiet_status] at hrequests hrejected
  simp only [countsOf,hquiet,hrequests,hrejected]

end Readable
end Recording

theorem requested_quiet (tool : String) (steps : List (StepRecord Json)) :
    requested tool (steps.map quiet) = requested tool steps := by
  rw [requested,requested,List.any_map]
  congr 1
  funext step
  rw [Function.comp_apply,isRequest_quiet]
  cases hrequest : isRequest step.description with
  | false => rfl
  | true => rw [quiet_of_request hrequest]

/-- Summary and replay check tell of every tool what was recorded exactly if the names stand as they
are, no model is called, nothing fails, and no request without a result is followed by what looks
like one. -/
theorem reports_exact_iff (r : Recording) : r.SummaryExact ∧ r.PatternExact ↔ r.Readable := by
  rw [r.patternExact_iff,r.summaryExact_iff]
  constructor
  · rintro ⟨hsummary,hpattern⟩
    refine ⟨fun _ => Recording.verbatim_of_exact hpattern,fun hmodel => ?_,
      Recording.fine_of_exact hpattern,Recording.marker_of_exact hpattern,
      Recording.settled_of_exact hpattern⟩
    have hzero := hsummary modelTool (.inr hmodel)
    rw [if_pos rfl] at hzero
    obtain ⟨m,hm,hdoes⟩ := hmodel
    have hcount : 0 < (r.recorded modelTool).requests := by
      rw [Recording.recorded,List.countP_pos_iff]
      exact ⟨m,hm,by simpa using hdoes⟩
    rw [← hzero] at hcount
    exact absurd hcount (Nat.lt_irrefl 0)
  · intro h
    have hunread : ∀ tool, ¬ r.Requested tool → requested tool r.steps = false := by
      intro tool hnot
      rw [requested,List.any_eq_false]
      intro step hstep hread
      obtain ⟨m,hm,rfl⟩ := List.mem_map.1 hstep
      rw [Mark.reads_eq (r.told m hm) (Recording.callsVerbatim h.plain hm)] at hread
      simp only [Mark.reads,Bool.or_eq_true,Bool.and_eq_true] at hread
      obtain (hdoes | hdoes) | ⟨_,hdoes | hdoes⟩ := hread <;>
        exact hnot (Recording.requested_of_does hm hdoes)
    constructor
    · intro tool _
      by_cases hmodel : tool = modelTool
      · subst hmodel
        rw [if_pos rfl,Recording.recorded_unrequested h.model]
      · rw [if_neg hmodel]
        by_cases htool : r.Requested tool
        · rw [h.countsOf_quiet_eq htool,h.countsOf_eq htool]
        · rw [Recording.recorded_unrequested htool]
          exact countsOf_unrequested ((requested_quiet tool r.steps).trans (hunread tool htool))
    · intro tool _
      by_cases htool : r.Requested tool
      · exact h.countsOf_eq htool
      · rw [Recording.recorded_unrequested htool,countsOf_unrequested (hunread tool htool)]

def failedCall : Recording where
  taskId := "task"
  agentName := "adder"
  grants := fun _ => ["add"]
  marks := [⟨.call ⟨0,none⟩ "add" .request,⟨0,.completed,"tool 'add' request",
      .dict [("tool",.str "add"),("args",.dict [])],.null,none,zeroSeconds⟩⟩,
    ⟨.call ⟨0,none⟩ "add" .executionFailed,⟨1,.failed,"tool 'add' execution failed",.null,.null,
      some "Missing required argument 'a'.",zeroSeconds⟩⟩]
  told := by
    intro m hm
    simp only [List.mem_cons,List.not_mem_nil,or_false] at hm
    obtain rfl | rfl := hm
    · exact ⟨rfl,by decide⟩
    · exact ⟨rfl,by decide⟩
  granted := by
    intro m hm seat tool what hdeed
    simp only [List.mem_cons,List.not_mem_nil,or_false] at hm
    obtain rfl | rfl := hm <;> cases hdeed <;> simp
  answering := by
    intro seat u tool what v hcalls hanswer
    simp only [calls,List.filterMap_cons,Mark.callAt,List.filterMap_nil] at hcalls
    by_cases hseat : (⟨0,none⟩ : Seat) = seat
    · simp only [hseat,if_true] at hcalls
      cases u with
      | nil =>
        cases hcalls
        cases hanswer
      | cons first u =>
        cases u with
        | nil =>
          cases hcalls
          rfl
        | cons second u => simp at hcalls
    · simp [hseat] at hcalls

/-- No failure is told of it. -/
theorem failure_not_told : ¬ (failedCall.SummaryExact ∧ failedCall.PatternExact) := by
  rintro ⟨hsummary,_⟩
  obtain ⟨summaries,hsummaries,hexact⟩ := hsummary "add" (.inl ⟨⟨0,none⟩,by decide⟩)
  have hfailed : (toolSummaries failedCall.trajectory).map (fun s => (reported s "add").failed) =
      .ok 0 := by decide +kernel
  have hrecorded : (failedCall.recorded "add").failed = 1 := by decide
  rw [hsummaries,Except.map,hexact,hrecorded] at hfailed
  simp at hfailed

end AgentCentric.Manager

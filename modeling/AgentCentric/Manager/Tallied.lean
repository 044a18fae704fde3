import AgentCentric.Manager.Recording

namespace AgentCentric.Manager

section
variable {α : Type}

/-- How many elements are as `p` says of them and of the rest. -/
def countSplits (p : α → List α → Bool) : List α → Nat
  | [] => 0
  | x :: v => (p x v).toNat + countSplits p v

theorem countSplits_le {p q : α → List α → Bool} {l : List α}
    (h : ∀ u x v, l = u ++ x :: v → p x v = true → q x v = true) :
    countSplits p l ≤ countSplits q l := by
  induction l with
  | nil => exact Nat.le_refl 0
  | cons x v ih =>
    have hrest := ih fun u y w huw => h (x :: u) y w (by rw [huw,List.cons_append])
    have hfirst := h [] x v rfl
    rw [countSplits,countSplits]
    cases hp : p x v with
    | false => exact Nat.add_le_add (Nat.zero_le _) hrest
    | true =>
      rw [hfirst hp]
      exact Nat.add_le_add_left hrest _

/-- Where one implies the other, the numbers are the same only if they say the same. -/
theorem countSplits_eq_iff {p q : α → List α → Bool} {l : List α}
    (h : ∀ u x v, l = u ++ x :: v → p x v = true → q x v = true) :
    countSplits p l = countSplits q l ↔ ∀ u x v, l = u ++ x :: v → q x v = true → p x v = true := by
  induction l with
  | nil => simp [countSplits]
  | cons x v ih =>
    have hbelow : ∀ u y w, v = u ++ y :: w → p y w = true → q y w = true :=
      fun u y w huw => h (x :: u) y w (by rw [huw,List.cons_append])
    have hle := countSplits_le hbelow
    have hfirst := h [] x v rfl
    have hsplits : (∀ u y w, x :: v = u ++ y :: w → q y w = true → p y w = true) ↔
        (q x v = true → p x v = true) ∧
          ∀ u y w, v = u ++ y :: w → q y w = true → p y w = true := by
      constructor
      · intro hall
        exact ⟨hall [] x v rfl,fun u y w huw => hall (x :: u) y w (by rw [huw,List.cons_append])⟩
      · rintro ⟨hhead,htail⟩ u y w huw
        cases u with
        | nil =>
          obtain ⟨rfl,rfl⟩ := List.cons.inj huw
          exact hhead
        | cons z u => exact htail u y w (List.cons.inj huw).2
    rw [hsplits,← ih hbelow,countSplits,countSplits]
    cases hp : p x v with
    | true => simp [hfirst hp]
    | false =>
      cases hq : q x v with
      | true =>
        simp only [Bool.toNat_false,Bool.toNat_true]
        constructor
        · intro heq
          omega
        · intro hboth
          exact absurd (hboth.1 trivial) (by simp)
      | false => simp

end

namespace Mark

def reads (tool : String) (m : Mark Json) : Bool :=
  m.does tool .request || m.does tool .rejected ||
    includes tool " request" && (m.does tool .result || m.does tool .executionFailed)

def answers (tool : String) (m : Mark Json) : Bool :=
  m.does tool .result || decide (m.step.description = "model call failed")

def CallsVerbatim (m : Mark Json) : Prop :=
  ∀ seat tool what, m.deed = .call seat tool what → Verbatim tool

theorem does_iff {tool : String} {what : CallStep} {m : Mark Json} :
    m.does tool what = true ↔ ∃ seat, m.deed = .call seat tool what := by
  unfold does
  cases hdeed : m.deed with
  | other => simp
  | call seat tool' what' =>
    simp only [Bool.and_eq_true,decide_eq_true_eq,Deed.call.injEq]
    exact ⟨fun hboth => ⟨seat,rfl,hboth⟩,fun ⟨_,_,hboth⟩ => hboth⟩

theorem does_call {m : Mark Json} {seat : Seat} {tool : String} {what : CallStep}
    (h : m.deed = .call seat tool what) (name : String) (what' : CallStep) :
    m.does name what' = (decide (tool = name) && decide (what = what')) := by
  rw [does,h]

theorem does_other {m : Mark Json} (h : m.deed = .other) (name : String) (what : CallStep) :
    m.does name what = false := by rw [does,h]

theorem told_call {m : Mark Json} (hm : m.Told) {seat : Seat} {tool : String} {what : CallStep}
    (h : m.deed = .call seat tool what) :
    m.step.status = what.status ∧ m.step.description = described tool what := by
  rw [Told,h] at hm
  exact hm

theorem told_other {m : Mark Json} (hm : m.Told) (h : m.deed = .other) :
    startsWith m.step.description "tool '" = false ∧
      (m.step.description = "model call failed" → m.step.status ≠ .failed) := by
  rw [Told,h] at hm
  exact hm

section
variable {m : Mark Json} (hm : m.Told)
include hm

theorem quoted (hrequest : isRequest m.step.description = true) :
    ∃ tool, toolName m.step.description = .ok tool := by
  have hstart : startsWith m.step.description "tool '" = true :=
    (Bool.and_eq_true_iff.1 hrequest).1
  cases hdeed : m.deed with
  | other =>
    rw [(told_other hm hdeed).1] at hstart
    cases hstart
  | call seat tool what =>
    rw [(told_call hm hdeed).2] at hstart ⊢
    exact quoted_described ((startsWith_described what).1 hstart) what

/-- A turned away request is known by its status. -/
theorem rejected_eq (tool : String) :
    (m.reads tool && decide (m.step.status = .rejected)) = m.does tool .rejected := by
  cases hdeed : m.deed with
  | other => simp [reads,does_other hdeed]
  | call seat name what =>
    rw [(told_call hm hdeed).1,reads]
    simp only [does_call hdeed]
    cases what <;> simp [CallStep.status]

section
variable (hverbatim : m.CallsVerbatim)
include hverbatim

theorem reads_eq (tool : String) :
    (isRequest m.step.description && decide (toolName m.step.description = .ok tool)) =
      m.reads tool := by
  cases hdeed : m.deed with
  | other =>
    rw [isRequest,(told_other hm hdeed).1,reads]
    simp [does_other hdeed]
  | call seat name what =>
    have hname := hverbatim seat name what hdeed
    rw [(told_call hm hdeed).2,isRequest_verbatim hname,toolName_verbatim hname,reads]
    simp only [does_call hdeed,Except.ok.injEq]
    by_cases heq : name = tool
    · subst heq
      have htext : includes what.text " request" =
          (decide (what = .request) || decide (what = .rejected)) := by
        cases what <;> decide
      rw [htext]
      cases what <;> simp
    · simp [heq]

theorem asks_eq (tool : String) : asks tool m.step = (m.does tool .request ||
      includes tool " request" && (m.does tool .result || m.does tool .executionFailed)) := by
  rw [asks,reads_eq hm hverbatim]
  cases hdeed : m.deed with
  | other => simp [reads,does_other hdeed]
  | call seat name what =>
    rw [(told_call hm hdeed).1,reads]
    simp only [does_call hdeed]
    cases what <;> simp [CallStep.status]

theorem result_eq {tool : String} (htool : Verbatim tool) :
    startsWith m.step.description ("tool '" ++ tool ++ "' result") = m.does tool .result := by
  cases hdeed : m.deed with
  | other =>
    have hstart := (told_other hm hdeed).1
    rw [does_other hdeed,Bool.eq_false_iff]
    intro hlong
    rw [String.append_assoc] at hlong
    rw [startsWith_append hlong] at hstart
    cases hstart
  | call seat name what =>
    rw [(told_call hm hdeed).2,isResult_verbatim (hverbatim seat name what hdeed) htool,does_call hdeed]

end

theorem status_of_answers {tool : String} (h : m.answers tool = true) :
    m.step.status ≠ .failed := by
  rw [answers,Bool.or_eq_true,decide_eq_true_eq] at h
  cases hdeed : m.deed with
  | other =>
    have hfailed := h.resolve_left (by simp [does_other hdeed])
    exact (told_other hm hdeed).2 hfailed
  | call seat name what =>
    obtain ⟨hstatus,hdescription⟩ := told_call hm hdeed
    rw [hdescription] at h
    have hdoes := h.resolve_right (described_ne name what)
    rw [does_call hdeed,Bool.and_eq_true,decide_eq_true_eq,decide_eq_true_eq] at hdoes
    rw [hstatus,hdoes.2]
    simp [CallStep.status]

theorem answer_eq (hverbatim : m.CallsVerbatim) {tool : String} (htool : Verbatim tool) :
    answer tool m.step = if m.answers tool = true then some true else none := by
  rw [answer,isResult,result_eq hm hverbatim htool,← answers]
  cases hanswers : m.answers tool with
  | false => rfl
  | true => simp [status_of_answers hm hanswers]

theorem answer_quiet (hverbatim : m.CallsVerbatim) {tool : String} (htool : Verbatim tool) :
    answer tool (quiet m.step) = if m.does tool .result = true then some true else none := by
  rw [answer,isResult_quiet,result_eq hm hverbatim htool,quiet_status]
  cases hdoes : m.does tool .result with
  | false => rfl
  | true =>
    have hanswers : m.answers tool = true := by rw [answers,hdoes,Bool.true_or]
    simp [status_of_answers hm hanswers]

end
end Mark

theorem asks_quiet (tool : String) (step : StepRecord Json) :
    asks tool (quiet step) = asks tool step := by
  rw [asks,asks,isRequest_quiet]
  cases hrequest : isRequest step.description with
  | false => rfl
  | true => rw [quiet_of_request hrequest]

section
variable {tool : String} {marks : List (Mark Json)} {step : Mark Json → StepRecord Json}
  {told : Mark Json → Bool}

theorem firstAnswer_marks
    (h : ∀ m ∈ marks, answer tool (step m) = if told m = true then some true else none) :
    firstAnswer tool (marks.map step) = if marks.any told = true then some true else none := by
  induction marks with
  | nil => rfl
  | cons m marks ih =>
    rw [List.map_cons,firstAnswer_cons,h m (by simp),
      ih fun m' hm' => h m' (List.mem_cons_of_mem _ hm'),List.any_cons]
    cases told m <;> simp

theorem answered_marks (b : Bool)
    (h : ∀ m ∈ marks, answer tool (step m) = if told m = true then some true else none) :
    answered tool b (marks.map step) none =
      if b = true then countSplits (fun m v => asks tool (step m) && v.any told) marks else 0 := by
  induction marks with
  | nil => cases b <;> rfl
  | cons m marks ih =>
    have hrest : ∀ m' ∈ marks, answer tool (step m') = if told m' = true then some true else none :=
      fun m' hm' => h m' (List.mem_cons_of_mem _ hm')
    rw [List.map_cons,answered,firstAnswer_marks hrest,ih hrest,countSplits]
    cases b <;> cases asks tool (step m) <;> cases marks.any told <;> simp [give]

end

theorem calls_append {V : Type} (seat : Seat) (u v : List (Mark V)) :
    calls seat (u ++ v) = calls seat u ++ calls seat v := List.filterMap_append

theorem calls_cons {V : Type} (seat : Seat) (m : Mark V) (v : List (Mark V)) :
    calls seat (m :: v) = (m.callAt seat).toList ++ calls seat v := by
  rw [calls,List.filterMap_cons]
  cases m.callAt seat <;> rfl

theorem calls_concat {V : Type} (seat : Seat) (u : List (Mark V)) (m : Mark V) :
    calls seat (u ++ [m]) = calls seat u ++ (m.callAt seat).toList := by
  rw [calls_append,calls_cons]
  simp [calls]

def getsResult (tool : String) (m : Mark Json) (v : List (Mark Json)) : Bool :=
  match m.deed with
  | .call seat name what => decide (name = tool ∧ what = .request) &&
    decide ((calls seat v).head? = some (tool,.result))
  | .other => false

def closes (tool : String) (marks : List (Mark Json)) (m : Mark Json) : Bool :=
  match m.deed with
  | .call seat name what => decide (name = tool ∧ what = .result) &&
    decide ((calls seat marks).getLast? = some (tool,.request))
  | .other => false

section
variable {tool : String} {x m : Mark Json} {ms : List (Mark Json)}

theorem getsResult_of_not (h : x.does tool .request = false) : getsResult tool x ms = false := by
  unfold getsResult
  unfold Mark.does at h
  cases hdeed : x.deed with
  | other => rfl
  | call seat name what =>
    rw [hdeed] at h
    simp only [Bool.decide_and,h,Bool.false_and]

theorem closes_of_not (h : m.does tool .result = false) : closes tool ms m = false := by
  unfold closes
  unfold Mark.does at h
  cases hdeed : m.deed with
  | other => rfl
  | call seat name what =>
    rw [hdeed] at h
    simp only [Bool.decide_and,h,Bool.false_and]

theorem getsResult_call {seat : Seat} (h : x.deed = .call seat tool .request) :
    getsResult tool x ms = decide ((calls seat ms).head? = some (tool,.result)) := by
  simp [getsResult,h]

theorem closes_call {seat : Seat} (h : m.deed = .call seat tool .result) :
    closes tool ms m = decide ((calls seat ms).getLast? = some (tool,.request)) := by
  simp [closes,h]

theorem callAt_ne (seat : Seat) {what : CallStep} (h : m.does tool what = false) :
    m.callAt seat ≠ some (tool,what) := by
  unfold Mark.does at h
  unfold Mark.callAt
  cases hdeed : m.deed with
  | other => simp
  | call seat' name what' =>
    rw [hdeed] at h
    by_cases hseat : seat' = seat
    · simpa [hseat] using h
    · simp [hseat]

/-- One more step at the end: whether the first one gets its result only depends on it if the agent
did nothing in between. -/
theorem getsResult_concat : (getsResult tool x (ms ++ [m])).toNat + (closes tool ms m).toNat =
    (getsResult tool x ms).toNat + (closes tool (x :: ms) m).toNat := by
  cases hresult : m.does tool .result with
  | false =>
    rw [closes_of_not hresult,closes_of_not hresult]
    cases hrequest : x.does tool .request with
    | false => rw [getsResult_of_not hrequest,getsResult_of_not hrequest]
    | true =>
      obtain ⟨seat,hx⟩ := Mark.does_iff.1 hrequest
      rw [getsResult_call hx,getsResult_call hx,calls_concat,List.head?_append]
      cases (calls seat ms).head? with
      | some first => rfl
      | none =>
        simp [callAt_ne seat hresult]
  | true =>
    obtain ⟨seat,hm⟩ := Mark.does_iff.1 hresult
    rw [closes_call hm,closes_call hm,calls_cons,List.getLast?_append]
    cases hrequest : x.does tool .request with
    | false =>
      rw [getsResult_of_not hrequest,getsResult_of_not hrequest]
      cases (calls seat ms).getLast? with
      | some last => rfl
      | none =>
        have hne : (x.callAt seat).toList.getLast? ≠ some (tool,.request) := by
          cases hcall : x.callAt seat with
          | none => simp
          | some call =>
            have hcall' := callAt_ne seat hrequest
            rw [hcall] at hcall'
            simpa using hcall'
        simp [hne]
    | true =>
      obtain ⟨seat',hx⟩ := Mark.does_iff.1 hrequest
      rw [getsResult_call hx,getsResult_call hx,calls_concat,List.head?_append]
      by_cases hseat : seat' = seat
      · subst hseat
        have hcall : x.callAt seat' = some (tool,.request) := by simp [Mark.callAt,hx]
        have hcall' : m.callAt seat' = some (tool,.result) := by simp [Mark.callAt,hm]
        rw [hcall,hcall']
        cases calls seat' ms with
        | nil => simp
        | cons first rest => simp [List.getLast?_cons]
      · have hcall : x.callAt seat = none := by simp [Mark.callAt,hx,hseat]
        have hcall' : m.callAt seat' = none := by simp [Mark.callAt,hm,Ne.symm hseat]
        rw [hcall,hcall']
        simp

theorem countGets_concat (tool : String) (ms : List (Mark Json)) (m : Mark Json) :
    countSplits (getsResult tool) (ms ++ [m]) =
      countSplits (getsResult tool) ms + (closes tool ms m).toNat := by
  induction ms with
  | nil =>
    have hgets : getsResult tool m [] = false := by
      unfold getsResult
      cases m.deed <;> simp [calls]
    have hcloses : closes tool [] m = false := by
      unfold closes
      cases m.deed <;> simp [calls]
    simp [countSplits,hgets,hcloses]
  | cons x ms ih =>
    have hx := @getsResult_concat tool x m ms
    rw [List.cons_append,countSplits,countSplits,ih]
    omega

end

/-- Every result is got by the agent that asked for it. -/
theorem countP_result (tool : String) (marks : List (Mark Json))
    (h : ∀ seat, Answering (calls seat marks)) :
    marks.countP (·.does tool .result) = countSplits (getsResult tool) marks := by
  induction marks using List.reverseRecOn with
  | nil => rfl
  | append_singleton ms m ih =>
    have hbefore : ∀ seat, Answering (calls seat ms) := by
      intro seat u name what v hcalls
      apply h seat u name what (v ++ (m.callAt seat).toList)
      rw [calls_concat,hcalls,List.append_assoc,List.cons_append]
    have hcloses : closes tool ms m = m.does tool .result := by
      cases hresult : m.does tool .result with
      | false => exact closes_of_not hresult
      | true =>
        obtain ⟨seat,hm⟩ := Mark.does_iff.1 hresult
        have hcall : m.callAt seat = some (tool,.result) := by simp [Mark.callAt,hm]
        have hlast := h seat (calls seat ms) tool .result [] (by
          rw [calls_concat,hcall]
          rfl) rfl
        rw [closes_call hm,hlast,decide_eq_true rfl]
    rw [countGets_concat,List.countP_append,ih hbefore,hcloses,List.countP_singleton]
    cases m.does tool .result <;> rfl

end AgentCentric.Manager

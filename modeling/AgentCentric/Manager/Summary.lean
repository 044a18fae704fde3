import AgentCentric.Manager.ReplayOrder

namespace AgentCentric.Manager

structure ToolSummary where
  name : String
  granted : Bool
  requests : Nat
  succeeded : Nat
  failed : Nat
  rejected : Nat
  deriving DecidableEq

def modelTool : String := "llm_complete"

def isToolRequest (description : String) : Bool := isRequest description

def toolNameFromRequest (description : String) : Except String String := toolName description

def pairedResultStep (steps : List (StepRecord Json)) (request : StepRecord Json) :
    Except String (Option (StepRecord Json)) := do
  let tool ← toolNameFromRequest request.description
  .ok (steps.find? fun other => decide (request.stepIndex < other.stepIndex) &&
    startsWith other.description ("tool '" ++ tool ++ "' result"))

/-- `d[tool] += 1`. -/
def increment (d : Dict String Nat) (tool : String) : Dict String Nat :=
  d.set tool ((d.get tool).getD 0 + 1)

structure Tallies where
  counts : Dict String Nat
  granted : Dict String Bool
  succeeded : Dict String Nat
  failed : Dict String Nat
  rejected : Dict String Nat

namespace Tallies

def empty : Tallies := ⟨.empty,.empty,.empty,.empty,.empty⟩

def request (t : Tallies) (tool : String) (status : StepStatus)
    (other : Option (StepRecord Json)) : Tallies :=
  let t := { t with counts := increment t.counts tool }
  if status = .rejected then { t with rejected := increment t.rejected tool }
  else
    let t := { t with granted := t.granted.set tool true }
    match other with
    | none => t
    | some other =>
      if other.status = .failed then { t with failed := increment t.failed tool }
      else { t with succeeded := increment t.succeeded tool }

def summary (t : Tallies) (entry : String × Nat) : ToolSummary where
  name := entry.1
  granted := (t.granted.get entry.1).getD false
  requests := entry.2
  succeeded := (t.succeeded.get entry.1).getD 0
  failed := (t.failed.get entry.1).getD 0
  rejected := (t.rejected.get entry.1).getD 0

end Tallies

def tallyStep (steps : List (StepRecord Json)) (t : Tallies) (step : StepRecord Json) :
    Except String Tallies :=
  if isToolRequest step.description then do
    let tool ← toolNameFromRequest step.description
    if tool = modelTool then .ok t
    else do
      let other ← pairedResultStep steps step
      .ok (t.request tool step.status other)
  else .ok t

def byTool (a b : String × Nat) : Bool := a.1 ≤ b.1

def toolSummaries (trajectory : Trajectory) : Except String (List ToolSummary) := do
  let t ← trajectory.steps.foldlM (tallyStep trajectory.steps) .empty
  .ok ((t.counts.entries.insertionSort (byTool · ·)).map t.summary)

def ToolSummary.tally (s : ToolSummary) : Counts := ⟨s.requests,s.succeeded,s.failed,s.rejected⟩

def reported (summaries : List ToolSummary) (tool : String) : Counts :=
  ((summaries.find? (·.name = tool)).map (·.tally)).getD ⟨0,0,0,0⟩

def tallied (pattern : List (String × Counts)) (tool : String) : Counts :=
  (Dict.lookup pattern tool).getD ⟨0,0,0,0⟩

variable {xs : List (StepRecord Json)}

theorem tallied_toolPattern (h : Quoted xs) (taskId agentName : String) :
    ∃ pattern, toolPattern ⟨taskId,agentName,numberFrom 0 xs⟩ = .ok pattern ∧
      ∀ tool, tallied pattern tool = countsOf tool xs := by
  obtain ⟨counts,hpattern,hget⟩ := toolPattern_ok h taskId agentName
  refine ⟨_,hpattern,fun tool => ?_⟩
  have hsorted : Dict.lookup (counts.entries.insertionSort (byName · ·)) tool = counts.get tool :=
    (Dict.lookup_perm (List.perm_insertionSort (byName · ·) counts.entries).symm counts.nodup
      tool).symm
  rw [tallied,hsorted,hget]
  cases hr : requested tool xs with
  | true => rfl
  | false => exact (countsOf_unrequested hr).symm

def quiet (step : StepRecord Json) : StepRecord Json :=
  if step.description = "model call failed" then { step with description := "" } else step

section
variable (step : StepRecord Json)

theorem quiet_failed {step : StepRecord Json} (h : step.description = "model call failed") :
    quiet step = { step with description := "" } := if_pos h

theorem quiet_other {step : StepRecord Json} (h : step.description ≠ "model call failed") :
    quiet step = step := if_neg h

@[simp] theorem quiet_stepIndex : (quiet step).stepIndex = step.stepIndex := by
  unfold quiet
  split <;> rfl

@[simp] theorem quiet_status : (quiet step).status = step.status := by
  unfold quiet
  split <;> rfl

theorem isRequest_quiet : isRequest (quiet step).description = isRequest step.description := by
  by_cases h : step.description = "model call failed"
  · have hneither : isRequest "" = isRequest "model call failed" := by decide
    rw [quiet_failed h,h,← hneither]
  · rw [quiet_other h]

theorem quiet_of_request {step : StepRecord Json} (h : isRequest step.description = true) :
    quiet step = step := by
  apply quiet_other
  intro hfailed
  rw [hfailed] at h
  revert h
  decide

theorem startsWith_append {text start rest : String} (h : startsWith text (start ++ rest) = true) :
    startsWith text start = true := by
  simp only [startsWith,List.isPrefixOf_iff_prefix,String.toList_append] at h ⊢
  exact (List.prefix_append _ _).trans h

theorem isResult_quiet (tool : String) : isResult tool (quiet step) =
    startsWith step.description ("tool '" ++ tool ++ "' result") := by
  by_cases h : step.description = "model call failed"
  · have hnot : ∀ text, startsWith text "tool '" = false →
        startsWith text ("tool '" ++ tool ++ "' result") = false := by
      intro text htext
      rw [Bool.eq_false_iff]
      intro hstart
      rw [String.append_assoc] at hstart
      rw [startsWith_append hstart] at htext
      cases htext
    have hne : "" ≠ "model call failed" := by decide
    rw [isResult,quiet_failed h,h,hnot "" (by decide),hnot "model call failed" (by decide)]
    simp [hne]
  · rw [isResult,quiet_other h]
    simp [h]

theorem pairedResult_quiet (steps : List (StepRecord Json)) {tool : String}
    (h : toolName step.description = .ok tool) :
    pairedResultStep steps step = .ok (steps.find? fun other =>
      decide (step.stepIndex < other.stepIndex) && isResult tool (quiet other)) := by
  simp only [pairedResultStep,toolNameFromRequest,h,bind,Except.bind,isResult_quiet]

end

variable {counts : Dict String Counts} {t : Tallies}

namespace Tallies

def of (t : Tallies) (tool : String) : Counts where
  requests := (t.counts.get tool).getD 0
  succeeded := (t.succeeded.get tool).getD 0
  failed := (t.failed.get tool).getD 0
  rejected := (t.rejected.get tool).getD 0

theorem find_summary (t : Tallies) (entries : List (String × Nat)) (tool : String) :
    (entries.map t.summary).find? (·.name = tool) =
      (Dict.lookup entries tool).map fun requests => t.summary (tool,requests) := by
  induction entries with
  | nil => rfl
  | cons entry entries ih =>
    have hname : (t.summary entry).name = entry.1 := rfl
    rw [List.map_cons,List.find?_cons,hname,ih]
    by_cases htool : entry.1 = tool
    · subst htool
      simp [Dict.lookup]
    · simp [Dict.lookup,htool]

theorem increment_get (d : Dict String Nat) (tool other : String) :
    ((increment d tool).get other).getD 0 =
      (d.get other).getD 0 + if tool = other then 1 else 0 := by
  rw [increment,Dict.get_set]
  by_cases h : tool = other
  · subst h
    simp
  · simp [h]

theorem request_counts (t : Tallies) (tool : String) (status : StepStatus)
    (other : Option (StepRecord Json)) :
    (t.request tool status other).counts = increment t.counts tool := by
  unfold request
  split
  · rfl
  · cases other with
    | none => rfl
    | some other =>
      dsimp only
      split <;> rfl

theorem of_request_other {tool name : String} (hne : tool ≠ name) (t : Tallies)
    (status : StepStatus) (other : Option (StepRecord Json)) :
    (t.request tool status other).of name = t.of name := by
  unfold request
  split
  · simp [of,increment_get,hne]
  · cases other with
    | none => simp [of,increment_get,hne]
    | some other =>
      dsimp only
      split <;> simp [of,increment_get,hne]

theorem of_request (t : Tallies) (step : StepRecord Json) (tool : String)
    (other : Option (StepRecord Json)) :
    (t.request tool step.status other).of tool = countRequest step other (t.of tool) := by
  unfold request countRequest
  split
  · simp [of,increment_get]
  · cases other with
    | none => simp [of,increment_get]
    | some other =>
      dsimp only
      split <;> simp [of,increment_get]

structure Follows (t : Tallies) (counts : Dict String Counts) : Prop where
  model : t.counts.get modelTool = none
  same : ∀ tool, tool ≠ modelTool → t.of tool = (counts.get tool).getD ⟨0,0,0,0⟩
  asked : ∀ tool, tool ≠ modelTool → (t.counts.get tool).isSome = (counts.get tool).isSome

theorem Follows.empty : Follows Tallies.empty .empty := ⟨rfl,fun _ _ => rfl,fun _ _ => rfl⟩

theorem Follows.model_request (h : Follows t counts)
    (c : Counts) : Follows t (counts.set modelTool c) where
  model := h.model
  same tool hne := by rw [h.same tool hne,Dict.get_set_ne _ _ hne.symm]
  asked tool hne := by rw [h.asked tool hne,Dict.get_set_ne _ _ hne.symm]

theorem Follows.request (h : Follows t counts)
    {tool : String} (htool : tool ≠ modelTool) (step : StepRecord Json)
    (other : Option (StepRecord Json)) : Follows (t.request tool step.status other)
      (counts.set tool (countRequest step other ((counts.get tool).getD ⟨0,0,0,0⟩))) where
  model := by
    rw [request_counts,increment,Dict.get_set_ne _ _ htool]
    exact h.model
  same name hne := by
    by_cases hname : tool = name
    · subst hname
      rw [of_request,h.same tool htool,Dict.get_set_self]
      rfl
    · rw [of_request_other hname,Dict.get_set_ne _ _ hname,h.same name hne]
  asked name hne := by
    rw [request_counts,increment]
    by_cases hname : tool = name
    · subst hname
      simp
    · rw [Dict.get_set_ne _ _ hname,Dict.get_set_ne _ _ hname,h.asked name hne]

end Tallies

theorem countRequest_quiet (request : StepRecord Json) (paired : Option (StepRecord Json))
    (c : Counts) : countRequest request (paired.map quiet) c = countRequest request paired c := by
  cases paired with
  | none => rfl
  | some result => simp [countRequest]

theorem find_quiet (steps : List (StepRecord Json)) (request : StepRecord Json) (tool : String) :
    pairedResult (steps.map quiet) request tool = (steps.find? fun other =>
      decide (request.stepIndex < other.stepIndex) && isResult tool (quiet other)).map quiet := by
  rw [pairedResult,List.find?_map]
  congr 2
  funext other
  simp

theorem tallyStep_follows (steps : List (StepRecord Json)) {step : StepRecord Json}
    (hquoted : isRequest step.description = true → ∃ tool, toolName step.description = .ok tool)
    (h : t.Follows counts) : ∃ t' counts', tallyStep steps t step = .ok t' ∧
      countStep (steps.map quiet) counts (quiet step) = .ok counts' ∧ t'.Follows counts' := by
  rw [tallyStep,isToolRequest,countStep,isRequest_quiet]
  cases hrequest : isRequest step.description with
  | false => exact ⟨t,counts,rfl,rfl,h⟩
  | true =>
    obtain ⟨tool,htool⟩ := hquoted hrequest
    have hpaired := pairedResult_quiet step steps htool
    rw [if_pos rfl,if_pos rfl,quiet_of_request hrequest,toolNameFromRequest,htool]
    simp only [bind,Except.bind,hpaired,find_quiet,countRequest_quiet]
    by_cases hmodel : tool = modelTool
    · subst hmodel
      exact ⟨t,_,if_pos rfl,rfl,h.model_request _⟩
    · exact ⟨_,_,if_neg hmodel,rfl,h.request hmodel step _⟩

theorem tallies_follow (steps : List (StepRecord Json)) {ys : List (StepRecord Json)}
    (hquoted : Quoted ys) (h : t.Follows counts) :
    ∃ t' counts', ys.foldlM (tallyStep steps) t = .ok t' ∧
      (ys.map quiet).foldlM (countStep (steps.map quiet)) counts = .ok counts' ∧
      t'.Follows counts' := by
  induction ys generalizing t counts with
  | nil => exact ⟨t,counts,rfl,rfl,h⟩
  | cons y ys ih =>
    obtain ⟨t₁,counts₁,htally,hcount,hnext⟩ := tallyStep_follows steps
      (hquoted y (by simp)) h
    obtain ⟨t',counts',htallies,hcounts,hlast⟩ :=
      ih (fun s hs => hquoted s (List.mem_cons_of_mem _ hs)) hnext
    refine ⟨t',counts',?_,?_,hlast⟩
    · rw [List.foldlM_cons,htally]
      exact htallies
    · rw [List.map_cons,List.foldlM_cons,hcount]
      exact hcounts

theorem quiet_numberFrom (n : Nat) (xs : List (StepRecord Json)) :
    (numberFrom n xs).map quiet = numberFrom n (xs.map quiet) := by
  induction xs generalizing n with
  | nil => rfl
  | cons x xs ih =>
    have hx : quiet { x with stepIndex := n } = { quiet x with stepIndex := n } := by
      unfold quiet
      split <;> rfl
    rw [numberFrom,List.map_cons,List.map_cons,numberFrom,ih,hx]

theorem Quoted.quiet (h : Quoted xs) : Quoted (xs.map quiet) := by
  intro step hstep hrequest
  obtain ⟨x,hx,rfl⟩ := List.mem_map.1 hstep
  rw [isRequest_quiet] at hrequest
  rw [quiet_of_request hrequest]
  exact h x hx hrequest

theorem Quoted.numberFrom (h : Quoted xs) (n : Nat) : Quoted (numberFrom n xs) := by
  intro step hstep
  have hmem : step.description ∈ (Manager.numberFrom n xs).map (·.description) :=
    List.mem_map_of_mem hstep
  rw [map_numberFrom (fun _ _ => rfl)] at hmem
  obtain ⟨x,hx,hdescription⟩ := List.mem_map.1 hmem
  rw [← hdescription]
  exact h x hx

/-- The summary reports what the replay check does of the same steps without failed model calls, but
nothing of the model. -/
theorem reported_toolSummaries (h : Quoted xs) (taskId agentName : String) :
    ∃ summaries, toolSummaries ⟨taskId,agentName,numberFrom 0 xs⟩ = .ok summaries ∧
      ∀ tool, reported summaries tool =
        if tool = modelTool then ⟨0,0,0,0⟩ else countsOf tool (xs.map quiet) := by
  obtain ⟨t,counts,htallies,hcounts,hfollows⟩ :=
    tallies_follow (numberFrom 0 xs) (h.numberFrom 0) Tallies.Follows.empty
  obtain ⟨counts',hcounts',hget⟩ := countSteps [] h.quiet .empty
  rw [quiet_numberFrom] at hcounts
  have hsame : counts = counts' := Except.ok.inj (hcounts.symm.trans hcounts')
  subst hsame
  refine ⟨_,by rw [toolSummaries,htallies]; rfl,fun tool => ?_⟩
  have hsorted : Dict.lookup (t.counts.entries.insertionSort (byTool · ·)) tool =
      t.counts.get tool :=
    (Dict.lookup_perm (List.perm_insertionSort (byTool · ·) t.counts.entries).symm t.counts.nodup
      tool).symm
  rw [reported,Tallies.find_summary,hsorted]
  by_cases hmodel : tool = modelTool
  · subst hmodel
    rw [hfollows.model]
    simp
  · have hof := hfollows.same tool hmodel
    have hasked := hfollows.asked tool hmodel
    rw [hget,addCounts,Dict.get_empty] at hof hasked
    rw [if_neg hmodel]
    cases hr : requested tool (xs.map quiet) with
    | false =>
      rw [hr] at hasked
      have hnone : t.counts.get tool = none := Option.not_isSome_iff_eq_none.1 (by simp [hasked])
      rw [hnone,countsOf_unrequested hr]
      rfl
    | true =>
      rw [hr] at hof hasked
      obtain ⟨requests,hrequests⟩ := Option.isSome_iff_exists.1 hasked
      rw [if_pos rfl,Option.getD_some,Option.getD_none] at hof
      rw [hrequests]
      have htally : (t.summary (tool,requests)).tally = t.of tool := by
        simp [Tallies.summary,ToolSummary.tally,Tallies.of,hrequests]
      rw [Option.map_some,Option.map_some,Option.getD_some,htally,hof]
      simp [Counts.add]

end AgentCentric.Manager

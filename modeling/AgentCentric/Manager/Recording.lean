import AgentCentric.Manager.Host
import AgentCentric.Manager.Summary

namespace AgentCentric.Manager

inductive CallStep where
  | rejected | request | result | executionFailed
  deriving DecidableEq

namespace CallStep

def text : CallStep → String
  | .rejected => " request rejected"
  | .request => " request"
  | .result => " result"
  | .executionFailed => " execution failed"

def status : CallStep → StepStatus
  | .rejected => .rejected
  | .request | .result => .completed
  | .executionFailed => .failed

def isAnswer : CallStep → Bool
  | .rejected | .request => false
  | .result | .executionFailed => true

end CallStep

def described (tool : String) (what : CallStep) : String := "tool " ++ pyRepr tool ++ what.text

/-- Whose step it is: it tells of a call of an agent, or of something else. -/
inductive Deed where
  | call (seat : Seat) (tool : String) (what : CallStep)
  | other

def Deed.Tells : Deed → StepStatus → String → Prop
  | .call _ tool what, status, description =>
    status = what.status ∧ description = described tool what
  | .other, status, description => startsWith description "tool '" = false ∧
    (description = "model call failed" → status ≠ .failed)

structure Mark (V : Type) where
  deed : Deed
  step : StepRecord V

namespace Mark
variable {V : Type}

def Told (m : Mark V) : Prop := m.deed.Tells m.step.status m.step.description

def does (tool : String) (what : CallStep) (m : Mark V) : Bool :=
  match m.deed with
  | .call _ tool' what' => decide (tool' = tool) && decide (what' = what)
  | .other => false

def callAt (seat : Seat) (m : Mark V) : Option (String × CallStep) :=
  match m.deed with
  | .call seat' tool what => if seat' = seat then some (tool,what) else none
  | .other => none

end Mark

def calls {V : Type} (seat : Seat) (marks : List (Mark V)) : List (String × CallStep) :=
  marks.filterMap (·.callAt seat)

def Answering (log : List (String × CallStep)) : Prop :=
  ∀ u tool what v, log = u ++ (tool,what) :: v → what.isAnswer = true →
    u.getLast? = some (tool,.request)

/-- The name stands between quotes as it is. -/
def Verbatim (tool : String) : Prop := pyRepr tool = "'" ++ tool ++ "'"

/-- A trajectory that the Manager recorded, and who did what it tells. -/
structure Recording where
  taskId : String
  agentName : String
  grants : Seat → List String
  marks : List (Mark Json)
  told : ∀ m ∈ marks, m.Told
  granted : ∀ m ∈ marks, ∀ seat tool what, m.deed = .call seat tool what →
    (tool ∈ grants seat ↔ what ≠ .rejected)
  answering : ∀ seat, Answering (calls seat marks)

namespace Recording

def steps (r : Recording) : List (StepRecord Json) := r.marks.map (·.step)

def trajectory (r : Recording) : Trajectory := ⟨r.taskId,r.agentName,numberFrom 0 r.steps⟩

def recorded (r : Recording) (tool : String) : Counts where
  requests := r.marks.countP fun m => m.does tool .request || m.does tool .rejected
  succeeded := r.marks.countP (·.does tool .result)
  failed := r.marks.countP (·.does tool .executionFailed)
  rejected := r.marks.countP (·.does tool .rejected)

def Requested (r : Recording) (tool : String) : Prop :=
  ∃ m ∈ r.marks, m.does tool .request = true ∨ m.does tool .rejected = true

def Named (r : Recording) (tool : String) : Prop :=
  (∃ seat, tool ∈ r.grants seat) ∨ r.Requested tool

def SummaryExact (r : Recording) : Prop :=
  ∀ tool, r.Named tool →
    ∃ summaries, toolSummaries r.trajectory = .ok summaries ∧ reported summaries tool = r.recorded tool

def PatternExact (r : Recording) : Prop :=
  ∀ tool, r.Named tool →
    ∃ pattern, toolPattern r.trajectory = .ok pattern ∧ tallied pattern tool = r.recorded tool

def Unanswered (tool : String) (marks : List (Mark Json)) : Prop :=
  ∀ m ∈ marks, m.does tool .result = false ∧ m.step.description ≠ "model call failed"

/-- A recording whose descriptions can be read back. -/
structure Readable (r : Recording) : Prop where
  plain : ∀ tool, r.Requested tool → Verbatim tool
  /-- No model is called. -/
  model : ¬ r.Requested modelTool
  /-- No execution fails. -/
  fine : ∀ m ∈ r.marks, ∀ tool, m.does tool .executionFailed = false
  /-- A tool with a result does not have the marker of a request in its name. -/
  marker : ∀ m ∈ r.marks, ∀ tool, m.does tool .result = true → includes tool " request" = false
  /-- A request whose agent gets no result is not followed by what looks like one. -/
  settled : ∀ u m v, r.marks = u ++ m :: v → ∀ seat tool, m.deed = .call seat tool .request →
    (calls seat v).head? ≠ some (tool,.result) → Unanswered tool v

end Recording

theorem reprChar_fixed_or (quote c : Char) : reprChar quote c = [c] ∨ 2 ≤ (reprChar quote c).length := by
  unfold reprChar
  repeat' split
  all_goals simp

theorem length_le_escaped (quote : Char) (text : List Char) :
    text.length ≤ (text.flatMap (reprChar quote)).length := by
  induction text with
  | nil => simp
  | cons c text ih =>
    rw [List.flatMap_cons,List.length_append,List.length_cons]
    rcases reprChar_fixed_or quote c with h | h
    · rw [h,List.length_singleton]
      omega
    · omega

theorem escaped_eq_or_longer (quote : Char) (text : List Char) :
    text.flatMap (reprChar quote) = text ∨
      text.length < (text.flatMap (reprChar quote)).length := by
  induction text with
  | nil => exact .inl rfl
  | cons c text ih =>
    have hle := length_le_escaped quote text
    rw [List.flatMap_cons,List.length_append,List.length_cons]
    rcases reprChar_fixed_or quote c with h | h
    · rw [h,List.length_singleton,List.singleton_append,List.cons.injEq]
      rcases ih with ih | ih
      · exact .inl ⟨rfl,ih⟩
      · exact .inr (by omega)
    · exact .inr (by omega)

def escaped (text : String) : List Char := text.toList.flatMap (reprChar (Char.ofNat 39))

def Unquoted (text : String) : Prop := Char.ofNat 39 ∉ text.toList

/-- The name has a quote in it, and no double one. -/
def OnlyQuoted (text : String) : Prop :=
  Char.ofNat 39 ∈ text.toList ∧ Char.ofNat 34 ∉ text.toList

theorem pyRepr_single {text : String} (h : ¬ OnlyQuoted text) :
    (pyRepr text).toList = Char.ofNat 39 :: (escaped text ++ [Char.ofNat 39]) := by
  unfold OnlyQuoted at h
  simp only [pyRepr,if_neg h,String.toList_ofList,escaped]

theorem pyRepr_double {text : String} (h : OnlyQuoted text) :
    (pyRepr text).toList.head? = some (Char.ofNat 34) := by
  unfold OnlyQuoted at h
  simp only [pyRepr,if_pos h,String.toList_ofList,List.head?_cons]

theorem Unquoted.single {text : String} (h : Unquoted text) : ¬ OnlyQuoted text :=
  fun hq => h hq.1

theorem hexDigit_ne (n : Nat) (h : n < 16) : hexDigit n ≠ Char.ofNat 39 := by
  revert n
  decide

theorem quote_notMem_reprChar {c : Char} (h : c ≠ Char.ofNat 39) :
    Char.ofNat 39 ∉ reprChar (Char.ofNat 39) c := by
  unfold reprChar
  split
  · rename_i hc
    obtain rfl | rfl := hc
    · exact absurd rfl h
    · decide
  split
  · decide
  split
  · decide
  split
  · decide
  split
  · rename_i hcontrol
    have hhigh := (hexDigit_ne (c.toNat / 16) (by omega)).symm
    have hlow := (hexDigit_ne (c.toNat % 16) (by omega)).symm
    simp only [List.mem_cons,List.not_mem_nil,or_false,not_or]
    exact ⟨by decide,by decide,hhigh,hlow⟩
  · simp [h.symm]

theorem quote_notMem_escaped {text : String} (h : Unquoted text) :
    Char.ofNat 39 ∉ escaped text := by
  rw [escaped,List.mem_flatMap]
  rintro ⟨c,hc,hquote⟩
  have hne : c ≠ Char.ofNat 39 := by
    rintro rfl
    exact h hc
  exact quote_notMem_reprChar hne hquote

/-- A name stands as it is between quotes if it has none and nothing is escaped. -/
theorem verbatim_iff (text : String) :
    pyRepr text = "'" ++ text ++ "'" ↔ Unquoted text ∧ escaped text = text.toList := by
  have hquotes : ("'" ++ text ++ "'").toList =
      Char.ofNat 39 :: (text.toList ++ [Char.ofNat 39]) := by
    simp [String.toList_append]
  constructor
  · intro h
    have hlist := congrArg String.toList h
    rw [hquotes] at hlist
    have hsingle : ¬ OnlyQuoted text := by
      intro honly
      have hhead := pyRepr_double honly
      rw [hlist,List.head?_cons] at hhead
      revert hhead
      decide
    rw [pyRepr_single hsingle,List.cons.injEq,List.append_left_inj] at hlist
    refine ⟨fun hmem => ?_,hlist.2⟩
    -- A quote inside is escaped, which makes the name longer.
    obtain ⟨u,v,huv⟩ := List.append_of_mem hmem
    have hcut : escaped text = u.flatMap (reprChar (Char.ofNat 39)) ++
        (['\\',Char.ofNat 39] ++ v.flatMap (reprChar (Char.ofNat 39))) := by
      rw [escaped,huv,List.flatMap_append,List.flatMap_cons]
      rfl
    have hlonger := congrArg List.length (hcut.symm.trans hlist.2)
    have hu := length_le_escaped (Char.ofNat 39) u
    have hv := length_le_escaped (Char.ofNat 39) v
    rw [huv] at hlonger
    simp only [List.length_append,List.length_cons,List.length_nil] at hlonger
    omega
  · rintro ⟨hunquoted,hescaped⟩
    apply String.toList_inj.1
    rw [pyRepr_single hunquoted.single,hescaped,hquotes]

/-- What is written for a name that is not plain is longer than the name. -/
theorem escaped_longer {text : String} (h : escaped text ≠ text.toList) :
    text.toList.length < (escaped text).length :=
  (escaped_eq_or_longer _ _).resolve_left h

theorem includes_iff (text part : String) :
    includes text part = true ↔ part.toList <:+: text.toList := by
  simp only [includes,List.any_eq_true,List.mem_tails,List.isPrefixOf_iff_prefix,
    List.infix_iff_prefix_suffix]
  exact exists_congr fun t => and_comm

theorem infix_separated {part u v : List Char} {c : Char} (hne : part ≠ []) (hc : c ∉ part) :
    part <:+: u ++ c :: v ↔ part <:+: u ∨ part <:+: v := by
  have hstarts : ∀ t, t ≠ [] → t <+: c :: v → c ∈ t := by
    intro t ht hstart
    cases t with
    | nil => exact absurd rfl ht
    | cons d t =>
      rw [List.cons_prefix_cons] at hstart
      rw [hstart.1]
      exact List.mem_cons_self
  rw [List.infix_append_iff]
  constructor
  · rintro (hu | hv | ⟨t,t',rfl,ht,ht'⟩)
    · exact .inl hu
    · rw [List.infix_cons_iff] at hv
      exact .inr (hv.resolve_left fun hstart => hc (hstarts part hne hstart))
    · by_cases hempty : t' = []
      · subst hempty
        rw [List.append_nil]
        exact .inl ht.isInfix
      · exact absurd (List.mem_append_right _ (hstarts t' hempty ht')) hc
  · rintro (hu | hv)
    · exact .inl hu
    · exact .inr (.inl (List.infix_cons hv))

theorem described_single {tool : String} (h : ¬ OnlyQuoted tool) (what : CallStep) :
    (described tool what).toList =
      "tool ".toList ++ Char.ofNat 39 :: (escaped tool ++ Char.ofNat 39 :: what.text.toList) := by
  rw [described,String.toList_append,String.toList_append,pyRepr_single h]
  simp

/-- The quote comes sixth, or a double one. -/
theorem startsWith_described {tool : String} (what : CallStep) :
    startsWith (described tool what) "tool '" = true ↔ ¬ OnlyQuoted tool := by
  have htool : "tool '".toList = "tool ".toList ++ [Char.ofNat 39] := by decide
  constructor
  · intro hstart honly
    rw [startsWith,List.isPrefixOf_iff_prefix,htool,described,String.append_assoc,
      String.toList_append,List.prefix_append_right_inj,String.toList_append] at hstart
    have hdouble := pyRepr_double honly
    cases hrepr : (pyRepr tool).toList with
    | nil =>
      rw [hrepr] at hdouble
      cases hdouble
    | cons c rest =>
      rw [hrepr] at hdouble hstart
      rw [List.head?_cons,Option.some.injEq] at hdouble
      rw [List.cons_append,List.cons_prefix_cons,hdouble] at hstart
      exact absurd hstart.1 (by decide)
  · intro hsingle
    rw [startsWith,List.isPrefixOf_iff_prefix,described_single hsingle,htool,
      List.prefix_append_right_inj,List.cons_prefix_cons]
    exact ⟨rfl,List.nil_prefix⟩

theorem toolName_described {tool : String} (h : Unquoted tool) (what : CallStep) :
    toolName (described tool what) = .ok (String.ofList (escaped tool)) := by
  have hbefore : ∀ c ∈ "tool ".toList, decide (c ≠ Char.ofNat 39) = true :=
    List.all_eq_true.1 (by decide)
  have hinside : ∀ c ∈ escaped tool, decide (c ≠ Char.ofNat 39) = true := by
    intro c hc
    rw [decide_eq_true_eq]
    rintro rfl
    exact quote_notMem_escaped h hc
  have hstop : decide (Char.ofNat 39 ≠ Char.ofNat 39) = false := by decide
  simp only [toolName]
  rw [described_single h.single,List.dropWhile_append_of_pos hbefore,List.dropWhile_cons,hstop]
  simp only [Bool.false_eq_true,if_false]
  rw [if_pos (by simp),List.takeWhile_append_of_pos hinside,List.takeWhile_cons,hstop]
  simp

/-- A name that is read ends at a quote. -/
theorem unquoted_of_toolName {description tool : String} (h : toolName description = .ok tool) :
    Unquoted tool := by
  simp only [toolName] at h
  split at h
  · cases h
  · split at h
    · cases h
      intro hmem
      rw [String.toList_ofList] at hmem
      have hne := List.mem_takeWhile_imp hmem
      simp at hne
    · cases h

theorem quoted_described {tool : String} (h : ¬ OnlyQuoted tool) (what : CallStep) :
    ∃ name, toolName (described tool what) = .ok name := by
  have hbefore : ∀ c ∈ "tool ".toList, decide (c ≠ Char.ofNat 39) = true :=
    List.all_eq_true.1 (by decide)
  have hstop : decide (Char.ofNat 39 ≠ Char.ofNat 39) = false := by decide
  simp only [toolName]
  rw [described_single h,List.dropWhile_append_of_pos hbefore,List.dropWhile_cons,hstop]
  simp

section
variable {tool : String} (h : Verbatim tool)
include h

theorem Verbatim.unquoted : Unquoted tool := ((verbatim_iff tool).1 h).1

theorem described_verbatim (what : CallStep) : (described tool what).toList =
    "tool ".toList ++ Char.ofNat 39 :: (tool.toList ++ Char.ofNat 39 :: what.text.toList) := by
  rw [described_single h.unquoted.single,((verbatim_iff tool).1 h).2]

theorem toolName_verbatim (what : CallStep) : toolName (described tool what) = .ok tool := by
  rw [toolName_described h.unquoted,((verbatim_iff tool).1 h).2,String.ofList_toList]

theorem isRequest_verbatim (what : CallStep) : isRequest (described tool what) =
    (includes tool " request" || includes what.text " request") := by
  have hquote : Char.ofNat 39 ∉ " request".toList := by decide
  have hne : " request".toList ≠ [] := by decide
  have hbefore : ¬ " request".toList <:+: "tool ".toList := by
    rw [← includes_iff]
    decide
  rw [isRequest,(startsWith_described what).2 h.unquoted.single,Bool.true_and,Bool.eq_iff_iff,
    Bool.or_eq_true,includes_iff,includes_iff,includes_iff,described_verbatim h,
    infix_separated hne hquote,infix_separated hne hquote]
  exact ⟨fun hin => hin.resolve_left hbefore,.inr⟩

end

theorem prefix_separated {c : Char} {u v u' v' : List Char} (hu : c ∉ u) (hu' : c ∉ u') :
    u' ++ c :: v' <+: u ++ c :: v ↔ u' = u ∧ v' <+: v := by
  induction u' generalizing u with
  | nil =>
    cases u with
    | nil => simp
    | cons d u =>
      have hne : c ≠ d := fun heq => hu (heq ▸ List.mem_cons_self)
      simp [List.cons_prefix_cons,hne]
  | cons d u' ih =>
    cases u with
    | nil =>
      have hne : d ≠ c := fun heq => hu' (heq ▸ List.mem_cons_self)
      simp [List.cons_prefix_cons,hne]
    | cons d' u =>
      rw [List.cons_append,List.cons_append,List.cons_prefix_cons,
        ih (fun hc => hu (List.mem_cons_of_mem _ hc)) (fun hc => hu' (List.mem_cons_of_mem _ hc)),
        List.cons.injEq,and_assoc]

theorem isResult_verbatim {tool name : String} (h : Verbatim tool) (hname : Verbatim name) (what : CallStep) :
    startsWith (described tool what) ("tool '" ++ name ++ "' result") =
      (decide (tool = name) && decide (what = .result)) := by
  have hstart : ("tool '" ++ name ++ "' result").toList = "tool ".toList ++
      Char.ofNat 39 :: (name.toList ++ Char.ofNat 39 :: " result".toList) := by
    simp [String.toList_append]
  have htext : " result".toList <+: what.text.toList ↔ what = .result := by
    rw [← List.isPrefixOf_iff_prefix]
    cases what <;> decide
  rw [Bool.eq_iff_iff,startsWith,List.isPrefixOf_iff_prefix,hstart,described_verbatim h,
    List.prefix_append_right_inj,List.cons_prefix_cons,
    prefix_separated h.unquoted hname.unquoted,htext,String.toList_inj,Bool.and_eq_true,
    decide_eq_true_eq,decide_eq_true_eq,eq_comm (a := name)]
  exact ⟨fun hboth => hboth.2,fun hboth => ⟨rfl,hboth⟩⟩

theorem described_ne (tool : String) (what : CallStep) :
    described tool what ≠ "model call failed" := by
  intro heq
  have hstart : startsWith (described tool what) "tool " = true := by
    rw [startsWith,List.isPrefixOf_iff_prefix,described,String.append_assoc,String.toList_append]
    exact List.prefix_append _ _
  rw [heq] at hstart
  revert hstart
  decide

end AgentCentric.Manager

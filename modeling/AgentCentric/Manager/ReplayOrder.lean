import AgentCentric.Library.Interleave
import AgentCentric.Manager.Replay
import Mathlib.Data.List.Find

namespace AgentCentric.Manager
open Interleave

def asks (tool : String) (step : StepRecord Json) : Bool :=
  isRequest step.description && decide (toolName step.description = .ok tool) &&
    decide (step.status ≠ .rejected)

def answer (tool : String) (step : StepRecord Json) : Option Bool :=
  if isResult tool step then some (step.status ≠ .failed) else none

def firstAnswer (tool : String) (steps : List (StepRecord Json)) : Option Bool :=
  steps.findSome? (answer tool)

/-- How many requests no step has answered yet, if `k` were waiting before. -/
def waiting (tool : String) : Nat → List (StepRecord Json) → Nat
  | k, [] => k
  | k, step :: steps =>
    waiting tool ((if (answer tool step).isSome then 0 else k) + (asks tool step).toNat) steps

/-- Two neighbouring steps may change places, where `k` requests are waiting and `next` is the next
answer: the requests are answered as before, or as many others are. -/
def Exchangeable (tool : String) (k : Nat) (x y : StepRecord Json) (next : Option Bool) : Prop :=
  match answer tool x, answer tool y with
  | none, none => True
  | none, some a => asks tool x = false ∨ next = some a
  | some a, none => asks tool y = false ∨ next = some a
  | some a, some b =>
    if a = b then asks tool x = asks tool y ∨ next = some a
    else
      (next = some a → k = (asks tool x).toNat) ∧ (next = some b → k = (asks tool y).toNat) ∧
      (next = none → k = (asks tool x).toNat ∧ k = (asks tool y).toNat)

/-- A group whose log does not depend on the order of its workers. -/
structure Composition.Orderly (c : Composition) : Prop where
  /-- A description that looks like a request names a tool between quotes. -/
  quoted : ∀ step ∈ c.before ++ c.workers.flatten.map WorkerStep.record ++ c.after,
    isRequest step.description = true → ∃ tool, toolName step.description = .ok tool
  /-- Steps of different workers that look like boundary markers look the same. -/
  boundaries : ∀ u x y v, Meet c.workers u x y v → x.record.isBoundary = true →
    y.record.isBoundary = true → x.record.signature = y.record.signature
  /-- Requests and answers of different workers may change places. -/
  tools : ∀ u x y v, Meet c.workers u x y v → ∀ tool,
    Exchangeable tool (waiting tool 0 (c.before ++ u.map WorkerStep.record)) x.record y.record
      (firstAnswer tool (v.map WorkerStep.record ++ c.after))

/-- Runs that end with the same outcome replay as equivalent, in whatever order the workers
recorded their steps. -/
def Composition.OrderFree (c : Composition) : Prop :=
  ∀ s t, Interleaves c.workers s → Interleaves c.workers t →
    ∀ (id id' : String) (outcome outcome' : StoredOutcome Json), outcome.kind ≠ .interrupted →
      outcome.pyEq outcome' = true →
      ∃ result, verifyReplay (c.stored s id outcome) (c.stored t id' outcome') = .ok result ∧
        result.passed = true

/-- Of `k` requests with the answer `next`, those that are told `b`. -/
def give (b : Bool) (k : Nat) (next : Option Bool) : Nat := if next = some b then k else 0

/-- The requests of the steps that are told `b`, `next` being the first answer after the steps. -/
def answered (tool : String) (b : Bool) : List (StepRecord Json) → Option Bool → Nat
  | [], _ => 0
  | step :: steps, next =>
    give b (asks tool step).toNat ((firstAnswer tool steps).or next) + answered tool b steps next

theorem give_add (b : Bool) (j k : Nat) (next : Option Bool) :
    give b (j + k) next = give b j next + give b k next := by
  unfold give
  split <;> rfl

theorem give_zero (b : Bool) (next : Option Bool) : give b 0 next = 0 := by
  unfold give
  split <;> rfl

theorem give_none (b : Bool) (k : Nat) : give b k none = 0 := rfl

theorem firstAnswer_cons (tool : String) (step : StepRecord Json) (steps : List (StepRecord Json)) :
    firstAnswer tool (step :: steps) = (answer tool step).or (firstAnswer tool steps) := by
  rw [firstAnswer,List.findSome?_cons]
  cases answer tool step <;> rfl

/-- Those told `b` before the end of the steps, if `k` requests were waiting before them. -/
def closed (tool : String) (b : Bool) : Nat → List (StepRecord Json) → Nat
  | _, [] => 0
  | k, step :: steps =>
    give b k (answer tool step) + closed tool b
      ((if (answer tool step).isSome then 0 else k) + (asks tool step).toNat) steps

theorem answered_append (tool : String) (b : Bool) (xs ys : List (StepRecord Json))
    (next : Option Bool) (k : Nat) :
    give b k ((firstAnswer tool (xs ++ ys)).or next) + answered tool b (xs ++ ys) next =
      closed tool b k xs + (give b (waiting tool k xs) ((firstAnswer tool ys).or next) +
        answered tool b ys next) := by
  induction xs generalizing k with
  | nil => simp [closed,waiting]
  | cons x xs ih =>
    have hx := ih ((if (answer tool x).isSome then 0 else k) + (asks tool x).toNat)
    rw [List.cons_append,firstAnswer_cons,closed,waiting,answered]
    cases ha : answer tool x with
    | none =>
      simp only [ha,Option.isSome_none,Bool.false_eq_true,if_false,give_add] at hx
      simp only [Option.isSome_none,Bool.false_eq_true,if_false,Option.none_or,give_none]
      omega
    | some a =>
      simp only [ha,Option.isSome_some,if_true,Nat.zero_add] at hx
      simp only [Option.isSome_some,if_true,Nat.zero_add,Option.some_or]
      omega

def told (tool : String) (b : Bool) (k : Nat) (x y : StepRecord Json) (next : Option Bool) : Nat :=
  give b k (((answer tool x).or (answer tool y)).or next) +
    give b (asks tool x).toNat ((answer tool y).or next) + give b (asks tool y).toNat next

theorem answered_pair (tool : String) (b : Bool) (u v : List (StepRecord Json))
    (x y : StepRecord Json) : answered tool b (u ++ x :: y :: v) none = closed tool b 0 u +
      told tool b (waiting tool 0 u) x y (firstAnswer tool v) + answered tool b v none := by
  have hpair := answered_append tool b u (x :: y :: v) none 0
  simp only [give_zero,Option.or_none,firstAnswer_cons,answered] at hpair
  simp only [told,Option.or_assoc]
  omega

theorem told_exchange (tool : String) (k : Nat) (x y : StepRecord Json) (next : Option Bool) :
    (∀ b, told tool b k x y next = told tool b k y x next) ↔ Exchangeable tool k x y next := by
  unfold told Exchangeable give
  rw [Bool.forall_bool]
  have hx : (asks tool x).toNat ≤ 1 := Bool.toNat_le _
  have hy : (asks tool y).toNat ≤ 1 := Bool.toNat_le _
  have hzero : ∀ p : Bool, p = false ↔ p.toNat = 0 := by decide
  have hsame : ∀ p q : Bool, p = q ↔ p.toNat = q.toNat := by decide
  simp only [hzero (asks tool x),hzero (asks tool y),hsame (asks tool x) (asks tool y)]
  generalize (asks tool x).toNat = p at hx ⊢
  generalize (asks tool y).toNat = q at hy ⊢
  rcases answer tool x with _ | _ | _ <;> rcases answer tool y with _ | _ | _ <;>
    rcases next with _ | _ | _ <;> simp <;> omega

theorem numberFrom_append (n : Nat) (xs ys : List (StepRecord Json)) :
    numberFrom n (xs ++ ys) = numberFrom n xs ++ numberFrom (n + xs.length) ys := by
  induction xs generalizing n with
  | nil => rfl
  | cons x xs ih =>
    rw [List.cons_append,numberFrom,numberFrom,ih,List.length_cons,List.cons_append]
    rw [show n + 1 + xs.length = n + (xs.length + 1) by omega]

theorem mem_numberFrom {n : Nat} {xs : List (StepRecord Json)} {s : StepRecord Json}
    (h : s ∈ numberFrom n xs) : ∃ i, s.stepIndex = ((n + i : Nat) : Int) ∧ i < xs.length := by
  induction xs generalizing n with
  | nil => simp [numberFrom] at h
  | cons x xs ih =>
    rw [numberFrom,List.mem_cons] at h
    rcases h with rfl | h
    · exact ⟨0,rfl,by simp⟩
    · obtain ⟨i,hi,hlt⟩ := ih h
      exact ⟨i + 1,by rw [hi]; omega,by simp; omega⟩

def Unnumbered {β : Type} (f : StepRecord Json → β) : Prop :=
  ∀ s i, f { s with stepIndex := i } = f s

theorem map_numberFrom {β : Type} {f : StepRecord Json → β} (h : Unnumbered f) (n : Nat)
    (xs : List (StepRecord Json)) : (numberFrom n xs).map f = xs.map f := by
  induction xs generalizing n with
  | nil => rfl
  | cons x xs ih => rw [numberFrom,List.map_cons,List.map_cons,h,ih]

theorem filter_numberFrom {p : StepRecord Json → Bool} (h : Unnumbered p) (n : Nat)
    (xs : List (StepRecord Json)) {β : Type} {f : StepRecord Json → β} (hf : Unnumbered f) :
    ((numberFrom n xs).filter p).map f = (xs.filter p).map f := by
  induction xs generalizing n with
  | nil => rfl
  | cons x xs ih =>
    have hx := h x n
    rw [numberFrom,List.filter_cons,List.filter_cons,hx]
    cases p x with
    | true => simp [ih,hf x n]
    | false => simp [ih]

theorem pairedResult_numberFrom (tool : String) (xs ys : List (StepRecord Json))
    (x : StepRecord Json) :
    pairedResult (numberFrom 0 (xs ++ x :: ys)) { x with stepIndex := xs.length } tool =
      (numberFrom (xs.length + 1) ys).find? (isResult tool) := by
  have hearly : ∀ s ∈ numberFrom 0 xs, ¬ ((xs.length : Int) < s.stepIndex) := by
    intro s hs
    obtain ⟨i,hi,hlt⟩ := mem_numberFrom hs
    omega
  have hlate : ∀ s ∈ numberFrom (xs.length + 1) ys, (xs.length : Int) < s.stepIndex := by
    intro s hs
    obtain ⟨i,hi,_⟩ := mem_numberFrom hs
    omega
  rw [pairedResult,numberFrom_append,numberFrom,List.find?_append,Nat.zero_add]
  have hnone : (numberFrom 0 xs).find? (fun other =>
      decide ((xs.length : Int) < other.stepIndex) && isResult tool other) = none := by
    rw [List.find?_eq_none]
    intro s hs
    simp [hearly s hs]
  rw [hnone,Option.none_or,List.find?_cons_of_neg (by simp)]
  apply List.find?_congr
  intro s hs
  simp [hlate s hs]

theorem find_answer (tool : String) (n : Nat) (ys : List (StepRecord Json)) :
    ((numberFrom n ys).find? (isResult tool)).map (fun r => decide (r.status ≠ .failed)) =
      firstAnswer tool ys := by
  induction ys generalizing n with
  | nil => rfl
  | cons y ys ih =>
    have hsame : isResult tool { y with stepIndex := n } = isResult tool y := rfl
    rw [numberFrom,List.find?_cons,firstAnswer_cons,hsame,answer]
    cases isResult tool y with
    | true => rfl
    | false =>
      rw [ih]
      rfl

def countsOf (tool : String) (steps : List (StepRecord Json)) : Counts where
  requests := steps.countP fun s =>
    isRequest s.description && decide (toolName s.description = .ok tool)
  succeeded := answered tool true steps none
  failed := answered tool false steps none
  rejected := steps.countP fun s =>
    isRequest s.description && decide (toolName s.description = .ok tool) &&
      decide (s.status = .rejected)

def Counts.add (c d : Counts) : Counts :=
  ⟨c.requests + d.requests,c.succeeded + d.succeeded,c.failed + d.failed,c.rejected + d.rejected⟩

theorem countsOf_other {tool : String} {x : StepRecord Json} (ys : List (StepRecord Json))
    (h : (isRequest x.description && decide (toolName x.description = .ok tool)) = false) :
    countsOf tool (x :: ys) = countsOf tool ys := by
  have hasks : asks tool x = false := by rw [asks,h,Bool.false_and]
  simp [countsOf,h,answered,hasks,give_zero]

theorem countRequest_eq {tool : String} {x : StepRecord Json} (xs ys : List (StepRecord Json))
    (c : Counts)
    (h : (isRequest x.description && decide (toolName x.description = .ok tool)) = true) :
    (countRequest { x with stepIndex := xs.length }
        (pairedResult (numberFrom 0 (xs ++ x :: ys)) { x with stepIndex := xs.length } tool) c).add
      (countsOf tool ys) = c.add (countsOf tool (x :: ys)) := by
  have hfind := find_answer tool (xs.length + 1) ys
  rw [pairedResult_numberFrom]
  by_cases hrejected : x.status = .rejected
  · have hasks : asks tool x = false := by simp [asks,hrejected]
    simp [countRequest,countsOf,h,answered,hasks,give_zero,hrejected,Counts.add]
    omega
  · have hasks : asks tool x = true := by rw [asks,h]; simp [hrejected]
    cases hpaired : (numberFrom (xs.length + 1) ys).find? (isResult tool) with
    | none =>
      rw [hpaired] at hfind
      simp [countRequest,countsOf,h,answered,give,hrejected,Counts.add,← hfind]
      omega
    | some r =>
      rw [hpaired,Option.map_some] at hfind
      by_cases hfailed : r.status = .failed
      · simp [countRequest,countsOf,h,answered,hasks,give,hrejected,Counts.add,← hfind,hfailed]
        omega
      · simp [countRequest,countsOf,h,answered,hasks,give,hrejected,Counts.add,← hfind,hfailed]
        omega

def Quoted (steps : List (StepRecord Json)) : Prop :=
  ∀ step ∈ steps, isRequest step.description = true → ∃ tool, toolName step.description = .ok tool

def requested (tool : String) (steps : List (StepRecord Json)) : Bool :=
  steps.any fun s => isRequest s.description && decide (toolName s.description = .ok tool)

/-- The counts of a tool, added to those that `counts` has. -/
def addCounts (tool : String) (steps : List (StepRecord Json)) (counts : Option Counts) :
    Option Counts :=
  if requested tool steps then some ((counts.getD ⟨0,0,0,0⟩).add (countsOf tool steps)) else counts

theorem countsOf_unrequested {tool : String} {steps : List (StepRecord Json)}
    (h : requested tool steps = false) : countsOf tool steps = ⟨0,0,0,0⟩ := by
  induction steps with
  | nil => rfl
  | cons x steps ih =>
    rw [requested,List.any_cons,Bool.or_eq_false_iff] at h
    rw [countsOf_other steps h.1]
    exact ih h.2

theorem countSteps (xs : List (StepRecord Json)) {ys : List (StepRecord Json)} (hquoted : Quoted ys)
    (counts : Dict String Counts) :
    ∃ counts', (numberFrom xs.length ys).foldlM (countStep (numberFrom 0 (xs ++ ys))) counts =
        .ok counts' ∧ ∀ tool, counts'.get tool = addCounts tool ys (counts.get tool) := by
  induction ys generalizing xs counts with
  | nil => exact ⟨counts,rfl,fun _ => rfl⟩
  | cons x ys ih =>
    have hall : xs ++ x :: ys = (xs ++ [x]) ++ ys := by simp
    have hlength : (xs ++ [x]).length = xs.length + 1 := by simp
    have hrest := ih (xs ++ [x]) fun s hs => hquoted s (List.mem_cons_of_mem _ hs)
    rw [hlength,← hall] at hrest
    rw [numberFrom,List.foldlM_cons]
    cases hrequest : isRequest x.description with
    | false =>
      obtain ⟨counts',hfold,hget⟩ := hrest counts
      refine ⟨counts',?_,fun tool => ?_⟩
      · rw [countStep,hrequest]
        exact hfold
      · have hnot : (isRequest x.description && decide (toolName x.description = .ok tool)) = false := by
          rw [hrequest,Bool.false_and]
        rw [hget,addCounts,addCounts,countsOf_other ys hnot,requested,requested,List.any_cons,hnot,
          Bool.false_or]
    | true =>
      obtain ⟨name,hname⟩ := hquoted x (by simp) hrequest
      have hasked : (isRequest x.description && decide (toolName x.description = .ok name)) = true := by
        simp [hrequest,hname]
      obtain ⟨counts',hfold,hget⟩ := hrest (counts.set name (countRequest
        { x with stepIndex := xs.length }
        (pairedResult (numberFrom 0 (xs ++ x :: ys)) { x with stepIndex := xs.length } name)
        ((counts.get name).getD ⟨0,0,0,0⟩)))
      refine ⟨counts',?_,fun tool => ?_⟩
      · rw [countStep,hrequest,if_pos rfl,hname]
        exact hfold
      · rw [hget]
        by_cases htool : name = tool
        · subst htool
          have hadd := countRequest_eq xs ys ((counts.get name).getD ⟨0,0,0,0⟩) hasked
          rw [Dict.get_set_self,addCounts,addCounts,requested,requested,List.any_cons,hasked,
            Bool.true_or,if_pos rfl,← hadd]
          split
          · rfl
          · rename_i hnone
            have hzero : countsOf name ys = ⟨0,0,0,0⟩ :=
              countsOf_unrequested (Bool.eq_false_iff.2 hnone)
            rw [hzero]
            rfl
        · have hnot : (isRequest x.description && decide (toolName x.description = .ok tool)) =
              false := by
            simp [hname,htool]
          rw [Dict.get_set_ne _ _ htool,addCounts,addCounts,countsOf_other ys hnot,requested,
            requested,List.any_cons,hnot,Bool.false_or]

theorem countSteps_unquoted (xs : List (StepRecord Json)) {ys : List (StepRecord Json)}
    (hquoted : ¬ Quoted ys) (counts : Dict String Counts) :
    ∃ e, (numberFrom xs.length ys).foldlM (countStep (numberFrom 0 (xs ++ ys))) counts = .error e := by
  induction ys generalizing xs counts with
  | nil => exact absurd (fun s hs => by simp at hs) hquoted
  | cons x ys ih =>
    have hall : xs ++ x :: ys = (xs ++ [x]) ++ ys := by simp
    have hlength : (xs ++ [x]).length = xs.length + 1 := by simp
    rw [numberFrom,List.foldlM_cons]
    cases hstep : countStep (numberFrom 0 (xs ++ x :: ys)) counts { x with stepIndex := xs.length } with
    | error e => exact ⟨e,rfl⟩
    | ok counts' =>
      have hrest : ¬ Quoted ys := by
        intro hys
        apply hquoted
        intro s hs hrequest
        rcases List.mem_cons.1 hs with rfl | hs
        · cases hname : toolName s.description with
          | ok tool => exact ⟨tool,rfl⟩
          | error e =>
            rw [countStep,hrequest,if_pos rfl,hname] at hstep
            cases hstep
        · exact hys s hs hrequest
      have hfold := ih (xs ++ [x]) hrest counts'
      rw [hlength,← hall] at hfold
      exact hfold

instance : Std.Total fun a b : String × Counts => byName a b = true where
  total a b := by simpa [byName] using le_total a.1 b.1

instance : IsTrans (String × Counts) fun a b => byName a b = true where
  trans a b c hab hbc := by
    simp only [byName,decide_eq_true_eq] at *
    exact le_trans hab hbc

theorem sorted_eq_iff (d d' : Dict String Counts) :
    d.entries.insertionSort (byName · ·) = d'.entries.insertionSort (byName · ·) ↔
      ∀ tool, d.get tool = d'.get tool := by
  constructor
  · intro h tool
    have hperm := (List.perm_insertionSort (byName · ·) d.entries).symm.trans
      (h ▸ List.perm_insertionSort (byName · ·) d'.entries)
    exact Dict.lookup_perm hperm d.nodup tool
  · intro h
    have hnodup : ∀ d : Dict String Counts, d.entries.Nodup := fun d => d.nodup.of_map _
    have hperm : d.entries.Perm d'.entries := by
      rw [List.perm_ext_iff_of_nodup (hnodup d) (hnodup d')]
      intro e
      obtain ⟨tool,c⟩ := e
      rw [← Dict.lookup_eq_some_iff d.nodup,← Dict.lookup_eq_some_iff d'.nodup]
      exact Eq.congr (h tool) rfl
    refine insertionSort_congr (fun a b => byName a b = true) hperm ?_
    intro a ha b hb hab hba
    simp only [byName,decide_eq_true_eq] at hab hba
    have hname : a.1 = b.1 := le_antisymm hab hba
    have hleft := (Dict.lookup_eq_some_iff d.nodup).2 ha
    have hright := (Dict.lookup_eq_some_iff d.nodup).2 hb
    rw [hname,hright] at hleft
    exact Prod.ext hname (Option.some.inj hleft).symm

theorem toolPattern_ok {xs : List (StepRecord Json)} (h : Quoted xs) (taskId agentName : String) :
    ∃ counts : Dict String Counts, toolPattern ⟨taskId,agentName,numberFrom 0 xs⟩ =
        .ok (counts.entries.insertionSort (byName · ·)) ∧
      ∀ tool, counts.get tool = if requested tool xs then some (countsOf tool xs) else none := by
  obtain ⟨counts,hfold,hget⟩ := countSteps [] h Dict.empty
  simp only [List.length_nil,List.nil_append] at hfold
  refine ⟨counts,?_,fun tool => ?_⟩
  · rw [toolPattern,hfold]
    rfl
  · rw [hget,addCounts,Dict.get_empty]
    simp [Counts.add]

theorem toolPattern_error {xs : List (StepRecord Json)} (h : ¬ Quoted xs) (taskId agentName : String) :
    ∃ e, toolPattern ⟨taskId,agentName,numberFrom 0 xs⟩ = .error e := by
  obtain ⟨e,hfold⟩ := countSteps_unquoted [] h Dict.empty
  simp only [List.length_nil,List.nil_append] at hfold
  exact ⟨e,by rw [toolPattern,hfold]; rfl⟩

theorem toolPattern_eq_iff {xs ys : List (StepRecord Json)} (hperm : xs.Perm ys) (hx : Quoted xs)
    (taskId agentName : String) : ∃ p q, toolPattern ⟨taskId,agentName,numberFrom 0 xs⟩ = .ok p ∧
      toolPattern ⟨taskId,agentName,numberFrom 0 ys⟩ = .ok q ∧
      (p = q ↔ ∀ tool b, answered tool b xs none = answered tool b ys none) := by
  have hy : Quoted ys := fun s hs => hx s (hperm.mem_iff.2 hs)
  obtain ⟨d,hd,hdget⟩ := toolPattern_ok hx taskId agentName
  obtain ⟨d',hd',hdget'⟩ := toolPattern_ok hy taskId agentName
  refine ⟨_,_,hd,hd',?_⟩
  have hcounts : ∀ tool, countsOf tool xs = countsOf tool ys ↔
      ∀ b, answered tool b xs none = answered tool b ys none := by
    intro tool
    simp [countsOf,hperm.countP_eq,Bool.forall_bool,and_comm]
  have hrequested : ∀ tool, requested tool xs = requested tool ys := by
    intro tool
    rw [Bool.eq_iff_iff,requested,requested,List.any_eq_true,List.any_eq_true]
    simp only [hperm.mem_iff]
  rw [sorted_eq_iff]
  constructor
  · intro h tool
    have htool := h tool
    rw [hdget,hdget',hrequested] at htool
    rw [← hcounts]
    cases hr : requested tool ys with
    | true => simpa [hr] using htool
    | false => rw [countsOf_unrequested hr,countsOf_unrequested ((hrequested tool).trans hr)]
  · intro h tool
    rw [hdget,hdget',hrequested,(hcounts tool).2 (h tool)]

theorem checkIndices_numberFrom (n : Nat) (xs : List (StepRecord Json)) :
    checkIndices n (numberFrom n xs) = .ok () := by
  induction xs generalizing n with
  | nil => rfl
  | cons x xs ih =>
    rw [numberFrom,checkIndices,if_neg (by simp)]
    exact ih (n + 1)

theorem unnumbered_signature : Unnumbered StepRecord.signature := fun _ _ => rfl

theorem unnumbered_boundary : Unnumbered StepRecord.isBoundary := fun _ _ => rfl

theorem boundaries_numberFrom (n : Nat) (xs : List (StepRecord Json)) :
    boundaries (numberFrom n xs) = boundaries xs :=
  filter_numberFrom unnumbered_boundary n xs unnumbered_signature

theorem work_numberFrom (n : Nat) (xs : List (StepRecord Json)) :
    work (numberFrom n xs) = work xs :=
  filter_numberFrom (fun _ _ => rfl) n xs unnumbered_signature

theorem labels_record (s : WorkerStep) : labels s.record = [] := by
  have htool : ∀ (rest : String) (status : StepStatus) (input output : Json) (error : Option String),
      labels ⟨0,status,"tool " ++ rest,input,output,error,zeroSeconds⟩ = [] := by
    intro rest status input output error
    have hne : "tool " ++ rest ≠ "parallel group begin" := by
      intro h
      have hlist := congrArg String.toList h
      rw [String.toList_append] at hlist
      simp at hlist
    have hpipeline : startsWith ("tool " ++ rest) "pipeline stage " = false := by
      rw [startsWith,String.toList_append]
      rfl
    have hparallel : startsWith ("tool " ++ rest) "parallel stage " = false := by
      rw [startsWith,String.toList_append]
      rfl
    simp [labels,hpipeline,hparallel,hne]
  cases s with
  | step description detail elapsedSeconds =>
    rw [WorkerStep.record,labels]
    split
    · rfl
    split
    · rfl
    · rfl
  | rejected tool args =>
    rw [WorkerStep.record,String.append_assoc]
    exact htool _ _ _ _ _
  | request tool args =>
    rw [WorkerStep.record,String.append_assoc]
    exact htool _ _ _ _ _
  | result tool output =>
    rw [WorkerStep.record,String.append_assoc]
    exact htool _ _ _ _ _
  | executionFailed tool error =>
    rw [WorkerStep.record,String.append_assoc]
    exact htool _ _ _ _ _
  | cancelled message =>
    have hpipeline : startsWith "agent cancelled" "pipeline stage " = false := by decide
    have hparallel : startsWith "agent cancelled" "parallel stage " = false := by decide
    simp [WorkerStep.record,labels,hpipeline,hparallel]
  | forced =>
    have hpipeline : startsWith "agent forcibly terminated" "pipeline stage " = false := by decide
    have hparallel : startsWith "agent forcibly terminated" "parallel stage " = false := by decide
    simp [WorkerStep.record,labels,hpipeline,hparallel]

namespace Composition

def steps (c : Composition) (s : List WorkerStep) : List (StepRecord Json) :=
  c.before ++ s.map WorkerStep.record ++ c.after

theorem steps_perm (c : Composition) {s t : List WorkerStep} (h : s.Perm t) :
    (c.steps s).Perm (c.steps t) := ((h.map _).append_left _).append_right _

theorem isParallel_steps (c : Composition) (s : List WorkerStep) :
    isParallel (numberFrom 0 (c.steps s)) = true := by
  have hunnumbered : ∀ (n : Nat) (xs : List (StepRecord Json)),
      isParallel (numberFrom n xs) = isParallel xs := by
    intro n xs
    induction xs generalizing n with
    | nil => rfl
    | cons x xs ih =>
      have hrest := ih (n + 1)
      rw [isParallel] at hrest ⊢
      rw [numberFrom,List.any_cons,hrest,isParallel,isParallel,List.any_cons]
  rw [hunnumbered,isParallel,steps,List.any_append,List.any_append]
  obtain ⟨m,hm,hdescription⟩ := List.any_eq_true.1 c.marked
  have hbefore : (c.before.any fun s => startsWith s.description "parallel stage " ||
      s.description = "parallel group begin") = true :=
    List.any_eq_true.2 ⟨m,hm,by rw [hdescription,Bool.or_true]⟩
  rw [hbefore,Bool.true_or,Bool.true_or]

theorem composeAgents_steps (c : Composition) (s t : List WorkerStep) (taskId agentName : String) :
    composeAgents ⟨taskId,agentName,numberFrom 0 (c.steps s)⟩ =
      composeAgents ⟨taskId,agentName,numberFrom 0 (c.steps t)⟩ := by
  have hlabels : ∀ (n : Nat) (xs : List (StepRecord Json)),
      (numberFrom n xs).flatMap labels = xs.flatMap labels := by
    intro n xs
    rw [List.flatMap_def,List.flatMap_def,map_numberFrom (fun _ _ => rfl)]
  have hworkers : ∀ s : List WorkerStep, (s.map WorkerStep.record).flatMap labels = [] := by
    intro s
    rw [List.flatMap_eq_nil_iff]
    intro r hr
    obtain ⟨step,_,rfl⟩ := List.mem_map.1 hr
    exact labels_record step
  have hsteps : ∀ s, (c.steps s).flatMap labels = c.before.flatMap labels ++ c.after.flatMap labels := by
    intro s
    rw [steps,List.flatMap_append,List.flatMap_append,hworkers,List.append_nil]
  simp only [composeAgents,hlabels,hsteps]

theorem boundaries_iff (c : Composition) (s t : List WorkerStep) :
    boundaries (c.steps s) = boundaries (c.steps t) ↔
      boundaries (s.map WorkerStep.record) = boundaries (t.map WorkerStep.record) := by
  simp [boundaries,steps]

theorem stepsEquivalent_iff (c : Composition) {s t : List WorkerStep} (h : s.Perm t)
    (taskId agentName : String) : stepsEquivalent ⟨taskId,agentName,numberFrom 0 (c.steps s)⟩
        ⟨taskId,agentName,numberFrom 0 (c.steps t)⟩ = true ↔
      boundaries (s.map WorkerStep.record) = boundaries (t.map WorkerStep.record) := by
  have hwork : (work (c.steps s)).isPerm (work (c.steps t)) = true := by
    rw [List.isPerm_iff]
    exact ((c.steps_perm h).filter _).map _
  rw [stepsEquivalent,c.isParallel_steps,Bool.true_or,if_pos rfl,boundaries_numberFrom,
    boundaries_numberFrom,work_numberFrom,work_numberFrom,hwork,← c.boundaries_iff]
  simp

end Composition

theorem outcomeDiffs_same {o p : StoredOutcome Json} (h : o.pyEq p = true) : outcomeDiffs o p = [] := by
  simp only [StoredOutcome.pyEq,Bool.and_eq_true,decide_eq_true_eq] at h
  obtain ⟨⟨⟨hkind,houtput⟩,hreason⟩,_⟩ := h
  simp [outcomeDiffs,diffIf,hkind,houtput,hreason]

theorem Composition.verify_iff (c : Composition) {s t : List WorkerStep} (hperm : s.Perm t)
    (id id' : String) {o p : StoredOutcome Json} (hkind : o.kind ≠ .interrupted)
    (hsame : o.pyEq p = true) :
    (∃ result, verifyReplay (c.stored s id o) (c.stored t id' p) = .ok result ∧
        result.passed = true) ↔ Quoted (c.steps s) ∧
      boundaries (s.map WorkerStep.record) = boundaries (t.map WorkerStep.record) ∧
      ∀ tool b, answered tool b (c.steps s) none = answered tool b (c.steps t) none := by
  have hleft : (c.stored s id o).toTrajectory =
      .ok ⟨c.taskId,c.agentName,numberFrom 0 (c.steps s)⟩ := by
    rw [StoredTrajectory.toTrajectory,Composition.stored,checkIndices_numberFrom]
    rfl
  have hright : (c.stored t id' p).toTrajectory =
      .ok ⟨c.taskId,c.agentName,numberFrom 0 (c.steps t)⟩ := by
    rw [StoredTrajectory.toTrajectory,Composition.stored,checkIndices_numberFrom]
    rfl
  have hagents : agentsEquivalent ⟨c.taskId,c.agentName,numberFrom 0 (c.steps s)⟩
      ⟨c.taskId,c.agentName,numberFrom 0 (c.steps t)⟩ = true := by
    rw [agentsEquivalent,c.composeAgents_steps s t]
    simp
  have houtcome : (c.stored s id o).outcome.kind ≠ .interrupted := hkind
  have hdiffs : outcomeDiffs (c.stored s id o).outcome (c.stored t id' p).outcome = [] :=
    outcomeDiffs_same hsame
  rw [verifyReplay,if_neg houtcome,hleft,hright]
  by_cases hquoted : Quoted (c.steps s)
  · obtain ⟨left,right,hl,hr,hiff⟩ :=
      toolPattern_eq_iff (c.steps_perm hperm) hquoted c.taskId c.agentName
    rw [← c.stepsEquivalent_iff hperm c.taskId c.agentName,← hiff]
    simp only [bind,Except.bind,hl,hr,hdiffs,hagents,Except.ok.injEq,exists_eq_left',
      List.nil_append,Bool.not_true,diffIf,Bool.false_eq_true,if_false,List.append_nil,hquoted,
      true_and]
    cases stepsEquivalent ⟨c.taskId,c.agentName,numberFrom 0 (c.steps s)⟩
      ⟨c.taskId,c.agentName,numberFrom 0 (c.steps t)⟩ <;> by_cases heq : left = right <;> simp [heq]
  · obtain ⟨e,he⟩ := toolPattern_error hquoted c.taskId c.agentName
    simp [bind,Except.bind,he,hquoted]

theorem boundaries_exchange (u v : List (StepRecord Json)) (x y : StepRecord Json) :
    boundaries (u ++ x :: y :: v) = boundaries (u ++ y :: x :: v) ↔
      (x.isBoundary = true → y.isBoundary = true → x.signature = y.signature) := by
  simp only [boundaries,List.filter_append,List.map_append,List.append_cancel_left_eq]
  cases hx : x.isBoundary <;> cases hy : y.isBoundary <;> simp [hx,hy]
  intro h
  exact h.symm

theorem exists_decision : ∃ o : StoredOutcome Json, o.kind ≠ .interrupted ∧ o.pyEq o = true :=
  ⟨.verified .null,by decide,by decide⟩

namespace Composition

theorem steps_pair (c : Composition) (u v : List WorkerStep) (x y : WorkerStep) :
    c.steps (u ++ x :: y :: v) = (c.before ++ u.map WorkerStep.record) ++
      x.record :: y.record :: (v.map WorkerStep.record ++ c.after) := by
  simp [steps]

theorem quoted_iff (c : Composition) : (∀ s, Interleaves c.workers s → Quoted (c.steps s)) ↔
    Quoted (c.before ++ c.workers.flatten.map WorkerStep.record ++ c.after) := by
  constructor
  · intro h
    obtain ⟨s,hs⟩ := exists_interleaving c.workers
    exact fun r hr => h s hs r ((c.steps_perm hs.perm).mem_iff.2 hr)
  · intro h s hs r hr
    exact h r ((c.steps_perm hs.perm).mem_iff.1 hr)

theorem boundaries_same_iff (c : Composition) :
    (∀ s t, Interleaves c.workers s → Interleaves c.workers t →
        boundaries (s.map WorkerStep.record) = boundaries (t.map WorkerStep.record)) ↔
      ∀ u x y v, Meet c.workers u x y v → x.record.isBoundary = true →
        y.record.isBoundary = true → x.record.signature = y.record.signature := by
  rw [same_iff_exchange c.workers fun s => boundaries (s.map WorkerStep.record)]
  simp only [List.map_append,List.map_cons,boundaries_exchange]

theorem answered_same_iff (c : Composition) :
    (∀ tool b s t, Interleaves c.workers s → Interleaves c.workers t →
        answered tool b (c.steps s) none = answered tool b (c.steps t) none) ↔
      ∀ u x y v, Meet c.workers u x y v → ∀ tool,
        Exchangeable tool (waiting tool 0 (c.before ++ u.map WorkerStep.record)) x.record y.record
          (firstAnswer tool (v.map WorkerStep.record ++ c.after)) := by
  have hexchange : ∀ tool b,
      (∀ s t, Interleaves c.workers s → Interleaves c.workers t →
        answered tool b (c.steps s) none = answered tool b (c.steps t) none) ↔
      ∀ u x y v, Meet c.workers u x y v →
        told tool b (waiting tool 0 (c.before ++ u.map WorkerStep.record)) x.record y.record
            (firstAnswer tool (v.map WorkerStep.record ++ c.after)) =
          told tool b (waiting tool 0 (c.before ++ u.map WorkerStep.record)) y.record x.record
            (firstAnswer tool (v.map WorkerStep.record ++ c.after)) := by
    intro tool b
    rw [same_iff_exchange c.workers fun s => answered tool b (c.steps s) none]
    simp only [steps_pair,answered_pair,Nat.add_right_cancel_iff,Nat.add_left_cancel_iff]
  simp only [hexchange,← told_exchange]
  exact ⟨fun h u x y v hmeet tool b => h tool b u x y v hmeet,
    fun h tool b u x y v hmeet => h u x y v hmeet tool b⟩

end Composition

/-- The order of the workers never makes a replay fail exactly if the group is orderly. -/
theorem replay_order_free_iff (c : Composition) : c.OrderFree ↔ c.Orderly := by
  have hpairs : c.OrderFree ↔ (∀ s, Interleaves c.workers s → Quoted (c.steps s)) ∧
      (∀ s t, Interleaves c.workers s → Interleaves c.workers t →
        boundaries (s.map WorkerStep.record) = boundaries (t.map WorkerStep.record)) ∧
      ∀ tool b s t, Interleaves c.workers s → Interleaves c.workers t →
        answered tool b (c.steps s) none = answered tool b (c.steps t) none := by
    obtain ⟨o,hkind,hsame⟩ := exists_decision
    constructor
    · intro h
      have hfacts := fun s t hs ht => (c.verify_iff ((Interleaves.perm hs).trans
        (Interleaves.perm ht).symm) "" "" hkind hsame).1 (h s t hs ht "" "" o o hkind hsame)
      exact ⟨fun s hs => (hfacts s s hs hs).1,fun s t hs ht => (hfacts s t hs ht).2.1,
        fun tool b s t hs ht => (hfacts s t hs ht).2.2 tool b⟩
    · rintro ⟨hquoted,hbounds,htools⟩ s t hs ht id id' o p hkind hsame
      exact (c.verify_iff (hs.perm.trans ht.perm.symm) id id' hkind hsame).2
        ⟨hquoted s hs,hbounds s t hs ht,fun tool b => htools tool b s t hs ht⟩
  rw [hpairs,c.quoted_iff,c.boundaries_same_iff,c.answered_same_iff]
  exact ⟨fun h => ⟨h.1,h.2.1,h.2.2⟩,fun h => ⟨h.quoted,h.boundaries,h.tools⟩⟩

def twoCalls : Composition where
  taskId := "task"
  agentName := "adder"
  before := [⟨0,.started,"parallel group begin",.dict [("stages",.list [.str "adder",.str "adder"])],
    .null,none,zeroSeconds⟩]
  workers := [[.request "add" (.dict []),.executionFailed "add" "Missing required argument 'a'."],
    [.request "add" (.dict [("a",.int 1),("b",.int 2)]),.result "add" (.int 3)]]
  after := [⟨0,.completed,"parallel group end",.null,.null,none,zeroSeconds⟩]
  marked := by decide

/-- The failed request takes the other worker's result for its own, if that comes later. -/
theorem replay_depends_on_order : ¬ twoCalls.OrderFree := by
  intro h
  have hfirst : Interleaves twoCalls.workers
      [.request "add" (.dict []),.executionFailed "add" "Missing required argument 'a'.",
        .request "add" (.dict [("a",.int 1),("b",.int 2)]),.result "add" (.int 3)] :=
    .next (i := 0) rfl (.next (i := 0) rfl (.next (i := 1) rfl (.next (i := 1) rfl (.done (by simp [twoCalls])))))
  have hsecond : Interleaves twoCalls.workers
      [.request "add" (.dict [("a",.int 1),("b",.int 2)]),.result "add" (.int 3),
        .request "add" (.dict []),.executionFailed "add" "Missing required argument 'a'."] :=
    .next (i := 1) rfl (.next (i := 1) rfl (.next (i := 0) rfl (.next (i := 0) rfl (.done (by simp [twoCalls])))))
  obtain ⟨result,hresult,hpassed⟩ := h _ _ hfirst hsecond "task#0" "task#1"
    (.failure .agentError "failed") (.failure .agentError "failed") (by decide) (by decide)
  have hfails : (verifyReplay (twoCalls.stored
      [.request "add" (.dict []),.executionFailed "add" "Missing required argument 'a'.",
        .request "add" (.dict [("a",.int 1),("b",.int 2)]),.result "add" (.int 3)] "task#0"
        (.failure .agentError "failed"))
      (twoCalls.stored
        [.request "add" (.dict [("a",.int 1),("b",.int 2)]),.result "add" (.int 3),
          .request "add" (.dict []),.executionFailed "add" "Missing required argument 'a'."] "task#1"
          (.failure .agentError "failed"))).map ReplayResult.passed = .ok false := by
    decide +kernel
  rw [hresult] at hfails
  simp [Except.map,hpassed] at hfails

end AgentCentric.Manager

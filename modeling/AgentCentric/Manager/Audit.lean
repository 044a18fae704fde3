import AgentCentric.Manager.RunRule

namespace AgentCentric.Manager
open Act (Ends Guarded Triple triple_bind triple_pure triple_weaken)
open Thread (Stable)

def LogEntry.step? : LogEntry → Option (StepRecord Value)
  | .step record => some record
  | .outcome _ => none

def stepsOf (log : List LogEntry) : List (StepRecord Value) := log.filterMap (·.step?)

structure Agrees (outcome : Outcome) (log : List LogEntry) : Prop where
  record : log = outcome.steps.map .step ++ [.outcome outcome.decision.stored]
  indexed : ∀ (i : Nat) step, outcome.steps[i]? = some step → step.stepIndex = i

theorem indexError_cons {n : Nat} {step : StepRecord Value} {steps : List (StepRecord Value)} :
    indexError n (step :: steps) = none ↔ step.stepIndex = n ∧ indexError (n + 1) steps = none := by
  by_cases hindex : step.stepIndex = n
  · simp [indexError,hindex]
  · simp [indexError,hindex]

theorem indexError_append {steps : List (StepRecord Value)} {record : StepRecord Value} {n : Nat}
    (h : indexError n steps = none) (hrecord : record.stepIndex = n + steps.length) :
    indexError n (steps ++ [record]) = none := by
  induction steps generalizing n with
  | nil =>
    have hindex : record.stepIndex = n := by simpa using hrecord
    simp [indexError,hindex]
  | cons step steps ih =>
    obtain ⟨hstep,hrest⟩ := indexError_cons.1 h
    refine indexError_cons.2 ⟨hstep,ih hrest ?_⟩
    rw [hrecord,List.length_cons]
    omega

theorem stepIndex_of_indexError {steps : List (StepRecord Value)} {n : Nat}
    (h : indexError n steps = none) {i : Nat} {step : StepRecord Value}
    (hstep : steps[i]? = some step) : step.stepIndex = n + i := by
  induction steps generalizing n i with
  | nil => simp at hstep
  | cons first steps ih =>
    obtain ⟨hfirst,hrest⟩ := indexError_cons.1 h
    cases i with
    | zero =>
      simp only [List.getElem?_cons_zero,Option.some.injEq] at hstep
      rw [← hstep,hfirst]
      omega
    | succ i =>
      rw [ih hrest (by simpa using hstep)]
      omega

theorem stepsOf_append (log log' : List LogEntry) :
    stepsOf (log ++ log') = stepsOf log ++ stepsOf log' := by
  simp [stepsOf]

theorem stepsOf_map (steps : List (StepRecord Value)) : stepsOf (steps.map .step) = steps := by
  induction steps with
  | nil => rfl
  | cons step steps ih =>
    simp only [stepsOf,List.map_cons,List.filterMap_cons,LogEntry.step?] at ih ⊢
    rw [ih]

theorem log_of_free {log : List LogEntry} (h : log.any (·.isOutcome) = false) :
    log = (stepsOf log).map .step := by
  induction log with
  | nil => rfl
  | cons entry log ih =>
    simp only [List.any_cons,Bool.or_eq_false_iff] at h
    cases entry with
    | outcome outcome => cases h.1
    | step record =>
      simp only [stepsOf,List.filterMap_cons,LogEntry.step?,List.map_cons,List.cons.injEq,
        true_and]
      exact ih h.2

/-- The store has every step in memory, unless it lost one. -/
structure Books {W : Type} (s : Run W) : Prop where
  ordered : indexError 0 s.steps = none
  kept : .lost ∉ s.trace → stepsOf s.log = s.steps
  short : .lost ∈ s.trace → (stepsOf s.log).length < s.steps.length

/-- A pipeline was stopped by an agent that failed. -/
def Stopped {W : Type} (s : Run W) : Prop := ∃ i, .stopped i ∈ s.trace

structure Open {W : Type} (s : Run W) : Prop where
  books : Books s
  free : s.log.any (·.isOutcome) = true → .lost ∈ s.trace
  going : Stopped s → .lost ∈ s.trace

structure Sealed {W : Type} (trajectoryId : String) (outcome : Outcome) (s : Run W) : Prop where
  books : Books s
  id : ∀ t, outcome.trajectoryId = some t → t = trajectoryId
  steps : outcome.trajectoryId.isSome = true → outcome.steps = s.steps
  log : outcome.trajectoryId.isSome = true →
    s.log = (stepsOf s.log).map .step ++ [.outcome outcome.decision.stored]
  going : outcome.trajectoryId.isSome = true → Stopped s → .lost ∈ s.trace

structure Halted {W : Type} (trajectoryId : String) (outcome : Outcome) (s : Run W) : Prop where
  books : Books s
  id : ∀ t, outcome.trajectoryId = some t → t = trajectoryId
  stopped : Stopped s

def Audited {W : Type} (trajectoryId : String) (outcome : Outcome) (s : Run W) : Prop :=
  ∀ t, outcome.trajectoryId = some t → t = trajectoryId ∧
    (Agrees outcome s.log ↔ .lost ∉ s.trace ∧ ¬ Stopped s)

variable {result : Except Raised (Option String)} {trail : Trail} {place : Place}
  {outcome : Outcome}

section
variable {W S : Type} {host : Host W S} {trajectoryId : String}

theorem not_agrees_of_lost {s : Run W} (hbooks : Books s)
    (hsteps : outcome.steps = s.steps) (hlost : .lost ∈ s.trace) : ¬ Agrees outcome s.log := by
  intro hagrees
  have hlog : stepsOf s.log = s.steps := by
    rw [hagrees.record,stepsOf_append,stepsOf_map,hsteps]
    simp [stepsOf,LogEntry.step?]
  have hshort := hbooks.short hlost
  rw [hlog] at hshort
  omega

theorem Sealed.audited {s : Run W} (h : Sealed trajectoryId outcome s) :
    Audited trajectoryId outcome s := by
  intro t ht
  have hsome : outcome.trajectoryId.isSome = true := by rw [ht]; rfl
  refine ⟨h.id t ht,?_⟩
  by_cases hlost : .lost ∈ s.trace
  · have hnot := not_agrees_of_lost h.books (h.steps hsome) hlost
    simp [hnot,hlost]
  · have hgoing : ¬ Stopped s := fun hstopped => hlost (h.going hsome hstopped)
    have hagrees : Agrees outcome s.log := by
      refine ⟨?_,fun i step hstep => ?_⟩
      · rw [h.steps hsome,← h.books.kept hlost]
        exact h.log hsome
      · rw [h.steps hsome] at hstep
        rw [stepIndex_of_indexError h.books.ordered hstep]
        omega
    simp [hagrees,hlost,hgoing]

def Event.isMark : Event → Bool
  | .lost => true
  | .stopped _ => true
  | _ => false

theorem lost_note {s : Run W} {e : Event} (he : e.isMark = false) :
    .lost ∈ (s.note e).trace ↔ .lost ∈ s.trace := by
  cases e with
  | lost => cases he
  | _ => simp

theorem stopped_note {s : Run W} {e : Event} (he : e.isMark = false) :
    Stopped (s.note e) ↔ Stopped s := by
  cases e with
  | stopped i => cases he
  | _ => simp [Stopped]

theorem Books.note {s : Run W} (h : Books s) {e : Event} (he : e.isMark = false) :
    Books (s.note e) :=
  ⟨h.ordered,fun hlost => h.kept (hlost ∘ (lost_note he).2),
    fun hlost => h.short ((lost_note he).1 hlost)⟩

theorem Books.world {s : Run W} (h : Books s) (w : W) : Books { s with world := w } :=
  ⟨h.ordered,h.kept,h.short⟩

theorem Open.world {s : Run W} (h : Open s) (w : W) : Open { s with world := w } :=
  ⟨h.books.world w,h.free,h.going⟩

theorem Open.note {s : Run W} (h : Open s) {e : Event} (he : e.isMark = false) : Open (s.note e) :=
  ⟨h.books.note he,fun hany => (lost_note he).2 (h.free hany),
    fun hstopped => (lost_note he).2 (h.going ((stopped_note he).1 hstopped))⟩

theorem ordered_append {s : Run W} (h : Books s) {r : StepRecord Value}
    (hr : r.stepIndex = s.steps.length) : indexError 0 (s.steps ++ [r]) = none :=
  indexError_append h.ordered (by rw [hr]; omega)

theorem Books.length {s : Run W} (h : Books s) : (stepsOf s.log).length ≤ s.steps.length := by
  by_cases hlost : .lost ∈ s.trace
  · exact Nat.le_of_lt (h.short hlost)
  · rw [h.kept hlost]

theorem Books.appends {s t : Run W} (h : Appends place s result t) (hs : Books s) : Books t := by
  have hlength := hs.length
  cases h with
  | stored w r h =>
    refine ⟨ordered_append hs h,fun hlost => ?_,fun hlost => ?_⟩
    · simp only [stepsOf_append,hs.kept hlost]
      rfl
    · have hshort := hs.short hlost
      simp only [stepsOf_append,List.length_append]
      exact Nat.add_lt_add_right hshort 1
  | refused w r text h =>
    refine ⟨ordered_append hs h,fun hlost => absurd ?_ hlost,fun _ => ?_⟩
    · simp
    · simp only [Run.note_log,Run.note_steps,List.length_append,List.length_singleton]
      omega
  | raised w r e h =>
    refine ⟨ordered_append hs h,fun hlost => absurd ?_ hlost,fun _ => ?_⟩
    · simp
    · simp only [Run.note_log,Run.note_steps,List.length_append,List.length_singleton]
      omega

theorem Open.appends {s t : Run W} (h : Appends place s result t) (hs : Open s) :
    Open t ∧ (result ≠ .ok none → .lost ∈ t.trace) := by
  have hbooks := hs.books.appends h
  cases h with
  | stored w r h =>
    refine ⟨⟨hbooks,fun hany => ?_,hs.going⟩,fun hne => absurd rfl hne⟩
    refine hs.free ?_
    simpa [LogEntry.isOutcome] using hany
  | refused w r text h =>
    have hlost : .lost ∈ (({ s with world := w, steps := s.steps ++ [r] } : Run W).note
        .lost).trace := by simp
    exact ⟨⟨hbooks,fun _ => hlost,fun _ => hlost⟩,fun _ => hlost⟩
  | raised w r e h =>
    have hlost : .lost ∈ ((({ s with world := w, steps := s.steps ++ [r] } : Run W).note
        .lost).note (.raised place e)).trace := by simp
    exact ⟨⟨hbooks,fun _ => hlost,fun _ => hlost⟩,fun _ => hlost⟩

theorem Open.records {decision : Decision} {s t : Run W}
    {result : Except Raised Outcome} (h : Records place trail decision s result t) (hs : Open s)
    (htrail : trail.trajectoryId = trajectoryId) :
    Ends (Sealed trajectoryId) (fun _ => Open) result t := by
  cases h with
  | stored w hfree h =>
    have hlog := log_of_free hfree
    refine ⟨⟨hs.books.ordered,fun hlost => ?_,fun hlost => ?_⟩,?_,fun _ => rfl,fun _ => ?_,
      fun _ => hs.going⟩
    · simpa [stepsOf_append,stepsOf,LogEntry.step?] using hs.books.kept hlost
    · simpa [stepsOf_append,stepsOf,LogEntry.step?] using hs.books.short hlost
    · intro t ht
      cases ht
      exact htrail
    · have hsame : stepsOf (s.log ++ [.outcome decision.stored]) = stepsOf s.log := by
        simp [stepsOf,LogEntry.step?]
      simp only [hsame,← hlog]
  | refused w message =>
    refine ⟨hs.books.world w,?_,?_,?_,?_⟩
    · intro t ht
      cases ht
    · intro hsome
      cases hsome
    · intro hsome
      cases hsome
    · intro hsome
      cases hsome
  | raised w e =>
    have hw : Open { s with world := w } := hs.world w
    exact hw.note rfl
  | disordered w message h =>
    rw [hs.books.ordered] at h
    cases h

theorem Open.recordFailure (host : Host W S) {s : Run W} (hs : Open s) (place : Place)
    (htrail : trail.trajectoryId = trajectoryId) (reason : FailureReason)
    (message : String) : Ends (Sealed trajectoryId) (fun _ => Open)
      (recordFailure host place trail reason message s).1
      (recordFailure host place trail reason message s).2 :=
  hs.records (recordFailure_spec host place trail reason message s) htrail

theorem Open.recordSuccess (host : Host W S) {s : Run W} (hs : Open s)
    (htrail : trail.trajectoryId = trajectoryId) (output : Value) :
    Ends (Sealed trajectoryId) (fun _ => Open) (recordSuccess host trail output s).1
      (recordSuccess host trail output s).2 := by
  cases recordSuccess_spec host trail output s with
  | recorded h => exact hs.records h htrail
  | failed w message h => exact (hs.world w).records h htrail

/-- A step was lost, which nothing undoes. -/
def Lost {W : Type} (s : Run W) : Prop := Open s ∧ .lost ∈ s.trace

def Orderly {W : Type} (s t : Run W) : Prop :=
  (Open s → Open t) ∧ (.lost ∈ s.trace → .lost ∈ t.trace)

theorem stable_open : Stable Orderly (Open (W := W)) := fun _ _ hst hs => hst.1 hs

theorem stable_lost : Stable Orderly (Lost (W := W)) :=
  fun _ _ hst hs => ⟨hst.1 hs.1,hst.2 hs.2⟩

def AgentEnds {W : Type} (trajectoryId : String) :
    (stageWorker : Bool) → Option (Failed stageWorker) × Value → Run W → Prop
  | false => AgentPost Open (Sealed trajectoryId)
  | true => fun _ => Open

theorem orderly_note {s : Run W} {e : Event} (he : e.isMark = false) : Orderly s (s.note e) :=
  ⟨fun hs => hs.note he,(lost_note he).2⟩

theorem orderly_world (s : Run W) (w : W) : Orderly s { s with world := w } :=
  ⟨fun hs => hs.world w,fun hlost => hlost⟩

theorem Orderly.trans {s t u : Run W} (h : Orderly s t) (h' : Orderly t u) : Orderly s u :=
  ⟨fun hs => h'.1 (h.1 hs),fun hlost => h'.2 (h.2 hlost)⟩

theorem orderly_ask (s : Run W) {e : Event} (he : e.isMark = false) (w : W) :
    Orderly s { s.note e with world := w } :=
  (orderly_note he).trans (orderly_world _ w)

theorem orderly_appends {s t : Run W} (h : Appends place s result t) : Orderly s t := by
  refine ⟨fun hs => (hs.appends h).1,fun hlost => ?_⟩
  cases h with
  | stored w r h => exact hlost
  | refused w r text h => simp [hlost]
  | raised w r e h => simp [hlost]

theorem Lost.records {decision : Decision} {s t : Run W}
    {result : Except Raised Outcome} (h : Records place trail decision s result t) (hs : Lost s) :
    Lost t := by
  have hbooks := hs.1.books
  cases h with
  | stored w hfree h =>
    have hsame : stepsOf (s.log ++ [.outcome decision.stored]) = stepsOf s.log := by
      simp [stepsOf,LogEntry.step?]
    refine ⟨⟨⟨hbooks.ordered,fun hlost => absurd hs.2 hlost,fun _ => ?_⟩,fun _ => hs.2,
      fun _ => hs.2⟩,hs.2⟩
    simp only [hsame]
    exact hbooks.short hs.2
  | refused w message => exact ⟨hs.1.world w,hs.2⟩
  | raised w e =>
    exact ⟨(hs.1.world w).note rfl,(lost_note rfl).2 hs.2⟩
  | disordered w message h =>
    rw [hbooks.ordered] at h
    cases h

theorem guarded_inner {α : Type} {G : Run W → Run W → Prop} {P : Run W → Prop} {m : Do W α}
    {Q : α → Run W → Prop} (h : Guarded G P m (Ends Q fun _ => Open)) :
    Guarded G P m (Ends Q (Inner Open fun _ => Open)) :=
  fun s hs => ⟨(h s hs).1,(h s hs).2.imp (fun _ hQ => hQ) fun _ he => inner_same he⟩

section
variable {R G : Run W → Run W → Prop} (hG : ∀ s t, Orderly s t → G s t)
include hG

theorem guarded_deferred (stageWorker : Bool) (hall : stageWorker = false → ∀ s t, G s t)
    (place : Place) (htrail : trail.trajectoryId = trajectoryId)
    (reason : FailureReason) (message : String) :
    Guarded G Open (deferredOrRecordedFailure host place trail reason message stageWorker)
      (Ends (fun failure => AgentEnds trajectoryId stageWorker (some failure,.none))
        fun _ => Open) := by
  intro s hs
  cases stageWorker with
  | false => exact ⟨hall rfl _ _,hs.recordFailure host place htrail reason message⟩
  | true => exact ⟨hG _ _ (orderly_world s s.world),hs⟩

theorem guarded_persisted (stageWorker : Bool) (hall : stageWorker = false → ∀ s t, G s t)
    (place : Place) (htrail : trail.trajectoryId = trajectoryId) (message : String) :
    Guarded G Lost (recordFailure host place trail .internal message) (Ends (fun outcome =>
        AgentEnds trajectoryId stageWorker (some (unpersisted outcome stageWorker),.none))
        fun _ => Open) := by
  intro s hs
  cases stageWorker with
  | false => exact ⟨hall rfl _ _,hs.1.recordFailure host place htrail .internal message⟩
  | true =>
    have hlost := hs.records (recordFailure_spec host place trail .internal message s)
    refine ⟨hG _ _ ⟨fun _ => hlost.1,fun _ => hlost.2⟩,?_⟩
    cases (recordFailure host place trail .internal message s).1 with
    | ok outcome => exact hlost.1
    | error e => exact hlost.1

theorem guarded_appended (place : Place) (record : StepRecord Value) :
    Guarded G Open (appendStep host place record)
      (Ends (fun refused s => if refused.isSome = true then Lost s else Open s) fun _ => Open) := by
  intro s hs
  have hspec := appendStep_spec host place record s
  obtain ⟨hopen,hlost⟩ := hs.appends hspec
  refine ⟨hG _ _ (orderly_appends hspec),?_⟩
  cases hrun : (appendStep host place record s).1 with
  | error e => exact hopen
  | ok refused =>
    cases refused with
    | none => exact hopen
    | some text => exact ⟨hopen,hlost (by rw [hrun]; simp)⟩

theorem rules_audit (registry : Registry) {x : Execution} (hR : ∀ s t, R s t → Orderly s t)
    (hQ : ∀ r, Stable R (AgentEnds trajectoryId x.stageWorker r))
    (hall : x.stageWorker = false → ∀ s t, G s t) (htrail : x.trail.trajectoryId = trajectoryId) :
    Rules host registry x R G Open Open Lost (fun _ => Open)
      (AgentEnds trajectoryId x.stageWorker) where
  going _ hs := hs
  lost _ hs := hs.1
  stable := ⟨fun s t hst => stable_open s t (hR s t hst),
    fun s t hst => stable_open s t (hR s t hst),fun s t hst => stable_lost s t (hR s t hst)⟩
  stable_raised _ := fun s t hst => stable_open s t (hR s t hst)
  stable_result := hQ
  world s w := ⟨fun hs => ⟨hG _ _ (orderly_world s w),hs.world w⟩,
    fun hs => ⟨hG _ _ (orderly_world s w),hs.world w⟩⟩
  session manifest _ := by
    intro s hs
    have hasked := orderly_ask s (e := .started x.seat manifest.name x.payload x.tools) rfl
    obtain ⟨w,⟨session,hrun⟩ | ⟨e,hrun⟩⟩ := startSession_cases host x manifest s
    · rw [hrun]
      exact ⟨hG _ _ (hasked w),(hasked w).1 hs⟩
    · rw [hrun]
      have horderly := (hasked w).trans (orderly_note (e := .raised x.inner e) rfl)
      exact ⟨hG _ _ horderly,inner_same (horderly.1 hs)⟩
  boundary := by
    intro s hs
    rw [readCancelEvent_run]
    have horderly := orderly_note (s := s)
      (e := .boundary x.seat (x.stageWorker && s.cancelled)) rfl
    exact ⟨hG _ _ horderly,by simpa using horderly.1 hs⟩
  stepped session sent := by
    intro s hs
    obtain ⟨next,w,hrun⟩ := takeStep_run host x session sent s
    rw [hrun]
    have horderly := orderly_ask s (e := .stepped x.seat) rfl w
    exact ⟨hG _ _ horderly,horderly.1 hs⟩
  executed name args _ := by
    intro s hs
    obtain ⟨executed,w,hrun⟩ := executeTool_run host x name args s
    rw [hrun]
    have horderly := orderly_ask s (e := .executed x.seat name) rfl w
    exact ⟨hG _ _ horderly,horderly.1 hs⟩
  raised e s hs := by
    have horderly := orderly_note (s := s) (e := .raised x.inner e) rfl
    exact ⟨hG _ _ horderly,inner_same (horderly.1 hs)⟩
  appended record := guarded_inner (guarded_appended hG x.inner record)
  stopped record := by
    refine guarded_inner fun s hs => ?_
    have horderly := orderly_appends (appendStep_spec host x.inner record s)
    refine ⟨hG _ _ horderly,?_⟩
    have hopen := horderly.1 hs
    cases (appendStep host x.inner record s).1 with
    | ok refused => exact hopen
    | error e => exact hopen
  deferred reason message :=
    guarded_inner (guarded_deferred hG x.stageWorker hall x.inner htrail reason message)
  recorded reason message := guarded_deferred hG x.stageWorker hall x.outer htrail reason message
  persisted message :=
    guarded_inner (guarded_persisted hG x.stageWorker hall x.inner htrail message)
  verified output := by
    intro s hs
    obtain ⟨verification,hrun⟩ | ⟨e,_,hrun⟩ := verifyOutput_cases host x output s
    · rw [hrun]
      exact ⟨hG _ _ (orderly_world s s.world),hs⟩
    · rw [hrun]
      have horderly := orderly_note (s := s) (e := .raised x.outer e) rfl
      exact ⟨hG _ _ horderly,horderly.1 hs⟩
  succeeded s output hs := by
    cases x.stageWorker with
    | false => exact hs
    | true => exact hs

end

def Fresh {W : Type} (s : Run W) : Prop := s.steps = [] ∧ s.log = [] ∧ s.trace = []

theorem Fresh.isOpen {s : Run W} (h : Fresh s) : Open s := by
  obtain ⟨hsteps,hlog,htrace⟩ := h
  refine ⟨⟨by rw [hsteps]; rfl,fun _ => by rw [hsteps,hlog]; rfl,fun hlost => ?_⟩,
    fun hany => ?_,fun hstopped => ?_⟩
  · rw [htrace] at hlost
    cases hlost
  · rw [hlog] at hany
    cases hany
  · obtain ⟨i,hi⟩ := hstopped
    rw [htrace] at hi
    cases hi

theorem upkeep_open : Upkeep host Open fun _ => Open where
  world _ w hs := hs.world w
  appended record := by
    intro s hs
    have hopen := (hs.appends (appendStep_spec host .caller record s)).1
    cases (appendStep host .caller record s).1 with
    | ok refused => exact hopen
    | error e => exact hopen

theorem sealing_audited : Sealing host trajectoryId Open (Audited trajectoryId) fun _ => Open where
  begun := by
    intro s hs
    obtain ⟨w,⟨refused,hrun⟩ | ⟨e,hrun⟩⟩ := storeBegin_cases host s
    · rw [hrun]
      exact hs.world w
    · rw [hrun]
      exact (hs.world w).note rfl
  unbegun trail message s hs := by
    intro t ht
    cases ht
  failed trail reason message htrail := fun s hs =>
    (hs.recordFailure host .caller htrail reason message).imp (fun _ h => h.audited) fun _ h => h
  certified trail output htrail := fun s hs =>
    (hs.recordSuccess host htrail output).imp (fun _ h => h.audited) fun _ h => h

/-- The outcome of an unknown agent is all of its record, if it was taken. -/
def Alone {W : Type} (decision : Decision) (refused : Option String) (s : Run W) : Prop :=
  refused = none → s.log = [.outcome decision.stored] ∧ s.trace = []

theorem storeOutcome_alone (host : Host W S) (trail : Trail) (decision : Decision) :
    Triple Fresh (storeOutcome host .caller trail decision.stored)
      (Ends (Alone decision) fun _ => Open) := by
  intro s hs
  obtain ⟨w,⟨_,hrun⟩ | ⟨text,hrun⟩ | ⟨e,hrun⟩⟩ := storeOutcome_cases host .caller trail
    decision.stored s
  · rw [hrun]
    exact fun _ => ⟨by simp [hs.2.1],hs.2.2⟩
  · rw [hrun]
    exact fun hnone => by cases hnone
  · rw [hrun]
    exact (hs.isOpen.world w).note rfl

theorem unknown_audited (task : TaskSpecification) :
    Triple Fresh (runUnknownAgent host task trajectoryId)
      (Ends (Audited trajectoryId) fun _ => Open) := by
  refine triple_bind (Q := fun _ => Fresh) ?_ fun refused => ?_
  · intro s hs
    obtain ⟨w,⟨refused,hrun⟩ | ⟨e,hrun⟩⟩ := storeBegin_cases host s
    · rw [hrun]
      exact hs
    · rw [hrun]
      exact (hs.isOpen.world w).note rfl
  · cases refused with
    | some text => exact triple_pure fun s hs t ht => by cases ht
    | none =>
      refine triple_bind (storeOutcome_alone host _ _) fun refused => ?_
      cases refused with
      | some text => exact triple_pure fun s hs t ht => by cases ht
      | none =>
        refine triple_pure fun s hs t ht => ?_
        obtain ⟨hlog,htrace⟩ := hs rfl
        cases ht
        refine ⟨rfl,?_⟩
        simp only [Stopped,htrace,List.not_mem_nil,not_false_eq_true,exists_false,and_self,iff_true]
        exact ⟨hlog,by simp⟩

theorem Sealed.halted {s : Run W} (h : Sealed trajectoryId outcome s)
    (i : Nat) : Halted trajectoryId outcome (s.note (.stopped i)) := by
  refine ⟨⟨h.books.ordered,fun hlost => h.books.kept ?_,fun hlost => h.books.short ?_⟩,h.id,
    i,by simp⟩
  · simpa using hlost
  · simpa using hlost

theorem Halted.appends {s t : Run W} (h : Appends place s result t)
    (hs : Halted trajectoryId outcome s) : Ends
      (fun refused t => if refused.isSome = true then Open t else Audited trajectoryId outcome t)
      (fun _ => Open) result t := by
  have hbooks := hs.books.appends h
  cases h with
  | stored w r h =>
    intro t ht
    refine ⟨hs.id t ht,iff_of_false (fun hagrees => ?_) fun hclean => hclean.2 hs.stopped⟩
    have hlast := congrArg List.getLast? hagrees.record
    simp at hlast
  | refused w r text h =>
    have hlost : .lost ∈ (({ s with world := w, steps := s.steps ++ [r] } : Run W).note
        .lost).trace := by simp
    exact ⟨hbooks,fun _ => hlost,fun _ => hlost⟩
  | raised w r e h =>
    have hlost : .lost ∈ ((({ s with world := w, steps := s.steps ++ [r] } : Run W).note
        .lost).note (.raised place e)).trace := by simp
    exact ⟨hbooks,fun _ => hlost,fun _ => hlost⟩

theorem stable_ends (r : Option (Failed true) × Value) :
    Stable Orderly (AgentEnds (W := W) trajectoryId true r) :=
  stable_open

theorem runAgent_audited (registry : Registry) {x : Execution}
    (htrail : x.trail.trajectoryId = trajectoryId) : Triple Open (runAgent host registry x)
      (Ends (AgentEnds trajectoryId x.stageWorker) fun _ => Open) := by
  have horderly : ∀ s t : Run W, s = t → Orderly s t := by
    intro s t hst
    subst hst
    exact ⟨fun hs => hs,fun hlost => hlost⟩
  have hrules : Rules host registry x Eq (fun _ _ => True) Open Open Lost (fun _ => Open)
      (AgentEnds trajectoryId x.stageWorker) :=
    rules_audit (fun _ _ _ => trivial) registry horderly (fun _ => Thread.stable_eq _)
      (fun _ _ _ => trivial) htrail
  exact Proc.holds_alone hrules.holds_executeAgent

theorem orderly_collect (g : Group) (i : Nat) (result : Except Raised WorkerEnd) (s : Run W) :
    Orderly s (collect g i result s) := by
  cases result with
  | error e =>
    have hnoted := orderly_note (s := s) (e := .taken (g.seat i) .raised) rfl
    refine ⟨fun hs => ?_,hnoted.2⟩
    have hopen := hnoted.1 hs
    exact ⟨⟨hopen.books.ordered,hopen.books.kept,hopen.books.short⟩,hopen.free,hopen.going⟩
  | ok ended =>
    obtain ⟨found,output⟩ := ended
    cases found with
    | none => exact orderly_note rfl
    | some failure => exact orderly_note rfl

theorem rules_audited (host : Host W S) (registry : Registry) (task : TaskSpecification)
    (trajectoryId : String) : RunRules host registry task trajectoryId Fresh Open
      (Sealed trajectoryId) (Halted trajectoryId) (Audited trajectoryId) fun _ => Open where
  upkeep := upkeep_open
  sealing := sealing_audited
  starts _ hs := hs.isOpen
  unknown := unknown_audited task
  single selector manifest start hwork hfound haccepted := runAgent_audited registry rfl
  stage spec p i start payload hp htrail hspec hfound haccepted := runAgent_audited registry htrail
  workers g branches hg htrail hspecs hfound haccepted := by
    refine workers_keep stable_open registry g branches (fun i branch hbranch => ?_)
      (orderly_collect g)
    have hrules : Rules host registry (branchExecution host g i branch) Orderly Orderly Open Open
        Lost (fun _ => Open) (AgentEnds trajectoryId true) :=
      rules_audit (fun _ _ h => h) registry (fun _ _ h => h) stable_ends
        (fun hfalse => by cases hfalse) htrail
    exact hrules.holds_executeAgent
  produced i parts s hs := hs.note rfl
  handed i s hs := hs.note rfl
  ended outcome s hs := hs.audited
  stopped outcome i s hs := hs.halted i
  stopped_world outcome s w hs := ⟨hs.books.world w,hs.id,hs.stopped⟩
  summary outcome record := fun s hs => hs.appends (appendStep_spec host .caller record s)

/-- When an outcome has an id, what is stored under it agrees with what is returned exactly if no
step was lost and no agent stage of a pipeline failed. A step that is lost stays in memory, and the
accounting of a pipeline that was stopped is stored after the outcome. -/
theorem audits_agree_iff (host : Host W S) (registry : Registry) (task : TaskSpecification)
    (seq : Nat) (w : W) {outcome : Outcome} {t : String}
    (h : (run host registry task seq (Run.start w)).1 = .ok outcome)
    (ht : outcome.trajectoryId = some t) :
    t = task.taskId ++ "#" ++ toString seq ∧
      (Agrees outcome (run host registry task seq (Run.start w)).2.log ↔
        .lost ∉ (run host registry task seq (Run.start w)).2.trace ∧
          ∀ i, .stopped i ∉ (run host registry task seq (Run.start w)).2.trace) := by
  have hended := RunRules.run seq (rules_audited host registry task _) (Run.start w)
    ⟨rfl,rfl,rfl⟩
  rw [h] at hended
  obtain ⟨hid,hagrees⟩ := hended t ht
  refine ⟨hid,hagrees.trans (and_congr_right fun _ => ?_)⟩
  exact not_exists

end

def idOf : Except Raised Outcome → Option String
  | .ok outcome => outcome.trajectoryId
  | .error _ => none

theorem ok_of_idOf {result : Except Raised Outcome} {t : String} (h : idOf result = some t) :
    ∃ outcome, result = .ok outcome ∧ outcome.trajectoryId = some t := by
  cases result with
  | ok outcome => exact ⟨outcome,rfl,h⟩
  | error e => cases h

theorem unmarked {events : List Event} (h : events.all (!·.isMark) = true) :
    .lost ∉ events ∧ ∀ i, .stopped i ∉ events := by
  rw [List.all_eq_true] at h
  refine ⟨fun hlost => ?_,fun i hstopped => ?_⟩
  · have hmark := h _ hlost
    cases hmark
  · have hmark := h _ hstopped
    cases hmark

/-- The agent does the same at every step, and the gate passes everything. -/
def sameHost (item : Item) : Host Unit String := .plain (fun _ => item) fun _ _ _ => .ok ⟨true,""⟩

def oneAgent : TaskSpecification := .plain (.single (.agentName "echo")) .none

def onePipeline : TaskSpecification :=
  .plain (.pipeline ⟨[.agent (.named "echo")],by simp⟩) .none

theorem audits_agree_one : ∃ outcome,
    (run (sameHost (.result .none)) (.ofNames ["echo"]) oneAgent 0 (Run.start ())).1 =
      .ok outcome ∧ outcome.trajectoryId = some "t#0" ∧
    Agrees outcome
      (run (sameHost (.result .none)) (.ofNames ["echo"]) oneAgent 0 (Run.start ())).2.log := by
  have hfound : idOf (run (sameHost (.result .none)) (.ofNames ["echo"]) oneAgent 0
      (Run.start ())).1 = some "t#0" := by
    decide +kernel
  obtain ⟨outcome,hrun,hid⟩ := ok_of_idOf hfound
  refine ⟨outcome,hrun,hid,?_⟩
  exact (audits_agree_iff (sameHost (.result .none)) (.ofNames ["echo"]) oneAgent 0 () hrun
    hid).2.2 (unmarked (by decide +kernel))

theorem audits_disagree : ∃ outcome,
    (run (sameHost .unsupported) (.ofNames ["echo"]) onePipeline 0 (Run.start ())).1 =
      .ok outcome ∧ outcome.trajectoryId = some "t#0" ∧
    ¬ Agrees outcome
      (run (sameHost .unsupported) (.ofNames ["echo"]) onePipeline 0 (Run.start ())).2.log := by
  have hfound : idOf (run (sameHost .unsupported) (.ofNames ["echo"]) onePipeline 0
      (Run.start ())).1 = some "t#0" := by
    decide +kernel
  obtain ⟨outcome,hrun,hid⟩ := ok_of_idOf hfound
  refine ⟨outcome,hrun,hid,fun hagrees => ?_⟩
  have hlast : ((run (sameHost .unsupported) (.ofNames ["echo"]) onePipeline 0
      (Run.start ())).2.log.getLast?.map (·.isOutcome)) = some false := by
    decide +kernel
  rw [hagrees.record,List.getLast?_concat] at hlast
  cases hlast

end AgentCentric.Manager

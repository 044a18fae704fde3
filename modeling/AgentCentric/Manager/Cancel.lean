import AgentCentric.Library.First
import AgentCentric.Manager.Rule

namespace AgentCentric.Manager
open Act (Ends Guarded)
open Thread (Stable)
open Pool (Reaches)

variable {e : Event}

namespace Event

def isFailure : Event → Bool
  | .taken _ .succeeded => false
  | .taken _ _ => true
  | _ => false

def isRaise : Event → Bool
  | .taken _ .raised => true
  | _ => false

def isTaken : Event → Bool
  | .taken _ _ => true
  | _ => false

def isBoundary (seat : Seat) : Event → Bool
  | .boundary at' _ => at' = seat
  | _ => false

def isWork (seat : Seat) : Event → Bool
  | .stepped at' => at' = seat
  | .executed at' _ => at' = seat
  | _ => false

theorem isFailure_of_isRaise (h : e.isRaise = true) : e.isFailure = true := by
  cases e with
  | taken seat ending => cases ending <;> first | rfl | simp [isRaise] at h
  | _ => simp [isRaise] at h

end Event

def firstFailure : List Event → Option Ending
  | [] => none
  | .taken _ .succeeded :: rest => firstFailure rest
  | .taken _ ending :: _ => some ending
  | _ :: rest => firstFailure rest

def news {W : Type} (start s : Run W) : List Event := s.trace.drop start.trace.length

def succeeds : Except Raised WorkerEnd → Prop
  | .ok (none,_) => True
  | _ => False

/-- Once the joiner has seen a failure the cancel event is set, each sibling finds it set at its next
step boundary, takes no step and has no tool executed from there on, and does not succeed. -/
structure Signalled {W : Type} (g : Group) (start : Run W)
    (q : Pool (Run W) (Except Raised WorkerEnd)) : Prop where
  event : (∃ e ∈ news start q.shared, e.isFailure = true) → q.shared.cancelled = true
  boundary : ∀ i b, .boundary (g.seat i) b ∈ afterFirst (·.isFailure) (news start q.shared) →
    b = true
  idle : ∀ i, ∀ e ∈ afterFirst (·.isBoundary (g.seat i))
    (afterFirst (·.isFailure) (news start q.shared)), e.isWork (g.seat i) = false
  ended : ∀ i b result, .boundary (g.seat i) b ∈ afterFirst (·.isFailure) (news start q.shared) →
    q.threads[i]? = some (.done result) → ¬ succeeds result

def Heralded {W : Type} (start : Run W) (q : Pool (Run W) (Except Raised WorkerEnd)) : Prop :=
  start.cancelled = true ∨ firstFailure (news start q.shared) ≠ some .failed

def late (isSet : Bool) (events : List Event) : List Event :=
  if isSet then events else afterFirst (·.isRaise) events

variable {xs ys : List Event}

theorem mem_late_append {isSet : Bool}
    (h : e ∈ late isSet (xs ++ ys)) : e ∈ late isSet xs ∨ e ∈ ys := by
  cases isSet with
  | true => exact List.mem_append.1 h
  | false => exact mem_afterFirst_append h

theorem late_append_quiet (h : ∀ e ∈ xs ++ ys, e.isRaise = false) : late false (xs ++ ys) = [] :=
  afterFirst_of_none h

theorem mem_after_late_append {isSet : Bool} {p : Event → Bool}
    (h : e ∈ afterFirst p (late isSet (xs ++ ys))) : e ∈ afterFirst p (late isSet xs) ∨ e ∈ ys := by
  cases isSet with
  | true => exact mem_afterFirst_append h
  | false =>
    simp only [late,Bool.false_eq_true,if_false] at h ⊢
    rcases some_or_none (·.isRaise) xs with hsome | hnone
    · rw [afterFirst_append_of_some ys hsome] at h
      exact mem_afterFirst_append h
    · rw [afterFirst_append_of_none ys hnone] at h
      exact .inr (mem_afterFirst (mem_afterFirst h))

structure Stopping {W : Type} (start : Run W) (seat : Seat) (s : Run W) : Prop where
  length : start.trace.length ≤ s.trace.length
  signal : (start.cancelled = true ∨ ∃ e ∈ news start s, e.isRaise = true) → s.cancelled = true
  reads : ∀ b, .boundary seat b ∈ late start.cancelled (news start s) → b = true
  idle : ∀ e ∈ afterFirst (·.isBoundary seat) (late start.cancelled (news start s)),
    e.isWork seat = false

structure Going {W : Type} (start : Run W) (seat : Seat) (s : Run W) : Prop where
  stopping : Stopping start seat s
  ahead : ∀ b, .boundary seat b ∉ late start.cancelled (news start s)

/-- Events were added, and the flag was not cleared. -/
structure Extends {W : Type} (s t : Run W) (events : List Event) : Prop where
  trace : t.trace = s.trace ++ events
  kept : s.cancelled = true → t.cancelled = true
  signal : (∃ e ∈ events, e.isRaise = true) → t.cancelled = true

section
variable {W S : Type} {start s t : Run W} {seat : Seat} {events : List Event}

theorem news_extends (h : Extends s t events) (hlength : start.trace.length ≤ s.trace.length) :
    news start t = news start s ++ events := by
  rw [news,h.trace,List.drop_append_of_le_length hlength,news]

theorem Extends.signalled (h : Extends s t events) (hs : Stopping start seat s)
    (hset : start.cancelled = true ∨ ∃ e ∈ news start t, e.isRaise = true) :
    t.cancelled = true := by
  rw [news_extends h hs.length] at hset
  obtain hset | ⟨e,he,hraise⟩ := hset
  · exact h.kept (hs.signal (.inl hset))
  · rcases List.mem_append.1 he with hold | hnew
    · exact h.kept (hs.signal (.inr ⟨e,hold,hraise⟩))
    · exact h.signal ⟨e,hnew,hraise⟩

theorem Extends.length (h : Extends s t events) (hs : start.trace.length ≤ s.trace.length) :
    start.trace.length ≤ t.trace.length := by
  rw [h.trace,List.length_append]
  omega

theorem Stopping.extend (hs : Stopping start seat s) (h : Extends s t events)
    (hcalm : ∀ e ∈ events, e.isBoundary seat = false ∧ e.isWork seat = false) :
    Stopping start seat t := by
  refine ⟨h.length hs.length,h.signalled hs,?_,?_⟩
  · intro b hb
    rw [news_extends h hs.length] at hb
    rcases mem_late_append hb with hold | hnew
    · exact hs.reads b hold
    · have hfalse := (hcalm _ hnew).1
      simp [Event.isBoundary] at hfalse
  · intro e he
    rw [news_extends h hs.length] at he
    rcases mem_after_late_append he with hold | hnew
    · exact hs.idle e hold
    · exact (hcalm e hnew).2

theorem after_boundary_empty {xs : List Event} (h : ∀ b, .boundary seat b ∉ xs) :
    afterFirst (·.isBoundary seat) xs = [] := by
  refine afterFirst_of_none fun e he => ?_
  cases e with
  | boundary at' b =>
    by_cases hat : at' = seat
    · subst hat
      exact absurd he (h b)
    · simp [Event.isBoundary,hat]
  | _ => rfl

theorem Going.extend (hs : Going start seat s) (h : Extends s t events)
    (hcalm : ∀ e ∈ events, e.isBoundary seat = false) : Going start seat t := by
  have hahead : ∀ b, .boundary seat b ∉ late start.cancelled (news start t) := by
    intro b hb
    rw [news_extends h hs.stopping.length] at hb
    rcases mem_late_append hb with hold | hnew
    · exact hs.ahead b hold
    · have hfalse := hcalm _ hnew
      simp [Event.isBoundary] at hfalse
  refine ⟨⟨h.length hs.stopping.length,h.signalled hs.stopping,?_,?_⟩,hahead⟩
  · exact fun b hb => absurd hb (hahead b)
  · rw [after_boundary_empty hahead]
    simp

theorem Going.found (hs : Going start seat s) (hset : s.cancelled = true) :
    Stopping start seat (s.note (.boundary seat true)) := by
  have hext : Extends s (s.note (.boundary seat true)) [.boundary seat true] :=
    ⟨rfl,fun h => h,by simp [Event.isRaise]⟩
  refine ⟨hext.length hs.stopping.length,fun _ => hset,?_,?_⟩
  · intro b hb
    rw [news_extends hext hs.stopping.length] at hb
    rcases mem_late_append hb with hold | hnew
    · exact absurd hold (hs.ahead b)
    · simpa using hnew
  · intro e he
    rw [news_extends hext hs.stopping.length] at he
    rcases mem_after_late_append he with hold | hnew
    · rw [after_boundary_empty hs.ahead] at hold
      simp at hold
    · obtain rfl := List.mem_singleton.1 hnew
      rfl

theorem Going.unfound (hs : Going start seat s) (hset : s.cancelled = false) :
    Going start seat (s.note (.boundary seat false)) := by
  have hext : Extends s (s.note (.boundary seat false)) [.boundary seat false] :=
    ⟨rfl,fun h => h,by simp [Event.isRaise]⟩
  have hstart : start.cancelled = false := by
    cases h : start.cancelled with
    | false => rfl
    | true =>
      have := hs.stopping.signal (.inl h)
      rw [hset] at this
      cases this
  have hquiet : ∀ e ∈ news start s ++ [.boundary seat false], e.isRaise = false := by
    intro e he
    rcases List.mem_append.1 he with hold | hnew
    · cases h : e.isRaise with
      | false => rfl
      | true =>
        have := hs.stopping.signal (.inr ⟨e,hold,h⟩)
        rw [hset] at this
        cases this
    · obtain rfl := List.mem_singleton.1 hnew
      rfl
  have hempty : late start.cancelled (news start (s.note (.boundary seat false))) = [] := by
    rw [news_extends hext hs.stopping.length,hstart]
    exact late_append_quiet hquiet
  refine ⟨⟨hext.length hs.stopping.length,hext.signalled hs.stopping,?_,?_⟩,?_⟩
  · rw [hempty]
    simp
  · rw [hempty]
    simp [afterFirst]
  · rw [hempty]
    simp

end

def Own (seat : Seat) (e : Event) : Prop :=
  e.isTaken = false ∧ ∀ other, other ≠ seat → e.isBoundary other = false ∧ e.isWork other = false

/-- A worker adds events of its own and does not touch the flag. -/
def Guarantee {W : Type} (start : Run W) (seat : Seat) (s t : Run W) : Prop :=
  (∃ events, t.trace = s.trace ++ events ∧ ∀ e ∈ events, Own seat e) ∧
    t.cancelled = s.cancelled ∧ Stopping start seat t

def Rely {W : Type} (seat : Seat) (s t : Run W) : Prop :=
  ∃ events, Extends s t events ∧
    ∀ e ∈ events, e.isBoundary seat = false ∧ e.isWork seat = false

section
variable {W S : Type} {start s t : Run W} {seat : Seat}

theorem stable_stopping : Stable (Rely seat) (Stopping start seat) :=
  fun _ _ hst hs => hs.extend hst.choose_spec.1 hst.choose_spec.2

theorem stable_going : Stable (Rely seat) (Going start seat) :=
  fun _ _ hst hs => hs.extend hst.choose_spec.1 fun e he => (hst.choose_spec.2 e he).1

theorem isRaise_of_own (h : Own seat e) : e.isRaise = false := by
  cases e with
  | taken at' ending => simp [Own,Event.isTaken] at h
  | _ => rfl

theorem rely_of_guarantee {other : Seat} (h : Guarantee start other s t) (hne : seat ≠ other) :
    Rely seat s t := by
  obtain ⟨⟨events,htrace,hown⟩,hflag,_⟩ := h
  refine ⟨events,⟨htrace,fun hs => hflag ▸ hs,?_⟩,fun e he => (hown e he).2 seat hne⟩
  rintro ⟨e,he,hraise⟩
  rw [isRaise_of_own (hown e he)] at hraise
  cases hraise

theorem rely_collect (g : Group) (i : Nat) (result : Except Raised WorkerEnd) (s : Run W) :
    Rely seat s (collect g i result s) := by
  cases result with
  | error e =>
    refine ⟨[.taken (g.seat i) .raised],⟨rfl,fun _ => rfl,fun _ => rfl⟩,?_⟩
    simp [Event.isBoundary,Event.isWork]
  | ok ended =>
    obtain ⟨found,output⟩ := ended
    cases found with
    | none =>
      exact ⟨[.taken (g.seat i) .succeeded],⟨rfl,fun h => h,by simp [Event.isRaise]⟩,
        by simp [Event.isBoundary,Event.isWork]⟩
    | some failure =>
      exact ⟨[.taken (g.seat i) .failed],⟨rfl,fun h => h,by simp [Event.isRaise]⟩,
        by simp [Event.isBoundary,Event.isWork]⟩

theorem Going.act (hs : Going start seat s) {events : List Event}
    (htrace : t.trace = s.trace ++ events) (hflag : t.cancelled = s.cancelled)
    (hown : ∀ e ∈ events, Own seat e) (hcalm : ∀ e ∈ events, e.isBoundary seat = false) :
    Guarantee start seat s t ∧ Going start seat t := by
  have hext : Extends s t events := by
    refine ⟨htrace,fun h => hflag ▸ h,?_⟩
    rintro ⟨e,he,hraise⟩
    rw [isRaise_of_own (hown e he)] at hraise
    cases hraise
  have hgoing := hs.extend hext hcalm
  exact ⟨⟨⟨events,htrace,hown⟩,hflag,hgoing.stopping⟩,hgoing⟩

theorem Stopping.act (hs : Stopping start seat s) {events : List Event}
    (htrace : t.trace = s.trace ++ events) (hflag : t.cancelled = s.cancelled)
    (hown : ∀ e ∈ events, Own seat e)
    (hcalm : ∀ e ∈ events, e.isBoundary seat = false ∧ e.isWork seat = false) :
    Guarantee start seat s t ∧ Stopping start seat t := by
  have hext : Extends s t events := by
    refine ⟨htrace,fun h => hflag ▸ h,?_⟩
    rintro ⟨e,he,hraise⟩
    rw [isRaise_of_own (hown e he)] at hraise
    cases hraise
  have hstopping := hs.extend hext hcalm
  exact ⟨⟨⟨events,htrace,hown⟩,hflag,hstopping⟩,hstopping⟩

theorem own_boundary (b : Bool) : Own seat (.boundary seat b) :=
  ⟨rfl,fun _ h => by simp [Event.isBoundary,Event.isWork,h.symm]⟩

theorem own_stepped : Own seat (.stepped seat) :=
  ⟨rfl,fun _ h => by simp [Event.isBoundary,Event.isWork,h.symm]⟩

theorem own_executed (tool : String) : Own seat (.executed seat tool) :=
  ⟨rfl,fun _ h => by simp [Event.isBoundary,Event.isWork,h.symm]⟩

/-- Events that are neither of the loop nor of the joiner. -/
def Plain (e : Event) : Prop :=
  e.isTaken = false ∧ ∀ seat, e.isBoundary seat = false ∧ e.isWork seat = false

theorem Plain.own (h : Plain e) : Own seat e := ⟨h.1,fun other _ => h.2 other⟩

theorem plain_started (at' : Seat) (agent : String) (payload : Value) (tools : List String) :
    Plain (.started at' agent payload tools) := ⟨rfl,fun _ => ⟨rfl,rfl⟩⟩

theorem plain_lost : Plain .lost := ⟨rfl,fun _ => ⟨rfl,rfl⟩⟩

theorem plain_raised (place : Place) (e : Raised) : Plain (.raised place e) :=
  ⟨rfl,fun _ => ⟨rfl,rfl⟩⟩

theorem Going.plain (hs : Going start seat s) {events : List Event}
    (htrace : t.trace = s.trace ++ events) (hflag : t.cancelled = s.cancelled)
    (hplain : ∀ e ∈ events, Plain e) : Guarantee start seat s t ∧ Going start seat t :=
  hs.act htrace hflag (fun e he => (hplain e he).own) fun e he => ((hplain e he).2 seat).1

theorem Stopping.plain (hs : Stopping start seat s) {events : List Event}
    (htrace : t.trace = s.trace ++ events) (hflag : t.cancelled = s.cancelled)
    (hplain : ∀ e ∈ events, Plain e) : Guarantee start seat s t ∧ Stopping start seat t :=
  hs.act htrace hflag (fun e he => (hplain e he).own) fun e he => (hplain e he).2 seat

def AddsPlain (s t : Run W) : Prop :=
  ∃ events, t.trace = s.trace ++ events ∧ t.cancelled = s.cancelled ∧ ∀ e ∈ events, Plain e

theorem addsPlain_world (s : Run W) (w : W) : AddsPlain s { s with world := w } :=
  ⟨[],by simp,rfl,by simp⟩

theorem addsPlain_note {s t : Run W} (h : AddsPlain s t) (he : Plain e) :
    AddsPlain s (t.note e) := by
  obtain ⟨events,htrace,hflag,hplain⟩ := h
  refine ⟨events ++ [e],by simp [htrace],hflag,?_⟩
  intro f hf
  rcases List.mem_append.1 hf with hold | hnew
  · exact hplain f hold
  · obtain rfl := List.mem_singleton.1 hnew
    exact he

theorem addsPlain_started (s : Run W) (w : W) (at' : Seat) (agent : String) (payload : Value)
    (tools : List String) :
    AddsPlain s { s.note (.started at' agent payload tools) with world := w } :=
  ⟨[.started at' agent payload tools],rfl,rfl,by simp [plain_started]⟩

theorem Appends.addsPlain {place : Place} {result : Except Raised (Option String)} {s t : Run W}
    (h : Appends place s result t) : AddsPlain s t := by
  cases h with
  | stored w r _ => exact ⟨[],by simp,rfl,by simp⟩
  | refused w r text _ => exact addsPlain_note ⟨[],by simp,rfl,by simp⟩ plain_lost
  | raised w r e _ =>
    exact addsPlain_note (addsPlain_note ⟨[],by simp,rfl,by simp⟩ plain_lost) (plain_raised _ _)

theorem Records.addsPlain {place : Place} {trail : Trail} {decision : Decision}
    {result : Except Raised Outcome} {s t : Run W} (h : Records place trail decision s result t) :
    AddsPlain s t := by
  cases h with
  | stored w _ _ => exact ⟨[],by simp,rfl,by simp⟩
  | refused w message => exact addsPlain_world s w
  | raised w e => exact addsPlain_note (addsPlain_world s w) (plain_raised _ _)
  | disordered w message _ => exact addsPlain_note ⟨[],by simp,rfl,by simp⟩ (plain_raised _ _)

theorem Going.adds (hs : Going start seat s) (h : AddsPlain s t) :
    Guarantee start seat s t ∧ Going start seat t :=
  hs.plain h.choose_spec.1 h.choose_spec.2.1 h.choose_spec.2.2

theorem Stopping.adds (hs : Stopping start seat s) (h : AddsPlain s t) :
    Guarantee start seat s t ∧ Stopping start seat t :=
  hs.plain h.choose_spec.1 h.choose_spec.2.1 h.choose_spec.2.2

theorem Going.raises {α : Type} {Q : α → Run W → Prop} {e : Raised} (hs : Going start seat s)
    (h : AddsPlain s t) : Guarantee start seat s t ∧
      Ends Q (Inner (Stopping start seat) fun _ => Stopping start seat) (.error e) t := by
  obtain ⟨hG,hgoing⟩ := hs.adds h
  exact ⟨hG,inner_same hgoing.stopping⟩

def WorkerPost (start : Run W) (seat : Seat) (ended : WorkerEnd) (s : Run W) : Prop :=
  match ended.1 with
  | none => Going start seat s
  | some _ => Stopping start seat s

end

@[simp] theorem branchExecution_seat {W S : Type} (host : Host W S) (g : Group) (i : Nat)
    (branch : Branch) : (branchExecution host g i branch).seat = g.seat i := rfl

theorem worker_rules {W S : Type} (host : Host W S) (registry : Registry) (g : Group) (i : Nat)
    (branch : Branch) (start : Run W) :
    Rules host registry (branchExecution host g i branch) (Rely (g.seat i))
      (Guarantee start (g.seat i)) (Going start (g.seat i)) (Stopping start (g.seat i))
      (Going start (g.seat i)) (fun _ => Stopping start (g.seat i))
      (WorkerPost start (g.seat i)) where
  going _ hs := hs.stopping
  lost _ hs := hs.stopping
  stable := ⟨stable_going,stable_stopping,stable_going⟩
  stable_raised _ := stable_stopping
  stable_result r := by
    obtain ⟨found,output⟩ := r
    cases found with
    | none => exact stable_going
    | some failure => exact stable_stopping
  world s w := ⟨fun hs => hs.adds (addsPlain_world s w),fun hs => hs.adds (addsPlain_world s w)⟩
  session manifest _ s hs := by
    obtain ⟨w,⟨session,hrun⟩ | ⟨e,hrun⟩⟩ :=
      startSession_cases host (branchExecution host g i branch) manifest s
    · rw [hrun]
      exact hs.adds (addsPlain_started s w _ _ _ _)
    · rw [hrun]
      exact hs.raises (addsPlain_note (addsPlain_started s w _ _ _ _) (plain_raised _ e))
  boundary s hs := by
    rw [readCancelEvent_run]
    have htrue : (branchExecution host g i branch).stageWorker = true := rfl
    rw [htrue,Bool.true_and]
    cases hset : s.cancelled with
    | true =>
      have hfound := hs.found hset
      exact ⟨⟨⟨[.boundary (g.seat i) true],rfl,by simpa using own_boundary true⟩,rfl,hfound⟩,
        hfound⟩
    | false =>
      have hunfound := hs.unfound hset
      exact ⟨⟨⟨[.boundary (g.seat i) false],rfl,by simpa using own_boundary false⟩,rfl,
        hunfound.stopping⟩,hunfound⟩
  stepped session sent s hs := by
    obtain ⟨next,w,hrun⟩ := takeStep_run host (branchExecution host g i branch) session
      sent s
    rw [hrun]
    exact hs.act rfl rfl (by simpa using own_stepped)
      (by simp [Event.isBoundary])
  executed name args _ s hs := by
    obtain ⟨executed,w,hrun⟩ := executeTool_run host (branchExecution host g i branch)
      name args s
    rw [hrun]
    exact hs.act rfl rfl (by simpa using own_executed name)
      (by simp [Event.isBoundary])
  raised e s hs :=
    hs.raises (α := Unit) (Q := fun _ _ => False)
      (addsPlain_note (addsPlain_world s s.world) (plain_raised _ e))
  appended record s hs := by
    have hadds := hs.adds (appendStep_spec host (branchExecution host g i branch).inner
      record s).addsPlain
    refine ⟨hadds.1,?_⟩
    cases (appendStep host (branchExecution host g i branch).inner record s).1 with
    | ok refused => cases refused <;> exact hadds.2
    | error e => exact inner_same hadds.2.stopping
  stopped record s hs := by
    have hadds := hs.adds (appendStep_spec host (branchExecution host g i branch).inner
      record s).addsPlain
    refine ⟨hadds.1,?_⟩
    cases (appendStep host (branchExecution host g i branch).inner record s).1 with
    | ok refused => exact hadds.2
    | error e => exact inner_same hadds.2
  deferred reason message s hs := hs.adds (addsPlain_world s s.world)
  recorded reason message s hs := hs.adds (addsPlain_world s s.world)
  persisted message s hs := by
    have hadds := hs.adds (recordFailure_spec host
      (branchExecution host g i branch).inner (branchExecution host g i branch).trail .internal
      message s).addsPlain
    refine ⟨hadds.1,?_⟩
    cases (recordFailure host (branchExecution host g i branch).inner
      (branchExecution host g i branch).trail .internal message s).1 with
    | ok outcome => exact hadds.2.stopping
    | error e => exact inner_same hadds.2.stopping
  verified output s hs := by
    rcases verifyOutput_cases host (branchExecution host g i branch) output s with
      ⟨verification,hrun⟩ | ⟨e,_,hrun⟩
    · rw [hrun]
      exact hs.adds (addsPlain_world s s.world)
    · rw [hrun]
      have hadds := hs.adds (t := s.note (.raised (branchExecution host g i branch).outer e))
        (addsPlain_note (addsPlain_world s s.world) (plain_raised _ _))
      exact ⟨hadds.1,hadds.2.stopping⟩
  succeeded s output hs := hs

section
variable {W S : Type} {host : Host W S} {registry : Registry} {g : Group}
  {branches : List Branch} {start : Run W}
  {q : Pool (Run W) (Except Raised WorkerEnd)}

theorem seat_ne (g : Group) {i j : Nat} (h : i ≠ j) : g.seat j ≠ g.seat i := by
  intro heq
  injection heq with _ hbranch
  exact h (Option.some.inj hbranch).symm

theorem workers_apart (g : Group) (start : Run W) (Q : Nat → Except Raised WorkerEnd → Run W → Prop) :
    Pool.Apart (fun i => Rely (g.seat i)) (fun i => Guarantee start (g.seat i)) Q (collect g) where
  threads _ _ _ _ hne hG := rely_of_guarantee hG (seat_ne g hne)
  joiner i b _ s _ := rely_collect g i b s

def WorkerEnds (g : Group) (start : Run W) (i : Nat) : Except Raised WorkerEnd → Run W → Prop :=
  Ends (WorkerPost start (g.seat i)) fun _ => Stopping start (g.seat i)

theorem pool_sound (host : Host W S) (registry : Registry) (g : Group) (branches : List Branch)
    (start : Run W) : (pool host registry g branches start).Sound (fun i => Rely (g.seat i))
      (fun i => Guarantee start (g.seat i)) (WorkerEnds g start) := by
  refine ⟨?_,fun i b hb => by simp [pool] at hb⟩
  intro i t ht
  simp only [pool,List.getElem?_mapIdx,Option.map_eq_some_iff] at ht
  obtain ⟨branch,_,rfl⟩ := ht
  have hnews : news start start = [] := by simp [news]
  have hgoing : Going start (g.seat i) start := by
    have hlate : late start.cancelled (news start start) = [] := by
      rw [hnews]
      cases start.cancelled <;> rfl
    refine ⟨⟨le_refl _,?_,by simp [hlate],by simp [hlate,afterFirst]⟩,by simp [hlate]⟩
    rintro (h | ⟨e,he,_⟩)
    · exact h
    · rw [hnews] at he
      cases he
  exact ⟨Going start (g.seat i),stable_going,hgoing,
    (worker_rules host registry g i branch start).holds_executeAgent⟩

/-- The flag is set by a raise that the joiner took, and by nothing else. -/
def Flagged (start s : Run W) : Prop :=
  start.trace.length ≤ s.trace.length ∧
    (s.cancelled = true ↔ start.cancelled = true ∨ ∃ e ∈ news start s, e.isRaise = true)

theorem Flagged.extend {s t : Run W} {events : List Event} (h : Flagged start s)
    (htrace : t.trace = s.trace ++ events)
    (hflag : t.cancelled = true ↔ s.cancelled = true ∨ ∃ e ∈ events, e.isRaise = true) :
    Flagged start t := by
  have hnews : news start t = news start s ++ events := by
    rw [news,htrace,List.drop_append_of_le_length h.1,news]
  have hlength := h.1
  refine ⟨by rw [htrace,List.length_append]; omega,?_⟩
  rw [hflag,h.2,hnews,or_assoc]
  simp only [List.mem_append,or_and_right,exists_or]

theorem Flagged.guarantee {seat : Seat} : Stable (Guarantee start seat) (Flagged start) := by
  rintro s t ⟨⟨events,htrace,hown⟩,hsame,_⟩ hs
  refine hs.extend htrace ?_
  have hnone : ¬ ∃ e ∈ events, e.isRaise = true := by
    rintro ⟨e,he,hraise⟩
    rw [isRaise_of_own (hown e he)] at hraise
    cases hraise
  rw [hsame]
  simp [hnone]

def takenAs : Except Raised WorkerEnd → Ending
  | .error _ => .raised
  | .ok (some _,_) => .failed
  | .ok (none,_) => .succeeded

theorem collect_trace (g : Group) (i : Nat) (b : Except Raised WorkerEnd) (s : Run W) :
    (collect g i b s).trace = s.trace ++ [.taken (g.seat i) (takenAs b)] := by
  cases b with
  | error e => rfl
  | ok ended =>
    obtain ⟨found,output⟩ := ended
    cases found <;> rfl

theorem collect_cancelled (g : Group) (i : Nat) (b : Except Raised WorkerEnd) (s : Run W) :
    (collect g i b s).cancelled = true ↔
      s.cancelled = true ∨ ∃ e ∈ [Event.taken (g.seat i) (takenAs b)], e.isRaise = true := by
  cases b with
  | error e => simp [collect,takenAs,Event.isRaise]
  | ok ended =>
    obtain ⟨found,output⟩ := ended
    cases found <;> simp [collect,takenAs,Event.isRaise]

theorem Flagged.collect {s : Run W} (h : Flagged start s) (i : Nat)
    (b : Except Raised WorkerEnd) : Flagged start (collect g i b s) :=
  h.extend (collect_trace g i b s) (collect_cancelled g i b s)

theorem flagged_start : Flagged start start := by
  simp [Flagged,news]

theorem flagged_of_reaches
    (h : Reaches (collect g) (pool host registry g branches start) q) : Flagged start q.shared :=
  (pool_sound host registry g branches start).keeps (workers_apart g start _) h flagged_start
    (fun _ => Flagged.guarantee) fun i b _ _ hs => hs.collect i b

theorem stopping_of_reaches
    (h : Reaches (collect g) (pool host registry g branches start) q) (i : Nat)
    (hi : Stopping start (g.seat i) start) : Stopping start (g.seat i) q.shared := by
  refine (pool_sound host registry g branches start).keeps (workers_apart g start _) h hi ?_ ?_
  · intro j s t hG hs
    by_cases hij : i = j
    · subst hij
      exact hG.2.2
    · exact stable_stopping s t (rely_of_guarantee hG (seat_ne g (Ne.symm hij))) hs
  · exact fun j b s _ hs => stable_stopping s _ (rely_collect g j b s) hs

theorem stopping_start (seat : Seat) : Stopping start seat start := by
  have hnews : news start start = [] := by simp [news]
  have hlate : late start.cancelled [] = [] := by cases start.cancelled <;> rfl
  refine ⟨le_refl _,?_,by simp [hnews,hlate],by simp [hnews,hlate,afterFirst]⟩
  simp [hnews]

theorem firstFailure_append_of_none (h : ∀ e ∈ xs, e.isFailure = false) :
    firstFailure (xs ++ ys) = firstFailure ys := by
  induction xs with
  | nil => rfl
  | cons e xs ih =>
    have hrest := ih fun f hf => h f (List.mem_cons_of_mem e hf)
    have he := h e (by simp)
    cases e with
    | taken seat ending =>
      cases ending with
      | succeeded => exact hrest
      | failed => simp [Event.isFailure] at he
      | raised => simp [Event.isFailure] at he
    | _ => exact hrest

theorem firstFailure_append_of_some (h : ∃ e ∈ xs, e.isFailure = true) :
    firstFailure (xs ++ ys) = firstFailure xs := by
  induction xs with
  | nil => simp at h
  | cons e xs ih =>
    have hrest : e.isFailure = false → firstFailure (xs ++ ys) = firstFailure xs := by
      intro he
      obtain ⟨f,hf,hfailure⟩ := h
      rcases List.mem_cons.1 hf with rfl | hf
      · rw [he] at hfailure
        cases hfailure
      · exact ih ⟨f,hf,hfailure⟩
    cases e with
    | taken seat ending =>
      cases ending with
      | succeeded => exact hrest rfl
      | failed => rfl
      | raised => rfl
    | _ => exact hrest rfl

theorem firstFailure_eq_none {xs : List Event} (h : ∀ e ∈ xs, e.isFailure = false) :
    firstFailure xs = none := by
  have happend : firstFailure (xs ++ []) = firstFailure [] := firstFailure_append_of_none h
  rwa [List.append_nil] at happend

theorem after_failure {xs : List Event} (h : firstFailure xs ≠ some .failed) :
    afterFirst (·.isFailure) xs = afterFirst (·.isRaise) xs ∧
      ((∃ e ∈ xs, e.isFailure = true) → ∃ e ∈ xs, e.isRaise = true) := by
  induction xs with
  | nil => exact ⟨rfl,by simp⟩
  | cons e xs ih =>
    have hrest : e.isFailure = false → e.isRaise = false → firstFailure xs ≠ some .failed →
        afterFirst (·.isFailure) (e :: xs) = afterFirst (·.isRaise) (e :: xs) ∧
        ((∃ f ∈ e :: xs, f.isFailure = true) → ∃ f ∈ e :: xs, f.isRaise = true) := by
      intro hfailure hraise hfirst
      obtain ⟨hsame,hexists⟩ := ih hfirst
      refine ⟨by simp only [afterFirst,hfailure,hraise,Bool.false_eq_true,if_false,hsame],?_⟩
      rintro ⟨f,hf,hff⟩
      rcases List.mem_cons.1 hf with rfl | hf
      · rw [hfailure] at hff
        cases hff
      · obtain ⟨f',hf',hr⟩ := hexists ⟨f,hf,hff⟩
        exact ⟨f',List.mem_cons_of_mem e hf',hr⟩
    cases e with
    | taken seat ending =>
      cases ending with
      | succeeded => exact hrest rfl rfl h
      | failed => exact absurd rfl h
      | raised => exact ⟨rfl,fun _ => ⟨.taken seat .raised,by simp,rfl⟩⟩
    | _ => exact hrest rfl rfl h

theorem mem_late {xs : List Event} (h : start.cancelled = true ∨ firstFailure xs ≠ some .failed)
    (he : e ∈ afterFirst (·.isFailure) xs) : e ∈ late start.cancelled xs := by
  cases hset : start.cancelled with
  | true => exact mem_afterFirst he
  | false =>
    rw [hset] at h
    have hsame := (after_failure (h.resolve_left (by simp))).1
    rw [hsame] at he
    exact he

theorem mem_after_late {xs : List Event} {p : Event → Bool}
    (h : start.cancelled = true ∨ firstFailure xs ≠ some .failed)
    (he : e ∈ afterFirst p (afterFirst (·.isFailure) xs)) :
    e ∈ afterFirst p (late start.cancelled xs) := by
  cases hset : start.cancelled with
  | true => exact mem_afterFirst_afterFirst he
  | false =>
    rw [hset] at h
    have hsame := (after_failure (h.resolve_left (by simp))).1
    rw [hsame] at he
    exact he

theorem Heralded.signalled
    (h : Reaches (collect g) (pool host registry g branches start) q) (hfirst : Heralded start q) :
    Signalled g start q := by
  have hflagged := flagged_of_reaches h
  refine ⟨?_,?_,?_,?_⟩
  · intro hfailure
    rw [hflagged.2]
    obtain hset | hne := hfirst
    · exact .inl hset
    · exact .inr ((after_failure hne).2 hfailure)
  · intro i b hb
    exact (stopping_of_reaches h i (stopping_start _)).reads b (mem_late hfirst hb)
  · intro i e he
    exact (stopping_of_reaches h i (stopping_start _)).idle e (mem_after_late hfirst he)
  · intro i b result hb hdone hsucceeds
    obtain ⟨P,_,hP,hholds⟩ := ((pool_sound host registry g branches start).reaches
      (workers_apart g start _) h).threads i _ hdone
    have hends := hholds _ hP
    cases result with
    | error e => exact hsucceeds
    | ok ended =>
      obtain ⟨found,output⟩ := ended
      cases found with
      | some failure => exact hsucceeds
      | none => exact hends.ahead b (mem_late hfirst hb)

theorem Heralded.guarantee {seat : Seat} {s t : Run W} (hlength : Flagged start s)
    (hG : Guarantee start seat s t) (h : firstFailure (news start s) ≠ some .failed) :
    firstFailure (news start t) ≠ some .failed := by
  obtain ⟨⟨events,htrace,hown⟩,_,_⟩ := hG
  have hnews : news start t = news start s ++ events := by
    rw [news,htrace,List.drop_append_of_le_length hlength.1,news]
  have hcalm : ∀ e ∈ events, e.isFailure = false := by
    intro e he
    cases e with
    | taken at' ending =>
      have htaken := (hown _ he).1
      simp [Event.isTaken] at htaken
    | _ => rfl
  rw [hnews]
  rcases some_or_none (·.isFailure) (news start s) with hsome | hnone
  · rwa [firstFailure_append_of_some hsome]
  · rw [firstFailure_append_of_none hnone,firstFailure_eq_none hcalm]
    simp

theorem Heralded.collect {s : Run W} (hflagged : Flagged start s) (i : Nat)
    (b : Except Raised WorkerEnd)
    (hevent : (∃ e ∈ news start (collect g i b s), e.isFailure = true) →
      (collect g i b s).cancelled = true)
    (h : start.cancelled = true ∨ firstFailure (news start s) ≠ some .failed) :
    start.cancelled = true ∨ firstFailure (news start (collect g i b s)) ≠ some .failed := by
  have hnews : news start (Manager.collect g i b s) =
      news start s ++ [.taken (g.seat i) (takenAs b)] := by
    rw [news,collect_trace,List.drop_append_of_le_length hflagged.1,news]
  rcases h with hset | hne
  · exact .inl hset
  · rcases some_or_none (·.isFailure) (news start s) with hsome | hnone
    · right
      rwa [hnews,firstFailure_append_of_some hsome]
    · rw [hnews,firstFailure_append_of_none hnone]
      cases htaken : takenAs b with
      | succeeded => exact .inr (by simp [firstFailure])
      | raised => exact .inr (by simp [firstFailure])
      | failed =>
        left
        have hset := hevent ⟨.taken (g.seat i) (takenAs b),by simp [hnews],by simp [htaken,Event.isFailure]⟩
        rw [collect_cancelled,htaken] at hset
        obtain hset | ⟨e,he,hraise⟩ := hset
        · obtain hstart | ⟨e,he,hraise⟩ := hflagged.2.1 hset
          · exact hstart
          · have hfailure := hnone e he
            rw [Event.isFailure_of_isRaise hraise] at hfailure
            cases hfailure
        · obtain rfl := List.mem_singleton.1 he
          simp [Event.isRaise] at hraise

/-- In a group, run from any state and in any order of its workers, the siblings of a stage that
the joiner found failed are cancelled, in every state that is reached, exactly if in each the first
stage found failed is one whose worker raised. -/
theorem siblings_cancelled_iff (host : Host W S) (registry : Registry) (g : Group)
    (branches : List Branch) (start : Run W) :
    (∀ q, Reaches (collect g) (pool host registry g branches start) q → Signalled g start q) ↔
      ∀ q, Reaches (collect g) (pool host registry g branches start) q → Heralded start q := by
  constructor
  · intro hall q hq
    have hboth : Reaches (collect g) (pool host registry g branches start) q ∧
        Heralded start q := by
      refine hq.invariant (I := fun r =>
        Reaches (collect g) (pool host registry g branches start) r ∧ Heralded start r)
        ⟨.refl _,.inr (by simp [news,pool,firstFailure])⟩ ?_
      rintro r pick ⟨hr,hheralded⟩
      have hnext := hr.trans (Reaches.step r pick)
      refine ⟨hnext,?_⟩
      have hsound := (pool_sound host registry g branches start).reaches
        (workers_apart g start _) hr
      have hflagged := flagged_of_reaches hr
      obtain heq | ⟨i,hG⟩ | ⟨i,b,_,heq⟩ := hsound.moves (collect g) pick
      · rw [Heralded,heq]
        exact hheralded
      · exact hheralded.imp_right fun hne => Heralded.guarantee hflagged hG hne
      · have hevent := (hall _ hnext).event
        rw [heq] at hevent
        rw [Heralded,heq]
        exact Heralded.collect hflagged i b hevent hheralded
    exact hboth.2
  · intro hall q hq
    exact (hall q hq).signalled hq

def refusedHost : Host Unit String :=
  .plain (fun name => if name = "refused" then .result .none else .step "work" .none)
    fun _ _ _ => .ok ⟨false,"refused"⟩

def refusedGroup : Group :=
  ⟨.plain (.parallel ⟨[.named "refused",.named "busy"],by simp⟩) .none,"t#0",0,
    ⟨[.named "refused",.named "busy"],by simp⟩,⟨defaultEnvelope,zeroSeconds,0⟩,zeroSeconds,.none⟩

def refusedPool : Pool (Run Unit) (Except Raised WorkerEnd) :=
  pool refusedHost (.ofNames ["refused","busy"]) refusedGroup
    [⟨.named "refused","refused",zeroSeconds⟩,⟨.named "busy","busy",zeroSeconds⟩] (.start ())

/-- The first worker ends, the joiner takes its failure, and the other goes on. -/
def refusedPicks : List (Option Nat) :=
  List.replicate 30 (some 0) ++ [none] ++ List.replicate 30 (some 1)

/-- The failure was taken, and after a boundary that found the event clear the sibling worked on. -/
theorem sibling_goes_on : ¬ ∀ q, Reaches (collect refusedGroup) refusedPool q →
    Signalled refusedGroup (.start ()) q := by
  intro hall
  have hreach : Reaches (collect refusedGroup) refusedPool
      (refusedPool.steps (collect refusedGroup) refusedPicks) := ⟨refusedPicks,rfl⟩
  have hwork : (afterFirst (·.isBoundary (refusedGroup.seat 1)) (afterFirst (·.isFailure)
      (news (.start ()) (refusedPool.steps (collect refusedGroup) refusedPicks).shared))).any
        (·.isWork (refusedGroup.seat 1)) = true := by decide +kernel
  obtain ⟨e,he,hbusy⟩ := List.any_eq_true.1 hwork
  rw [(hall _ hreach).idle 1 e he] at hbusy
  cases hbusy

end

end AgentCentric.Manager

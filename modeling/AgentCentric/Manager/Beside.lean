import AgentCentric.Library.Lockstep
import AgentCentric.Manager.Backends

namespace AgentCentric.Manager
open Proc (act)

def Decision.wordless : Decision → Decision
  | .verified output => .verified output
  | .failure reason _ => .failure reason ""

def StoredOutcome.wordless (outcome : StoredOutcome Value) : StoredOutcome Value :=
  { outcome with message := "" }

def Outcome.wordless (outcome : Outcome) : Outcome :=
  { outcome with decision := outcome.decision.wordless }

def LogEntry.wordless : LogEntry → LogEntry
  | .step record => .step record
  | .outcome o => .outcome o.wordless

def Raised.wordless (r : Raised) : Raised := { r with text := "" }

def Taking.wordless : Taking → Taking
  | .stored => .stored
  | .refused _ => .refused ""
  | .raised r => .raised r.wordless

def StageFailure.wordless (failure : StageFailure) : StageFailure := ⟨failure.reason,""⟩

def Failed.wordless : (stageWorker : Bool) → Failed stageWorker → Failed stageWorker
  | false, outcome => Outcome.wordless outcome
  | true, failure => StageFailure.wordless failure

def LoopEnd.wordless {stageWorker : Bool} : LoopEnd stageWorker → LoopEnd stageWorker
  | .finished output => .finished output
  | .failed failure => .failed (failure.wordless stageWorker)

def answerWordless : Except Raised Outcome → Except Raised Outcome
  | .ok outcome => .ok outcome.wordless
  | .error r => .error r.wordless

theorem any_isOutcome_wordless (log : List LogEntry) :
    (log.map (·.wordless)).any (·.isOutcome) = log.any (·.isOutcome) := by
  induction log with
  | nil => rfl
  | cons entry log ih =>
    have hentry : entry.wordless.isOutcome = entry.isOutcome := by cases entry <;> rfl
    simp only [List.map_cons,List.any_cons,hentry,ih]

/-- It raises nothing, or an `Exception`. -/
def Resumption.ordinary {σ : Type} : Resumption σ → Bool
  | .raised r => r.ordinary
  | _ => true

def Resumption.yieldsResult {σ : Type} : Resumption σ → Bool
  | .yieldedResult _ _ => true
  | _ => false

/-- The agent starts, is sent JSON, yields no `AgentResult`, and raises nothing but `Exception`s.
What it does when it is cancelled does not matter otherwise. -/
def Exchange.clean {σ : Type} : Exchange σ → Bool
  | .started (.ok _) => true
  | .started (.error _) => false
  | .resumed (.cancelled _) r => r.ordinary
  | .resumed sent r => sent.isJson && r.ordinary && !r.yieldsResult
  | .closed none => true
  | .closed (some r) => r.ordinary

section
variable {W S σ : Type}

def Strays (s : Run (Hosted W σ)) : Prop := ∃ e ∈ s.world.exchanges, e.clean = false

theorem Strays.mono {s t : Run (Hosted W σ)} (h : Strays s)
    (hsub : ∀ e ∈ s.world.exchanges, e ∈ t.world.exchanges) : Strays t := by
  obtain ⟨e,he,hclean⟩ := h
  exact ⟨e,hsub e he,hclean⟩

/-- What else the Manager calls does the same from worlds that belong together by `E`. Once the
agent is done only `F` is left of that: neither the texts of messages nor the clock matter any
more. -/
structure Impartial (env : Host W S) (E F : W → W → Prop) : Prop where
  monotonic : ∀ w w', E w w' →
    (env.monotonic w).1 = (env.monotonic w').1 ∧ E (env.monotonic w).2 (env.monotonic w').2
  execute : ∀ name args w w', E w w' →
    (env.execute name args w).1 = (env.execute name args w').1 ∧
      E (env.execute name args w).2 (env.execute name args w').2
  begins : ∀ w w', E w w' →
    (env.begin w).1 = (env.begin w').1 ∧ E (env.begin w).2 (env.begin w').2
  append : ∀ record w w', E w w' →
    (env.append record w).1 = (env.append record w').1 ∧
      E (env.append record w).2 (env.append record w').2
  late : ∀ w w', E w w' → F w w'
  idle : ∀ w w', F w w' → F (env.monotonic w).2 w'
  record : ∀ outcome outcome' w w', F w w' → outcome.wordless = outcome'.wordless →
    (env.record outcome w).1.wordless = (env.record outcome' w').1.wordless ∧
      F (env.record outcome w).2 (env.record outcome' w').2

/-- How a generator and a child process belong together. -/
def Tied (gen : Option σ) (child : Child σ) (stdout : List Json) : Prop :=
  ∃ g, gen = some g ∧ child = .waiting g ∧ stdout = []

def Loose (_ : Option σ) (_ : Child σ) (_ : List Json) : Prop := True

/-- What the Manager knows is the same. -/
structure Alike (s : Run (Hosted W σ)) (t : Run (Piped W σ)) : Prop where
  steps : s.steps = t.steps
  log : s.log.map (·.wordless) = t.log.map (·.wordless)
  cancelled : s.cancelled = t.cancelled

structure Beside (E : W → W → Prop) (T : Option σ → Child σ → List Json → Prop)
    (s : Run (Hosted W σ)) (t : Run (Piped W σ)) : Prop where
  world : E s.world.world t.world.world
  tie : T s.world.gen t.world.child t.world.stdout
  alike : Alike s t

theorem alike_total (s : Run (Hosted W σ)) : ∃ t : Run (Piped W σ), Alike s t :=
  ⟨⟨⟨s.world.world,.exited,[]⟩,s.steps,s.log,s.cancelled,[]⟩,rfl,rfl,rfl⟩

theorem Beside.late {E F : W → W → Prop} {T : Option σ → Child σ → List Json → Prop}
    {s : Run (Hosted W σ)} {t : Run (Piped W σ)} (h : Beside E T s t)
    (hlate : ∀ w w', E w w' → F w w') : Beside F Loose s t :=
  ⟨hlate _ _ h.world,trivial,h.alike⟩

theorem Beside.loose {E : W → W → Prop} {T : Option σ → Child σ → List Json → Prop}
    {s : Run (Hosted W σ)} {t : Run (Piped W σ)} (h : Beside E T s t) : Beside E Loose s t :=
  h.late fun _ _ hE => hE

def Raises (F : W → W → Prop) (e f : Raised) (s : Run (Hosted W σ)) (t : Run (Piped W σ)) : Prop :=
  e.wordless = f.wordless ∧ Beside F Loose s t

abbrev Gives {α β : Type} (V : α → β → Prop) (R : Run (Hosted W σ) → Run (Piped W σ) → Prop) :
    α → β → Run (Hosted W σ) → Run (Piped W σ) → Prop :=
  fun a b s t => V a b ∧ R s t

abbrev Sim {α β : Type} (F : W → W → Prop) (R : Run (Hosted W σ) → Run (Piped W σ) → Prop)
    (Q : α → β → Run (Hosted W σ) → Run (Piped W σ) → Prop) (m : Do (Hosted W σ) α)
    (n : Do (Piped W σ) β) : Prop :=
  Act.Alongside Strays (Raises F) R Q m n

abbrev SimTask {α β : Type} (F : W → W → Prop) (R : Run (Hosted W σ) → Run (Piped W σ) → Prop)
    (Q : α → β → Run (Hosted W σ) → Run (Piped W σ) → Prop) (m : Task (Hosted W σ) α)
    (n : Task (Piped W σ) β) : Prop :=
  Proc.Alongside Strays (Raises F) R Q m n

end

section
variable {W S σ : Type} {env : Host W S} {agents : Agents σ} {E F : W → W → Prop}
  {T : Option σ → Child σ → List Json → Prop}

theorem sim_note {G : W → W → Prop} (event event' : Event) :
    Sim F (Beside G T) (Gives Eq (Beside G T)) (note event : Do (Hosted W σ) Unit)
      (note event' : Do (Piped W σ) Unit) :=
  Act.alongside_write (fun _ hs => hs.mono fun _ he => he) fun _ _ h =>
    ⟨rfl,h.world,h.tie,h.alike.steps,h.alike.log,h.alike.cancelled⟩

theorem sim_raising {α β : Type} {Q : α → β → Run (Hosted W σ) → Run (Piped W σ) → Prop}
    (place place' : Place) {r r' : Raised} (h : r.wordless = r'.wordless) :
    Sim F (Beside F Loose) Q (raising place r) (raising place' r') :=
  Act.alongside_bind_eq (sim_note _ _) fun _ => Act.alongside_raise fun _ _ hst => ⟨h,hst⟩

theorem sim_ask {α β : Type} {G G' : W → W → Prop} {V : α → β → Prop} {call : W → α × W}
    {call' : W → β × W}
    (h : ∀ w w', G w w' → V (call w).1 (call' w').1 ∧ G' (call w).2 (call' w').2) :
    Sim F (Beside G T) (Gives V (Beside G' T)) (ask (Hosted.ask call)) (ask (Piped.ask call')) := by
  refine ⟨fun s hs => hs.mono fun _ he => he,fun s t hst => .inr ?_⟩
  obtain ⟨hV,hworld⟩ := h _ _ hst.world
  exact ⟨hV,hworld,hst.tie,hst.alike.steps,hst.alike.log,hst.alike.cancelled⟩

theorem sim_read {G : W → W → Prop} {α β : Type}
    {Q : α → β → Run (Hosted W σ) → Run (Piped W σ) → Prop}
    {f : Run (Hosted W σ) → Do (Hosted W σ) α} {g : Run (Piped W σ) → Do (Piped W σ) β}
    (hf : ∀ s t, Alike s t → Sim F (Beside G T) Q (f s) (g t)) :
    Sim F (Beside G T) Q (Act.read >>= f) (Act.read >>= g) :=
  Act.alongside_read (fun _ _ h => h.alike) alike_total hf

theorem sim_logged {G : W → W → Prop} {entry entry' : LogEntry}
    (h : entry.wordless = entry'.wordless) : Sim F (Beside G T) (Gives Eq (Beside G T))
      (Act.write fun s : Run (Hosted W σ) => { s with log := s.log ++ [entry] })
      (Act.write fun t : Run (Piped W σ) => { t with log := t.log ++ [entry'] }) := by
  refine Act.alongside_write (fun _ hs => hs.mono fun _ he => he) fun s t hst =>
    ⟨rfl,hst.world,hst.tie,hst.alike.steps,?_,hst.alike.cancelled⟩
  rw [List.map_append,List.map_append,hst.alike.log,List.map_cons,List.map_cons,h,List.map_nil]

theorem sim_stepped {G : W → W → Prop} (record : StepRecord Value) :
    Sim F (Beside G T) (Gives Eq (Beside G T))
      (Act.write fun s : Run (Hosted W σ) => { s with steps := s.steps ++ [record] })
      (Act.write fun t : Run (Piped W σ) => { t with steps := t.steps ++ [record] }) := by
  refine Act.alongside_write (fun _ hs => hs.mono fun _ he => he) fun s t hst =>
    ⟨rfl,hst.world,hst.tie,?_,hst.alike.log,hst.alike.cancelled⟩
  show s.steps ++ [record] = t.steps ++ [record]
  rw [hst.alike.steps]

theorem sim_storeAppend (hE : Impartial env E F) (place : Place) (record : StepRecord Value) :
    Sim F (Beside E T) (Gives Eq (Beside E T)) (storeAppend (inProcess env agents) place record)
      (storeAppend (subprocess env agents) place record) := by
  refine Act.alongside_bind_eq (sim_ask (hE.append record)) fun taking => ?_
  cases taking with
  | stored =>
    exact Act.alongside_bind_eq (sim_logged rfl) fun _ => Act.alongside_pure fun _ _ h => ⟨rfl,h⟩
  | refused text =>
    exact Act.alongside_bind_eq (sim_note _ _) fun _ => Act.alongside_pure fun _ _ h => ⟨rfl,h⟩
  | raised r =>
    refine Act.alongside_bind_eq (sim_note _ _) fun _ => ?_
    exact Act.alongside_weaken (sim_raising place place rfl) (fun _ _ h => h.late hE.late)
      fun _ _ _ _ h => h

theorem sim_appendStep (hE : Impartial env E F) (place : Place) (record : StepRecord Value) :
    Sim F (Beside E T) (Gives Eq (Beside E T)) (appendStep (inProcess env agents) place record)
      (appendStep (subprocess env agents) place record) := by
  refine sim_read fun s t hst => ?_
  rw [hst.steps]
  exact Act.alongside_bind_eq (sim_stepped _) fun _ => sim_storeAppend hE place _

theorem Alike.any_isOutcome {s : Run (Hosted W σ)} {t : Run (Piped W σ)} (h : Alike s t) :
    s.log.any (·.isOutcome) = t.log.any (·.isOutcome) := by
  rw [← any_isOutcome_wordless s.log,h.log,any_isOutcome_wordless]

theorem sim_storeOutcome (hE : Impartial env E F) (place : Place) (trail : Trail)
    {outcome outcome' : StoredOutcome Value} (h : outcome.wordless = outcome'.wordless) :
    Sim F (Beside F Loose) (Gives (fun a b : Option String => a.isSome = b.isSome) (Beside F Loose))
      (storeOutcome (inProcess env agents) place trail outcome)
      (storeOutcome (subprocess env agents) place trail outcome') := by
  refine sim_read fun s t hst => ?_
  rw [hst.any_isOutcome]
  refine Act.alongside_ite (fun _ => Act.alongside_pure fun _ _ hst => ⟨rfl,hst⟩) fun _ => ?_
  have htakes : Sim F (Beside F Loose)
      (Gives (fun a b : Taking => a.wordless = b.wordless) (Beside F Loose))
      (ask ((inProcess env agents).record outcome))
      (ask ((subprocess env agents).record outcome')) :=
    sim_ask fun w w' hw => hE.record outcome outcome' w w' hw h
  refine Act.alongside_bind_of htakes (fun a => ⟨a,rfl⟩) fun taking taking' hsame => ?_
  cases taking with
  | stored =>
    cases taking' with
    | stored =>
      refine Act.alongside_bind_eq (sim_logged ?_) fun _ =>
        Act.alongside_pure fun _ _ hst => ⟨rfl,hst⟩
      rw [LogEntry.wordless,LogEntry.wordless,h]
    | refused text => cases hsame
    | raised r => cases hsame
  | refused text =>
    cases taking' with
    | stored => cases hsame
    | refused text' => exact Act.alongside_pure fun _ _ hst => ⟨rfl,hst⟩
    | raised r => cases hsame
  | raised r =>
    cases taking' with
    | stored => cases hsame
    | refused text => cases hsame
    | raised r' => exact sim_raising place place (Taking.raised.inj hsame)

theorem sim_sealSteps (place : Place) :
    Sim F (Beside F Loose) (Gives Eq (Beside F Loose)) (sealSteps (W := Hosted W σ) place)
      (sealSteps (W := Piped W σ) place) := by
  refine sim_read fun s t hst => ?_
  rw [hst.steps]
  cases indexError 0 t.steps with
  | none => exact Act.alongside_pure fun _ _ h => ⟨rfl,h⟩
  | some message => exact sim_raising place place rfl

theorem sim_recordFailure (hE : Impartial env E F) (place : Place) (trail : Trail)
    (reason : FailureReason) (message message' : String) : Sim F (Beside F Loose)
      (Gives (fun a b : Outcome => a.wordless = b.wordless) (Beside F Loose))
      (recordFailure (inProcess env agents) place trail reason message)
      (recordFailure (subprocess env agents) place trail reason message') := by
  refine Act.alongside_bind_of (sim_storeOutcome hE place trail rfl) (fun a => ⟨a,rfl⟩)
    fun refused refused' hsame => ?_
  cases refused with
  | none =>
    cases refused' with
    | none =>
      exact Act.alongside_bind_eq (sim_sealSteps place) fun steps =>
        Act.alongside_pure fun _ _ h => ⟨rfl,h⟩
    | some text => cases hsame
  | some text =>
    cases refused' with
    | none => cases hsame
    | some text' => exact Act.alongside_pure fun _ _ h => ⟨rfl,h⟩

theorem sim_recordSuccess (hE : Impartial env E F) (trail : Trail) (output : Value) :
    Sim F (Beside F Loose) (Gives (fun a b : Outcome => a.wordless = b.wordless) (Beside F Loose))
      (recordSuccess (inProcess env agents) trail output)
      (recordSuccess (subprocess env agents) trail output) := by
  refine Act.alongside_bind_of (sim_storeOutcome hE .caller trail rfl) (fun a => ⟨a,rfl⟩)
    fun refused refused' hsame => ?_
  cases refused with
  | none =>
    cases refused' with
    | none =>
      exact Act.alongside_bind_eq (sim_sealSteps .caller) fun steps =>
        Act.alongside_pure fun _ _ h => ⟨rfl,h⟩
    | some text => cases hsame
  | some text =>
    cases refused' with
    | none => cases hsame
    | some text' => exact sim_recordFailure hE .caller trail .internal _ _

theorem sim_storeBegin (hE : Impartial env E F) :
    Sim F (Beside E T) (Gives Eq (Beside E T)) (storeBegin (inProcess env agents))
      (storeBegin (subprocess env agents)) := by
  refine Act.alongside_bind_eq (sim_ask hE.begins) fun taking => ?_
  cases taking with
  | stored => exact Act.alongside_pure fun _ _ h => ⟨rfl,h⟩
  | refused text => exact Act.alongside_pure fun _ _ h => ⟨rfl,h⟩
  | raised r =>
    exact Act.alongside_weaken (sim_raising .caller .caller rfl) (fun _ _ h => h.late hE.late)
      fun _ _ _ _ h => h

theorem sim_clock (hE : Impartial env E F) :
    Sim F (Beside E T) (Gives Eq (Beside E T)) (clock (inProcess env agents))
      (clock (subprocess env agents)) :=
  sim_ask hE.monotonic

theorem sim_elapsedSince (hE : Impartial env E F) (start : Decimal) :
    Sim F (Beside E T) (Gives Eq (Beside E T)) (elapsedSince (inProcess env agents) start)
      (elapsedSince (subprocess env agents) start) :=
  Act.alongside_bind_eq (sim_clock hE) fun _ => Act.alongside_pure fun _ _ h => ⟨rfl,h⟩

theorem sim_stepCount {G : W → W → Prop} :
    Sim F (Beside G T) (Gives Eq (Beside G T)) (stepCount : Do (Hosted W σ) Nat)
      (stepCount : Do (Piped W σ) Nat) := by
  refine sim_read fun s t hst => ?_
  rw [hst.steps]
  exact Act.alongside_pure fun _ _ h => ⟨rfl,h⟩

end

end AgentCentric.Manager

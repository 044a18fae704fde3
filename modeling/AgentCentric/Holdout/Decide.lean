import AgentCentric.Library.Numerals

namespace AgentCentric.Holdout
open Double

inductive RunOutcome where
  | pass | fail
  /-- The instance never ran the scenario. -/
  | error
  deriving DecidableEq

inductive Priority where
  | high | normal
  deriving DecidableEq

inductive ScenarioVerdict where
  | pass | fail | nondeterministic | insufficient
  deriving DecidableEq

structure ScenarioRuns where
  scenarioId : String
  priority : Priority
  runs : List RunOutcome
  deriving DecidableEq

structure RunVerdict where
  green : Bool
  aggregate : Rat
  scenarios : List (String × ScenarioVerdict)

/-- `RUNS`. -/
def runCount : Nat := 3

def supermajority : Nat := 2

namespace ScenarioRuns

def decisive (s : ScenarioRuns) : List RunOutcome := s.runs.filter (· ≠ .error)

def evaluate (s : ScenarioRuns) : ScenarioVerdict :=
  if s.decisive = [] then .insufficient
  else if .pass ∈ s.decisive ∧ .fail ∈ s.decisive then .nondeterministic
  else match s.priority with
    | .high => if s.runs.length = runCount ∧ ∀ run ∈ s.runs, run = .pass then .pass else .fail
    | .normal =>
      if (∀ run ∈ s.decisive, run = .pass) ∧ supermajority ≤ s.decisive.length then .pass
      else .fail

end ScenarioRuns

def byId (scenarios : List ScenarioRuns) : List (String × ScenarioRuns) :=
  scenarios.foldl (fun d s => Dict.insert d s.scenarioId s) []

/-- `by_id[scenario_id].priority`. -/
def priorityOf (scenarios : List ScenarioRuns) (id : String) : Option Priority :=
  (Dict.lookup (byId scenarios) id).map ScenarioRuns.priority

def share (results : List (String × ScenarioVerdict)) : Rat :=
  trueDiv (results.filter (·.2 = .pass)).length results.length

def decide (scenarios : List ScenarioRuns) (threshold : Rat) : RunVerdict :=
  if scenarios = [] then ⟨false,0,[]⟩
  else
    let results := scenarios.map fun s => (s.scenarioId,s.evaluate)
    let highBad := results.any fun r => priorityOf scenarios r.1 = some .high && r.2 ≠ .pass
    let normals := results.filter fun r => priorityOf scenarios r.1 = some .normal
    let aggregate := if normals = [] then 1 else share normals
    ⟨!highBad && threshold ≤ aggregate,aggregate,results⟩

def Priority.ofText (t : String) : Except String Priority :=
  if t = "high" then .ok .high
  else if t = "normal" then .ok .normal
  else .error (pyRepr t ++ " is not a valid Priority")

def RunOutcome.ofText (t : String) : Except String RunOutcome :=
  if t = "pass" then .ok .pass
  else if t = "fail" then .ok .fail
  else if t = "error" then .ok .error
  else .error (pyRepr t ++ " is not a valid RunOutcome")

/-- `str(value)`. -/
def textOf : Json → String
  | .str s => s
  | other => other.repr

/-- `item[key]`. -/
def member (fields : List (String × Json)) (key : String) : Except String Json :=
  expect (Dict.lookup fields key) (pyRepr key)

def elements : Json → Except String (List Json)
  | .list xs => .ok xs
  | .str s => .ok (s.toList.map fun c => .str (String.ofList [c]))
  | .dict fields => .ok (fields.map fun field => .str field.1)
  | other => .error ("'" ++ other.typeName ++ "' object is not iterable")

def parseFields (fields : List (String × Json)) : Except String ScenarioRuns := do
  let id ← member fields "id"
  let priority ← member fields "priority"
  let priority ← Priority.ofText (textOf priority)
  let runs ← member fields "runs"
  let runs ← elements runs
  let runs ← runs.mapM fun value => RunOutcome.ofText (textOf value)
  pure ⟨textOf id,priority,runs⟩

def parseScenario : Json → Except String ScenarioRuns
  | .dict fields =>
    match parseFields fields with
    | .ok s => .ok s
    | .error e => .error ("malformed scenario: " ++ e)
  | _ => .error "each scenario must be an object"

def inOrder (a b : ScenarioRuns) : Bool := a.scenarioId ≤ b.scenarioId

/-- `_parse_decide_scenarios`: an error is a refusal. -/
def parseDecideScenarios : Json → Except String (List ScenarioRuns)
  | .dict document =>
    match Dict.lookup document "scenarios" with
    | some (.list raw) => do
      let scenarios ← raw.mapM parseScenario
      pure (scenarios.insertionSort fun a b => inOrder a b)
    | _ => .error "decide input needs a 'scenarios' list"
  | _ => .error "decide input must be a JSON object"

namespace ScenarioRuns

def Passes (s : ScenarioRuns) : Prop :=
  match s.priority with
  | .high => s.runs.length = runCount ∧ ∀ run ∈ s.runs, run = .pass
  | .normal => supermajority ≤ s.decisive.length ∧ ∀ run ∈ s.decisive, run = .pass

theorem evaluate_pass {s : ScenarioRuns} : s.evaluate = .pass ↔ s.Passes := by
  have hfail : ∀ runs : List RunOutcome, (∀ run ∈ runs, run = .pass) → .fail ∉ runs :=
    fun runs hall hmem => nomatch hall _ hmem
  unfold evaluate Passes
  cases s.priority with
  | high =>
    by_cases hall : s.runs.length = runCount ∧ ∀ run ∈ s.runs, run = .pass
    · obtain ⟨hlength,hpass⟩ := hall
      have hdecisive : s.decisive = s.runs :=
        List.filter_eq_self.2 fun run hrun => by simp [hpass run hrun]
      have hne : s.runs ≠ [] := by
        intro hnil
        rw [hnil] at hlength
        cases hlength
      simp [hdecisive,hne,hlength,hfail _ hpass]
    · simp only [hall,if_false,iff_false]
      split
      · simp
      · split <;> simp
  | normal =>
    by_cases hall : (∀ run ∈ s.decisive, run = .pass) ∧ supermajority ≤ s.decisive.length
    · have hne : s.decisive ≠ [] := by
        intro hnil
        rw [hnil] at hall
        exact absurd hall.2 (by simp [supermajority])
      simp [hne,hfail _ hall.1,hall.2]
    · have hswap : ¬ (supermajority ≤ s.decisive.length ∧ ∀ run ∈ s.decisive, run = .pass) :=
        fun h => hall h.symm
      simp only [hall,hswap,if_false,iff_false]
      split
      · simp
      · split <;> simp

instance (s : ScenarioRuns) : Decidable s.Passes :=
  decidable_of_iff _ evaluate_pass

end ScenarioRuns

def normals (scenarios : List ScenarioRuns) : List ScenarioRuns :=
  scenarios.filter (·.priority = .normal)

def passing (scenarios : List ScenarioRuns) : List ScenarioRuns :=
  scenarios.filter (·.evaluate = .pass)

structure Green (scenarios : List ScenarioRuns) (threshold : Rat) : Prop where
  some : scenarios ≠ []
  high : ∀ s ∈ scenarios, s.priority = .high → s.Passes
  enough : normals scenarios = [] ∨
    threshold ≤ trueDiv (passing (normals scenarios)).length (normals scenarios).length

end AgentCentric.Holdout

namespace AgentCentric.Holdout

abbrev Probe := List (String × Json)

structure Scenario where
  scenarioId : String
  priority : Priority
  probe : Probe

section
variable {D : Type}

/-- What a backend does in a working directory: an outcome, or an exception, and what it leaves
there. -/
abbrev Backend (D : Type) := Probe → D → Option RunOutcome × D

def expectExit (probe : Probe) : Int :=
  match (Dict.lookup probe "expect_exit").getD (.int 0) with
  | .int n => n
  | .bool b => b.toNat
  | _ => 0

/-- `TaskBackend.run`. A task that is no file is not there, one that cannot start gives nothing. -/
def taskBackend (tasks : String → Option (D → Option (Int × D))) : Backend D := fun probe workdir =>
  match Dict.lookup probe "target" with
  | none => (none,workdir)
  | some target =>
    match tasks (textOf target) with
    | none => (some .error,workdir)
    | some task =>
      match task workdir with
      | none => (some .error,workdir)
      | some (returncode,left) =>
        (some (if returncode = expectExit probe then .pass else .fail),left)

/-- `HoldoutBackend.run`. -/
def holdoutBackend (task service : Backend D) : Backend D := fun probe workdir =>
  match Dict.lookup probe "kind" with
  | some (.str "task") => task probe workdir
  | some (.str "service") => service probe workdir
  | _ => (some .error,workdir)

/-- The directories `run-0`, `run-1`, … of a base, those that are there. -/
abbrev Base (D : Type) := Nat → Option D

structure Run (D : Type) where
  start : D
  outcome : RunOutcome

variable (backend : Backend D) (empty : D)

/-- `make_backend`: a directory that is there stays as it is. -/
def workdirOf (base : Base D) (attempt : Nat) : D := (base attempt).getD empty

def runIn (probe : Probe) (workdir : D) : Run D := ⟨workdir,(backend probe workdir).1.getD .error⟩

def runAttempts (probe : Probe) : List Nat → Base D → List (Run D) × Base D
  | [], base => ([],base)
  | attempt :: attempts, base =>
    let workdir := workdirOf empty base attempt
    let left := Function.update base attempt (some (backend probe workdir).2)
    let rest := runAttempts probe attempts left
    (runIn backend probe workdir :: rest.1,rest.2)

def runScenarios : List Scenario → Base D → List (Scenario × List (Run D)) × Base D
  | [], base => ([],base)
  | scenario :: scenarios, base =>
    let runs := runAttempts backend empty scenario.probe (List.range runCount) base
    let rest := runScenarios scenarios runs.2
    ((scenario,runs.1) :: rest.1,rest.2)

def toRuns (result : Scenario × List (Run D)) : ScenarioRuns :=
  ⟨result.1.scenarioId,result.1.priority,result.2.map Run.outcome⟩

def runSuite (suite : List Scenario) (threshold : Rat) (base : Base D) : RunVerdict × Base D :=
  let results := runScenarios backend empty suite base
  (decide (results.1.map toRuns) threshold,results.2)

theorem runAttempts_eq (probe : Probe) (attempts : List Nat) (h : attempts.Nodup) (base : Base D) :
    runAttempts backend empty probe attempts base =
      (attempts.map fun attempt => runIn backend probe (workdirOf empty base attempt),
        fun attempt => if attempt ∈ attempts then
          some (backend probe (workdirOf empty base attempt)).2 else base attempt) := by
  induction attempts generalizing base with
  | nil => simp [runAttempts]
  | cons attempt attempts ih =>
    obtain ⟨hnew,hrest⟩ := List.nodup_cons.1 h
    have hother : ∀ other, other ≠ attempt →
        workdirOf empty (Function.update base attempt
          (some (backend probe (workdirOf empty base attempt)).2)) other =
        workdirOf empty base other := by
      intro other hne
      simp [workdirOf,Function.update_of_ne hne]
    rw [runAttempts,ih hrest]
    refine Prod.ext ?_ ?_
    · simp only [List.map_cons,List.cons.injEq,true_and]
      refine List.map_congr_left fun other hother' => ?_
      rw [hother other fun heq => hnew (heq ▸ hother')]
    · funext other
      by_cases heq : other = attempt
      · subst heq
        simp [hnew]
      · simp [heq,hother other heq]

def alone (scenario : Scenario) : List (Run D) :=
  (runAttempts backend empty scenario.probe (List.range runCount) fun _ => none).1

structure Isolated (suite : List Scenario) (base : Base D) : Prop where
  starts : ∀ result ∈ (runScenarios backend empty suite base).1, ∀ run ∈ result.2,
    run.start = empty
  outcomes : ∀ result ∈ (runScenarios backend empty suite base).1,
    result.2.map Run.outcome = (alone backend empty result.1).map Run.outcome

structure Clean (suite : List Scenario) (base : Base D) : Prop where
  base : suite ≠ [] → ∀ attempt < runCount, workdirOf empty base attempt = empty
  probes : ∀ scenario ∈ suite.dropLast, (backend scenario.probe empty).2 = empty

theorem alone_eq (scenario : Scenario) :
    alone backend empty scenario = List.replicate runCount (runIn backend scenario.probe empty) := by
  rw [alone,runAttempts_eq backend empty _ _ List.nodup_range]
  simp [workdirOf,List.map_const']

theorem starts_iff_clean (suite : List Scenario) (base : Base D) :
    (∀ result ∈ (runScenarios backend empty suite base).1, ∀ run ∈ result.2,
      run.start = empty) ↔ Clean backend empty suite base := by
  induction suite generalizing base with
  | nil => exact ⟨fun _ => ⟨fun h => absurd rfl h,by simp⟩,fun _ => by simp [runScenarios]⟩
  | cons scenario scenarios ih =>
    rw [runScenarios,runAttempts_eq backend empty _ _ List.nodup_range]
    simp only [List.mem_cons,forall_eq_or_imp,ih,List.forall_mem_map,List.mem_range,runIn]
    constructor
    · rintro ⟨hstart,hrest⟩
      refine ⟨fun _ => hstart,fun other hother => ?_⟩
      cases scenarios with
      | nil => simp at hother
      | cons next scenarios =>
        rw [List.dropLast_cons_cons,List.mem_cons] at hother
        rcases hother with rfl | hother
        · have hfirst := hrest.base (by simp) 0 (by decide)
          have hempty : (base 0).getD empty = empty := hstart 0 (by decide)
          simpa [workdirOf,runCount,hempty] using hfirst
        · exact hrest.probes other hother
    · intro h
      have hstart := h.base (by simp)
      refine ⟨hstart,?_,?_⟩
      · intro hne attempt hattempt
        obtain ⟨next,more,rfl⟩ := List.exists_cons_of_ne_nil hne
        have hempty : (base attempt).getD empty = empty := hstart attempt hattempt
        have hleft := h.probes scenario (by simp)
        simp [workdirOf,hattempt,hempty,hleft]
      · intro other hother
        cases scenarios with
        | nil => simp at hother
        | cons next scenarios =>
          exact h.probes other (by simp [List.dropLast_cons_cons,hother])

theorem runs_eq {suite : List Scenario} {base : Base D} {result : Scenario × List (Run D)}
    (h : result ∈ (runScenarios backend empty suite base).1) : result.2.length = runCount ∧
      ∀ run ∈ result.2, run = runIn backend result.1.probe run.start := by
  induction suite generalizing base with
  | nil => simp [runScenarios] at h
  | cons scenario scenarios ih =>
    rw [runScenarios,List.mem_cons] at h
    rcases h with rfl | h
    · rw [runAttempts_eq backend empty _ _ List.nodup_range]
      refine ⟨by simp,fun run hrun => ?_⟩
      obtain ⟨attempt,-,rfl⟩ := List.mem_map.1 hrun
      rfl
    · exact ih h

/-- Runs are independent exactly when nothing is left behind. -/
theorem isolated_iff_clean (suite : List Scenario) (base : Base D) :
    Isolated backend empty suite base ↔ Clean backend empty suite base := by
  rw [← starts_iff_clean]
  constructor
  · exact fun h => h.starts
  · intro hstarts
    refine ⟨hstarts,fun result hresult => ?_⟩
    obtain ⟨hlength,hruns⟩ := runs_eq backend empty hresult
    have hall : result.2 = List.replicate runCount (runIn backend result.1.probe empty) := by
      rw [List.eq_replicate_iff]
      refine ⟨hlength,fun run hrun => ?_⟩
      rw [hruns run hrun,hstarts result hresult run hrun]
    rw [alone_eq,hall]

end

/-- `seed` leaves a file, `check` fails where there is one. -/
def leavingTasks (target : String) : Option (List String → Option (Int × List String)) :=
  if target = "seed" then some fun files => some (0,"cache" :: files)
  else if target = "check" then some fun files => some (if files = [] then 0 else 1,files)
  else none

def leavingBackend : Backend (List String) :=
  holdoutBackend (taskBackend leavingTasks) fun _ workdir => (none,workdir)

def taskScenario (id target : String) : Scenario :=
  ⟨id,.high,[("kind",.str "task"),("target",.str target)]⟩

/-- The second scenario passes alone and fails after the first one. -/
theorem check_after_seed :
    (runSuite leavingBackend [] [taskScenario "HO-2" "check"] 1 fun _ => none).1.green = true ∧
    (runSuite leavingBackend [] [taskScenario "HO-1" "seed",taskScenario "HO-2" "check"] 1
      fun _ => none).1.green = false ∧
    ¬ Isolated leavingBackend [] [taskScenario "HO-1" "seed",taskScenario "HO-2" "check"]
      fun _ => none := by
  refine ⟨by decide +kernel,by decide +kernel,fun h => ?_⟩
  have hstart := ((starts_iff_clean leavingBackend [] _ _).1 h.starts).probes
    (taskScenario "HO-1" "seed") (by simp)
  exact absurd hstart (by decide +kernel)

end AgentCentric.Holdout

import AgentCentric.Driver.Orchestrate

namespace AgentCentric.Orchestrate
variable {α β : Type} {builtins : Builtins} {verifier : Option String}
  {items : List (String × Json)} {P Q : Prop}

def Escapes (e : PlanError) : Prop := ∀ m, e ≠ .valueError m

theorem not_escapes_value (m : String) : ¬Escapes (.valueError m) := fun h => h m rfl

theorem escapes_type (m : String) : Escapes (.typeError m) := fun _ h => by cases h
theorem escapes_overflow (m : String) : Escapes (.overflowError m) := fun _ h => by cases h

/-- A run returns just when `P` holds, and raises what is not caught just when `Q` does. -/
def Ends (x : Except PlanError α) (P Q : Prop) : Prop :=
  ((∃ a, x = .ok a) ↔ P) ∧ ((∃ e, Escapes e ∧ x = .error e) ↔ Q)

@[simp] theorem ends_ok (a : α) : Ends (.ok a) P Q ↔ P ∧ ¬Q := by
  simp [Ends]

@[simp] theorem ends_value (m : String) :
    Ends (.error (.valueError m) : Except PlanError α) P Q ↔ ¬P ∧ ¬Q := by
  simp [Ends,Escapes]

@[simp] theorem ends_type (m : String) :
    Ends (.error (.typeError m) : Except PlanError α) P Q ↔ ¬P ∧ Q := by
  simp [Ends,Escapes]

@[simp] theorem ends_overflow (m : String) :
    Ends (.error (.overflowError m) : Except PlanError α) P Q ↔ ¬P ∧ Q := by
  simp [Ends,Escapes]

theorem Ends.map {x : Except PlanError α} (h : Ends x P Q) (g : α → β) :
    Ends (x >>= fun a => pure (g a)) P Q := by
  cases x with
  | ok a =>
    rw [ends_ok] at h
    exact (ends_ok (g a)).mpr h
  | error e =>
    refine ⟨?_,?_⟩
    · rw [← h.1]
      constructor
      · rintro ⟨b,hb⟩
        cases hb
      · rintro ⟨a,ha⟩
        cases ha
    · rw [← h.2]
      constructor
      · rintro ⟨d,hd,heq⟩
        obtain rfl := Except.error.inj heq
        exact ⟨e,hd,rfl⟩
      · rintro ⟨d,hd,heq⟩
        obtain rfl := Except.error.inj heq
        exact ⟨e,hd,rfl⟩

theorem Ends.congr {x : Except PlanError α} {P' Q' : Prop} (h : Ends x P Q) (hP : P ↔ P')
    (hQ : Q ↔ Q') : Ends x P' Q' :=
  ⟨h.1.trans hP,h.2.trans hQ⟩

theorem ends_mapFrom {f : Nat → α → Except PlanError β} {P Q : α → Prop}
    (h : ∀ i x, Ends (f i x) (P x) (Q x)) (i : Nat) (xs : List α) :
    Ends (mapFrom f i xs) (∀ x ∈ xs, P x) (First P Q xs) :=
  ⟨mapFrom_returns fun i x => (h i x).1,mapFrom_raises (fun i x => (h i x).1) fun i x => (h i x).2⟩

/-- A sequence of two, the first of which can be a key. -/
def Keyed (element : Json) : Prop :=
  ∃ key value, element.iterate = some [key,value] ∧ hashable key = true

/-- No sequence, or one of two, the first of which cannot be a key. -/
def Mistyped (element : Json) : Prop :=
  element.iterate = none ∨ ∃ key value, element.iterate = some [key,value] ∧ hashable key = false

theorem pairOf_ends (i : Nat) (element : Json) :
    Ends (pairOf i element) (Keyed element) (Mistyped element) := by
  rw [pairOf,Keyed,Mistyped]
  split
  · rename_i heq
    simp [heq]
  · rename_i key value heq
    cases hkey : hashable key with
    | true =>
      refine (ends_ok (key,value)).mpr ?_
      simp [heq,hkey]
    | false =>
      refine (ends_type _).mpr ?_
      simp [heq,hkey]
  · rename_i parts hne heq
    have hparts : ∀ key value, parts ≠ [key,value] := fun key value h => hne key value (h ▸ rfl)
    simp [heq,hparts]

/-- Arguments that a dictionary can be made from, or false ones, which are none. -/
def ArgsFit (args : Json) : Prop :=
  args.truthy = false ∨ (∃ items, args = .dict items) ∨
    ∃ elements, args.iterate = some elements ∧ ∀ element ∈ elements, Keyed element

/-- Arguments that are no object, where it is a type that is wrong first. -/
def ArgsEscape (args : Json) : Prop :=
  args.truthy = true ∧ (¬∃ items, args = .dict items) ∧
    (args.iterate = none ∨ ∃ elements, args.iterate = some elements ∧
      First Keyed Mistyped elements)

theorem dictOf_other {value : Json} (h : ¬∃ items, value = .dict items) :
    dictOf value = match value.iterate with
      | none => .error (.typeError ("'" ++ value.typeName ++ "' object is not iterable"))
      | some elements => dictOfElements elements := by
  cases value with
  | dict items => exact absurd ⟨items,rfl⟩ h
  | _ => rfl

theorem dictOfElements_ends (elements : List Json) :
    Ends (dictOfElements elements) (∀ element ∈ elements, Keyed element)
      (First Keyed Mistyped elements) :=
  (ends_mapFrom pairOf_ends 0 elements).map fun pairs => pairs.foldl setItem []

theorem argsOf_ends (args : Json) : Ends (argsOf args) (ArgsFit args) (ArgsEscape args) := by
  rw [argsOf,ArgsFit,ArgsEscape]
  cases htruthy : args.truthy with
  | false => simp
  | true =>
    by_cases hdict : ∃ items, args = .dict items
    · obtain ⟨items,rfl⟩ := hdict
      simp [dictOf]
    · rw [if_pos rfl,dictOf_other hdict]
      cases args.iterate with
      | none => simp [hdict]
      | some elements => simpa [hdict] using dictOfElements_ends elements

def StepFits (step : Json) : Prop :=
  (textOf (get (fieldsOf step) "task")).isSome ∧ ArgsFit (get (fieldsOf step) "args")

def StepEscapes (step : Json) : Prop :=
  (textOf (get (fieldsOf step) "task")).isSome ∧ ArgsEscape (get (fieldsOf step) "args")

theorem stepOf_ends (verifier : Option String) (i : Nat) (step : Json) :
    Ends (stepOf verifier i step) (StepFits step) (StepEscapes step) := by
  rw [StepFits,StepEscapes,stepOf]
  cases htask : textOf (get (fieldsOf step) "task") with
  | none =>
    refine (ends_value _).mpr ?_
    simp
  | some task =>
    refine ((argsOf_ends (get (fieldsOf step) "args")).map _).congr ?_ ?_
    · simp
    · simp

theorem task_of_stepOf {i : Nat} {step : Json} {s : PlanStep}
    (h : stepOf verifier i step = .ok s) : s.task ≠ "" := by
  obtain ⟨task,htask,h⟩ := bind_ok.mp h
  obtain ⟨args,-,h⟩ := bind_ok.mp h
  obtain rfl := Except.ok.inj h
  have htext := expect_ok.mp htask
  rw [textOf.eq_def] at htext
  split at htext
  · split at htext
    · cases htext
    · rename_i hne
      obtain rfl := Option.some.inj htext
      exact hne
  · cases htext

theorem planFromArtifact_ends : Ends (planFromArtifact verifier items)
      (∃ steps, offered items = some steps ∧ steps.length ≤ defaultStepLimit ∧
        ∀ step ∈ steps, StepFits step)
      (∃ steps, offered items = some steps ∧ steps.length ≤ defaultStepLimit ∧
        First StepFits StepEscapes steps) := by
  rw [planFromArtifact]
  cases offered items with
  | none =>
    refine (ends_value _).mpr ?_
    simp
  | some steps =>
    change Ends (stepsFromList verifier steps) _ _
    rw [stepsFromList]
    by_cases hlength : steps.length ≤ defaultStepLimit
    · have hrequire (e : PlanError) : require (decide (steps.length ≤ defaultStepLimit)) e =
          .ok () := if_pos (decide_eq_true hlength)
      rw [hrequire]
      refine (ends_mapFrom (stepOf_ends verifier) 0 steps).congr ?_ ?_
      · simp [hlength]
      · simp [hlength]
    · have hrequire (e : PlanError) : require (decide (steps.length ≤ defaultStepLimit)) e =
          .error e := if_neg (by simpa using hlength)
      rw [hrequire]
      refine (ends_value _).mpr ?_
      simp [hlength]

theorem planFromArtifact_ok {plan : List PlanStep}
    (h : planFromArtifact verifier items = .ok plan) :
    plan.length ≤ defaultStepLimit ∧ ∀ step ∈ plan, step.task ≠ "" := by
  obtain ⟨steps,-,h⟩ := bind_ok.mp h
  obtain ⟨_,hlength,h⟩ := bind_ok.mp h
  constructor
  · rw [length_mapFrom h]
    exact of_decide_eq_true (require_ok.mp hlength)
  · intro step hstep
    obtain ⟨i,s,-,hs⟩ := mem_mapFrom h hstep
    exact task_of_stepOf hs

def Fits (builtins : Builtins) (value : Json) : FieldType → Prop
  | .object => ∃ items, value = .dict items
  | .bool => (∃ b, value = .bool b) ∨
      builtins.lower (stripText value.text) ∈ trueWords ++ falseWords
  | .int => (∃ b, value = .bool b) ∨ (∃ n, value = .int n) ∨ (∃ d, value = .decimal d) ∨
      ∃ s, value = .str s ∧ (builtins.numerals.intOfText (stripText s)).isSome
  | .float => ∃ x, builtins.numerals.floatOf value = .ok x
  | .str => True

def Overflows (builtins : Builtins) (value : Json) : FieldType → Prop
  | .int => value = .infinity ∨ value = .negInfinity
  | .float => ∃ m, builtins.numerals.floatOf value = .error (.overflow m)
  | _ => False

theorem coerceField_ends (value : Json) (type : FieldType) (name : String) :
    Ends (coerceField builtins value type name) (Fits builtins value type)
      (Overflows builtins value type) := by
  cases type with
  | object => cases value <;> simp [coerceField,Fits,Overflows]
  | str => simp [coerceField,Fits,Overflows]
  | bool =>
    simp only [coerceField,Fits,Overflows,List.mem_append]
    split
    · simp
    · rename_i hother
      have hbool : ¬∃ b, value = .bool b := not_exists.2 hother
      split
      · rename_i htrue
        simp [htrue]
      · rename_i htrue
        split
        · rename_i hfalse
          simp [hfalse]
        · rename_i hfalse
          simp [hbool,htrue,hfalse]
  | float =>
    simp only [coerceField,Fits,Overflows]
    split
    · simp_all
    · simp_all
    · rename_i hoverflow hfloat
      refine (ends_value _).mpr ⟨?_,?_⟩
      · rintro ⟨x,hx⟩
        rw [hfloat] at hx
        cases hx
      · rintro ⟨m,hm⟩
        rw [hfloat] at hm
        exact hoverflow m (Except.error.inj hm)
  | int =>
    simp only [coerceField,Fits,Overflows]
    cases value with
    | str s =>
      dsimp only
      cases hint : builtins.numerals.intOfText (stripText s) with
      | none =>
        refine (ends_value _).mpr ?_
        simp [hint]
      | some n =>
        refine (ends_ok (Json.int n)).mpr ?_
        simp [hint]
    | decimal d => exact (ends_ok _).mpr (by simp)
    | nan => exact (ends_value _).mpr (by simp)
    | infinity => exact (ends_overflow _).mpr (by simp)
    | negInfinity => exact (ends_overflow _).mpr (by simp)
    | _ => simp

def FieldFits (builtins : Builtins) (items : List (String × Json)) (field : Field) : Prop :=
  field.name = "intent" ∨ (get items field.name = .null ∧ field.required = false) ∨
    (get items field.name ≠ .null ∧ Fits builtins (get items field.name) field.type)

def FieldEscapes (builtins : Builtins) (items : List (String × Json)) (field : Field) : Prop :=
  field.name ≠ "intent" ∧ get items field.name ≠ .null ∧
    Overflows builtins (get items field.name) field.type

theorem argOf_ends (i : Nat) (field : Field) :
    Ends (argOf builtins items i field) (FieldFits builtins items field)
      (FieldEscapes builtins items field) := by
  rw [argOf,FieldFits,FieldEscapes]
  by_cases hname : field.name = "intent"
  · simp [hname]
  · rw [if_neg hname]
    split
    · rename_i hnull
      cases hrequired : field.required <;> simp [hname,hnull]
    · rename_i hnull
      have hpresent : get items field.name ≠ .null := fun h => hnull h
      simpa [hname,hpresent] using (coerceField_ends (get items field.name) field.type
        field.name).map fun value => some (Json.str field.name,value)

/-- The first field of the schema, or the first step, that does not fit has a value that is
infinite, or arguments of a wrong type. -/
def Derails (builtins : Builtins) (artifact : Json) : Prop :=
  ∃ items intent, artifact = .dict items ∧ extractIntent builtins items = .ok intent ∧
    ((intent = "run" ∧ ∃ steps, offered items = some steps ∧ steps.length ≤ defaultStepLimit ∧
        First StepFits StepEscapes steps) ∨
      (intent ≠ "run" ∧ ∃ schema, Dict.lookup schemas intent = some schema ∧
        First (FieldFits builtins items) (FieldEscapes builtins items) schema.fields))

theorem extractIntent_error {e : PlanError} (h : extractIntent builtins items = .error e) :
    ¬Escapes e := by
  rcases bind_error.mp h with h | ⟨_,-,h⟩
  · obtain ⟨-,rfl⟩ := require_error.mp h
    exact not_escapes_value _
  · cases h

def typedPlan (builtins : Builtins) (verifier : Option String) (items : List (String × Json))
    (intent : String) : Except PlanError (List PlanStep) := do
  let schema ← expect (Dict.lookup schemas intent)
    (.valueError ("no schema for intent " ++ pyRepr intent))
  let args ← mapFrom (argOf builtins items) 0 schema.fields
  pure [⟨schema.task.getD intent,args.reduceOption,
    (verifier.filter fun v => v ≠ "").map Json.str,schema.child.map Json.str⟩]

theorem planFromSchema_intent {intent : String} (h : extractIntent builtins items = .ok intent) :
    planFromSchema builtins verifier (.dict items) =
      if intent = "run" then planFromArtifact verifier items
      else typedPlan builtins verifier items intent := by
  rw [planFromSchema,h]
  rfl

theorem typedPlan_ends (intent : String) : Ends (typedPlan builtins verifier items intent)
      (∃ schema, Dict.lookup schemas intent = some schema ∧
        ∀ field ∈ schema.fields, FieldFits builtins items field)
      (∃ schema, Dict.lookup schemas intent = some schema ∧
        First (FieldFits builtins items) (FieldEscapes builtins items) schema.fields) := by
  rw [typedPlan]
  cases Dict.lookup schemas intent with
  | none =>
    refine (ends_value _).mpr ?_
    simp
  | some schema =>
    refine ((ends_mapFrom argOf_ends 0 schema.fields).map _).congr ?_ ?_
    · simp
    · simp

theorem planFromSchema_escapes (verifier : Option String) (artifact : Json) :
    (∃ e, Escapes e ∧ planFromSchema builtins verifier artifact = .error e) ↔
      Derails builtins artifact := by
  by_cases hdict : ∃ items, artifact = .dict items
  · obtain ⟨items,rfl⟩ := hdict
    rw [Derails]
    cases hintent : extractIntent builtins items with
    | error e =>
      simp only [planFromSchema,hintent]
      constructor
      · rintro ⟨d,hd,h⟩
        obtain rfl := Except.error.inj h
        exact absurd hd (extractIntent_error hintent)
      · rintro ⟨items',intent,heq,h,-⟩
        obtain rfl := Json.dict.inj heq
        rw [hintent] at h
        cases h
    | ok intent =>
      rw [planFromSchema_intent hintent]
      by_cases hrun : intent = "run"
      · rw [if_pos hrun,planFromArtifact_ends.2]
        constructor
        · intro h
          exact ⟨items,intent,rfl,hintent,.inl ⟨hrun,h⟩⟩
        · rintro ⟨items',intent',heq,h,hcase⟩
          obtain rfl := Json.dict.inj heq
          obtain rfl := Except.ok.inj (hintent.symm.trans h)
          exact (hcase.resolve_right fun h => h.1 hrun).2
      · rw [if_neg hrun,(typedPlan_ends intent).2]
        constructor
        · intro h
          exact ⟨items,intent,rfl,hintent,.inr ⟨hrun,h⟩⟩
        · rintro ⟨items',intent',heq,h,hcase⟩
          obtain rfl := Json.dict.inj heq
          obtain rfl := Except.ok.inj (hintent.symm.trans h)
          exact (hcase.resolve_left fun h => hrun h.1).2
  · have hother : planFromSchema builtins verifier artifact =
        .error (.valueError "artifact must be a JSON object") := by
      cases artifact with
      | dict items => exact absurd ⟨items,rfl⟩ hdict
      | _ => rfl
    rw [hother]
    constructor
    · rintro ⟨e,he,h⟩
      obtain rfl := Except.error.inj h
      exact absurd he (not_escapes_value _)
    · rintro ⟨items,-,heq,-⟩
      exact absurd ⟨items,heq⟩ hdict

theorem schemas_nodup : (schemas.map Prod.fst).Nodup := by decide

theorem schemas_tasked : ∀ entry ∈ schemas, entry.2.task.getD entry.1 ≠ "" := by
  decide

theorem planFromSchema_ok {artifact : Json} {plan : List PlanStep}
    (h : planFromSchema builtins verifier artifact = .ok plan) :
    plan.length ≤ defaultStepLimit ∧ ∀ step ∈ plan, step.task ≠ "" := by
  rw [planFromSchema.eq_def] at h
  split at h
  · obtain ⟨intent,-,h⟩ := bind_ok.mp h
    split at h
    · exact planFromArtifact_ok h
    · obtain ⟨schema,hschema,h⟩ := bind_ok.mp h
      obtain ⟨args,-,h⟩ := bind_ok.mp h
      obtain rfl := Except.ok.inj h
      have hmem := (Dict.lookup_eq_some_iff schemas_nodup).mp (expect_ok.mp hschema)
      have htask := schemas_tasked _ hmem
      have hone : 1 ≤ defaultStepLimit := by decide
      exact ⟨hone,by simpa using htask⟩
  · cases h

/-- Whatever the driver does, running the artifact gives a result, and its plan is bounded or is
refused with a `ValueError`. -/
structure Accounted (builtins : Builtins) (verifier : Option String) (artifact : Json) :
    Prop where
  returns : ∀ (σ : Type) (driver : CbpDriver σ) (s : σ),
    ∃ result s', runArtifactPlan builtins driver verifier artifact s = (.ok result,s')
  planned : (∃ plan, planFromSchema builtins verifier artifact = .ok plan ∧
      plan.length ≤ defaultStepLimit ∧ ∀ step ∈ plan, step.task ≠ "") ∨
    ∃ m, planFromSchema builtins verifier artifact = .error (.valueError m)

theorem accounted_iff (builtins : Builtins) (verifier : Option String) (artifact : Json) :
    Accounted builtins verifier artifact ↔ ¬Derails builtins artifact := by
  rw [← planFromSchema_escapes verifier artifact]
  constructor
  · rintro ⟨-,hplanned⟩ ⟨e,he,h⟩
    rcases hplanned with ⟨plan,hplan,-⟩ | ⟨m,hm⟩
    · rw [h] at hplan
      cases hplan
    · rw [h] at hm
      obtain rfl := Except.error.inj hm
      exact not_escapes_value m he
  · intro h
    have hplanned : (∃ plan, planFromSchema builtins verifier artifact = .ok plan) ∨
        ∃ m, planFromSchema builtins verifier artifact = .error (.valueError m) := by
      cases hplan : planFromSchema builtins verifier artifact with
      | ok plan => exact .inl ⟨plan,rfl⟩
      | error e =>
        cases e with
        | valueError m => exact .inr ⟨m,rfl⟩
        | typeError m => exact absurd ⟨_,escapes_type m,hplan⟩ h
        | overflowError m => exact absurd ⟨_,escapes_overflow m,hplan⟩ h
    constructor
    · intro σ driver s
      rw [runArtifactPlan]
      rcases hplanned with ⟨plan,hplan⟩ | ⟨m,hm⟩
      · rw [hplan]
        dsimp only
        split
        · exact ⟨_,_,rfl⟩
        · exact ⟨_,_,rfl⟩
      · rw [hm]
        exact ⟨_,_,rfl⟩
    · exact hplanned.imp_left fun ⟨plan,hplan⟩ => ⟨plan,hplan,planFromSchema_ok hplan⟩

namespace Sample

def small : Builtins := ⟨⟨fun _ => none,fun _ => none,fun _ => none⟩,id⟩

def endless : List (String × Json) := [("intent",.str "double"),("value",.infinity)]

def idle : CbpDriver Unit := ⟨fun _ s => (.ok ⟨.bool true,.null,.null⟩,s),none⟩

end Sample

/-- An infinite number for an integer field is not refused. -/
theorem endless_escapes : ¬∀ (builtins : Builtins) (verifier : Option String) (artifact : Json),
    Accounted builtins verifier artifact := by
  intro h
  have hintent : extractIntent Sample.small Sample.endless = .ok "double" := by decide +kernel
  have hplan : planFromSchema Sample.small none (.dict Sample.endless) =
      .error (.overflowError "cannot convert float infinity to integer") := by
    rw [planFromSchema_intent hintent]
    rfl
  obtain ⟨result,s,hrun⟩ := (h Sample.small none (.dict Sample.endless)).returns Unit Sample.idle ()
  rw [runArtifactPlan,hplan] at hrun
  cases (Prod.mk.inj hrun).1

end AgentCentric.Orchestrate

namespace AgentCentric.RunPlan
open Orchestrate

/-- What `run_plan` hands to `run`. -/
structure Call where
  task : String
  args : Json
  verifier : Json
  child : Json

def callOf (idx : Nat) : Json → Except String Call
  | .dict items =>
    match get items "task" with
    | .str task =>
      let args := get items "args"
      .ok ⟨task,if args.truthy then args else .dict [],get items "verifier",get items "child"⟩
    | _ => .error s!"plan step {idx} requires a 'task' string"
  | _ => .error "object has no attribute 'get'"

/-- `run` and the observer of the steps, as functions of a state. -/
structure Driver (σ : Type) where
  run : Call → σ → Except String Reply × σ
  onStep : Option (Result → σ → Except String Unit × σ)

def report (idx : Nat) (call : Call) (reply : Reply) : Result :=
  [("step",.int idx),("task",.str call.task),("verified",reply.verified),("value",reply.value),
    ("error",reply.error)]

abbrev Executed := Call × Except String Reply

def passed (executed : Executed) : Bool :=
  match executed.2 with
  | .ok reply => reply.verified.truthy
  | .error _ => false

section
variable {σ : Type} (driver : Driver σ)

namespace Driver

def observe (result : Result) (s : σ) : Except String Unit × σ :=
  match driver.onStep with
  | none => (.ok (),s)
  | some onStep => onStep result s

/-- The loop, with the results so far. What was executed is kept along with the state for the
statements about it, nothing reads it. -/
def runSteps (results : List Json) :
    List Json → σ × List Executed → Except String Result × σ × List Executed
  | [], s => (.ok [("ok",.bool true),("results",.list results),
      ("completed",.int results.length),("failed",.null)],s)
  | step :: steps, (s,log) =>
    match callOf results.length step with
    | .error e => (.error e,s,log)
    | .ok call =>
      match driver.run call s with
      | (.error e,s) => (.error e,s,log ++ [(call,.error e)])
      | (.ok reply,s) =>
        let log' := log ++ [(call,.ok reply)]
        let result := report results.length call reply
        match driver.observe result s with
        | (.error e,s) => (.error e,s,log')
        | (.ok (),s) =>
          let results' := results ++ [.dict result]
          if reply.verified.truthy then runSteps results' steps (s,log')
          else (.ok [("ok",.bool false),("results",.list results'),
            ("completed",.int results.length),("failed",.dict result)],s,log')

/-- `run_plan` on the steps as they come. -/
def runPlan (steps : Json) (s : σ) : Except String Result × σ × List Executed :=
  match steps with
  | .list (step :: steps) => driver.runSteps [] (step :: steps) (s,[])
  | _ => (.error "run_plan requires a non-empty 'steps' list",s,[])

/-- The driver answers the step, and the observer takes its report. -/
def Answers (idx : Nat) (step : Json) (s : σ) : Prop :=
  ∃ call reply t u, callOf idx step = .ok call ∧ driver.run call s = (.ok reply,t) ∧
    driver.observe (report idx call reply) t = (.ok (),u)

/-- The state once all steps have run verified. -/
def reach : Nat → List Json → σ → Option σ
  | _, [], s => some s
  | idx, step :: steps, s =>
    match callOf idx step with
    | .error _ => none
    | .ok call =>
      match driver.run call s with
      | (.error _,_) => none
      | (.ok reply,t) =>
        match driver.observe (report idx call reply) t with
        | (.error _,_) => none
        | (.ok (),u) => if reply.verified.truthy then reach (idx + 1) steps u else none

/-- Each step that is come to is answered. Only a malformed one at the very beginning is harmless. -/
def Steady (idx : Nat) (steps : List Json) (s : σ) : Prop :=
  ∀ before step after t, steps = before ++ step :: after → driver.reach idx before s = some t →
    (idx + before.length = 0 ∧ ∃ e, callOf 0 step = .error e) ∨
      driver.Answers (idx + before.length) step t

end Driver
end

/-- The entries that are told of executed steps; of one that raised at least its number. -/
inductive Told : List Json → List Executed → List Json → Prop
  | nil : Told [] [] []
  | answered {steps entries : List Json} {log : List Executed} {step : Json} {call : Call}
      (h : Told steps log entries) (hcall : callOf steps.length step = .ok call) (reply : Reply) :
      Told (steps ++ [step]) (log ++ [(call,.ok reply)])
        (entries ++ [.dict (report steps.length call reply)])
  | raised {steps entries : List Json} {log : List Executed} {step : Json} {call : Call}
      (h : Told steps log entries) (hcall : callOf steps.length step = .ok call) (e : String)
      {items : Result} (hitems : get items "step" = .int steps.length) :
      Told (steps ++ [step]) (log ++ [(call,.error e)]) (entries ++ [.dict items])

/-- The executed steps are the first of the plan, and all of it if they are verified. -/
structure Reports (steps : List Json) (log : List Executed) (result : Result) : Prop where
  entries : ∃ before after entries, steps = before ++ after ∧ Told before log entries ∧
    get result "results" = .list entries ∧
    ((get result "ok" = .bool true ∧ after = [] ∧ ∀ executed ∈ log, passed executed = true) ∨
      get result "ok" = .bool false ∧ entries.getLast? = some (get result "failed") ∧
        ∃ front last, log = front ++ [last] ∧ (∀ executed ∈ front, passed executed = true) ∧
          passed last = false)

/-- It raises before anything is executed, or reports what was. -/
def Accounted (steps : Json) (outcome : Except String Result) (log : List Executed) : Prop :=
  (∃ e, outcome = .error e ∧ log = []) ∨
    ∃ xs result, steps = .list xs ∧ outcome = .ok result ∧ Reports xs log result

section
variable {σ : Type} {driver : Driver σ} {idx : Nat} {s : σ} {step : Json} {steps : List Json}

theorem reach_cons : driver.reach idx (step :: steps) s =
    (driver.reach idx [step] s).bind (driver.reach (idx + 1) steps) := by
  simp only [Driver.reach]
  repeat' split
  all_goals rfl

theorem steady_cons : driver.Steady idx (step :: steps) s ↔
    ((idx = 0 ∧ ∃ e, callOf 0 step = .error e) ∨ driver.Answers idx step s) ∧
      ∀ u, driver.reach idx [step] s = some u → driver.Steady (idx + 1) steps u := by
  constructor
  · intro h
    refine ⟨h [] step steps s rfl rfl,fun u hu before next after t heq hreach => .inr ?_⟩
    have hnext := h (step :: before) next after t (by rw [heq]; rfl)
      (by rw [reach_cons,hu]; exact hreach)
    rcases hnext with ⟨hlength,_⟩ | hnext
    · simp at hlength
    · rwa [List.length_cons,Nat.add_comm before.length,← Nat.add_assoc] at hnext
  · rintro ⟨hhead,hrest⟩ before next after t heq hreach
    cases before with
    | nil =>
      obtain ⟨rfl,-⟩ := List.cons.inj heq
      obtain rfl := Option.some.inj hreach
      exact hhead
    | cons first before =>
      obtain ⟨rfl,htail⟩ := List.cons.inj heq
      rw [reach_cons] at hreach
      obtain ⟨u,hu,ht⟩ := Option.bind_eq_some_iff.1 hreach
      rcases hrest u hu before next after t htail ht with ⟨hlength,_⟩ | hnext
      · omega
      · rw [List.length_cons,Nat.add_comm before.length,← Nat.add_assoc]
        exact .inr hnext

theorem Told.lengths {front entries : List Json} {log : List Executed} (h : Told front log entries) :
    log.length = front.length ∧ entries.length = front.length := by
  induction h with
  | nil => exact ⟨rfl,rfl⟩
  | answered _ _ _ ih => simp [ih.1,ih.2]
  | raised _ _ _ _ ih => simp [ih.1,ih.2]

theorem accounted_error {plan : Json} {e : String} {log : List Executed} :
    Accounted plan (.error e) log ↔ log = [] := by
  simp [Accounted]

/-- The loop behind steps that ran verified. -/
theorem runSteps_accounted {front entries : List Json} {log : List Executed}
    (htold : Told front log entries) (hpassed : ∀ executed ∈ log, passed executed = true) :
    Accounted (.list (front ++ steps)) (driver.runSteps entries steps (s,log)).1
        (driver.runSteps entries steps (s,log)).2.2 ↔
      driver.Steady front.length steps s := by
  induction steps generalizing front log entries s with
  | nil =>
    refine iff_of_true (.inr ⟨front ++ [],_,rfl,rfl,front,[],entries,rfl,htold,rfl,
      .inl ⟨rfl,rfl,hpassed⟩⟩) fun before step after t heq => ?_
    simp at heq
  | cons step steps ih =>
    obtain ⟨hlog,hentries⟩ := htold.lengths
    rw [steady_cons,Driver.runSteps,hentries]
    cases hcall : callOf front.length step with
    | error e =>
      have hreach : driver.reach front.length [step] s = none := by simp [Driver.reach,hcall]
      rw [accounted_error,← List.length_eq_zero_iff,hlog]
      constructor
      · intro hzero
        rw [hzero] at hcall
        exact ⟨.inl ⟨hzero,e,hcall⟩,fun u hu => by simp [hreach] at hu⟩
      · rintro ⟨⟨hzero,_⟩ | ⟨call,_,_,_,hok,_⟩,_⟩
        · exact hzero
        · cases hcall.symm.trans hok
    | ok call =>
      have hwell : ¬(front.length = 0 ∧ ∃ e, callOf 0 step = .error e) := by
        rintro ⟨hzero,e,herror⟩
        rw [hzero,herror] at hcall
        cases hcall
      cases hrun : driver.run call s with
      | mk r t =>
        simp only [hrun]
        cases r with
        | error e =>
          refine iff_of_false (by simp [accounted_error]) ?_
          rintro ⟨hfirst | ⟨call',reply,_,_,hok,hanswer,_⟩,_⟩
          · exact hwell hfirst
          · obtain rfl := Except.ok.inj (hcall.symm.trans hok)
            cases hrun.symm.trans hanswer
        | ok reply =>
          cases hseen : driver.observe (report front.length call reply) t with
          | mk seen u =>
            simp only [hseen]
            cases seen with
            | error e =>
              refine iff_of_false (by simp [accounted_error]) ?_
              rintro ⟨hfirst | ⟨call',reply',_,_,hok,hanswer,htaken⟩,_⟩
              · exact hwell hfirst
              · obtain rfl := Except.ok.inj (hcall.symm.trans hok)
                obtain ⟨hreply,rfl⟩ := Prod.mk.inj (hrun.symm.trans hanswer)
                obtain rfl := Except.ok.inj hreply
                cases hseen.symm.trans htaken
            | ok =>
              have hanswers : driver.Answers front.length step s :=
                ⟨call,reply,t,u,hcall,hrun,hseen⟩
              have htold' := htold.answered hcall reply
              by_cases hverified : reply.verified.truthy = true
              · have hreach : driver.reach front.length [step] s = some u := by
                  simp [Driver.reach,hcall,hrun,hseen,hverified]
                have hrest := @ih u _ _ _ htold' (by
                  intro executed hmem
                  rcases List.mem_append.1 hmem with hmem | hmem
                  · exact hpassed executed hmem
                  · obtain rfl := List.mem_singleton.1 hmem
                    exact hverified)
                rw [List.append_assoc,List.length_append] at hrest
                simp only [if_pos hverified]
                refine hrest.trans ⟨fun h => ⟨.inr hanswers,fun v hv => ?_⟩,fun h => h.2 u hreach⟩
                obtain rfl := Option.some.inj (hreach.symm.trans hv)
                exact h
              · have hreach : driver.reach front.length [step] s = none := by
                  simp [Driver.reach,hcall,hrun,hseen,hverified]
                simp only [if_neg hverified]
                refine iff_of_true (.inr ⟨_,_,rfl,rfl,front ++ [step],steps,_,by simp,htold',rfl,
                  .inr ⟨rfl,List.getLast?_concat,log,_,rfl,hpassed,?_⟩⟩)
                  ⟨.inr hanswers,fun v hv => by simp [hreach] at hv⟩
                exact Bool.eq_false_iff.2 hverified

/-- A plan is accounted for exactly if each step that is come to, but for a malformed first one, is
answered by the driver and taken by the observer. -/
theorem runPlan_accounted_iff (driver : Driver σ) (steps : Json) (s : σ) :
    Accounted steps (driver.runPlan steps s).1
        (driver.runPlan steps s).2.2 ↔
      ∀ xs, steps = .list xs → driver.Steady 0 xs s := by
  have hempty (h : ∀ step rest, steps ≠ .list (step :: rest)) :
      Accounted steps (driver.runPlan steps s).1
        (driver.runPlan steps s).2.2 ∧ ∀ xs, steps = .list xs → driver.Steady 0 xs s := by
    constructor
    · unfold Driver.runPlan
      split
      · exact absurd rfl (h _ _)
      · exact .inl ⟨_,rfl,rfl⟩
    · rintro xs rfl before step after t rfl
      cases before with
      | nil => exact absurd rfl (h step after)
      | cons first before => exact absurd rfl (h first _)
  by_cases h : ∃ step rest, steps = .list (step :: rest)
  · obtain ⟨step,rest,rfl⟩ := h
    refine (runSteps_accounted .nil nofun).trans ⟨?_,fun h => h _ rfl⟩
    rintro h xs hxs
    obtain rfl := Json.list.inj hxs
    exact h
  · have hboth := hempty fun step rest heq => h ⟨step,rest,heq⟩
    exact iff_of_true hboth.1 hboth.2

end

/-- A malformed step behind one that was executed. -/
theorem runPlan_drops_executed : ¬∀ (σ : Type) (driver : Driver σ) (steps : Json) (s : σ),
    Accounted steps (driver.runPlan steps s).1
      (driver.runPlan steps s).2.2 := by
  intro h
  have hplan := h Unit ⟨fun _ s => (.ok ⟨.bool true,.null,.null⟩,s),none⟩
    (.list [.dict [("task",.str "echo")],.dict []]) ()
  rcases hplan with ⟨e,-,hlog⟩ | ⟨xs,result,-,hok,-⟩
  · cases hlog
  · cases hok

end AgentCentric.RunPlan

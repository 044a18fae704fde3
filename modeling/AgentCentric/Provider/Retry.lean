import AgentCentric.Provider.Runtime

namespace AgentCentric.Provider

/-- `has_ok`: a successful `apply` is on record for the call and the plan. -/
def Ledger.hasOk (ledger : Ledger) (callHash planHash : String) : Bool :=
  ledger.any fun entry => entry.evidence.action = .apply ∧ entry.evidence.ok ∧
    entry.evidence.callHash = callHash ∧ entry.evidence.planHash = planHash

structure NoCollision (sha256 : List Char → Digest) (ledger : Ledger) (records : List Evidence) :
    Prop where
  kept : ∀ entry ∈ ledger, ∀ e ∈ records, entry.fingerprint = e.fingerprint sha256 →
    entry.evidence = e.reread
  made : ∀ e ∈ records, ∀ e' ∈ records, e.fingerprint sha256 = e'.fingerprint sha256 →
    e.reread = e'.reread

/-- One call of `apply`, but for the plan. -/
structure Attempt where
  expectedHash : Digest
  approved : Bool

namespace Runtime

def callHash {W : Type} (sha256 : List Char → Digest) (R : Runtime W) (step : PlanStep) : String :=
  match step.toChange with
  | .ok change => (⟨R.id,.apply change,R.id_ne⟩ : ProviderCall).hash sha256
  | .error _ => ""

/-- What the loop of `apply` sends to the adapter, each time with the ledger as it is then. -/
def sends {W : Type} (sha256 : List Char → Digest) (R : Runtime W) (plan : ProviderPlan) :
    List PlanStep → Scene W → List (Ledger × PlanStep)
  | [], _ => []
  | step :: rest, s =>
    match step.toChange with
    | .error _ => []
    | .ok change =>
      (s.ledger,step) ::
        match R.call sha256 (.apply change) (plan.hash sha256).text s with
        | (.ok result,s') => if result.ok then R.sends sha256 plan rest s' else []
        | (.error _,_) => []

/-- The gate is passed, and there is something to send. -/
def starts (sha256 : List Char → Digest) (plan : ProviderPlan) (a : Attempt) : Bool :=
  (assertPlanAppliable sha256 plan a.expectedHash a.approved).toOption.isSome ∧ ¬ plan.isConverged

/-- Everything that a sequence of calls of `apply` sends, whether they return or raise. -/
def retries {W : Type} (sha256 : List Char → Digest) (R : Runtime W) (plan : ProviderPlan) :
    List Attempt → Scene W → List (Ledger × PlanStep)
  | [], _ => []
  | a :: rest, s =>
    (if starts sha256 plan a then R.sends sha256 plan plan.mutatingSteps s else []) ++
      R.retries sha256 plan rest (R.apply sha256 plan a.expectedHash a.approved s).2

/-- The scene after a sequence of calls of `apply`. -/
def afterAttempts {W : Type} (sha256 : List Char → Digest) (R : Runtime W) (plan : ProviderPlan)
    (attempts : List Attempt) (s : Scene W) : Scene W :=
  attempts.foldl (fun s a => (R.apply sha256 plan a.expectedHash a.approved s).2) s

/-- No step is sent whose success is on record. -/
def NeverResent {W : Type} (sha256 : List Char → Digest) (R : Runtime W) (plan : ProviderPlan)
    (attempts : List Attempt) (s : Scene W) : Prop :=
  ∀ p ∈ R.retries sha256 plan attempts s,
    p.1.hasOk (R.callHash sha256 p.2) (plan.hash sha256).text = false

def answers {W : Type} (R : Runtime W) (change : Change) (w : W) : Bool × W :=
  match R.adapter ⟨R.id,.apply change,R.id_ne⟩ w with
  | (.ok result,w') => (result.ok,w')
  | (.error _,w') => (false,w')

/-- The steps that the adapter gets to see: up to the first that it does not carry out. -/
def reached {W : Type} (R : Runtime W) : List PlanStep → W → List PlanStep
  | [], _ => []
  | step :: rest, w =>
    match step.toChange with
    | .error _ => []
    | .ok change =>
      step :: match R.answers change w with
        | (true,w') => R.reached rest w'
        | (false,_) => []

/-- The steps among them that it does carry out, and the world it leaves. -/
def carried {W : Type} (R : Runtime W) : List PlanStep → W → List PlanStep × W
  | [], w => ([],w)
  | step :: rest, w =>
    match step.toChange with
    | .error _ => ([],w)
    | .ok change =>
      match R.answers change w with
      | (true,w') => let r := R.carried rest w'; (step :: r.1,r.2)
      | (false,w') => ([],w')

/-- No step that a call reaches is on record at the start, no two that it reaches are one call,
and after a call whose first step was carried out there is no other that starts. -/
def SentOnce {W : Type} (sha256 : List Char → Digest) (R : Runtime W) (plan : ProviderPlan)
    (ledger : Ledger) : List Attempt → W → Prop
  | [], _ => True
  | a :: rest, w =>
    if starts sha256 plan a then
      (∀ step ∈ R.reached plan.mutatingSteps w,
        ledger.hasOk (R.callHash sha256 step) (plan.hash sha256).text = false) ∧
      ((R.reached plan.mutatingSteps w).map (R.callHash sha256)).Nodup ∧
      ((R.carried plan.mutatingSteps w).1 ≠ [] → ∀ b ∈ rest, starts sha256 plan b = false) ∧
      R.SentOnce sha256 plan ledger rest (R.carried plan.mutatingSteps w).2
    else R.SentOnce sha256 plan ledger rest w

end Runtime

theorem Ledger.mem_append {sha256 : List Char → Digest} {ledger : Ledger} {e : Evidence}
    {entry : Entry} (h : entry ∈ ledger.append sha256 e) :
    entry ∈ ledger ∨ entry = ⟨e.fingerprint sha256,e.reread⟩ := by
  unfold append at h
  split at h
  · exact .inl h
  · simpa using h

namespace NoCollision
variable {sha256 : List Char → Digest} {ledger : Ledger} {records : List Evidence} {e : Evidence}

theorem append (h : NoCollision sha256 ledger records) (he : e ∈ records) :
    NoCollision sha256 (ledger.append sha256 e) records where
  kept entry hentry e' he' hfingerprint := by
    rcases Ledger.mem_append hentry with hold | rfl
    · exact h.kept entry hold e' he' hfingerprint
    · exact h.made e he e' he' hfingerprint
  made := h.made

theorem hasOk_append (h : NoCollision sha256 ledger records) (he : e ∈ records)
    (callHash planHash : String) : (ledger.append sha256 e).hasOk callHash planHash = true ↔
      ledger.hasOk callHash planHash = true ∨
        e.action = .apply ∧ e.ok = true ∧ e.callHash = callHash ∧ e.planHash = planHash := by
  unfold Ledger.append
  split
  · rename_i hholds
    refine ⟨.inl,?_⟩
    rintro (hok | hnew)
    · exact hok
    · obtain ⟨entry,hentry,hfingerprint⟩ := List.any_eq_true.1 hholds
      have hsame := h.kept entry hentry e he (of_decide_eq_true hfingerprint)
      refine List.any_eq_true.2 ⟨entry,hentry,decide_eq_true ?_⟩
      rw [hsame]
      exact hnew
  · simp [Ledger.hasOk,Evidence.reread]

end NoCollision

namespace Runtime
variable {W : Type} {sha256 : List Char → Digest} {R : Runtime W} {plan : ProviderPlan}

def evidence (sha256 : List Char → Digest) (R : Runtime W) (plan : ProviderPlan) (change : Change)
    (result : ProviderResult) : Evidence :=
  ⟨.apply,(⟨R.id,.apply change,R.id_ne⟩ : ProviderCall).hash sha256,R.id,(plan.hash sha256).text,
    result.ok,result.detail,none,none⟩

/-- The scene after a call whose response is `result`. -/
def answered (sha256 : List Char → Digest) (R : Runtime W) (plan : ProviderPlan)
    (change : Change) (result : ProviderResult) (w : W) (s : Scene W) : Scene W :=
  ⟨s.ledger.append sha256 (R.evidence sha256 plan change result),w,
    s.calls ++ [(.apply change,result.ok)],s.records ++ [R.evidence sha256 plan change result]⟩

variable (sha256 R plan) in
theorem call_ok {change : Change} {s : Scene W} {result : ProviderResult} {w : W}
    (h : R.adapter ⟨R.id,.apply change,R.id_ne⟩ s.world = (.ok result,w)) :
    R.call sha256 (.apply change) (plan.hash sha256).text s =
      (.ok result,R.answered sha256 plan change result w s) := by
  have houtside : outside (R.adapter ⟨R.id,.apply change,R.id_ne⟩) s =
      (.ok result,{ s with world := w }) := by simp [outside,h]
  unfold call
  rw [Act.bind_ok houtside]
  rfl

variable (sha256 R plan) in
theorem call_error {change : Change} {s : Scene W} {e : String} {w : W}
    (h : R.adapter ⟨R.id,.apply change,R.id_ne⟩ s.world = (.error e,w)) :
    R.call sha256 (.apply change) (plan.hash sha256).text s = (.error e,{ s with world := w }) := by
  have houtside : outside (R.adapter ⟨R.id,.apply change,R.id_ne⟩) s =
      (.error e,{ s with world := w }) := by simp [outside,h]
  unfold call
  rw [Act.bind_error houtside]

/-- What a scene becomes when the calls that carried out `done` are recorded. -/
structure Recorded (sha256 : List Char → Digest) (plan : ProviderPlan) (records : List Evidence)
    (done : List String) (s s' : Scene W) : Prop where
  free : NoCollision sha256 s'.ledger records
  hasOk : ∀ callHash, s'.ledger.hasOk callHash (plan.hash sha256).text = true ↔
    s.ledger.hasOk callHash (plan.hash sha256).text = true ∨ callHash ∈ done

theorem Recorded.refl {records : List Evidence} {s : Scene W}
    (h : NoCollision sha256 s.ledger records) : Recorded sha256 plan records [] s s :=
  ⟨h,by simp⟩

theorem Recorded.trans {records : List Evidence} {done done' : List String} {s t u : Scene W}
    (h : Recorded sha256 plan records done s t) (h' : Recorded sha256 plan records done' t u) :
    Recorded sha256 plan records (done ++ done') s u := by
  refine ⟨h'.free,?_⟩
  intro callHash
  rw [h'.hasOk,h.hasOk,List.mem_append,or_assoc]

theorem recorded_answered {change : Change} {result : ProviderResult} {w : W} {s : Scene W}
    {records : List Evidence} (hfree : NoCollision sha256 s.ledger records)
    (hrecords : (R.answered sha256 plan change result w s).records ⊆ records) :
    Recorded sha256 plan records
      (if result.ok then [(⟨R.id,.apply change,R.id_ne⟩ : ProviderCall).hash sha256] else [])
      s (R.answered sha256 plan change result w s) := by
  have hmem : R.evidence sha256 plan change result ∈ records :=
    hrecords (by simp [answered])
  refine ⟨hfree.append hmem,?_⟩
  intro callHash
  rw [answered,hfree.hasOk_append hmem]
  cases hok : result.ok with
  | false => simp [evidence,hok]
  | true =>
    simp only [evidence,hok,true_and,and_true,if_true,List.mem_singleton]
    exact or_congr_right eq_comm

/-- How the loop of `apply` goes on from its next step. -/
inductive Goes (sha256 : List Char → Digest) (R : Runtime W) (plan : ProviderPlan)
    (step : PlanStep) (rest : List PlanStep) (s : Scene W) : Prop where
  | stuck (hreached : R.reached (step :: rest) s.world = [])
      (hcarried : R.carried (step :: rest) s.world = ([],s.world))
      (hsends : R.sends sha256 plan (step :: rest) s = [])
      (hends : (R.applySteps sha256 plan (step :: rest) s).2 = s)
  | refused (s' : Scene W) (hreached : R.reached (step :: rest) s.world = [step])
      (hcarried : R.carried (step :: rest) s.world = ([],s'.world))
      (hsends : R.sends sha256 plan (step :: rest) s = [(s.ledger,step)])
      (hends : (R.applySteps sha256 plan (step :: rest) s).2 = s')
      (hrecorded : ∀ records, NoCollision sha256 s.ledger records → s'.records ⊆ records →
        Recorded sha256 plan records [] s s')
  | carried (s' : Scene W)
      (hreached : R.reached (step :: rest) s.world = step :: R.reached rest s'.world)
      (hcarried : R.carried (step :: rest) s.world =
        (step :: (R.carried rest s'.world).1,(R.carried rest s'.world).2))
      (hsends : R.sends sha256 plan (step :: rest) s =
        (s.ledger,step) :: R.sends sha256 plan rest s')
      (hends : R.applySteps sha256 plan (step :: rest) s = R.applySteps sha256 plan rest s')
      (hrecorded : ∀ records, NoCollision sha256 s.ledger records → s'.records ⊆ records →
        Recorded sha256 plan records [R.callHash sha256 step] s s')

variable (sha256 R plan) in
theorem goes (step : PlanStep) (rest : List PlanStep) (s : Scene W) :
    Goes sha256 R plan step rest s := by
  cases hchange : step.toChange with
  | error e =>
    apply Goes.stuck <;> simp [reached,carried,sends,applySteps,hchange]
    rfl
  | ok change =>
    have hcallHash : R.callHash sha256 step =
        (⟨R.id,.apply change,R.id_ne⟩ : ProviderCall).hash sha256 := by
      unfold callHash
      rw [hchange]
    have hloop : R.applySteps sha256 plan (step :: rest) s =
        (do
          let result ← R.call sha256 (.apply change) (plan.hash sha256).text
          if result.ok then R.applySteps sha256 plan rest else pure false) s := by
      rw [applySteps,hchange]
      rfl
    cases hadapter : R.adapter ⟨R.id,.apply change,R.id_ne⟩ s.world with
    | mk r w =>
      cases r with
      | error e =>
        have hcall := call_error sha256 R plan hadapter
        have hanswer : R.answers change s.world = (false,w) := by simp [answers,hadapter]
        rw [Act.bind_error hcall] at hloop
        refine .refused { s with world := w } ?_ ?_ ?_ (by rw [hloop]) ?_
        · simp [reached,hchange,hanswer]
        · simp [carried,hchange,hanswer]
        · simp [sends,hchange,hcall]
        · intro records hfree _
          exact ⟨hfree,by simp⟩
      | ok result =>
        have hcall := call_ok sha256 R plan hadapter
        have hanswer : R.answers change s.world = (result.ok,w) := by simp [answers,hadapter]
        rw [Act.bind_ok hcall] at hloop
        have hrecorded : ∀ records, NoCollision sha256 s.ledger records →
            (R.answered sha256 plan change result w s).records ⊆ records → Recorded sha256 plan
              records (if result.ok then
                [(⟨R.id,.apply change,R.id_ne⟩ : ProviderCall).hash sha256] else []) s
              (R.answered sha256 plan change result w s) := fun _ => recorded_answered
        cases hok : result.ok with
        | false =>
          rw [hok] at hanswer hloop hrecorded
          refine .refused (R.answered sha256 plan change result w s) ?_ ?_ ?_ ?_ hrecorded
          · simp [reached,hchange,hanswer]
          · simp [carried,hchange,hanswer,answered]
          · simp [sends,hchange,hcall,hok]
          · rw [hloop]
            rfl
        | true =>
          rw [hok] at hanswer hloop hrecorded
          refine .carried (R.answered sha256 plan change result w s) ?_ ?_ ?_ hloop ?_
          · simp [reached,hchange,hanswer,answered]
          · simp [carried,hchange,hanswer,answered]
          · simp [sends,hchange,hcall,hok]
          · rw [hcallHash]
            exact hrecorded

theorem allows_records : Allows sha256 fun s s' : Scene W => s.records ⊆ s'.records where
  outside _ s := List.Subset.refl s.records
  called _ _ s := List.Subset.refl s.records
  recorded e _ _ _ s := List.subset_append_left s.records [e]

instance : Std.Refl fun s s' : Scene W => s.records ⊆ s'.records :=
  ⟨fun s => List.Subset.refl s.records⟩

instance : IsTrans (Scene W) fun s s' => s.records ⊆ s'.records :=
  ⟨fun _ _ _ => List.Subset.trans⟩

variable (sha256 R plan) in
theorem records_afterAttempts (attempts : List Attempt) (s : Scene W) :
    s.records ⊆ (R.afterAttempts sha256 plan attempts s).records := by
  induction attempts generalizing s with
  | nil => exact List.Subset.refl _
  | cons a rest ih =>
    exact List.Subset.trans (keeps_apply sha256 R allows_records plan a.expectedHash a.approved s)
      (ih _)

theorem applySteps_recorded {records : List Evidence} (steps : List PlanStep) (s : Scene W)
    (hfree : NoCollision sha256 s.ledger records)
    (hrecords : (R.applySteps sha256 plan steps s).2.records ⊆ records) :
    (R.applySteps sha256 plan steps s).2.world = (R.carried steps s.world).2 ∧
      Recorded sha256 plan records ((R.carried steps s.world).1.map (R.callHash sha256)) s
        (R.applySteps sha256 plan steps s).2 := by
  induction steps generalizing s with
  | nil => exact ⟨rfl,.refl hfree⟩
  | cons step rest ih =>
    rcases goes sha256 R plan step rest s with
      ⟨-,hcarried,-,hends⟩ | ⟨s',-,hcarried,-,rfl,hrecorded⟩ |
      ⟨s',-,hcarried,-,hends,hrecorded⟩
    · rw [hcarried,hends]
      exact ⟨rfl,.refl hfree⟩
    · rw [hcarried]
      exact ⟨rfl,hrecorded records hfree hrecords⟩
    · rw [hends] at hrecords ⊢
      rw [hcarried]
      have hgrow := keeps_applySteps sha256 R allows_records plan rest s'
      have hfirst := hrecorded records hfree (List.Subset.trans hgrow hrecords)
      have hrest := ih s' hfirst.free hrecords
      exact ⟨hrest.1,hfirst.trans hrest.2⟩

/-- What it sends is not on record exactly if nothing of it was on record before, and no two
of its calls are one. -/
theorem sends_fresh_iff {records : List Evidence} (steps : List PlanStep) (s : Scene W)
    (hfree : NoCollision sha256 s.ledger records)
    (hrecords : (R.applySteps sha256 plan steps s).2.records ⊆ records) :
    (∀ p ∈ R.sends sha256 plan steps s,
      p.1.hasOk (R.callHash sha256 p.2) (plan.hash sha256).text = false) ↔
      (∀ step ∈ R.reached steps s.world,
        s.ledger.hasOk (R.callHash sha256 step) (plan.hash sha256).text = false) ∧
      ((R.reached steps s.world).map (R.callHash sha256)).Nodup := by
  induction steps generalizing s with
  | nil => simp [sends,reached]
  | cons step rest ih =>
    rcases goes sha256 R plan step rest s with
      ⟨hreached,-,hsends,-⟩ | ⟨s',hreached,-,hsends,-,-⟩ | ⟨s',hreached,-,hsends,hends,hrecorded⟩
    · simp [hreached,hsends]
    · simp [hreached,hsends]
    · rw [hends] at hrecords
      have hgrow := keeps_applySteps sha256 R allows_records plan rest s'
      have hfirst := hrecorded records hfree (List.Subset.trans hgrow hrecords)
      have hlater : ∀ step', s'.ledger.hasOk (R.callHash sha256 step') (plan.hash sha256).text =
          false ↔ s.ledger.hasOk (R.callHash sha256 step') (plan.hash sha256).text = false ∧
            R.callHash sha256 step' ≠ R.callHash sha256 step := by
        intro step'
        rw [← Bool.not_eq_true,hfirst.hasOk]
        simp
      rw [hsends,hreached,List.forall_mem_cons,List.forall_mem_cons,List.map_cons,
        List.nodup_cons,ih s' hfirst.free hrecords]
      simp only [hlater,forall_and,List.mem_map,not_exists,not_and]
      constructor
      · rintro ⟨hstep,⟨hbefore,hother⟩,hnodup⟩
        exact ⟨⟨hstep,hbefore⟩,hother,hnodup⟩
      · rintro ⟨⟨hstep,hbefore⟩,hother,hnodup⟩
        exact ⟨hstep,⟨hbefore,hother⟩,hnodup⟩

theorem apply_idle {a : Attempt} (h : starts sha256 plan a = false) (s : Scene W) :
    (R.apply sha256 plan a.expectedHash a.approved s).2 = s := by
  unfold Runtime.apply
  cases hgate : assertPlanAppliable sha256 plan a.expectedHash a.approved with
  | error e => rfl
  | ok _ =>
    have hconverged : plan.isConverged = true := by simpa [starts,hgate,Except.toOption] using h
    have hlift : (Act.lift (.ok ()) : Step W Unit) s = (.ok (),s) := rfl
    rw [Act.bind_ok hlift,hconverged]
    rfl

theorem apply_starts {a : Attempt} (h : starts sha256 plan a = true) (s : Scene W) :
    R.apply sha256 plan a.expectedHash a.approved s =
      R.applySteps sha256 plan plan.mutatingSteps s := by
  unfold Runtime.apply
  cases hgate : assertPlanAppliable sha256 plan a.expectedHash a.approved with
  | error e => simp [starts,hgate,Except.toOption] at h
  | ok _ =>
    have hconverged : plan.isConverged = false := by
      simpa [starts,hgate,Except.toOption] using h
    have hlift : (Act.lift (.ok ()) : Step W Unit) s = (.ok (),s) := rfl
    rw [Act.bind_ok hlift,hconverged]
    rfl

theorem reached_first {first : PlanStep} {rest : List PlanStep}
    (h : plan.mutatingSteps = first :: rest) (w : W) : first ∈ R.reached plan.mutatingSteps w := by
  have hmem : first ∈ plan.mutatingSteps := by simp [h]
  have hmutating : first.action.isMutating = true := by
    simpa using (List.mem_filter.1 hmem).2
  rw [first.pinned] at hmutating
  rw [h,reached]
  cases hchange : first.toChange with
  | ok change => simp
  | error e =>
    unfold PlanStep.toChange at hchange
    split at hchange
    · cases hchange
    · simp_all

theorem carried_first {first : PlanStep} {rest : List PlanStep} {w : W}
    (h : (R.carried (first :: rest) w).1 ≠ []) : first ∈ (R.carried (first :: rest) w).1 := by
  rw [carried] at h ⊢
  cases hchange : first.toChange with
  | error e => simp [hchange] at h
  | ok change =>
    cases hanswer : R.answers change w with
    | mk ok w' =>
      cases ok with
      | false => simp [hchange,hanswer] at h
      | true => simp [hanswer]

theorem starts_first {a : Attempt} (h : starts sha256 plan a = true) :
    ∃ first rest, plan.mutatingSteps = first :: rest := by
  cases hsteps : plan.mutatingSteps with
  | nil => simp [starts,ProviderPlan.isConverged,hsteps] at h
  | cons first rest => exact ⟨first,rest,rfl⟩

theorem sentOnce_congr {ledger ledger' : Ledger} (h : ∀ callHash,
    ledger.hasOk callHash (plan.hash sha256).text = ledger'.hasOk callHash (plan.hash sha256).text)
    (attempts : List Attempt) (w : W) :
    R.SentOnce sha256 plan ledger attempts w ↔ R.SentOnce sha256 plan ledger' attempts w := by
  induction attempts generalizing w with
  | nil => exact Iff.rfl
  | cons a rest ih =>
    unfold SentOnce
    simp only [h,ih]

theorem SentOnce.first {ledger : Ledger} {attempts : List Attempt} {w : W}
    (h : R.SentOnce sha256 plan ledger attempts w) {b : Attempt} (hb : b ∈ attempts)
    (hstarts : starts sha256 plan b = true) {first : PlanStep} {rest : List PlanStep}
    (hfirst : plan.mutatingSteps = first :: rest) :
    ledger.hasOk (R.callHash sha256 first) (plan.hash sha256).text = false := by
  induction attempts generalizing w with
  | nil => simp at hb
  | cons a later ih =>
    rw [SentOnce] at h
    cases hnow : starts sha256 plan a with
    | true =>
      rw [hnow,if_pos rfl] at h
      exact h.1 first (reached_first hfirst w)
    | false =>
      rw [hnow,if_neg Bool.false_ne_true] at h
      rcases List.mem_cons.1 hb with rfl | hlater
      · simp [hnow] at hstarts
      · exact ih h hlater

theorem sentOnce_idle {ledger : Ledger} {attempts : List Attempt}
    (h : ∀ b ∈ attempts, starts sha256 plan b = false) (w : W) :
    R.SentOnce sha256 plan ledger attempts w := by
  induction attempts with
  | nil => trivial
  | cons a rest ih =>
    rw [SentOnce,h a (by simp),if_neg Bool.false_ne_true]
    exact ih fun b hb => h b (by simp [hb])

/-- Nothing that was carried out is sent again exactly if the calls are as `SentOnce` says. -/
theorem never_resent_iff (sha256 : List Char → Digest) (R : Runtime W) (plan : ProviderPlan)
    (attempts : List Attempt) (s : Scene W)
    (hfree : NoCollision sha256 s.ledger (R.afterAttempts sha256 plan attempts s).records) :
    R.NeverResent sha256 plan attempts s ↔ R.SentOnce sha256 plan s.ledger attempts s.world := by
  unfold NeverResent
  obtain ⟨records,hall⟩ : ∃ records, records = (R.afterAttempts sha256 plan attempts s).records :=
    ⟨_,rfl⟩
  rw [← hall] at hfree
  replace hall : (R.afterAttempts sha256 plan attempts s).records ⊆ records :=
    hall ▸ List.Subset.refl _
  induction attempts generalizing s with
  | nil => simp [retries,SentOnce]
  | cons a rest ih =>
    rw [afterAttempts,List.foldl_cons,← afterAttempts] at hall
    rw [retries,List.forall_mem_append,SentOnce]
    cases hstarts : starts sha256 plan a with
    | false =>
      rw [apply_idle hstarts] at hall ⊢
      simpa using ih s hfree hall
    | true =>
      rw [apply_starts hstarts] at hall ⊢
      have hgrow := records_afterAttempts sha256 R plan rest
        (R.applySteps sha256 plan plan.mutatingSteps s).2
      have hloop := List.Subset.trans hgrow hall
      obtain ⟨hworld,hrecorded⟩ := applySteps_recorded plan.mutatingSteps s hfree hloop
      rw [if_pos rfl,if_pos rfl,sends_fresh_iff plan.mutatingSteps s hfree hloop,
        and_assoc]
      refine and_congr_right fun _ => and_congr_right fun _ => ?_
      refine (ih _ hrecorded.free hall).trans ?_
      rw [hworld]
      by_cases hcarried : (R.carried plan.mutatingSteps s.world).1 = []
      · simp only [hcarried,ne_eq,not_true,false_implies,true_and]
        apply sentOnce_congr
        intro callHash
        rw [Bool.eq_iff_iff,hrecorded.hasOk,hcarried]
        simp
      · obtain ⟨first,others,hfirst⟩ := starts_first hstarts
        simp only [ne_eq,hcarried,not_false_iff,true_implies]
        constructor
        · intro h
          have hidle : ∀ b ∈ rest, starts sha256 plan b = false := by
            intro b hb
            by_contra hb'
            rw [Bool.not_eq_false] at hb'
            have hnot := h.first hb hb' hfirst
            rw [← Bool.not_eq_true,hrecorded.hasOk,hfirst] at hnot
            rw [hfirst] at hcarried
            exact hnot (.inr (List.mem_map_of_mem (carried_first hcarried)))
          exact ⟨hidle,sentOnce_idle hidle _⟩
        · intro h
          exact sentOnce_idle h.1 _

end Runtime

namespace Retry

def created : ProviderPlan :=
  ⟨"local",.localTarget,Digest.ofNat 1,[⟨.create,"db","main",some (Digest.ofNat 2),false,
    db_ne,main_ne,rfl,by decide⟩]⟩

def hosting : Runtime InMemory := .inMemory "local" local_ne

def empty : Scene InMemory := .new ⟨fun _ => false,true,Dict.empty⟩

def attempt : Attempt := ⟨created.hash Digest.ofChars,false⟩

theorem never_resent_iff_once :
    NoCollision Digest.ofChars empty.ledger
      (hosting.afterAttempts Digest.ofChars created [attempt] empty).records ∧
    (hosting.NeverResent Digest.ofChars created [attempt] empty ↔
      hosting.SentOnce Digest.ofChars created empty.ledger [attempt] empty.world) := by
  have hlength : (hosting.afterAttempts Digest.ofChars created [attempt] empty).records.length = 1 := by
    decide +kernel
  have hfree : NoCollision Digest.ofChars empty.ledger
      (hosting.afterAttempts Digest.ofChars created [attempt] empty).records := by
    obtain ⟨e,he⟩ := List.length_eq_one_iff.1 hlength
    rw [he]
    constructor <;> simp [empty,Scene.new]
  exact ⟨hfree,Runtime.never_resent_iff Digest.ofChars hosting created [attempt] empty hfree⟩

/-- A second call of `apply` sends again what the first had carried out. -/
theorem apply_resends :
    ¬ hosting.NeverResent Digest.ofChars created [attempt,attempt] empty := by
  unfold Runtime.NeverResent
  decide +kernel

end Retry
end AgentCentric.Provider

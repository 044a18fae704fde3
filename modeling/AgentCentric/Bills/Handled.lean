import AgentCentric.Bills.Reading

namespace AgentCentric.BillsLoop
open Json Unwinding BillsAgent

namespace BillsAgent
variable {W : Type} {b : BillsAgent W} {d : Directive}

/-- What a directive must be like in a state for its task to answer. -/
def Fine (readers : Readers) (b : BillsAgent W) (o : Outside) (d : Directive) : Prop :=
  ∀ child, b.store = some child →
    match taskOf d with
    | some .intakePdf => PdfFine readers (opArgs d)
    | some .accept => AcceptFine (opArgs d)
    | some .acceptDeterministic => b.AutoFine child (opArgs d)
    | some .ruleAdd => RuleFine child (opArgs d)
    | some .calendar => CalendarFine child (opArgs d)
    | some .setup => SetupFine o (opArgs d)
    | _ => True

theorem run_answers {child : StoreAgent W} (readers : Readers) (hstore : b.store = some child)
    (hfiled : b.Filed) (htask : (taskOf d).isSome) (o : Outside) (w : W) :
    b.Answers (b.run d (capabilities readers) o w) ↔ b.Fine readers o d := by
  have hfine : b.Fine readers o d ↔ match taskOf d with
      | some .intakePdf => PdfFine readers (opArgs d)
      | some .accept => AcceptFine (opArgs d)
      | some .acceptDeterministic => b.AutoFine child (opArgs d)
      | some .ruleAdd => RuleFine child (opArgs d)
      | some .calendar => CalendarFine child (opArgs d)
      | some .setup => SetupFine o (opArgs d)
      | _ => True := by
    constructor
    · exact fun h => h child hstore
    · intro h child' hchild
      obtain rfl := Option.some.inj (hstore.symm.trans hchild)
      exact h
  rw [hfine,run]
  obtain ⟨task,htask⟩ := Option.isSome_iff_exists.mp htask
  obtain ⟨hfile,hemail,hpdf⟩ := intakeSource_returns readers (opArgs d)
  have htask' : Task.ofName (field d.payload "task") = some task := htask
  rw [htask']
  simp only [htask]
  cases task with
  | intake => exact iff_of_true (opIntake_answers w _) trivial
  | intakeFile => exact iff_of_true ((opIntakeSource_answers readers _ w _).mpr hfile) trivial
  | intakeEmail => exact iff_of_true ((opIntakeSource_answers readers _ w _).mpr hemail) trivial
  | intakePdf => exact (opIntakeSource_answers readers _ w _).trans hpdf
  | accept => exact opAccept_answers hstore w _
  | acceptDeterministic => exact opAcceptDeterministic_answers hstore hfiled w _
  | ruleAdd => exact opRuleAdd_answers hstore hfiled w _
  | calendar => exact opCalendar_answers readers hstore hfiled w _
  | registry => exact iff_of_true (opRegistry_answers hstore hfiled w) trivial
  | markPaid => exact iff_of_true (opMarkStatus_answers hstore hfiled _ w _) trivial
  | markStatus => exact iff_of_true (opMarkStatus_answers hstore hfiled _ w _) trivial
  | setup => exact opSetup_answers hstore o w _

theorem promote_store {c : BillsAgent W} (hstore : c.store.isSome) (task : Task) (w : W)
    (draft : List (String × Json)) (sources : Json) :
    (c.promote d task w draft sources).agent.store.isSome := by
  rw [promote.eq_def]
  repeat' split
  all_goals first | exact hstore | (dsimp only; split <;> rfl)

theorem configureStore_store (o : Outside) (w : W) (child : StoreAgent W) (path : String)
    (keys : List Json) : (b.configureStore d o w child path keys).agent.store.isSome := by
  rw [configureStore.eq_def]
  dsimp only
  repeat' split
  all_goals rfl

theorem run_store (tools : Capabilities) (o : Outside) (w : W) (hstore : b.store.isSome) :
    (b.run d tools o w).agent.store.isSome := by
  obtain ⟨child,hchild⟩ := Option.isSome_iff_exists.mp hstore
  rw [run]
  cases Task.ofName (field d.payload "task") with
  | none => exact hstore
  | some task =>
    cases task with
    | intake =>
      dsimp only
      rw [opIntake_agent]
      exact hstore
    | intakeFile => exact hstore
    | intakeEmail => exact hstore
    | intakePdf => exact hstore
    | accept =>
      dsimp only
      rw [opAccept.eq_def]
      split
      · exact promote_store hstore _ w _ _
      · exact hstore
    | acceptDeterministic =>
      have hloaded := loadRules_store (b := b)
      dsimp only
      rw [opAcceptDeterministic.eq_def]
      split
      · split
        · rename_i e loaded hload
          rw [hload] at hloaded
          exact (congrArg Option.isSome hloaded).trans hstore
        · rename_i u loaded hload
          rw [hload] at hloaded
          have hkept : loaded.store.isSome := (congrArg Option.isSome hloaded).trans hstore
          split
          · exact hkept
          · exact promote_store hkept _ w _ _
      · exact hstore
    | ruleAdd =>
      dsimp only
      rw [opRuleAdd.eq_def]
      repeat' split
      all_goals first | exact hstore | (dsimp only; split <;> rfl)
    | calendar =>
      dsimp only
      rw [opCalendar_agent]
      exact hstore
    | registry =>
      dsimp only
      rw [opRegistry_agent]
      exact hstore
    | markPaid =>
      dsimp only
      rw [opMarkStatus.eq_def]
      repeat' split
      all_goals first | exact hstore | (dsimp only; split <;> rfl)
    | markStatus =>
      dsimp only
      rw [opMarkStatus.eq_def]
      repeat' split
      all_goals first | exact hstore | (dsimp only; split <;> rfl)
    | setup =>
      dsimp only
      rw [opSetup.eq_def]
      split
      · exact hstore
      · split
        · exact hstore
        · rw [hchild]
          exact configureStore_store o w child _ _

end BillsAgent

namespace Scene
variable {W : Type} {s : Scene W} {d : Directive}

/-- There is a response, and one that is not verified leaves the files, the open store and the
rules alone. -/
def Handled (readers : Readers) (s : Scene W) (input : Outside × Directive) : Prop :=
  let r := s.step (capabilities readers) input
  ∃ response, r.1 = .ok response ∧ (response.verified.truthy = false →
    (∀ path, r.2.tableAt path = s.tableAt path) ∧ r.2.agent.table = s.agent.table ∧
      r.2.agent.ruleSet = s.agent.ruleSet)

/-- What is stored, in whichever file, is filed. -/
def Filed (s : Scene W) : Prop := ∀ path, FiledTable (s.tableAt path)

theorem agent_filed (hcoherent : s.Coherent) (hfiled : s.Filed) : s.agent.Filed := by
  intro table htable
  obtain ⟨path,-,hfile⟩ := hcoherent table htable
  have hpath := hfiled path
  rw [tableAt,hfile] at hpath
  exact hpath

theorem handled_iff (readers : Readers) (o : Outside) (hcoherent : s.Coherent) :
    s.Handled readers (o,d) ↔
      s.agent.Answers (s.agent.run d (capabilities readers) (s.opened o d) s.world) := by
  constructor
  · rintro ⟨response,hok,hsame⟩
    exact ⟨response,hok,fun h => (hsame h).2⟩
  · rintro ⟨response,hok,hsame⟩
    refine ⟨response,hok,fun hrefused => ?_⟩
    obtain ⟨htable,hrules⟩ := hsame hrefused
    refine ⟨?_,htable,hrules⟩
    -- a setup that is refused opens no file
    have hplace : s.placeAfter d
        (s.agent.run d (capabilities readers) (s.opened o d) s.world).result = s.place := by
      rw [placeAfter,hok,if_neg]
      rintro ⟨-,hacknowledged⟩
      exact absurd (hrefused.symm.trans hacknowledged) (by decide)
    have hfiles := (filesAfter_same (w := (s.agent.run d (capabilities readers) (s.opened o d)
      s.world).world) hcoherent htable).2
    rw [← hplace] at hfiles
    exact hfiles

theorem fine_opened (readers : Readers) (o : Outside) :
    s.agent.Fine readers (s.opened o d) d ↔ s.agent.Fine readers o d := by
  have hopens : (∃ store, (s.opened o d).state = .ok store) ↔ ∃ store, o.state = .ok store :=
    map_returns
  simp only [Fine,SetupFine,hopens]

/-- What a run of directives starts from and keeps. -/
def Ready (s : Scene W) : Prop := s.Coherent ∧ s.Filed ∧ s.agent.store.isSome

theorem step_ready (readers : Readers) (o : Outside) (h : s.Ready) :
    (s.step (capabilities readers) (o,d)).2.Ready := by
  obtain ⟨hcoherent,hfiled,hstore⟩ := h
  obtain ⟨hkept,hcases⟩ := step_cases (d := d) (capabilities readers) o hcoherent
  refine ⟨hkept,fun other => ?_,run_store _ _ _ hstore⟩
  rcases hcases with hsame | ⟨path,table,key,value,fingerprint,htable,hfile,hwrites,-,htables⟩
  · rw [hsame other]
    exact hfiled other
  · rw [htables other]
    split
    · have hopen : FiledTable table := hfile ▸ hfiled path
      exact hopen.set (hwrites.filed htable hopen)
    · exact hfiled other

theorem step_handled (readers : Readers) (o : Outside) (h : s.Ready) (htask : (taskOf d).isSome) :
    s.Handled readers (o,d) ↔ s.agent.Fine readers o d := by
  obtain ⟨hcoherent,hfiled,hstore⟩ := h
  obtain ⟨child,hchild⟩ := Option.isSome_iff_exists.mp hstore
  rw [handled_iff readers o hcoherent,
    run_answers readers hchild (agent_filed hcoherent hfiled) htask,fine_opened]

/-- In a run of directives of the bills tasks every one is handled exactly where every one is
fine in the state that it meets. -/
theorem runs_handled_iff (readers : Readers) (inputs : List (Outside × Directive)) (s : Scene W)
    (hcoherent : s.Coherent) (hfiled : s.Filed) (hstore : s.agent.store.isSome)
    (htasks : ∀ input ∈ inputs, (taskOf input.2).isSome) :
    Along (step (capabilities readers)) (fun s input => s.Handled readers input) s inputs ↔
      Along (step (capabilities readers))
        (fun s input => s.agent.Fine readers input.1 input.2) s inputs := by
  have hstep (t : Scene W) (input : Outside × Directive) (htask : (taskOf input.2).isSome = true)
      (hready : t.Ready) : (t.Handled readers input ↔ t.agent.Fine readers input.1 input.2) ∧
        (step (capabilities readers) t input).2.Ready :=
    ⟨step_handled readers input.1 hready htask,step_ready readers input.1 hready⟩
  have hready : s.Ready := ⟨hcoherent,hfiled,hstore⟩
  constructor
  · intro h
    exact (Along.keeps (fun t input htask hready hhandled =>
      ⟨(hstep t input htask hready).1.mp hhandled,(hstep t input htask hready).2⟩)
        htasks h hready).1
  · intro h
    exact (Along.keeps (fun t input htask hready hfine =>
      ⟨(hstep t input htask hready).1.mpr hfine,(hstep t input htask hready).2⟩)
        htasks h hready).1

namespace Sample

def readers : Readers where
  tables := .ascii
  lower := id
  splitLines _ := []
  intOf _ := none
  csvRows _ := .error "no rows"
  loads _ := .error "no JSON"
  decode _ := ""
  b64decode _ := none
  decompress _ := none
  floatSum _ := .nan

def allocated : Scene Unit :=
  ⟨⟨Agent.new "bills" none ["store"],Dict.empty,some ⟨Agent.new "store" none ["store"],[]⟩⟩,
    Dict.empty,none,()⟩

def badRule : Outside × Directive :=
  directive "d4" .ruleAdd [("rule",.dict [("id",.str "r1"),("matcher",.int 5)])]

theorem allocated_ready : allocated.Ready := by
  refine ⟨fun _ h => ?_,fun _ _ h => ?_,rfl⟩
  · cases h
  · cases h

end Sample

theorem runs_handled_accepted_and_paid :
    Along (step (capabilities Sample.readers)) (fun s input => s.Handled Sample.readers input)
      Sample.allocated [Sample.setup,Sample.accept Sample.bill,Sample.paid] := by
  obtain ⟨hcoherent,hfiled,hstore⟩ := Sample.allocated_ready
  refine (runs_handled_iff Sample.readers _ Sample.allocated hcoherent hfiled hstore ?_).mpr
    ⟨?_,?_,?_,trivial⟩
  · decide
  · exact fun _ _ => ⟨_,rfl,fun _ => ⟨_,rfl⟩⟩
  · intro _ _ draft hdraft _
    obtain rfl : Sample.bill = draft := Json.dict.inj hdraft
    intro field hfield
    revert field
    decide
  · exact fun _ _ => trivial

/-- A rule is stored before its matcher is read. -/
theorem bad_rule_raises : ¬∀ (readers : Readers) (inputs : List (Outside × Directive))
    (s : Scene Unit), s.Coherent → s.Filed → s.agent.store.isSome →
      (∀ input ∈ inputs, (taskOf input.2).isSome) →
        Along (step (capabilities readers)) (fun s input => s.Handled readers input) s inputs := by
  intro h
  obtain ⟨hcoherent,hfiled,hstore⟩ := Sample.allocated_ready
  obtain ⟨-,⟨response,hok,-⟩,-⟩ := h Sample.readers [Sample.setup,Sample.badRule]
    Sample.allocated hcoherent hfiled hstore (by decide)
  have hraised : (((Sample.allocated.step (capabilities Sample.readers) Sample.setup).2.step
      (capabilities Sample.readers) Sample.badRule).1).isOk = false := by decide +kernel
  rw [hok] at hraised
  cases hraised

end Scene
end AgentCentric.BillsLoop

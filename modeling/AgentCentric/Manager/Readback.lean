import AgentCentric.Manager.Store

namespace AgentCentric.Manager
open JsonLines

inductive Entry where
  | step : StepRecord Json → Entry
  | outcome : StoredOutcome Json → Entry

namespace Entry

def items : Entry → List (String × Json)
  | .step s => stepToRecord s
  | .outcome o => outcomeToRecord o

def step? : Entry → Option (StepRecord Json)
  | .step s => some s
  | .outcome _ => none

def outcome? : Entry → Option (StoredOutcome Json)
  | .step _ => none
  | .outcome o => some o

def line (e : Entry) : List Char := (Json.dict e.items).dumps.toList

end Entry

def StepRecord.reread (s : StepRecord Json) : StepRecord Json :=
  { s with
    input := s.input.canonical
    output := s.output.canonical }

def StoredOutcome.reread (o : StoredOutcome Json) : StoredOutcome Json :=
  match o.kind with
  | .verified => .verified o.output.canonical
  | .failure => ⟨.failure,.null,o.reason,o.message⟩
  | .interrupted => .interrupted

theorem field_sorted (items : List (String × Json)) (key : String) (value : Json)
    (hvalue : Dict.lookup items key = some value) :
    field (Json.sorted items) key = .ok value.canonical := by
  simp only [field,Json.lookup_sorted,hvalue,Option.map_some]

theorem optionalText_sorted (items : List (String × Json)) (key : String) (t : Option String)
    (hvalue : Dict.lookup items key = some ((t.map Json.str).getD .null)) :
    optionalText (Json.sorted items) key = .ok t := by
  simp only [optionalText,Json.lookup_sorted,hvalue,Option.map_some]
  cases t with
  | none => simp [Json.canonical]
  | some s => simp [Json.canonical]

theorem textAt_sorted (items : List (String × Json)) {key s : String}
    (hvalue : Dict.lookup items key = some (.str s)) : textAt (Json.sorted items) key = some s := by
  simp [textAt,Json.lookup_sorted,hvalue,Json.canonical]

theorem recordToStep_sorted (python : Python) (s : StepRecord Json) :
    recordToStep python (Json.sorted (stepToRecord s)) = .ok s.reread := by
  have hindex := field_sorted (stepToRecord s) "step_index" (.int s.stepIndex) rfl
  have hstatus := field_sorted (stepToRecord s) "status" (.str s.status.value) rfl
  have hdescription := field_sorted (stepToRecord s) "description" (.str s.description) rfl
  have herror := optionalText_sorted (stepToRecord s) "error" s.error rfl
  have hinput : Dict.lookup (Json.sorted (stepToRecord s)) "input" = some s.input.canonical := by
    rw [Json.lookup_sorted]
    rfl
  have houtput : Dict.lookup (Json.sorted (stepToRecord s)) "output" = some s.output.canonical := by
    rw [Json.lookup_sorted]
    rfl
  have helapsed : Dict.lookup (Json.sorted (stepToRecord s)) "elapsed_seconds" =
      some (.decimal s.elapsedSeconds) := by
    rw [Json.lookup_sorted]
    simp [stepToRecord,Dict.lookup,Json.canonical]
  simp only [Json.canonical] at hindex hstatus hdescription
  simp only [recordToStep,hindex,hstatus,hdescription,herror,hinput,houtput,helapsed,
    Option.getD_some,bind,Except.bind,cast,readStatus,StepStatus.ofValue_value,python.int_int,
    python.float_decimal,python.str_str]
  rfl

theorem outcome_kind_lookup (o : StoredOutcome Json) :
    Dict.lookup (outcomeToRecord o) "outcome_kind" = some (.str o.kind.value) := by
  simp [outcomeToRecord,Dict.lookup]

theorem decodeOutcome_sorted (o : StoredOutcome Json) :
    decodeOutcome (Json.sorted (outcomeToRecord o)) = .ok o.reread := by
  have hkind := textAt_sorted (outcomeToRecord o) (outcome_kind_lookup o)
  cases h : o.kind with
  | verified =>
    have houtput : Dict.lookup (Json.sorted (outcomeToRecord o)) "output" =
        some o.output.canonical := by
      rw [Json.lookup_sorted]
      simp [outcomeToRecord,h,Dict.lookup]
    rw [h] at hkind
    simp [decodeOutcome,hkind,OutcomeKind.value,houtput,StoredOutcome.reread,h]
  | failure =>
    have hreason := optionalText_sorted (outcomeToRecord o) "reason" o.reason (by
      simp [outcomeToRecord,h,Dict.lookup])
    have hmessage := optionalText_sorted (outcomeToRecord o) "message" (some o.message) (by
      simp [outcomeToRecord,h,Dict.lookup])
    rw [h] at hkind
    simp [decodeOutcome,hkind,OutcomeKind.value,hreason,hmessage,StoredOutcome.reread,h,bind,
      Except.bind]
  | interrupted =>
    rw [h] at hkind
    simp [decodeOutcome,hkind,OutcomeKind.value,StoredOutcome.reread,h]

theorem isBlank_dumps (items : List (String × Json)) :
    isBlank (Json.dict items).dumps.toList = false := by
  have hopen : isSpace '\x7b' = false := by decide
  obtain ⟨cs,hcs⟩ : ∃ cs, (Json.dict items).dumps.toList = '\x7b' :: cs := by
    rw [Json.dumps,String.toList_ofList,Json.canonical_dict]
    cases hsorted : Json.sorted items with
    | nil => exact ⟨_,by rw [Json.render]⟩
    | cons item rest =>
      obtain ⟨k,v⟩ := item
      exact ⟨_,by rw [Json.render]; rfl⟩
  simp [isBlank,hcs,hopen]

theorem splitLines_recordLine (items : List (String × Json)) (rest : List Char) :
    splitLines (FileStore.recordLine items ++ rest) =
      (Json.dict items).dumps.toList :: splitLines rest := by
  rw [FileStore.recordLine,List.append_assoc]
  exact splitLines_line rest (dumps_unbroken _)

theorem splitLines_entries (entries : List Entry) :
    splitLines (entries.flatMap fun e => FileStore.recordLine e.items) =
      entries.map Entry.line := by
  induction entries with
  | nil => rfl
  | cons e entries ih => rw [List.flatMap_cons,splitLines_recordLine,ih,List.map_cons,Entry.line]

theorem loads_line (e : Entry) : Json.loads (String.ofList e.line) = some (.dict (Json.sorted e.items)) := by
  rw [Entry.line,String.ofList_toList,Json.loads_dumps,Json.canonical_dict]

theorem step_kind (s : StepRecord Json) :
    textAt (Json.sorted (Entry.step s).items) "kind" = some "step" :=
  textAt_sorted (stepToRecord s) rfl

theorem outcome_kind (o : StoredOutcome Json) :
    textAt (Json.sorted (Entry.outcome o).items) "kind" = some "outcome" :=
  textAt_sorted (outcomeToRecord o) (by simp [outcomeToRecord,Dict.lookup])

theorem anyOutcome_entries (entries : List Entry) :
    anyOutcome (entries.map Entry.line) = .ok (entries.filterMap Entry.outcome?).isEmpty.not := by
  induction entries with
  | nil => rfl
  | cons e entries ih =>
    have hblank : isBlank e.line = false := isBlank_dumps e.items
    rw [List.map_cons,anyOutcome,hblank,loads_line]
    cases e with
    | step s => simp [step_kind,ih,List.filterMap_cons,Entry.outcome?]
    | outcome o => simp [outcome_kind,Entry.outcome?]

theorem anyOutcome_split (lines more : List (List Char)) :
    anyOutcome lines = .ok false ∧ anyOutcome (lines ++ more) = anyOutcome more ∨
      anyOutcome lines ≠ .ok false ∧ anyOutcome (lines ++ more) = anyOutcome lines := by
  induction lines with
  | nil => exact .inl ⟨rfl,rfl⟩
  | cons line lines ih =>
    rw [List.cons_append,anyOutcome,anyOutcome]
    split
    · exact ih
    · cases Json.loads (String.ofList line) with
      | none => exact ih
      | some value =>
        cases value with
        | dict items =>
          simp only
          split
          · exact .inr ⟨nofun,rfl⟩
          · exact ih
        | _ => exact .inr ⟨nofun,rfl⟩

theorem anyOutcome_append {lines : List (List Char)} (h : anyOutcome lines = .ok false)
    (more : List (List Char)) : anyOutcome (lines ++ more) = anyOutcome more := by
  rcases anyOutcome_split lines more with ⟨-,heq⟩ | ⟨hne,-⟩
  · exact heq
  · exact absurd h hne

/-- Lines that make the search raise, or end it, do so whatever comes after them. -/
theorem anyOutcome_stop {lines : List (List Char)} (h : anyOutcome lines ≠ .ok false)
    (more : List (List Char)) : anyOutcome (lines ++ more) = anyOutcome lines := by
  rcases anyOutcome_split lines more with ⟨heq,-⟩ | ⟨-,heq⟩
  · exact absurd heq h
  · exact heq

theorem readLines_entries (python : Python) (name : String) (entries : List Entry) (lineno : Nat) :
    readLines python name lineno (entries.map Entry.line) =
      .ok (entries.map fun e => .dict (Json.sorted e.items)) := by
  induction entries generalizing lineno with
  | nil => rfl
  | cons e entries ih =>
    have hblank : isBlank e.line = false := isBlank_dumps e.items
    rw [List.map_cons,readLines,hblank,loads_line]
    simp [ih,bind,Except.bind]

theorem readRecord_step (python : Python) (reading : Reading) (s : StepRecord Json) :
    readRecord python reading (.dict (Json.sorted (Entry.step s).items)) =
      .ok { reading with steps := reading.steps ++ [s.reread] } := by
  have hstep : recordToStep python (Json.sorted (Entry.step s).items) = .ok s.reread :=
    recordToStep_sorted python s
  simp [readRecord,step_kind,hstep,bind,Except.bind]

theorem readRecord_outcome (python : Python) (reading : Reading) (o : StoredOutcome Json) :
    readRecord python reading (.dict (Json.sorted (Entry.outcome o).items)) =
      .ok { reading with outcome := some o.reread } := by
  have houtcome : decodeOutcome (Json.sorted (Entry.outcome o).items) = .ok o.reread :=
    decodeOutcome_sorted o
  simp [readRecord,outcome_kind,houtcome,bind,Except.bind]

theorem readRecords_entries (python : Python) (entries : List Entry) (reading : Reading) :
    (entries.map fun e => Json.dict (Json.sorted e.items)).foldlM (readRecord python) reading =
      .ok ⟨reading.head,reading.steps ++ (entries.filterMap Entry.step?).map StepRecord.reread,
        (((entries.filterMap Entry.outcome?).getLast?).map StoredOutcome.reread).or
          reading.outcome⟩ := by
  induction entries generalizing reading with
  | nil => simp [pure,Except.pure]
  | cons e entries ih =>
    rw [List.map_cons,List.foldlM_cons]
    cases e with
    | step s =>
      rw [readRecord_step]
      simp [bind,Except.bind,ih,Entry.step?,Entry.outcome?]
    | outcome o =>
      rw [readRecord_outcome]
      simp only [bind,Except.bind,ih,List.filterMap_cons,Entry.step?,Entry.outcome?]
      cases h : entries.filterMap Entry.outcome? with
      | nil => simp
      | cons p ps => simp [List.getLast?_cons]

theorem metaItems_nodup (id taskId agentName : String) :
    ((FileStore.metaItems id taskId agentName).map Prod.fst).Nodup := by
  simp only [FileStore.metaItems,List.map_cons,List.map_nil]
  decide

def metaRecord (id taskId agentName : String) : List (String × Json) :=
  ((FileStore.metaItems id taskId agentName).insertionSort
    (fun a b => decide (a.1 ≤ b.1))).map fun p => (p.1,Json.str p.2)

theorem lookup_metaRecord (id taskId agentName key : String) :
    Dict.lookup (metaRecord id taskId agentName) key =
      (Dict.lookup (FileStore.metaItems id taskId agentName) key).map Json.str := by
  have hperm := List.perm_insertionSort (fun a b : String × String => decide (a.1 ≤ b.1))
    (FileStore.metaItems id taskId agentName)
  have hnodup := metaItems_nodup id taskId agentName
  rw [metaRecord,Dict.lookup_map,← Dict.lookup_perm hperm.symm hnodup]

theorem loads_meta (id taskId agentName : String) :
    Json.loads (String.ofList (rawDumps (FileStore.metaItems id taskId agentName))) =
      some (.dict (metaRecord id taskId agentName)) :=
  loads_rawDumps (by simp [FileStore.metaItems])

theorem meta_kind (id taskId agentName : String) :
    textAt (metaRecord id taskId agentName) "kind" = some "meta" := by
  simp [textAt,lookup_metaRecord,FileStore.metaItems,Dict.lookup]

theorem meta_texts (id taskId agentName : String) :
    text (metaRecord id taskId agentName) "task_id" = .ok taskId ∧
      text (metaRecord id taskId agentName) "agent_name" = .ok agentName := by
  simp [text,lookup_metaRecord,FileStore.metaItems,Dict.lookup]

theorem isBlank_meta (items : List (String × String)) : isBlank (rawDumps items) = false := by
  have hopen : isSpace '\x7b' = false := by decide
  simp [isBlank,rawDumps,hopen]

/-- The first line of the file, as far as `splitlines` takes it. -/
theorem isBlank_metaFirst (items : List (String × String)) :
    isBlank ((rawDumps items).takeWhile (!isBreak ·)) = false := by
  have hopen : isSpace '\x7b' = false ∧ isBreak '\x7b' = false := by decide
  simp [isBlank,rawDumps,hopen]

end AgentCentric.Manager

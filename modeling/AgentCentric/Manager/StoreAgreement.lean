import AgentCentric.Library.Transducer
import AgentCentric.Manager.Readback

namespace AgentCentric.Manager
open JsonLines Transducer

theorem hexDigit_inj {m n : Nat} (hm : m < 16) (hn : n < 16) (h : hexDigit m = hexDigit n) : m = n := by
  have hall : ∀ m < 16, ∀ n < 16, hexDigit m = hexDigit n → m = n := by decide
  exact hall m hm n hn h

theorem hex_inj {bs cs : List UInt8} (h : hex bs = hex cs) : bs = cs := by
  induction bs generalizing cs with
  | nil => cases cs <;> simp [hex] at h ⊢
  | cons b bs ih =>
    cases cs with
    | nil => simp [hex] at h
    | cons c cs =>
      simp only [hex,List.flatMap_cons,List.cons_append,List.nil_append,List.cons.injEq] at h
      have hb := b.toNat_lt
      have hc := c.toNat_lt
      have hhigh := hexDigit_inj (by omega) (by omega) h.1
      have hlow := hexDigit_inj (by omega) (by omega) h.2.1
      have hbyte : b = c := UInt8.toNat_inj.1 (by omega)
      rw [hbyte,ih h.2.2]

theorem fileName_inj {id id' : String} (h : fileName id = fileName id') : id = id' := by
  have hlist : hex id.toByteArray.data.toList = hex id'.toByteArray.data.toList :=
    List.append_cancel_right (String.ofList_injective h)
  have hdata := Array.toList_inj.1 (hex_inj hlist)
  exact String.toByteArray_inj.1 (ByteArray.ext hdata)

namespace Call

def id : Call → String
  | .begin id _ _ | .appendStep id _ | .recordOutcome id _ | .load id | .contains id => id

def begins (id : String) : Call → Option (String × String)
  | .begin id' taskId agentName => if id' = id then some (taskId,agentName) else none
  | _ => none

def decides (id : String) : Call → Option (StoredOutcome Json)
  | .recordOutcome id' outcome => if id' = id then some outcome else none
  | _ => none

def Native : Call → Prop
  | .appendStep _ step => step.input.native = true ∧ step.output.native = true
  | .recordOutcome _ outcome => outcome.output.native = true
  | _ => True

instance (c : Call) : Decidable c.Native := by
  cases c <;> unfold Native <;> infer_instance

end Call

def begun (before : List Call) (id : String) : Option (String × String) :=
  before.findSome? (Call.begins id)

def decided (before : List Call) (id : String) : Option (StoredOutcome Json) :=
  before.findSome? (Call.decides id)

def StoredOutcome.Plain (o : StoredOutcome Json) : Prop :=
  match o.kind with
  | .verified => o.reason = none ∧ o.message = ""
  | .failure => Json.pyEq o.output .null = true
  | .interrupted => Json.pyEq o.output .null = true ∧ o.reason = none ∧ o.message = ""

instance (o : StoredOutcome Json) : Decidable o.Plain := by
  unfold StoredOutcome.Plain
  cases o.kind <;> infer_instance

def harmless (line : List Char) : Bool :=
  isBlank line ||
    match Json.loads (String.ofList line) with
    | none => true
    | some (.dict items) => textAt items "kind" ≠ some "outcome"
    | some _ => false

def Agreed (disk : Disk) (before : List Call) (call : Call) : Prop :=
  disk.takes (fileName call.id) = true ∧
  match call with
  | .begin _ _ _ | .contains _ => True
  | .appendStep id _ => (begun before id).isSome = true
  | .recordOutcome id _ => (begun before id).isSome = true ∧ ∀ texts ∈ begun before id,
      (splitLines (FileStore.metaLine id texts.1 texts.2)).all harmless = true
  | .load id => ∀ texts ∈ begun before id,
      Unbroken (FileStore.metaItems id texts.1 texts.2) ∧ ∀ o ∈ decided before id, o.Plain

instance (disk : Disk) (before : List Call) (call : Call) : Decidable (Agreed disk before call) := by
  cases call <;> unfold Agreed <;> infer_instance

def Reply.same : Reply → Reply → Bool
  | .done, .done => true
  | .found a, .found b => a = b
  | .loaded none, .loaded none => true
  | .loaded (some t), .loaded (some u) => t.pyEq u
  | .raised e, .raised f => e.isStoreError = f.isStoreError
  | _, _ => false

theorem StepRecord.pyEq_reread {s : StepRecord Json}
    (h : s.input.native = true ∧ s.output.native = true) : s.pyEq s.reread = true := by
  simp [StepRecord.pyEq,reread,Json.pyEq_canonical _ h.1,Json.pyEq_canonical _ h.2]

theorem stepsEq_reread {steps : List (StepRecord Json)}
    (h : ∀ s ∈ steps, s.input.native = true ∧ s.output.native = true) :
    stepsEq steps (steps.map StepRecord.reread) = true := by
  induction steps with
  | nil => rfl
  | cons s steps ih =>
    have hs := StepRecord.pyEq_reread (h s (by simp))
    have hrest := ih fun t ht => h t (List.mem_cons_of_mem _ ht)
    simp [stepsEq,hs,hrest]

theorem StoredOutcome.pyEq_reread_iff {o : StoredOutcome Json} (h : o.output.native = true) :
    o.pyEq o.reread = true ↔ o.Plain := by
  cases hkind : o.kind with
  | verified => simp [pyEq,reread,verified,Plain,hkind,Json.pyEq_canonical _ h]
  | failure => simp [pyEq,reread,Plain,hkind]
  | interrupted => simp [pyEq,reread,interrupted,Plain,hkind,and_assoc]

def Mirrors (id : String) (kept : Kept) (content : List Char) : Prop :=
  ∃ entries : List Entry,
    content = FileStore.metaLine id kept.taskId kept.agentName ++
      entries.flatMap (fun e => FileStore.recordLine e.items) ∧
    entries.filterMap Entry.step? = kept.steps ∧
    entries.filterMap Entry.outcome? = kept.outcome.toList

structure Mirrored (before : List Call) (id : String) (kept : Kept) (content : List Char) : Prop where
  begun : begun before id = some (kept.taskId,kept.agentName)
  decided : decided before id = kept.outcome
  steps : ∀ s ∈ kept.steps, s.input.native = true ∧ s.output.native = true
  outcome : ∀ o ∈ kept.outcome, o.output.native = true
  mirrors : Mirrors id kept content
  quiet : kept.outcome ≠ none →
    (splitLines (FileStore.metaLine id kept.taskId kept.agentName)).all harmless = true

/-- One trajectory in both stores, after the calls. -/
inductive RelatedAt (before : List Call) (id : String) : Option Kept → Option (List Char) → Prop where
  | absent (hbegun : begun before id = none) (hdecided : decided before id = none) :
      RelatedAt before id none none
  | present {kept : Kept} {content : List Char} (h : Mirrored before id kept content) :
      RelatedAt before id (some kept) (some content)

def Related (before : List Call) (store : InMemory) (files : Files) : Prop :=
  ∀ id, RelatedAt before id (store.get id) (files.get (fileName id))

theorem anyOutcome_harmless (lines : List (List Char)) :
    anyOutcome lines = .ok false ↔ lines.all harmless = true := by
  induction lines with
  | nil => simp [anyOutcome]
  | cons line lines ih =>
    rw [anyOutcome,List.all_cons,harmless]
    cases hblank : isBlank line with
    | true => simpa using ih
    | false =>
      cases hload : Json.loads (String.ofList line) with
      | none => simpa using ih
      | some value =>
        cases value with
        | dict items =>
          by_cases hkind : textAt items "kind" = some "outcome"
          · simp [hkind]
          · simpa [hkind] using ih
        | _ => simp

variable {content : List Char} {id : String} {kept : Kept}

theorem Mirrors.lines (h : Mirrors id kept content) : ∃ entries : List Entry,
      splitLines content = splitLines (FileStore.metaLine id kept.taskId kept.agentName) ++
        entries.map Entry.line ∧ entries.filterMap Entry.step? = kept.steps ∧
      entries.filterMap Entry.outcome? = kept.outcome.toList := by
  obtain ⟨entries,hcontent,hsteps,houtcome⟩ := h
  refine ⟨entries,?_,hsteps,houtcome⟩
  rw [hcontent,FileStore.metaLine,List.append_assoc,List.singleton_append,splitLines_append,
    splitLines_entries]

theorem Mirrors.anyOutcome (h : Mirrors id kept content)
    (hquiet : (splitLines (FileStore.metaLine id kept.taskId kept.agentName)).all harmless = true) :
    anyOutcome (splitLines content) = .ok kept.outcome.isSome := by
  obtain ⟨entries,hlines,_,houtcome⟩ := h.lines
  rw [hlines,anyOutcome_append ((anyOutcome_harmless _).2 hquiet),anyOutcome_entries,houtcome]
  cases kept.outcome <;> rfl

theorem Mirrors.anyOutcome_cut (h : Mirrors id kept content)
    (hquiet : (splitLines (FileStore.metaLine id kept.taskId kept.agentName)).all harmless ≠ true) :
    Manager.anyOutcome (splitLines content) ≠ .ok false := by
  obtain ⟨entries,hlines,_,_⟩ := h.lines
  have hstop : Manager.anyOutcome (splitLines (FileStore.metaLine id kept.taskId kept.agentName)) ≠
      .ok false := fun hfalse => hquiet ((anyOutcome_harmless _).1 hfalse)
  rwa [hlines,anyOutcome_stop hstop]

theorem Mirrors.read (h : Mirrors id kept content)
    (hmeta : Unbroken (FileStore.metaItems id kept.taskId kept.agentName)) (python : Python) :
    FileStore.read python id content =
      .ok ⟨id,kept.taskId,kept.agentName,kept.steps.map StepRecord.reread,
        (kept.outcome.map StoredOutcome.reread).getD .interrupted⟩ := by
  obtain ⟨entries,hlines,hsteps,houtcome⟩ := h.lines
  have hfirst : splitLines (FileStore.metaLine id kept.taskId kept.agentName) =
      [rawDumps (FileStore.metaItems id kept.taskId kept.agentName)] := by
    rw [FileStore.metaLine,splitLines_line [] (rawDumps_unbroken hmeta),splitLines]
  have htexts := meta_texts id kept.taskId kept.agentName
  rw [hfirst,List.singleton_append] at hlines
  have hrecord : readRecord python ⟨none,[],none⟩
      (.dict (metaRecord id kept.taskId kept.agentName)) =
        .ok ⟨some (metaRecord id kept.taskId kept.agentName),[],none⟩ := by
    simp [readRecord,meta_kind]
  rw [FileStore.read,hlines,readLines,isBlank_meta,loads_meta]
  simp only [Bool.false_eq_true,if_false,readLines_entries,bind,Except.bind]
  rw [List.foldlM_cons,hrecord]
  simp only [bind,Except.bind,readRecords_entries,List.nil_append,hsteps,houtcome,htexts.1,htexts.2]
  cases kept.outcome <;> rfl

theorem Mirrors.read_cut (h : Mirrors id kept content)
    (hmeta : ¬ Unbroken (FileStore.metaItems id kept.taskId kept.agentName)) (python : Python) :
    ∃ message, FileStore.read python id content = .error (.corruptTrajectory message) := by
  obtain ⟨entries,hcontent,_,_⟩ := h
  obtain ⟨lines,hlines⟩ := splitLines_first (show content ≠ [] by
    rw [hcontent,FileStore.metaLine]
    simp)
  have hfirst : content.takeWhile (!isBreak ·) =
      (rawDumps (FileStore.metaItems id kept.taskId kept.agentName)).takeWhile (!isBreak ·) := by
    have hnewline : isBreak '\n' = true := by decide
    rw [hcontent,FileStore.metaLine,List.append_assoc,List.singleton_append,List.takeWhile_append]
    split
    · rename_i hlength
      rw [List.takeWhile_cons_of_neg (by simp [hnewline]),List.append_nil]
      exact ((List.takeWhile_prefix _).eq_of_length hlength).symm
    · rfl
  rw [FileStore.read,hlines,hfirst,readLines,isBlank_metaFirst,loads_cut hmeta]
  exact ⟨_,rfl⟩

theorem validate_ok (h : id ≠ "") : validateTrajectoryId id = .ok () := by
  simp [validateTrajectoryId,h]

variable {call : Call} {store : InMemory}

theorem InMemory.raises {e : StoreRaised} (hid : call.id ≠ "")
    (h : (store.call call).1 = .raised e) : e.isStoreError = true := by
  cases call with
  | begin id taskId agentName =>
    have hvalid : validateTrajectoryId id = .ok () := validate_ok hid
    simp only [InMemory.call,InMemory.begin,hvalid,bind,Except.bind] at h
    cases hget : store.get id with
    | none => simp [hget,Reply.change] at h
    | some kept =>
      simp only [hget,Reply.change,Reply.raised.injEq] at h
      rw [← h]
      rfl
  | appendStep id step =>
    simp only [InMemory.call,InMemory.appendStep,InMemory.require,bind,Except.bind] at h
    cases hget : store.get id with
    | none =>
      simp only [hget,Reply.change,Reply.raised.injEq] at h
      rw [← h]
      rfl
    | some kept => simp [hget,Reply.change] at h
  | recordOutcome id outcome =>
    simp only [InMemory.call,InMemory.recordOutcome,InMemory.require,bind,Except.bind] at h
    cases hget : store.get id with
    | none =>
      simp only [hget,Reply.change,Reply.raised.injEq] at h
      rw [← h]
      rfl
    | some kept =>
      cases houtcome : kept.outcome with
      | none => simp [hget,houtcome,Reply.change] at h
      | some o =>
        simp only [hget,houtcome,Reply.change,Reply.raised.injEq] at h
        rw [← h]
        rfl
  | load id => simp [InMemory.call] at h
  | contains id => simp [InMemory.call] at h

variable {files : Files}

theorem FileStore.refused {python : Python} {disk : Disk}
    (hid : call.id ≠ "") (h : disk.takes (fileName call.id) = false) :
    (FileStore.call python disk files call).1 = .raised (.other (disk.refusal (fileName call.id))) := by
  cases call with
  | begin id taskId agentName =>
    have hvalid : validateTrajectoryId id = .ok () := validate_ok hid
    simp only [Call.id] at h
    simp [call,begin,hvalid,Disk.find,h,bind,Except.bind,Reply.change,Call.id]
  | appendStep id step =>
    simp only [Call.id] at h
    simp [call,appendStep,Disk.writeLine,h,Reply.change,Call.id]
  | recordOutcome id outcome =>
    simp only [Call.id] at h
    simp [call,recordOutcome,hasOutcome,Disk.find,h,bind,Except.bind,Reply.change,Call.id]
  | load id =>
    simp only [Call.id] at h
    simp [call,load,Disk.find,h,bind,Except.bind,Reply.answer,Call.id]
  | contains id =>
    simp only [Call.id] at h
    simp [call,contains,Disk.find,h,bind,Except.bind,Reply.answer,Call.id]

theorem same_other {r : Reply} {message : String}
    (h : ∀ e, r = .raised e → e.isStoreError = true) : r.same (.raised (.other message)) = false := by
  cases r with
  | raised e =>
    have he := h e rfl
    rw [Reply.same,he]
    rfl
  | _ => simp [Reply.same]

variable {before : List Call}

theorem Related.cases (h : Related before store files) (id : String) :
    (store.get id = none ∧ files.get (fileName id) = none ∧ begun before id = none ∧
      decided before id = none) ∨
    ∃ kept content, store.get id = some kept ∧ files.get (fileName id) = some content ∧
      Mirrored before id kept content := by
  have hat := h id
  cases hkept : store.get id with
  | none =>
    cases hcontent : files.get (fileName id) with
    | none =>
      rw [hkept,hcontent] at hat
      cases hat with
      | absent hbegun hdecided => exact .inl ⟨rfl,rfl,hbegun,hdecided⟩
    | some content =>
      rw [hkept,hcontent] at hat
      cases hat
  | some kept =>
    cases hcontent : files.get (fileName id) with
    | none =>
      rw [hkept,hcontent] at hat
      cases hat
    | some content =>
      rw [hkept,hcontent] at hat
      cases hat with
      | present hmirrored => exact .inr ⟨kept,content,rfl,rfl,hmirrored⟩

/-- Both stores load equal trajectories exactly if the meta record is one line and the outcome is
plain. -/
theorem Mirrored.load_iff (h : Mirrored before id kept content) (python : Python) :
    (Reply.loaded (some ⟨id,kept.taskId,kept.agentName,kept.steps,
        kept.outcome.getD .interrupted⟩)).same
      (Reply.answer (fun t => .loaded (some t)) (FileStore.read python id content)) = true ↔
    Unbroken (FileStore.metaItems id kept.taskId kept.agentName) ∧ ∀ o ∈ kept.outcome, o.Plain := by
  by_cases hmeta : Unbroken (FileStore.metaItems id kept.taskId kept.agentName)
  · rw [h.mirrors.read hmeta]
    have hsteps := stepsEq_reread h.steps
    cases houtcome : kept.outcome with
    | none =>
      have hsame : StoredOutcome.interrupted.pyEq StoredOutcome.interrupted = true := by decide
      simp [Reply.answer,Reply.same,StoredTrajectory.pyEq,hsteps,hsame,hmeta]
    | some o =>
      have hiff := StoredOutcome.pyEq_reread_iff (h.outcome o (by simp [houtcome]))
      simp [Reply.answer,Reply.same,StoredTrajectory.pyEq,hsteps,hmeta,hiff]
  · obtain ⟨message,hmessage⟩ := h.mirrors.read_cut hmeta python
    rw [hmessage]
    simp [Reply.answer,Reply.same,hmeta]

/-- Once the trajectory is begun, recording is answered alike if the meta record holds nothing
that looks like an outcome, and the first outcome is not otherwise. -/
theorem Mirrored.record_iff {disk : Disk} (outcome : StoredOutcome Json)
    (htakes : disk.takes (fileName id) = true) (hkept : store.get id = some kept)
    (hcontent : files.get (fileName id) = some content) (h : Mirrored before id kept content) :
    (Reply.change store (store.recordOutcome id outcome)).1.same
      (Reply.change files (FileStore.recordOutcome disk files id outcome)).1 = true ↔
    (splitLines (FileStore.metaLine id kept.taskId kept.agentName)).all harmless = true := by
  have hfind : disk.find files (fileName id) = .ok (some content) := by
    rw [Disk.find,if_pos htakes,hcontent]
  have hhas : FileStore.hasOutcome disk files id = anyOutcome (splitLines content) := by
    rw [FileStore.hasOutcome,hfind]
    rfl
  by_cases hquiet :
      (splitLines (FileStore.metaLine id kept.taskId kept.agentName)).all harmless = true
  · have hany := h.mirrors.anyOutcome hquiet
    simp only [InMemory.recordOutcome,InMemory.require,FileStore.recordOutcome,hkept,hhas,hany,
      hquiet,bind,Except.bind,iff_true]
    cases houtcome : kept.outcome with
    | none => simp [Reply.change,Disk.writeLine,htakes,Reply.same]
    | some o => simp [Reply.change,Reply.same]
  · have hany := h.mirrors.anyOutcome_cut hquiet
    have hnone : kept.outcome = none := by
      by_contra hsome
      exact hquiet (h.quiet hsome)
    have hraised : ∃ e, FileStore.recordOutcome disk files id outcome = .error e := by
      rw [FileStore.recordOutcome,hhas]
      cases hlines : anyOutcome (splitLines content) with
      | error e => exact ⟨e,rfl⟩
      | ok b =>
        cases b with
        | true => exact ⟨_,rfl⟩
        | false => exact absurd hlines hany
    obtain ⟨e,he⟩ := hraised
    simp only [InMemory.recordOutcome,InMemory.require,hkept,hnone,he,bind,Except.bind,
      Reply.change,Reply.same,hquiet]

theorem Related.same_iff (h : Related before store files) (python : Python) (disk : Disk)
    (hid : call.id ≠ "") :
    (store.call call).1.same (FileStore.call python disk files call).1 = true ↔
      Agreed disk before call := by
  cases htakes : disk.takes (fileName call.id) with
  | false =>
    rw [FileStore.refused hid htakes,same_other fun _ he => InMemory.raises hid he]
    simp [Agreed,htakes]
  | true =>
    have hcases := h.cases call.id
    cases call with
    | begin id taskId agentName =>
      have hvalid : validateTrajectoryId id = .ok () := validate_ok hid
      simp only [Call.id] at htakes hcases
      rcases hcases with ⟨hkept,hcontent,_,_⟩ | ⟨kept,content,hkept,hcontent,_⟩
      · simp [InMemory.call,InMemory.begin,FileStore.call,FileStore.begin,hvalid,Disk.find,htakes,
          hkept,hcontent,bind,Except.bind,Reply.change,Reply.same,Agreed,Call.id]
      · simp [InMemory.call,InMemory.begin,FileStore.call,FileStore.begin,hvalid,Disk.find,htakes,
          hkept,hcontent,bind,Except.bind,Reply.change,Reply.same,Agreed,Call.id]
    | appendStep id step =>
      simp only [Call.id] at htakes hcases
      rcases hcases with ⟨hkept,hcontent,hbegun,_⟩ | ⟨kept,content,hkept,hcontent,hmirrored⟩
      · simp [InMemory.call,InMemory.appendStep,InMemory.require,FileStore.call,
          FileStore.appendStep,Disk.writeLine,htakes,hkept,bind,Except.bind,Reply.change,Reply.same,
          Agreed,Call.id,hbegun]
      · simp [InMemory.call,InMemory.appendStep,InMemory.require,FileStore.call,
          FileStore.appendStep,Disk.writeLine,htakes,hkept,bind,Except.bind,Reply.change,Reply.same,
          Agreed,Call.id,hmirrored.begun]
    | recordOutcome id outcome =>
      simp only [Call.id] at htakes hcases
      rcases hcases with ⟨hkept,hcontent,hbegun,_⟩ | ⟨kept,content,hkept,hcontent,hmirrored⟩
      · have hnone : FileStore.hasOutcome disk files id = .ok false := by
          simp [FileStore.hasOutcome,Disk.find,htakes,hcontent,bind,Except.bind]
        simp [InMemory.call,InMemory.recordOutcome,InMemory.require,FileStore.call,
          FileStore.recordOutcome,hnone,Disk.writeLine,htakes,hkept,bind,Except.bind,Reply.change,
          Reply.same,Agreed,Call.id,hbegun]
      · rw [InMemory.call,FileStore.call,
          Mirrored.record_iff outcome htakes hkept hcontent hmirrored]
        simp [Agreed,Call.id,htakes,hmirrored.begun]
    | load id =>
      simp only [Call.id] at htakes hcases
      rcases hcases with ⟨hkept,hcontent,hbegun,_⟩ | ⟨kept,content,hkept,hcontent,hmirrored⟩
      · simp [InMemory.call,InMemory.load,FileStore.call,FileStore.load,Disk.find,htakes,hkept,
          hcontent,bind,Except.bind,Reply.answer,Reply.same,Agreed,Call.id,hbegun]
      · have hload : Reply.answer .loaded (FileStore.load python disk files id) =
            Reply.answer (fun t => .loaded (some t)) (FileStore.read python id content) := by
          simp only [FileStore.load,Disk.find,htakes,hcontent,bind,Except.bind,if_true]
          cases FileStore.read python id content <;> rfl
        simp only [InMemory.call,InMemory.load,FileStore.call,hkept,Option.map_some]
        rw [hload,hmirrored.load_iff python]
        simp [Agreed,Call.id,htakes,hmirrored.begun,hmirrored.decided]
    | contains id =>
      simp only [Call.id] at htakes hcases
      rcases hcases with ⟨hkept,hcontent,_,_⟩ | ⟨kept,content,hkept,hcontent,_⟩
      · simp [InMemory.call,InMemory.contains,FileStore.call,FileStore.contains,Disk.find,htakes,
          hkept,hcontent,bind,Except.bind,Reply.answer,Reply.same,Agreed,Call.id]
      · simp [InMemory.call,InMemory.contains,FileStore.call,FileStore.contains,Disk.find,htakes,
          hkept,hcontent,bind,Except.bind,Reply.answer,Reply.same,Agreed,Call.id]

theorem begun_concat (before : List Call) (call : Call) (id : String) :
    begun (before ++ [call]) id = (begun before id).or (call.begins id) := by
  rw [begun,List.findSome?_append]
  simp [begun]

theorem decided_concat (before : List Call) (call : Call) (id : String) :
    decided (before ++ [call]) id = (decided before id).or (call.decides id) := by
  rw [decided,List.findSome?_append]
  simp [decided]

theorem begins_other (h : call.id ≠ id) : call.begins id = none := by
  cases call <;> simp_all [Call.begins,Call.id]

theorem decides_other (h : call.id ≠ id) : call.decides id = none := by
  cases call <;> simp_all [Call.decides,Call.id]

theorem RelatedAt.other {kept : Option Kept}
    {content : Option (List Char)} (h : RelatedAt before id kept content) (hid : call.id ≠ id) :
    RelatedAt (before ++ [call]) id kept content := by
  have hbegun : begun (before ++ [call]) id = begun before id := by
    rw [begun_concat,begins_other hid,Option.or_none]
  have hdecided : decided (before ++ [call]) id = decided before id := by
    rw [decided_concat,decides_other hid,Option.or_none]
  cases h with
  | absent hb hd => exact .absent (hbegun.trans hb) (hdecided.trans hd)
  | present hm =>
    exact .present
      { hm with
        begun := hbegun.trans hm.begun
        decided := hdecided.trans hm.decided }

theorem Related.still (h : Related before store files)
    (hat : RelatedAt (before ++ [call]) call.id (store.get call.id) (files.get (fileName call.id))) :
    Related (before ++ [call]) store files := by
  intro id
  by_cases hid : call.id = id
  · rw [← hid]
    exact hat
  · exact (h id).other hid

theorem Related.set (h : Related before store files)
    (hat : Mirrored (before ++ [call]) call.id kept content) :
    Related (before ++ [call]) (store.set call.id kept) (files.set (fileName call.id) content) := by
  intro id
  by_cases hid : call.id = id
  · rw [← hid,Dict.get_set_self,Dict.get_set_self]
    exact .present hat
  · have hname : fileName call.id ≠ fileName id := fun heq => hid (fileName_inj heq)
    rw [Dict.get_set_ne _ _ hid,Dict.get_set_ne _ _ hname]
    exact (h id).other hid

theorem Mirrored.begun_concat (h : Mirrored before id kept content) :
    Manager.begun (before ++ [call]) id = some (kept.taskId,kept.agentName) := by
  rw [Manager.begun_concat,h.begun]
  rfl

theorem Mirrored.still (h : Mirrored before id kept content)
    (hcall : kept.outcome ≠ none ∨ call.decides id = none) :
    Mirrored (before ++ [call]) id kept content where
  begun := h.begun_concat
  decided := by
    rw [decided_concat,h.decided]
    cases houtcome : kept.outcome with
    | none =>
      rcases hcall with hne | hnone
      · exact absurd houtcome hne
      · rw [hnone]
        rfl
    | some o => rfl
  steps := h.steps
  outcome := h.outcome
  mirrors := h.mirrors
  quiet := h.quiet

theorem Mirrors.append (h : Mirrors id kept content) (step : StepRecord Json) :
    Mirrors id { kept with steps := kept.steps ++ [step] }
      (content ++ FileStore.recordLine (stepToRecord step)) := by
  obtain ⟨entries,hcontent,hsteps,houtcome⟩ := h
  refine ⟨entries ++ [.step step],?_,?_,?_⟩
  · simp [hcontent,Entry.items]
  · simp [hsteps,Entry.step?]
  · simp [houtcome,Entry.outcome?]

theorem Mirrors.record (h : Mirrors id kept content)
    (hnone : kept.outcome = none) (outcome : StoredOutcome Json) :
    Mirrors id { kept with outcome := some outcome }
      (content ++ FileStore.recordLine (outcomeToRecord outcome)) := by
  obtain ⟨entries,hcontent,hsteps,houtcome⟩ := h
  refine ⟨entries ++ [.outcome outcome],?_,?_,?_⟩
  · simp [hcontent,Entry.items]
  · simp [hsteps,Entry.step?]
  · simp [houtcome,hnone,Entry.outcome?]

theorem Mirrored.fresh (taskId agentName : String)
    (hbegun : Manager.begun before id = none) (hdecided : Manager.decided before id = none) :
    Mirrored (before ++ [.begin id taskId agentName]) id ⟨taskId,agentName,[],none⟩
      (FileStore.metaLine id taskId agentName) where
  begun := by simp [Manager.begun_concat,hbegun,Call.begins]
  decided := by simp [decided_concat,hdecided,Call.decides]
  steps := by simp
  outcome := by simp
  mirrors := ⟨[],by simp,rfl,rfl⟩
  quiet := fun hne => absurd rfl hne

theorem Mirrored.append (h : Mirrored before id kept content) {step : StepRecord Json}
    (hnative : step.input.native = true ∧ step.output.native = true) :
    Mirrored (before ++ [.appendStep id step]) id { kept with steps := kept.steps ++ [step] }
      (content ++ FileStore.recordLine (stepToRecord step)) where
  begun := h.begun_concat
  decided := (h.still (.inr rfl)).decided
  steps := by
    intro s hs
    rcases List.mem_append.1 hs with hs | hs
    · exact h.steps s hs
    · rw [List.mem_singleton.1 hs]
      exact hnative
  outcome := h.outcome
  mirrors := h.mirrors.append step
  quiet := h.quiet

theorem Mirrored.record (h : Mirrored before id kept content) (hnone : kept.outcome = none)
    {outcome : StoredOutcome Json} (hnative : outcome.output.native = true)
    (hquiet : (splitLines (FileStore.metaLine id kept.taskId kept.agentName)).all harmless = true) :
    Mirrored (before ++ [.recordOutcome id outcome]) id { kept with outcome := some outcome }
      (content ++ FileStore.recordLine (outcomeToRecord outcome)) where
  begun := h.begun_concat
  decided := by simp [decided_concat,h.decided,hnone,Call.decides]
  steps := h.steps
  outcome := by
    intro o ho
    cases ho
    exact hnative
  mirrors := h.mirrors.record hnone outcome
  quiet := fun _ => hquiet

theorem Related.unchanged (h : Related before store files)
    (hbegin : (begun before call.id).isSome = true ∨ call.begins call.id = none)
    (hdecide : (decided before call.id).isSome = true ∨ call.decides call.id = none) :
    Related (before ++ [call]) store files := by
  apply h.still
  rcases h.cases call.id with ⟨hkept,hcontent,hbegun,hdecided⟩ | ⟨kept,content,hkept,hcontent,hm⟩
  · rw [hkept,hcontent]
    apply RelatedAt.absent
    · rcases hbegin with hsome | hnone
      · simp [hbegun] at hsome
      · rw [begun_concat,hbegun,hnone]
        rfl
    · rcases hdecide with hsome | hnone
      · simp [hdecided] at hsome
      · rw [decided_concat,hdecided,hnone]
        rfl
  · rw [hkept,hcontent]
    apply RelatedAt.present
    apply hm.still
    rcases hdecide with hsome | hnone
    · rw [hm.decided] at hsome
      exact .inl (by rintro heq; simp [heq] at hsome)
    · exact .inr hnone

theorem Related.keep (h : Related before store files) (python : Python) (disk : Disk)
    (hid : call.id ≠ "") (hnative : call.Native) (hagreed : Agreed disk before call) :
    Related (before ++ [call]) (store.call call).2 (FileStore.call python disk files call).2 := by
  have htakes := hagreed.1
  have hcases := h.cases call.id
  cases call with
  | begin id taskId agentName =>
    have hvalid : validateTrajectoryId id = .ok () := validate_ok hid
    simp only [Call.id] at htakes hcases
    rcases hcases with ⟨hkept,hcontent,hbegun,hdecided⟩ | ⟨kept,content,hkept,hcontent,hmirrored⟩
    · have hnew := h.set (Mirrored.fresh taskId agentName hbegun hdecided)
      simpa [InMemory.call,InMemory.begin,FileStore.call,FileStore.begin,hvalid,Disk.find,htakes,
        hkept,hcontent,bind,Except.bind,Reply.change,Call.id] using hnew
    · have hsome : (begun before id).isSome = true := by rw [hmirrored.begun]; rfl
      have hsame : Related (before ++ [.begin id taskId agentName]) store files :=
        h.unchanged (.inl hsome) (.inr rfl)
      simpa [InMemory.call,InMemory.begin,FileStore.call,FileStore.begin,hvalid,Disk.find,htakes,
        hkept,hcontent,bind,Except.bind,Reply.change] using hsame
  | appendStep id step =>
    simp only [Call.id] at htakes hcases
    rcases hcases with ⟨_,_,hbegun,_⟩ | ⟨kept,content,hkept,hcontent,hmirrored⟩
    · have hsome := hagreed.2
      simp [hbegun] at hsome
    · have hnew := h.set (hmirrored.append hnative)
      simpa [InMemory.call,InMemory.appendStep,InMemory.require,FileStore.call,
        FileStore.appendStep,Disk.writeLine,htakes,hkept,hcontent,bind,Except.bind,
        Reply.change,Call.id] using hnew
  | recordOutcome id outcome =>
    simp only [Call.id] at htakes hcases
    rcases hcases with ⟨_,_,hbegun,_⟩ | ⟨kept,content,hkept,hcontent,hmirrored⟩
    · have hsome := hagreed.2.1
      simp [hbegun] at hsome
    · have hquiet := hagreed.2.2 _ hmirrored.begun
      have hhas : FileStore.hasOutcome disk files id = .ok kept.outcome.isSome := by
        rw [← hmirrored.mirrors.anyOutcome hquiet,FileStore.hasOutcome,Disk.find,if_pos htakes,
          hcontent]
        rfl
      cases houtcome : kept.outcome with
      | none =>
        have hnew := h.set (hmirrored.record houtcome hnative hquiet)
        simpa [InMemory.call,InMemory.recordOutcome,InMemory.require,FileStore.call,
          FileStore.recordOutcome,hhas,Disk.writeLine,htakes,hkept,hcontent,houtcome,bind,
          Except.bind,Reply.change,Call.id] using hnew
      | some o =>
        have hsome : (decided before id).isSome = true := by rw [hmirrored.decided,houtcome]; rfl
        have hsame : Related (before ++ [.recordOutcome id outcome]) store files :=
          h.unchanged (.inr rfl) (.inl hsome)
        simpa [InMemory.call,InMemory.recordOutcome,InMemory.require,FileStore.call,
          FileStore.recordOutcome,hhas,hkept,houtcome,bind,Except.bind,Reply.change] using hsame
  | load id => exact h.unchanged (.inr rfl) (.inr rfl)
  | contains id => exact h.unchanged (.inr rfl) (.inr rfl)

/-- What both stores answer, each started empty. -/
def Agree (python : Python) (disk : Disk) (calls : List Call) : Prop :=
  List.Forall₂ (fun r r' => Reply.same r r' = true)
    (answers InMemory.call Dict.empty calls)
    (answers (FileStore.call python disk) Dict.empty calls)

theorem related_empty : Related [] Dict.empty Dict.empty := fun _ => .absent rfl rfl

/-- The stores give the same answers exactly if every call is agreed on after the calls before it. -/
theorem stores_agree_iff (python : Python) (disk : Disk) (calls : List Call)
    (hid : ∀ c ∈ calls, c.id ≠ "") (hnative : ∀ c ∈ calls, c.Native) :
    Agree python disk calls ↔ Each (Agreed disk) calls := by
  have hsame : ∀ (before : List Call) (store : InMemory) (files : Files) (call : Call),
      (call.id ≠ "" ∧ call.Native) → Related before store files →
      ((store.call call).1.same (FileStore.call python disk files call).1 = true ↔
        Agreed disk before call) :=
    fun _ _ _ _ hdomain hrelated => hrelated.same_iff python disk hdomain.1
  have hkeep : ∀ (before : List Call) (store : InMemory) (files : Files) (call : Call),
      (call.id ≠ "" ∧ call.Native) → Related before store files → Agreed disk before call →
      Related (before ++ [call]) (store.call call).2 (FileStore.call python disk files call).2 :=
    fun _ _ _ _ hdomain hrelated => hrelated.keep python disk hdomain.1 hdomain.2
  exact answers_agree_iff hsame hkeep related_empty calls fun c hc => ⟨hid c hc,hnative c hc⟩

def written : Python where
  int
    | .int n => .ok n
    | other => .error ("int() argument must not be " ++ other.typeName)
  float
    | .decimal d => .ok d
    | other => .error ("float() argument must not be " ++ other.typeName)
  str
    | .str s => s
    | other => other.repr
  decodeError _ := "Expecting value"
  int_int _ := rfl
  float_decimal _ := rfl
  str_str _ := rfl

def ext4 : Disk := ⟨fun name => name.length ≤ 255,fun _ => "File name too long"⟩

theorem stores_agree_run :
    let step : StepRecord Json :=
      ⟨0,.completed,"wrote a line\n",.null,.dict [("b",.int 2),("a",.str "ä")],none,zeroSeconds⟩
    Agree written ext4 [.begin "run-1" "task" "writer",.appendStep "run-1" step,.load "run-1",
      .recordOutcome "run-1" (.verified (.list [.int 1])),.recordOutcome "run-1" .interrupted,
      .load "run-1",.contains "run-2"] := by
  intro step
  refine (stores_agree_iff written ext4 _ ?_ ?_).2 ?_
  · decide
  · simp only [List.mem_cons,List.not_mem_nil,or_false,forall_eq_or_imp,forall_eq]
    decide
  · simp only [each_cons]
    refine ⟨by decide +kernel,by decide +kernel,by decide +kernel,by decide +kernel,by decide +kernel,
      by decide +kernel,by decide +kernel,?_⟩
    exact each_nil _

/-- A line separator in the agent's name, and a step before the trajectory is begun. -/
theorem stores_disagree :
    ¬ Agree written ext4 [.begin "run-1" "task" "line\u2028writer",.load "run-1"] ∧
    ¬ Agree written ext4
      [.appendStep "run-1" ⟨0,.started,"first",.null,.null,none,zeroSeconds⟩] := by
  unfold Agree
  decide +kernel

end AgentCentric.Manager

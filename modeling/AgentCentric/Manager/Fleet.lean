import Mathlib.Data.List.Induction
import AgentCentric.Library.Names
import AgentCentric.Manager.Manage
import AgentCentric.Manager.StoreAgreement

namespace AgentCentric.Manager
open Transducer JsonLines

def Work.firstSelector : Work → Selector
  | .single selector => selector
  | .pipeline p => (p.stages.head p.nonempty).first.selector
  | .parallel p => (p.stages.head p.nonempty).selector

def recordAgent (registry : Registry) (task : TaskSpecification) : String :=
  match registry.resolve task.work.firstSelector with
  | none => task.work.agentName
  | some manifest => manifest.name

/-- `f"{task.task_id}#{self._run_seq}"`. -/
def runId (task : TaskSpecification) (seq : Nat) : String := task.taskId ++ "#" ++ toString seq

/-- A run, from the call of `begin` on. -/
structure Launched where
  trajectoryId : String
  refused : Option StoreRaised

/-- The Managers, each with the number of its runs, the directory, and the runs in the order in
which they were started. -/
structure Fleet (ι : Type) where
  seqs : ι → Nat
  files : Files
  runs : List Launched

/-- A Manager is given a task, or a run that goes on writes a record. Runs take turns in any
order. -/
inductive Move (ι : Type) where
  | run (manager : ι) (registry : Registry) (task : TaskSpecification)
  | append (run : Nat) (step : StepRecord Json)
  | record (run : Nat) (outcome : StoredOutcome Json)

namespace Fleet
variable {ι : Type}

/-- No Manager has run yet, and the directory is empty. -/
def start : Fleet ι := ⟨fun _ => 0,Dict.empty,[]⟩

def error? {α : Type} : Except StoreRaised α → Option StoreRaised
  | .ok _ => none
  | .error e => some e

/-- What the run with this number writes, unless its record was refused. -/
def write (s : Fleet ι) (run : Nat) (call : String → Except StoreRaised Files) : Fleet ι :=
  match s.runs[run]? with
  | some ⟨trajectoryId,none⟩ => { s with files := (Reply.change s.files (call trajectoryId)).2 }
  | _ => s

variable [DecidableEq ι]

def move (disk : Disk) (s : Fleet ι) : Move ι → Fleet ι
  | .run manager registry task =>
    let trajectoryId := runId task (s.seqs manager)
    let begun := FileStore.begin disk s.files trajectoryId task.taskId (recordAgent registry task)
    ⟨Function.update s.seqs manager (s.seqs manager + 1),(Reply.change s.files begun).2,
      s.runs ++ [⟨trajectoryId,error? begun⟩]⟩
  | .append run step => s.write run fun id => FileStore.appendStep disk s.files id step
  | .record run outcome => s.write run fun id => FileStore.recordOutcome disk s.files id outcome

def play (disk : Disk) (moves : List (Move ι)) : Fleet ι := moves.foldl (move disk) start

end Fleet

theorem runId_inj {task task' : TaskSpecification} {seq seq' : Nat}
    (h : runId task seq = runId task' seq') : task.taskId = task'.taskId ∧ seq = seq' := by
  have hcongr := congrArg String.toList h
  exact numbered_inj (c := '#') (by decide) (by simpa [runId] using hcongr)

/-- A record gets more steps, and an outcome if it has none. -/
structure Kept.Continues (kept kept' : Kept) : Prop where
  taskId : kept'.taskId = kept.taskId
  agentName : kept'.agentName = kept.agentName
  steps : kept.steps <+: kept'.steps
  outcome : ∀ o, kept.outcome = some o → kept'.outcome = some o

theorem Kept.Continues.refl (kept : Kept) : kept.Continues kept :=
  ⟨rfl,rfl,List.prefix_rfl,fun _ h => h⟩

theorem Kept.Continues.trans {kept kept' kept'' : Kept} (h : kept.Continues kept')
    (h' : kept'.Continues kept'') : kept.Continues kept'' :=
  ⟨h'.taskId.trans h.taskId,h'.agentName.trans h.agentName,h.steps.trans h'.steps,
    fun o ho => h'.outcome o (h.outcome o ho)⟩

/-- A file that holds a record holds one that goes on with it, and a new file holds a record. -/
structure LaterAt (id : String) (found found' : Option (List Char)) : Prop where
  grown : ∀ kept content, found = some content → Mirrors id kept content →
    ∃ kept' content', found' = some content' ∧ Mirrors id kept' content' ∧ kept.Continues kept'
  made : found = none → ∀ content', found' = some content' → ∃ kept', Mirrors id kept' content'

def Later (files files' : Files) : Prop :=
  ∀ id, LaterAt id (files.get (fileName id)) (files'.get (fileName id))

theorem LaterAt.refl (id : String) (found : Option (List Char)) : LaterAt id found found where
  grown kept content hfound hmirrors := ⟨kept,content,hfound,hmirrors,.refl kept⟩
  made hnone content' hsome := by simp [hnone] at hsome

variable {id : String}

theorem LaterAt.trans {found found' found'' : Option (List Char)}
    (h : LaterAt id found found') (h' : LaterAt id found' found'') : LaterAt id found found'' where
  grown kept content hfound hmirrors := by
    obtain ⟨kept',content',hfound',hmirrors',hcontinues⟩ := h.grown kept content hfound hmirrors
    obtain ⟨kept'',content'',hfound'',hmirrors'',hcontinues'⟩ :=
      h'.grown kept' content' hfound' hmirrors'
    exact ⟨kept'',content'',hfound'',hmirrors'',hcontinues.trans hcontinues'⟩
  made hnone content'' hfound'' := by
    cases hfound' : found' with
    | none => exact h'.made hfound' content'' hfound''
    | some content' =>
      obtain ⟨kept',hmirrors'⟩ := h.made hnone content' hfound'
      obtain ⟨kept'',content,hfound,hmirrors'',_⟩ := h'.grown kept' content' hfound' hmirrors'
      rw [hfound''] at hfound
      cases hfound
      exact ⟨kept'',hmirrors''⟩

theorem Later.refl (files : Files) : Later files files := fun id => .refl id _

theorem Later.trans {files files' files'' : Files} (h : Later files files')
    (h' : Later files' files'') : Later files files'' := fun id => (h id).trans (h' id)

theorem Later.set {files : Files} {content' : List Char}
    (h : LaterAt id (files.get (fileName id)) (some content')) :
    Later files (files.set (fileName id) content') := by
  intro id'
  by_cases hname : fileName id = fileName id'
  · rw [← fileName_inj hname,Dict.get_set_self]
    exact h
  · rw [Dict.get_set_ne _ _ hname]
    exact .refl id' _

def Recorded (files : Files) : Prop := Later Dict.empty files

theorem Recorded.mirrors {files : Files} (h : Recorded files) {content : List Char}
    (hcontent : files.get (fileName id) = some content) : ∃ kept, Mirrors id kept content :=
  (h id).made (Dict.get_empty _) content hcontent

/-- A record goes on, and no file is made. -/
structure Rewrites (files files' : Files) : Prop where
  later : Later files files'
  absent : ∀ id, files.get (fileName id) = none → files'.get (fileName id) = none

theorem Rewrites.refl (files : Files) : Rewrites files files := ⟨.refl files,fun _ h => h⟩

theorem Rewrites.set {files : Files} {content content' : List Char}
    (hcontent : files.get (fileName id) = some content)
    (h : ∀ kept, Mirrors id kept content → ∃ kept', Mirrors id kept' content' ∧
      kept.Continues kept') : Rewrites files (files.set (fileName id) content') where
  later := Later.set ⟨fun kept found hfound hmirrors => by
      rw [hcontent] at hfound
      cases hfound
      obtain ⟨kept',hmirrors',hcontinues⟩ := h kept hmirrors
      exact ⟨kept',content',rfl,hmirrors',hcontinues⟩,
    fun hnone => by simp [hcontent] at hnone⟩
  absent id' hnone := by
    rw [Dict.get_set_ne _ _ fun hname => by rw [hname,hnone] at hcontent; cases hcontent]
    exact hnone

variable {disk : Disk}

theorem rewrites_append {files files' : Files} {content : List Char}
    {step : StepRecord Json} (hcontent : files.get (fileName id) = some content)
    (h : FileStore.appendStep disk files id step = .ok files') : Rewrites files files' := by
  rw [FileStore.appendStep,Disk.writeLine] at h
  split at h
  · cases h
    refine Rewrites.set hcontent fun kept hmirrors => ?_
    refine ⟨{ kept with steps := kept.steps ++ [step] },?_,rfl,rfl,List.prefix_append _ _,
      fun o ho => ho⟩
    rw [hcontent]
    exact hmirrors.append step
  · cases h

theorem rewrites_record {files files' : Files} {content : List Char}
    {outcome : StoredOutcome Json} (hcontent : files.get (fileName id) = some content)
    (h : FileStore.recordOutcome disk files id outcome = .ok files') : Rewrites files files' := by
  by_cases htakes : disk.takes (fileName id) = true
  · have hhas : FileStore.hasOutcome disk files id = anyOutcome (splitLines content) := by
      rw [FileStore.hasOutcome,Disk.find,if_pos htakes,hcontent]
      rfl
    cases hany : anyOutcome (splitLines content) with
    | error e =>
      rw [hany] at hhas
      simp [FileStore.recordOutcome,hhas,bind,Except.bind] at h
    | ok recorded =>
      rw [hany] at hhas
      cases recorded with
      | true => simp [FileStore.recordOutcome,hhas,bind,Except.bind] at h
      | false =>
        simp only [FileStore.recordOutcome,hhas,Disk.writeLine,if_pos htakes,hcontent,bind,
          Except.bind,Bool.false_eq_true,if_false,Option.getD_some,Except.ok.injEq] at h
        subst h
        refine Rewrites.set hcontent fun kept hmirrors => ?_
        have hquiet : (splitLines (FileStore.metaLine id kept.taskId kept.agentName)).all
            harmless = true := by
          by_contra hloud
          exact hmirrors.anyOutcome_cut hloud hany
        have hnone : kept.outcome = none := by
          have hsome := hmirrors.anyOutcome hquiet
          rw [hany] at hsome
          simpa using hsome
        exact ⟨{ kept with outcome := some outcome },hmirrors.record hnone outcome,rfl,rfl,
          List.prefix_rfl,fun o ho => by simp [hnone] at ho⟩
  · have hhas : FileStore.hasOutcome disk files id =
        .error (.other (disk.refusal (fileName id))) := by
      rw [FileStore.hasOutcome,Disk.find,if_neg htakes]
      rfl
    simp [FileStore.recordOutcome,hhas,bind,Except.bind] at h

theorem validate_runId (task : TaskSpecification) (seq : Nat) :
    validateTrajectoryId (runId task seq) = .ok () := by
  apply validate_ok
  intro hempty
  have hlength := congrArg String.length hempty
  simp [runId] at hlength

theorem begin_cases (disk : Disk) (files : Files) (task : TaskSpecification) (seq : Nat)
    (agentName : String) :
    (disk.takes (fileName (runId task seq)) = true ∧ files.get (fileName (runId task seq)) = none ∧
      FileStore.begin disk files (runId task seq) task.taskId agentName =
        .ok (files.set (fileName (runId task seq))
          (FileStore.metaLine (runId task seq) task.taskId agentName))) ∨
    (disk.takes (fileName (runId task seq)) = true ∧
      (files.get (fileName (runId task seq))).isSome = true ∧
      FileStore.begin disk files (runId task seq) task.taskId agentName =
        .error (alreadyExists (runId task seq))) ∨ (disk.takes (fileName (runId task seq)) = false ∧
      FileStore.begin disk files (runId task seq) task.taskId agentName =
        .error (.other (disk.refusal (fileName (runId task seq))))) := by
  have hvalid := validate_runId task seq
  cases htakes : disk.takes (fileName (runId task seq)) with
  | false =>
    refine .inr (.inr ⟨rfl,?_⟩)
    simp [FileStore.begin,hvalid,Disk.find,htakes,bind,Except.bind]
  | true =>
    cases hfound : files.get (fileName (runId task seq)) with
    | none =>
      refine .inl ⟨rfl,rfl,?_⟩
      simp [FileStore.begin,hvalid,Disk.find,htakes,hfound,bind,Except.bind]
    | some content =>
      refine .inr (.inl ⟨rfl,rfl,?_⟩)
      simp [FileStore.begin,hvalid,Disk.find,htakes,hfound,bind,Except.bind]

theorem later_begin {files : Files} (taskId agentName : String)
    (hnone : files.get (fileName id) = none) :
    Later files (files.set (fileName id) (FileStore.metaLine id taskId agentName)) := by
  refine Later.set ⟨fun kept content hcontent => ?_,fun _ content' hcontent' => ?_⟩
  · simp [hnone] at hcontent
  · cases hcontent'
    exact ⟨⟨taskId,agentName,[],none⟩,[],by simp,rfl,rfl⟩

namespace Fleet
variable {ι : Type}

structure Sound (disk : Disk) (s : Fleet ι) : Prop where
  recorded : Recorded s.files
  live : ∀ (r : Nat) (id : String), s.runs[r]? = some ⟨id,none⟩ →
    disk.takes (fileName id) = true ∧ ∃ content, s.files.get (fileName id) = some content

theorem Sound.later {s t : Fleet ι} (h : Sound disk s)
    (hlater : Later s.files t.files) (hruns : t.runs = s.runs) : Sound disk t where
  recorded := Later.trans h.recorded hlater
  live r id hr := by
    rw [hruns] at hr
    obtain ⟨htakes,content,hcontent⟩ := h.live r id hr
    obtain ⟨kept,hmirrors⟩ := h.recorded.mirrors hcontent
    obtain ⟨_,content',hcontent',_,_⟩ := (hlater id).grown kept content hcontent hmirrors
    exact ⟨htakes,content',hcontent'⟩

structure Writes (s t : Fleet ι) : Prop where
  seqs : t.seqs = s.seqs
  runs : t.runs = s.runs
  files : Rewrites s.files t.files

theorem write_writes {s : Fleet ι} (h : Sound disk s) (r : Nat)
    {call : String → Except StoreRaised Files}
    (hcall : ∀ id content files', s.files.get (fileName id) = some content →
      call id = .ok files' → Rewrites s.files files') : Writes s (s.write r call) := by
  unfold write
  split
  · rename_i id hr
    obtain ⟨_,content,hcontent⟩ := h.live r id hr
    refine ⟨rfl,rfl,?_⟩
    cases hresult : call id with
    | ok files' => exact hcall id content files' hcontent hresult
    | error e => exact .refl _
  · exact ⟨rfl,rfl,.refl _⟩

theorem start_sound (disk : Disk) : Sound disk (start : Fleet ι) :=
  ⟨.refl _,fun r id hr => by simp [start] at hr⟩

variable [DecidableEq ι]

theorem append_writes {s : Fleet ι} (h : Sound disk s) (r : Nat)
    (step : StepRecord Json) : Writes s (s.move disk (.append r step)) :=
  write_writes h r fun _ _ _ hcontent hcall => rewrites_append hcontent hcall

theorem record_writes {s : Fleet ι} (h : Sound disk s) (r : Nat)
    (outcome : StoredOutcome Json) : Writes s (s.move disk (.record r outcome)) :=
  write_writes h r fun _ _ _ hcontent hcall => rewrites_record hcontent hcall

theorem move_later {s : Fleet ι} (h : Sound disk s) (m : Move ι) :
    Later s.files (s.move disk m).files := by
  cases m with
  | run manager registry task =>
    simp only [move]
    rcases begin_cases disk s.files task (s.seqs manager) (recordAgent registry task) with
      ⟨_,hnone,hbegin⟩ | ⟨_,_,hbegin⟩ | ⟨_,hbegin⟩
    · rw [hbegin]
      exact later_begin _ _ hnone
    · rw [hbegin]
      exact .refl _
    · rw [hbegin]
      exact .refl _
  | append r step => exact (append_writes h r step).files.later
  | record r outcome => exact (record_writes h r outcome).files.later

theorem move_sound {s : Fleet ι} (h : Sound disk s) (m : Move ι) : Sound disk (s.move disk m) := by
  have hlater := move_later h m
  cases m with
  | run manager registry task =>
    refine ⟨Later.trans h.recorded hlater,fun r id hr => ?_⟩
    have hold : s.runs[r]? = some ⟨id,none⟩ → disk.takes (fileName id) = true ∧
        ∃ content, (s.move disk (.run manager registry task)).files.get (fileName id) =
          some content :=
      fun hr => (Sound.later (t := ⟨s.seqs,(s.move disk (.run manager registry task)).files,s.runs⟩)
        h hlater rfl).live r id hr
    simp only [move] at hr hold ⊢
    rw [List.getElem?_append] at hr
    split at hr
    · exact hold hr
    · rcases begin_cases disk s.files task (s.seqs manager) (recordAgent registry task) with
        ⟨htakes,hnone,hbegin⟩ | ⟨_,_,hbegin⟩ | ⟨_,hbegin⟩
      · rw [hbegin] at hr ⊢
        rw [List.getElem?_singleton] at hr
        split at hr
        · cases hr
          exact ⟨htakes,_,Dict.get_set_self _ _ _⟩
        · cases hr
      · rw [hbegin,List.getElem?_singleton] at hr
        split at hr <;> cases hr
      · rw [hbegin,List.getElem?_singleton] at hr
        split at hr <;> cases hr
  | append r step => exact h.later hlater (append_writes h r step).runs
  | record r outcome => exact h.later hlater (record_writes h r outcome).runs

theorem foldl_sound (moves : List (Move ι)) {s : Fleet ι} (h : Sound disk s) :
    Sound disk (moves.foldl (move disk) s) ∧ Later s.files (moves.foldl (move disk) s).files := by
  induction moves generalizing s with
  | nil => exact ⟨h,.refl _⟩
  | cons m moves ih =>
    obtain ⟨hsound,hlater⟩ := ih (move_sound h m)
    exact ⟨hsound,(move_later h m).trans hlater⟩

theorem play_sound (disk : Disk) (moves : List (Move ι)) : Sound disk (play disk moves) :=
  (foldl_sound moves (start_sound disk)).1

theorem play_concat (disk : Disk) (moves : List (Move ι)) (m : Move ι) :
    play disk (moves ++ [m]) = (play disk moves).move disk m := by
  simp [play]

theorem play_append (disk : Disk) (moves later : List (Move ι)) :
    play disk (moves ++ later) = later.foldl (move disk) (play disk moves) := by
  simp [play]

end Fleet

section
variable {ι : Type} [DecidableEq ι]

def Move.by (manager : ι) : Move ι → Bool
  | .run other _ _ => other = manager
  | _ => false

def runsBy (manager : ι) (moves : List (Move ι)) : Nat := moves.countP (·.by manager)

def Move.Launches (id : String) (before : List (Move ι)) : Move ι → Prop
  | .run manager _ task => runId task (runsBy manager before) = id
  | _ => False

def Used (moves : List (Move ι)) (id : String) : Prop :=
  ∃ before m after, moves = before ++ m :: after ∧ m.Launches id before

theorem used_concat {moves : List (Move ι)} {m : Move ι} :
    Used (moves ++ [m]) id ↔ Used moves id ∨ m.Launches id moves := by
  constructor
  · rintro ⟨before,m',after,heq,hlaunches⟩
    rcases List.eq_nil_or_concat after with rfl | ⟨after,last,rfl⟩
    · obtain ⟨rfl,hm⟩ := List.append_inj' heq rfl
      cases hm
      exact .inr hlaunches
    · rw [List.concat_eq_append,← List.cons_append,← List.append_assoc] at heq
      obtain ⟨rfl,hm⟩ := List.append_inj' heq rfl
      exact .inl ⟨before,m',after,rfl,hlaunches⟩
  · rintro (⟨before,m',after,rfl,hlaunches⟩ | hlaunches)
    · exact ⟨before,m',after ++ [m],by simp,hlaunches⟩
    · exact ⟨moves,m,[],rfl,hlaunches⟩

namespace Fleet

theorem play_seqs (disk : Disk) (moves : List (Move ι)) (manager : ι) :
    (play disk moves).seqs manager = runsBy manager moves := by
  induction moves using List.reverseRecOn with
  | nil => rfl
  | append_singleton moves m ih =>
    rw [play_concat,runsBy,List.countP_append,← runsBy,← ih]
    cases m with
    | run other registry task =>
      by_cases hother : other = manager
      · subst hother
        simp [move,Move.by]
      · have hne : manager ≠ other := fun heq => hother heq.symm
        simp [move,Move.by,hother,Function.update_of_ne hne]
    | append r step => simp [(append_writes (play_sound disk moves) r step).seqs,Move.by]
    | record r outcome => simp [(record_writes (play_sound disk moves) r outcome).seqs,Move.by]

theorem play_stored (disk : Disk) (moves : List (Move ι)) (id : String) :
    ((play disk moves).files.get (fileName id)).isSome = true ↔
      disk.takes (fileName id) = true ∧ Used moves id := by
  induction moves using List.reverseRecOn with
  | nil => simp [play,start,Used]
  | append_singleton moves m ih =>
    have hsound := play_sound disk moves
    have hwritten : ∀ t, Writes (play disk moves) t →
        ((t.files.get (fileName id)).isSome = true ↔
          ((play disk moves).files.get (fileName id)).isSome = true) := by
      intro t ht
      cases hfound : (play disk moves).files.get (fileName id) with
      | none => simp [ht.files.absent id hfound]
      | some content =>
        obtain ⟨kept,hmirrors⟩ := hsound.recorded.mirrors hfound
        obtain ⟨_,content',hcontent',_,_⟩ := (ht.files.later id).grown kept content hfound hmirrors
        simp [hcontent']
    rw [play_concat,used_concat]
    cases m with
    | append r step => simpa [Move.Launches,ih] using hwritten _ (append_writes hsound r step)
    | record r outcome => simpa [Move.Launches,ih] using hwritten _ (record_writes hsound r outcome)
    | run manager registry task =>
      simp only [move,Move.Launches]
      have hseqs := play_seqs disk moves manager
      rw [hseqs]
      rcases begin_cases disk (play disk moves).files task (runsBy manager moves)
          (recordAgent registry task) with
        ⟨htakes,hnone,hbegin⟩ | ⟨htakes,hsome,hbegin⟩ | ⟨htakes,hbegin⟩
      · rw [hbegin]
        simp only [Reply.change]
        by_cases hid : runId task (runsBy manager moves) = id
        · subst hid
          simp [htakes]
        · have hname : fileName (runId task (runsBy manager moves)) ≠ fileName id :=
            fun heq => hid (fileName_inj heq)
          rw [Dict.get_set_ne _ _ hname,ih]
          simp [hid]
      · rw [hbegin]
        simp only [Reply.change,ih]
        constructor
        · rintro ⟨ht,hused⟩
          exact ⟨ht,.inl hused⟩
        · rintro ⟨ht,hused | hid⟩
          · exact ⟨ht,hused⟩
          · subst hid
            exact ih.1 hsome
      · rw [hbegin]
        simp only [Reply.change,ih]
        constructor
        · rintro ⟨ht,hused⟩
          exact ⟨ht,.inl hused⟩
        · rintro ⟨ht,hused | hid⟩
          · exact ⟨ht,hused⟩
          · subst hid
            simp [htakes] at ht

end Fleet

/-- What was loaded goes on: more steps, and an outcome if there was none. -/
structure StoredTrajectory.Continues (t t' : StoredTrajectory Json) : Prop where
  taskId : t'.taskId = t.taskId
  agentName : t'.agentName = t.agentName
  steps : t.steps <+: t'.steps
  outcome : t.outcome.kind ≠ .interrupted → t'.outcome = t.outcome

theorem load_later {python : Python} {files files' : Files}
    {t : StoredTrajectory Json} (hrecorded : Recorded files) (hlater : Later files files')
    (h : FileStore.load python disk files id = .ok (some t)) :
    ∃ t', FileStore.load python disk files' id = .ok (some t') ∧ t.Continues t' := by
  by_cases htakes : disk.takes (fileName id) = true
  · cases hcontent : files.get (fileName id) with
    | none => simp [FileStore.load,Disk.find,htakes,hcontent,bind,Except.bind] at h
    | some content =>
      obtain ⟨kept,hmirrors⟩ := hrecorded.mirrors hcontent
      obtain ⟨kept',content',hcontent',hmirrors',hcontinues⟩ :=
        (hlater id).grown kept content hcontent hmirrors
      by_cases hmeta : Unbroken (FileStore.metaItems id kept.taskId kept.agentName)
      · have hmeta' : Unbroken (FileStore.metaItems id kept'.taskId kept'.agentName) := by
          rwa [hcontinues.taskId,hcontinues.agentName]
        simp only [FileStore.load,Disk.find,htakes,if_true,hcontent,bind,Except.bind,
          hmirrors.read hmeta,Except.ok.injEq,Option.some.injEq] at h
        subst h
        have hload' : FileStore.load python disk files' id =
            .ok (some ⟨id,kept'.taskId,kept'.agentName,kept'.steps.map StepRecord.reread,
              (kept'.outcome.map StoredOutcome.reread).getD .interrupted⟩) := by
          simp only [FileStore.load,Disk.find,htakes,if_true,hcontent',bind,Except.bind,
            hmirrors'.read hmeta']
        refine ⟨_,hload',hcontinues.taskId,hcontinues.agentName,?_,?_⟩
        · exact hcontinues.steps.map _
        · intro hkind
          cases houtcome : kept.outcome with
          | none =>
            rw [houtcome] at hkind
            exact absurd rfl hkind
          | some o => simp [hcontinues.outcome o houtcome]
      · obtain ⟨message,hread⟩ := hmirrors.read_cut hmeta python
        simp [FileStore.load,Disk.find,htakes,hcontent,bind,Except.bind,hread] at h
  · simp [FileStore.load,Disk.find,htakes,bind,Except.bind] at h

/-- The id of a run is not stored yet, so the run does not fail because it is. -/
def FreshRun (disk : Disk) (before : List (Move ι)) : Move ι → Prop
  | .run manager registry task =>
    let s := Fleet.play disk before
    let trajectoryId := runId task (s.seqs manager)
    FileStore.contains disk s.files trajectoryId ≠ .ok true ∧
      FileStore.begin disk s.files trajectoryId task.taskId (recordAgent registry task) ≠
        .error (alreadyExists trajectoryId)
  | _ => True

def KeepsRecords (python : Python) (disk : Disk) (moves : List (Move ι)) : Prop :=
  ∀ before after, moves = before ++ after → ∀ id t,
    FileStore.load python disk (Fleet.play disk before).files id = .ok (some t) →
    ∃ t', FileStore.load python disk (Fleet.play disk moves).files id = .ok (some t') ∧
      t.Continues t'

/-- Another Manager was given the same task id before, as its task of the same number, and the
directory takes the name of the file. -/
def Repeats (disk : Disk) (before : List (Move ι)) : Move ι → Prop
  | .run manager _ task => disk.takes (fileName (runId task (runsBy manager before))) = true ∧
    ∃ earlier manager' registry' task' later,
      before = earlier ++ .run manager' registry' task' :: later ∧ manager' ≠ manager ∧
      task'.taskId = task.taskId ∧ runsBy manager' earlier = runsBy manager before
  | _ => False

theorem runsBy_lt {earlier later : List (Move ι)} {manager : ι} (registry : Registry)
    (task : TaskSpecification) :
    runsBy manager earlier < runsBy manager (earlier ++ .run manager registry task :: later) := by
  simp only [runsBy,List.countP_append,List.countP_cons,Move.by,decide_true,if_true]
  omega

theorem freshRun_iff (disk : Disk) (before : List (Move ι)) (m : Move ι) :
    FreshRun disk before m ↔ ¬ Repeats disk before m := by
  cases m with
  | append r step => simp [FreshRun,Repeats]
  | record r outcome => simp [FreshRun,Repeats]
  | run manager registry task =>
    have hseqs := Fleet.play_seqs disk before manager
    have hused : Repeats disk before (.run manager registry task) ↔
        ((Fleet.play disk before).files.get
          (fileName (runId task (runsBy manager before)))).isSome = true := by
      rw [Fleet.play_stored]
      refine and_congr_right fun _ => ?_
      constructor
      · rintro ⟨earlier,manager',registry',task',later,rfl,_,htask,hcount⟩
        refine ⟨earlier,_,later,rfl,?_⟩
        rw [Move.Launches,runId,runId,htask,hcount]
      · rintro ⟨earlier,m,later,rfl,hlaunches⟩
        cases m with
        | run manager' registry' task' =>
          obtain ⟨htask,hcount⟩ := runId_inj hlaunches
          refine ⟨earlier,manager',registry',task',later,rfl,?_,htask,hcount⟩
          rintro rfl
          have hlt : runsBy manager' earlier <
              runsBy manager' (earlier ++ .run manager' registry' task' :: later) :=
            runsBy_lt registry' task'
          omega
        | append r step => exact absurd hlaunches id
        | record r outcome => exact absurd hlaunches id
    rw [hused]
    simp only [FreshRun,hseqs]
    rcases begin_cases disk (Fleet.play disk before).files task (runsBy manager before)
        (recordAgent registry task) with
      ⟨htakes,hnone,hbegin⟩ | ⟨htakes,hsome,hbegin⟩ | ⟨htakes,hbegin⟩
    · rw [hbegin]
      simp [FileStore.contains,Disk.find,htakes,hnone,bind,Except.bind]
    · rw [hbegin]
      simp [hsome]
    · rw [hbegin]
      have hnone : (Fleet.play disk before).files.get
          (fileName (runId task (runsBy manager before))) = none := by
        cases hfound : (Fleet.play disk before).files.get
          (fileName (runId task (runsBy manager before))) with
        | none => rfl
        | some content =>
          have hstored := (Fleet.play_stored disk before
            (runId task (runsBy manager before))).1 (by simp [hfound])
          simp [htakes] at hstored
      simp [FileStore.contains,Disk.find,htakes,hnone,alreadyExists,bind,Except.bind]

theorem keepsRecords (python : Python) (disk : Disk) (moves : List (Move ι)) :
    KeepsRecords python disk moves := by
  rintro before after rfl id t hload
  rw [Fleet.play_append]
  have hsound := Fleet.play_sound disk before
  exact load_later hsound.recorded (Fleet.foldl_sound after hsound).2 hload

/-- In every run of the fleet the ids are fresh and the records stay, exactly if no Manager is
given a task id at the number at which another one had it. -/
theorem runs_fresh_iff (python : Python) (disk : Disk) (moves : List (Move ι)) :
    Each (FreshRun disk) moves ∧ KeepsRecords python disk moves ↔
      Each (fun before m => ¬ Repeats disk before m) moves := by
  constructor
  · intro h before m after heq
    exact (freshRun_iff disk before m).1 (h.1 before m after heq)
  · intro h
    refine ⟨fun before m after heq => ?_,keepsRecords python disk moves⟩
    exact (freshRun_iff disk before m).2 (h before m after heq)

/-- Two Managers on one directory, and the same task for each. -/
theorem runs_collide :
    let task := TaskSpecification.plain (.single (.agentName "writer")) .none
    let registry := Registry.ofNames ["writer"]
    ¬ (Each (FreshRun ext4) [Move.run 0 registry task,Move.run 1 registry task] ∧
      KeepsRecords written ext4 [Move.run 0 registry task,Move.run 1 registry task]) := by
  intro task registry h
  have hfresh := h.1 [.run 0 registry task] (.run 1 registry task) [] rfl
  refine (freshRun_iff ext4 _ _).1 hfresh ⟨by decide +kernel,?_⟩
  exact ⟨[],0,registry,task,[],rfl,by decide,rfl,rfl⟩

end

end AgentCentric.Manager

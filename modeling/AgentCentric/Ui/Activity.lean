import AgentCentric.Chat.Repair
import AgentCentric.Library.Numerals

namespace AgentCentric.Activity

def activityKinds : List String := ["model","orchestrate","network","bills","provision","action"]

/-- What an action carries: a value that JSON has, or another one, by what `json.dump` writes for it
with `default=str`. For a container that contains itself, for example, it writes nothing: it
raises. -/
inductive Detail where
  | json (value : Json)
  | other (written : Option Json)

def Detail.written : Detail → Option Json
  | .json value => some value
  | .other written => written

@[simp] theorem Detail.written_json (value : Json) : (Detail.json value).written = some value := rfl

structure Entry where
  seq : Int
  kind : String
  action : String
  detail : Detail
  verified : Bool
  model : Json
  ts : Json

/-- `to_dict`, as `json.dump` writes it. -/
def Entry.written (e : Entry) : Option Json :=
  e.detail.written.map fun detail => .dict [("seq",.int e.seq),("kind",.str e.kind),
    ("action",.str e.action),("detail",detail),("verified",.bool e.verified),("model",e.model),
    ("ts",e.ts)]

inductive Raise where
  | activity (message : String)
  | unwritable
  | overflow (message : String)
  | os

/-- How far a write of the file gets. -/
inductive Disk where
  | ready
  /-- `makedirs` or `mkstemp` raises. -/
  | noTemp
  /-- `os.replace` raises. -/
  | noReplace

structure Feed where
  max : Nat
  positive : 0 < max
  entries : List Entry
  seq : Int

def Feed.empty (max : Nat) (positive : 0 < max) : Feed := ⟨max,positive,[],0⟩

structure Durable where
  feed : Feed
  file : Option String

/-- The arguments of `record`. -/
structure Call where
  kind : Json
  action : Json
  detail : Detail
  verified : Json
  model : Option String
  ts : Option String

def checkKind : Json → Except Raise String
  | .str kind => if kind ∈ activityKinds then .ok kind else unknown (.str kind)
  | kind => unknown kind
where
  unknown (kind : Json) : Except Raise String :=
    .error (.activity ("unknown activity kind " ++ kind.repr ++ "; expected one of " ++
      ", ".intercalate activityKinds))

def checkAction : Json → Except Raise String
  | .str action =>
    let stripped := Chat.strip action.toList
    if stripped = [] then missing else .ok (String.ofList stripped)
  | _ => missing
where
  missing : Except Raise String :=
    .error (.activity "activity requires a non-empty 'action' string")

def optional : Option String → Json
  | some text => .str text
  | none => .null

/-- The entry that `record` makes. -/
def Call.entry (call : Call) (seq : Int) : Except Raise Entry := do
  let kind ← checkKind call.kind
  let action ← checkAction call.action
  pure ⟨seq,kind,action,call.detail,call.verified.truthy,optional call.model,optional call.ts⟩

def trim (max : Nat) (entries : List Entry) : List Entry :=
  if max < entries.length then entries.drop (entries.length - max) else entries

def payload (entries : List Entry) : Option Json :=
  (entries.mapM Entry.written).map fun documents => .dict [("entries",.list documents)]

def save (disk : Disk) (entries : List Entry) : Except Raise String :=
  match disk with
  | .noTemp => .error .os
  | .ready => (expect (payload entries) .unwritable).map Json.dumps
  | .noReplace => do
    let _ ← expect (payload entries) .unwritable
    .error .os

def Durable.saved (d : Durable) (disk : Disk) : Except Raise Unit × Durable :=
  match save disk d.feed.entries with
  | .ok text => (.ok (),{ d with file := some text })
  | .error e => (.error e,d)

def Durable.record (d : Durable) (call : Call) (disk : Disk) : Except Raise Entry × Durable :=
  match call.entry d.feed.seq with
  | .error e => (.error e,d)
  | .ok entry =>
    let feed := { d.feed with
      seq := d.feed.seq + 1,entries := trim d.feed.max (d.feed.entries ++ [entry]) }
    let r := { d with feed }.saved disk
    (r.1.map fun _ => entry,r.2)

def Durable.clear (d : Durable) (disk : Disk) : Except Raise Unit × Durable :=
  { d with feed := { d.feed with entries := [],seq := 0 } }.saved disk

section
variable (numerals : Numerals)

/-- One turn of the loop of `_load`. Its `except` leaves an `OverflowError` alone. -/
def loadEntry (feed : Feed) : Json → Except Raise Feed
  | .dict raw =>
    match numerals.intOf ((Dict.lookup raw "seq").getD (.int feed.seq)) with
    | .error (.overflow message) => .error (.overflow message)
    | .error _ => .ok feed
    | .ok seq =>
      let entry : Entry := ⟨seq,((Dict.lookup raw "kind").getD (.str "")).text,
        ((Dict.lookup raw "action").getD (.str "")).text,
        .json ((Dict.lookup raw "detail").getD .null),
        ((Dict.lookup raw "verified").getD (.bool false)).truthy,
        (Dict.lookup raw "model").getD .null,(Dict.lookup raw "ts").getD .null⟩
      if entry.kind ∉ activityKinds ∨ entry.action = "" then .ok feed
      else .ok { feed with entries := feed.entries ++ [entry],seq := max feed.seq (entry.seq + 1) }
  | _ => .ok feed

def load (feed : Feed) (text : String) : Except Raise Feed :=
  match Json.loads text with
  | some (.dict data) =>
    match Dict.lookup data "entries" with
    | some (.list entries) => do
      let feed ← entries.foldlM (loadEntry numerals) feed
      pure { feed with entries := trim feed.max feed.entries }
    | _ => .ok feed
  | _ => .ok feed

/-- `ActivityFeed(max_entries=max, path=path)`, over the file that is at the path. -/
def Feed.new (max : Nat) (positive : 0 < max) : Option String → Except Raise Feed
  | none => .ok (.empty max positive)
  | some text => load numerals (.empty max positive) text

def Durable.reopen (d : Durable) : Except Raise Durable := do
  let feed ← Feed.new numerals d.feed.max d.feed.positive d.file
  pure { d with feed }

inductive Op where
  | record (call : Call) (disk : Disk)
  | clear (disk : Disk)
  | reopen

/-- A feed that cannot be opened again stays in use. -/
def Durable.step (d : Durable) : Op → Durable
  | .record call disk => (d.record call disk).2
  | .clear disk => (d.clear disk).2
  | .reopen => match d.reopen numerals with
    | .ok d => d
    | .error _ => d

def Durable.run (d : Durable) (ops : List Op) : Durable := ops.foldl (Durable.step numerals) d

end

def Call.Accepted (call : Call) : Prop := ∃ kind action,
  checkKind call.kind = .ok kind ∧ checkAction call.action = .ok action

/-- Nothing goes wrong once the arguments are accepted. -/
def Op.Clean : Op → Prop
  | .record call disk => call.Accepted → call.detail.written.isSome ∧ disk = .ready
  | .clear disk => disk = .ready
  | .reopen => True

def Entry.reread (e : Entry) : Entry :=
  { e with detail := match e.detail.written with
    | some detail => .json detail.canonical
    | none => e.detail }

/-- Nothing but the detail may differ, and Python's `==` does not tell the details apart if JSON has
them. -/
structure Entry.Same (e f : Entry) : Prop where
  rest : f = { e with detail := f.detail }
  detail : ∀ j : Json, e.detail = .json j → j.native = true →
    ∃ k, f.detail = .json k ∧ j.pyEq k = true

def journalStep (log : List Entry) : Op → List Entry
  | .record call _ => match call.entry log.length with
    | .ok entry => log ++ [entry]
    | .error _ => log
  | .clear _ => []
  | .reopen => log.map Entry.reread

def journal (ops : List Op) : List Entry := ops.foldl journalStep []

theorem trim_eq_drop (n : Nat) (entries : List Entry) :
    trim n entries = entries.drop (entries.length - n) := by
  unfold trim
  split
  · rfl
  · have hzero : entries.length - n = 0 := by omega
    simp [hzero]

theorem trim_concat {n : Nat} (hn : 0 < n) (entries : List Entry) (e : Entry) :
    trim n (trim n entries ++ [e]) = trim n (entries ++ [e]) := by
  simp only [trim_eq_drop,List.length_append,List.length_drop,List.length_singleton]
  by_cases hle : entries.length ≤ n
  · have hzero : entries.length - n = 0 := by omega
    simp [hzero]
  · have hlen : entries.length - (entries.length - n) + 1 - n = 1 := by omega
    have hdrop : entries.length + 1 - n = entries.length - n + 1 := by omega
    rw [hlen,hdrop,List.drop_append_of_le_length (by simp; omega),
      List.drop_append_of_le_length (by omega),List.drop_drop]

theorem trim_map (n : Nat) (f : Entry → Entry) (entries : List Entry) :
    trim n (entries.map f) = (trim n entries).map f := by
  simp [trim_eq_drop]

/-- The entries have the numbers from `n` on. -/
def Numbered : Nat → List Entry → Prop
  | _, [] => True
  | n, e :: entries => e.seq = n ∧ Numbered (n + 1) entries

theorem Numbered.concat {n : Nat} {entries : List Entry} (h : Numbered n entries) {e : Entry}
    (he : e.seq = (n + entries.length : Nat)) : Numbered n (entries ++ [e]) := by
  induction entries generalizing n with
  | nil => exact ⟨by simpa using he,trivial⟩
  | cons f entries ih =>
    refine ⟨h.1,ih h.2 ?_⟩
    rw [he,List.length_cons]
    omega

theorem Numbered.drop {n : Nat} {entries : List Entry} (h : Numbered n entries) (k : Nat) :
    Numbered (n + k) (entries.drop k) := by
  induction entries generalizing n k with
  | nil => simp [Numbered]
  | cons e entries ih =>
    cases k with
    | zero => exact h
    | succ k =>
      have hrest := ih h.2 k
      rwa [Nat.add_right_comm] at hrest

theorem Numbered.map {n : Nat} {entries : List Entry} (h : Numbered n entries) {f : Entry → Entry}
    (hf : ∀ e, (f e).seq = e.seq) : Numbered n (entries.map f) := by
  induction entries generalizing n with
  | nil => trivial
  | cons e entries ih => exact ⟨(hf e).trans h.1,ih h.2⟩

theorem Numbered.le {n : Nat} {entries : List Entry} (h : Numbered n entries) :
    ∀ e ∈ entries, (n : Int) ≤ e.seq := by
  induction entries generalizing n with
  | nil => simp
  | cons e entries ih =>
    intro f hf
    rcases List.mem_cons.1 hf with rfl | hf
    · rw [h.1]
    · have hlater := ih h.2 f hf
      omega

theorem Numbered.increasing {n : Nat} {entries : List Entry} (h : Numbered n entries) :
    entries.Pairwise fun e f => e.seq < f.seq := by
  induction entries generalizing n with
  | nil => exact .nil
  | cons e entries ih =>
    refine .cons (fun f hf => ?_) (ih h.2)
    have hlater := h.2.le f hf
    have hfirst := h.1
    omega

/-- The number that comes after all of them. -/
theorem Numbered.next {n : Nat} {entries : List Entry} (h : Numbered n entries) {s : Int}
    (hs : s ≤ n) : entries.foldl (fun s e => max s (e.seq + 1)) s =
      if entries = [] then s else (n + entries.length : Nat) := by
  induction entries generalizing n s with
  | nil => rfl
  | cons e entries ih =>
    have hmax : max s (e.seq + 1) = (n + 1 : Nat) := by
      rw [h.1]
      omega
    rw [List.foldl_cons,hmax,ih h.2 (Int.le_refl _),if_neg (List.cons_ne_nil _ _),List.length_cons]
    split
    · next hnil => rw [hnil,List.length_nil]
    · omega

/-- An entry that `record` may have made. -/
structure Entry.Sound (e : Entry) : Prop where
  kind : e.kind ∈ activityKinds
  action : e.action ≠ ""
  written : e.detail.written.isSome
  model : e.model.canonical = e.model
  ts : e.ts.canonical = e.ts

@[simp] theorem reread_seq (e : Entry) : e.reread.seq = e.seq := rfl

theorem Entry.Sound.reread {e : Entry} (h : e.Sound) : e.reread.Sound := by
  obtain ⟨detail,hdetail⟩ := Option.isSome_iff_exists.1 h.written
  refine ⟨h.kind,h.action,?_,h.model,h.ts⟩
  simp [Entry.reread,hdetail]

theorem reread_reread (e : Entry) : e.reread.reread = e.reread := by
  cases hdetail : e.detail.written with
  | none => simp [Entry.reread,hdetail]
  | some detail => simp [Entry.reread,hdetail,Json.canonical_canonical]

theorem same_reread {e : Entry} : e.Same e.reread := by
  refine ⟨rfl,fun j hj hnative => ⟨j.canonical,?_,Json.pyEq_canonical j hnative⟩⟩
  simp [Entry.reread,hj]

theorem checkKind_ok {kind : Json} {text : String} (h : checkKind kind = .ok text) :
    text ∈ activityKinds := by
  unfold checkKind at h
  split at h
  · split at h
    · cases h
      assumption
    · cases h
  · cases h

theorem checkAction_ok {action : Json} {text : String} (h : checkAction action = .ok text) :
    text ≠ "" := by
  unfold checkAction at h
  split at h
  · dsimp only at h
    split at h
    · cases h
    · next hstripped =>
      cases h
      intro hempty
      exact hstripped (by simpa using congrArg String.toList hempty)
  · cases h

theorem canonical_optional (text : Option String) : (optional text).canonical = optional text := by
  cases text <;> simp [optional,Json.canonical]

variable {call : Call}

theorem Call.entry_ok {seq : Int} {e : Entry} :
    call.entry seq = .ok e ↔ ∃ kind action, checkKind call.kind = .ok kind ∧
      checkAction call.action = .ok action ∧ e = ⟨seq,kind,action,call.detail,call.verified.truthy,
        optional call.model,optional call.ts⟩ := by
  simp only [Call.entry,bind_ok,pure,Except.pure,Except.ok.injEq]
  constructor
  · rintro ⟨kind,hkind,action,haction,rfl⟩
    exact ⟨kind,action,hkind,haction,rfl⟩
  · rintro ⟨kind,action,hkind,haction,rfl⟩
    exact ⟨kind,hkind,action,haction,rfl⟩

theorem Call.entry_sound {seq : Int} {e : Entry} (h : call.entry seq = .ok e)
    (hwritten : call.detail.written.isSome) : e.Sound := by
  obtain ⟨kind,action,hkind,haction,rfl⟩ := entry_ok.1 h
  exact ⟨checkKind_ok hkind,checkAction_ok haction,hwritten,canonical_optional _,
    canonical_optional _⟩

theorem Call.accepted_iff (seq : Int) : call.Accepted ↔ ∃ e, call.entry seq = .ok e := by
  simp only [Accepted,entry_ok]
  constructor
  · rintro ⟨kind,action,hkind,haction⟩
    exact ⟨_,kind,action,hkind,haction,rfl⟩
  · rintro ⟨_,kind,action,hkind,haction,_⟩
    exact ⟨kind,action,hkind,haction⟩

variable {log : List Entry} {d : Durable}

section
variable {numerals : Numerals} {n : Nat}

theorem loadEntry_written {e : Entry} (h : e.Sound) {document : Json}
    (hdocument : e.written = some document) (feed : Feed) :
    loadEntry numerals feed document.canonical = .ok { feed with
      entries := feed.entries ++ [e.reread],seq := max feed.seq (e.seq + 1) } := by
  obtain ⟨detail,hdetail⟩ := Option.isSome_iff_exists.1 h.written
  simp only [Entry.written,hdetail,Option.map_some,Option.some.injEq] at hdocument
  subst hdocument
  simp only [Json.canonical_dict,loadEntry,Json.lookup_sorted,Dict.lookup]
  simp [Json.canonical,Numerals.intOf,Json.truthy,Entry.reread,h.kind,h.action,h.model,h.ts,hdetail]

theorem foldlM_loadEntry {entries : List Entry} (h : ∀ e ∈ entries, e.Sound) {documents : List Json}
    (hdocuments : entries.mapM Entry.written = some documents) (feed : Feed) :
    (documents.map Json.canonical).foldlM (loadEntry numerals) feed = .ok { feed with
      entries := feed.entries ++ entries.map Entry.reread
      seq := entries.foldl (fun s e => max s (e.seq + 1)) feed.seq } := by
  induction entries generalizing documents feed with
  | nil =>
    cases hdocuments
    simp [pure,Except.pure]
  | cons e entries ih =>
    rw [List.mapM_cons] at hdocuments
    obtain ⟨document,hfirst,hlater⟩ := Option.bind_eq_some_iff.1 hdocuments
    obtain ⟨rest,hrest,hall⟩ := Option.bind_eq_some_iff.1 hlater
    cases hall
    rw [List.map_cons,List.foldlM_cons,
      loadEntry_written (h e List.mem_cons_self) hfirst feed]
    refine (ih (fun f hf => h f (List.mem_cons_of_mem e hf)) hrest _).trans ?_
    simp

theorem trim_le {n : Nat} {entries : List Entry} (h : entries.length ≤ n) :
    trim n entries = entries := by
  rw [trim,if_neg (by omega)]

theorem length_trim (n : Nat) (entries : List Entry) : (trim n entries).length ≤ n := by
  rw [trim_eq_drop,List.length_drop]
  omega

theorem new_saved {entries : List Entry} (h : ∀ e ∈ entries, e.Sound) {j : Json}
    (hpayload : payload entries = some j) {n : Nat} (hn : 0 < n) (hlength : entries.length ≤ n) :
    Feed.new numerals n hn (some (Json.dumps j)) = .ok ⟨n,hn,entries.map Entry.reread,
      entries.foldl (fun s e => max s (e.seq + 1)) 0⟩ := by
  obtain ⟨documents,hdocuments,rfl⟩ := Option.map_eq_some_iff.1 hpayload
  simp only [Feed.new,load,Json.loads_dumps,Json.canonical_dict,Json.lookup_sorted,Dict.lookup,
    if_true,Option.map_some,Json.canonical_list,foldlM_loadEntry h hdocuments]
  simp [Feed.empty,bind,Except.bind,pure,Except.pure,trim_le,hlength]

structure Keeps (numerals : Numerals) (n : Nat) (log : List Entry) (d : Durable) : Prop where
  max : d.feed.max = n
  entries : d.feed.entries = trim d.feed.max log
  seq : d.feed.seq = log.length
  numbered : Numbered 0 log
  sound : ∀ e ∈ log, e.Sound
  file : Feed.new numerals d.feed.max d.feed.positive d.file =
    .ok { d.feed with entries := d.feed.entries.map Entry.reread }

theorem keeps_new {n : Nat} (hn : 0 < n) : Keeps numerals n [] ⟨.empty n hn,none⟩ :=
  ⟨rfl,by simp [Feed.empty,trim],rfl,trivial,by simp,rfl⟩

theorem payload_sound {entries : List Entry} (h : ∀ e ∈ entries, e.Sound) :
    ∃ j, payload entries = some j := by
  have hall : ∃ documents, entries.mapM Entry.written = some documents := by
    induction entries with
    | nil => exact ⟨[],rfl⟩
    | cons e entries ih =>
      obtain ⟨documents,hrest⟩ := ih fun f hf => h f (List.mem_cons_of_mem e hf)
      obtain ⟨detail,hdetail⟩ := Option.isSome_iff_exists.1 (h e List.mem_cons_self).written
      simp [List.mapM_cons,hrest,Entry.written,hdetail]
  obtain ⟨documents,hdocuments⟩ := hall
  exact ⟨_,by rw [payload,hdocuments,Option.map_some]⟩

theorem seq_trim {n : Nat} (hn : 0 < n) (h : Numbered 0 log) :
    (trim n log).foldl (fun s e => max s (e.seq + 1)) (0 : Int) = log.length := by
  rw [trim_eq_drop,(h.drop (log.length - n)).next (by omega)]
  split
  · next hnil =>
    have hlength := congrArg List.length hnil
    rw [List.length_drop,List.length_nil] at hlength
    omega
  · rw [List.length_drop]
    omega

theorem keeps_saved (numerals : Numerals) (log : List Entry) (d : Durable)
    (hentries : d.feed.entries = trim d.feed.max log) (hseq : d.feed.seq = log.length)
    (hnumbered : Numbered 0 log) (hsound : ∀ e ∈ log, e.Sound) :
    (d.saved .ready).1 = .ok () ∧ Keeps numerals d.feed.max log (d.saved .ready).2 := by
  have htrim : ∀ e ∈ trim d.feed.max log, e.Sound := by
    intro e he
    rw [trim_eq_drop] at he
    exact hsound e (List.mem_of_mem_drop he)
  obtain ⟨j,hpayload⟩ := payload_sound htrim
  have hsave : d.saved .ready = (.ok (),{ d with file := some (Json.dumps j) }) := by
    simp [Durable.saved,save,hentries,hpayload,expect,Except.map]
  rw [hsave]
  refine ⟨rfl,rfl,hentries,hseq,hnumbered,hsound,?_⟩
  simp only [new_saved htrim hpayload d.feed.positive (length_trim _ _),
    seq_trim d.feed.positive hnumbered,hentries,hseq]

theorem Keeps.record (h : Keeps numerals n log d)
    {e : Entry} (hentry : call.entry d.feed.seq = .ok e) (hwritten : call.detail.written.isSome) :
    (d.record call .ready).1 = .ok e ∧ Keeps numerals n (log ++ [e]) (d.record call .ready).2 := by
  have hnext : e.seq = log.length := by
    obtain ⟨kind,action,_,_,rfl⟩ := Call.entry_ok.1 hentry
    exact h.seq
  have hsaved := keeps_saved numerals (log ++ [e]) { d with feed :=
      { d.feed with seq := d.feed.seq + 1,entries := trim d.feed.max (d.feed.entries ++ [e]) } }
    (by simp only [h.entries,trim_concat d.feed.positive]) (by simp [h.seq])
    (h.numbered.concat (by rw [hnext,Nat.zero_add])) (by
      intro f hf
      rcases List.mem_append.1 hf with hf | hf
      · exact h.sound f hf
      · rw [List.mem_singleton.1 hf]
        exact Call.entry_sound hentry hwritten)
  unfold Durable.record
  rw [hentry]
  dsimp only
  rw [hsaved.1]
  exact ⟨rfl,h.max ▸ hsaved.2⟩

theorem keeps_clear (d : Durable) : Keeps numerals d.feed.max [] (d.clear .ready).2 :=
  (keeps_saved numerals [] { d with feed := { d.feed with entries := [],seq := 0 } }
    (by simp [trim]) rfl trivial (by simp)).2

theorem Keeps.reopen (h : Keeps numerals n log d) :
    ∃ d', d.reopen numerals = .ok d' ∧ d'.feed.entries = d.feed.entries.map Entry.reread ∧
      Keeps numerals n (log.map Entry.reread) d' := by
  refine ⟨{ d with feed := { d.feed with entries := d.feed.entries.map Entry.reread } },?_,rfl,
    h.max,?_,?_,h.numbered.map reread_seq,?_,?_⟩
  · rw [Durable.reopen,h.file]
    rfl
  · simp only [h.entries,trim_map]
  · simp [h.seq]
  · intro e he
    obtain ⟨f,hf,rfl⟩ := List.mem_map.1 he
    exact (h.sound f hf).reread
  · simp only [h.file,List.map_map,Function.comp_def,reread_reread]

theorem Keeps.step (h : Keeps numerals n log d) {op : Op}
    (hclean : op.Clean) : Keeps numerals n (journalStep log op) (d.step numerals op) := by
  cases op with
  | record call disk =>
    rw [journalStep,Durable.step,← h.seq]
    cases hentry : call.entry d.feed.seq with
    | ok e =>
      obtain ⟨hwritten,rfl⟩ := hclean ((Call.accepted_iff d.feed.seq).2 ⟨e,hentry⟩)
      exact (h.record hentry hwritten).2
    | error e =>
      rw [Durable.record,hentry]
      exact h
  | clear disk =>
    obtain rfl : disk = .ready := hclean
    exact h.max ▸ keeps_clear d
  | reopen =>
    obtain ⟨d',hreopen,-,hkeeps⟩ := h.reopen
    rw [Durable.step,hreopen]
    exact hkeeps

theorem keeps_run (h : Keeps numerals n log d) {ops : List Op} (hclean : ∀ op ∈ ops, op.Clean) :
    Keeps numerals n (ops.foldl journalStep log) (d.run numerals ops) := by
  induction ops generalizing log d with
  | nil => exact h
  | cons op ops ih =>
    exact ih (h.step (hclean op List.mem_cons_self)) fun op hop =>
      hclean op (List.mem_cons_of_mem _ hop)

theorem payload_unwritten {entries : List Entry} {e : Entry} (he : e ∈ entries)
    (h : e.detail.written = none) : payload entries = none := by
  have hnone : entries.mapM Entry.written = none := by
    induction entries with
    | nil => cases he
    | cons f entries ih =>
      rw [List.mapM_cons]
      rcases List.mem_cons.1 he with rfl | he
      · simp [Entry.written,h]
      · simp [ih he]
  rw [payload,hnone,Option.map_none]

theorem record_spoils {e : Entry} {disk : Disk} (hentry : call.entry d.feed.seq = .ok e)
    (hbad : ¬ (call.detail.written.isSome ∧ disk = .ready)) :
    (∃ error, (d.record call disk).1 = .error error) ∧ (d.record call disk).2 ≠ d := by
  have hlast : e ∈ trim d.feed.max (d.feed.entries ++ [e]) := by
    rw [trim_eq_drop,List.drop_append_of_le_length]
    · simp
    · have hpositive := d.feed.positive
      simp
      omega
  have hsave : ∃ error, save disk (trim d.feed.max (d.feed.entries ++ [e])) = .error error := by
    cases disk with
    | noTemp => exact ⟨_,rfl⟩
    | noReplace =>
      cases hpayload : payload (trim d.feed.max (d.feed.entries ++ [e])) with
      | none => exact ⟨.unwritable,by simp [save,hpayload,expect,bind,Except.bind]⟩
      | some j => exact ⟨.os,by simp [save,hpayload,expect,bind,Except.bind]⟩
    | ready =>
      obtain ⟨kind,action,_,_,rfl⟩ := Call.entry_ok.1 hentry
      have hunwritten : call.detail.written = none := by simpa using hbad
      exact ⟨.unwritable,by simp [save,payload_unwritten hlast hunwritten,expect,Except.map]⟩
  obtain ⟨error,hsave⟩ := hsave
  unfold Durable.record Durable.saved
  rw [hentry]
  dsimp only
  rw [hsave]
  refine ⟨⟨error,rfl⟩,fun hsame => ?_⟩
  have hseq := congrArg (fun d => d.feed.seq) hsame
  dsimp only at hseq
  omega

theorem Keeps.record_iff (h : Keeps numerals n log d) (call : Call)
    (disk : Disk) : (∀ error, (d.record call disk).1 = .error error → (d.record call disk).2 = d) ↔
      (Op.record call disk).Clean := by
  constructor
  · intro hsame haccepted
    obtain ⟨e,hentry⟩ := (Call.accepted_iff d.feed.seq).1 haccepted
    by_contra hbad
    obtain ⟨⟨error,herror⟩,hchanged⟩ := record_spoils hentry hbad
    exact hchanged (hsame error herror)
  · intro hclean error herror
    cases hentry : call.entry d.feed.seq with
    | error e => rw [Durable.record,hentry]
    | ok e =>
      obtain ⟨hwritten,rfl⟩ := hclean ((Call.accepted_iff d.feed.seq).2 ⟨e,hentry⟩)
      rw [(h.record hentry hwritten).1] at herror
      cases herror

/-- As long as every accepted detail can be written, and the disk takes it. -/
theorem feed_of_clean (numerals : Numerals) {n : Nat} (hn : 0 < n) {ops : List Op}
    (hclean : ∀ op ∈ ops, op.Clean) :
    let d := Durable.run numerals ⟨.empty n hn,none⟩ ops
    d.feed.entries = trim n (journal ops) ∧
      d.feed.entries.Pairwise (fun e f => e.seq < f.seq) ∧
      (∃ d', d.reopen numerals = .ok d' ∧ List.Forall₂ Entry.Same d.feed.entries d'.feed.entries) ∧
      ∀ call disk, (∀ error, (d.record call disk).1 = .error error → (d.record call disk).2 = d) ↔
        (Op.record call disk).Clean := by
  intro d
  have hkeeps : Keeps numerals n (journal ops) d := keeps_run (keeps_new hn) hclean
  refine ⟨hkeeps.max ▸ hkeeps.entries,?_,?_,hkeeps.record_iff⟩
  · rw [hkeeps.entries,trim_eq_drop]
    exact (hkeeps.numbered.drop _).increasing
  · obtain ⟨d',hreopen,hentries,-⟩ := hkeeps.reopen
    refine ⟨d',hreopen,?_⟩
    rw [hentries,List.forall₂_map_right_iff]
    exact List.forall₂_same.2 fun e _ => same_reread

end

theorem feed_of_clean_full :
    let ops : List Op := [.record ⟨.str "model",.str "run",.json .null,.bool true,none,none⟩ .ready,
      .clear .ready,.record ⟨.str "prompt",.str "x",.other none,.bool false,none,none⟩ .noTemp,
      .record ⟨.str "bills",.str " accept ",.json (.dict [("id",.int 1),("at",.null)]),.bool true,
        none,none⟩ .ready,.reopen,
      .record ⟨.str "action",.str "next",.other (some (.str "obj")),.bool true,none,none⟩ .ready]
    let d := Durable.run ⟨fun _ => none,fun _ => none,fun _ => none⟩ ⟨.empty 1 (by decide),none⟩ ops
    d.feed.entries = trim 1 (journal ops) := by
  refine (feed_of_clean _ (by decide) ?_).1
  have hrefused : ∀ disk, (Op.record
      ⟨.str "prompt",.str "x",.other none,.bool false,none,none⟩ disk).Clean := by
    rintro disk ⟨kind,action,hkind,_⟩
    simp [checkKind,checkKind.unknown,activityKinds] at hkind
  simp only [List.forall_mem_cons,List.not_mem_nil,false_implies,implies_true,and_true]
  exact ⟨fun _ => ⟨rfl,rfl⟩,rfl,hrefused _,fun _ => ⟨rfl,rfl⟩,trivial,fun _ => ⟨rfl,rfl⟩⟩

/-- A detail that contains itself: nothing is written, and the entry is in the feed. -/
theorem feed_keeps_unwritable : ¬ ∀ (numerals : Numerals) (n : Nat) (hn : 0 < n) (ops : List Op)
    (call : Call) (error : Raise), let d := Durable.run numerals ⟨.empty n hn,none⟩ ops
    (d.record call .ready).1 = .error error → (d.record call .ready).2 = d := by
  intro h
  have hentry : (⟨.str "model",.str "run",.other none,.bool false,none,none⟩ : Call).entry 0 =
      .ok ⟨0,"model","run",.other none,false,.null,.null⟩ := by
    refine Call.entry_ok.2 ⟨"model","run",?_,?_,rfl⟩
    · simp [checkKind,activityKinds]
    · rfl
  obtain ⟨⟨error,herror⟩,hchanged⟩ := record_spoils (d := ⟨.empty 1 (by decide),none⟩) hentry
    (fun hwritten => Bool.false_ne_true hwritten.1)
  exact hchanged (h ⟨fun _ => none,fun _ => none,fun _ => none⟩ 1 (by decide) [] _ error herror)

end AgentCentric.Activity

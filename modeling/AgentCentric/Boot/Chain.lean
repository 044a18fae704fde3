import AgentCentric.Boot.Log

namespace AgentCentric.Boot
open JsonLines

/-- The arguments of `append`. -/
structure Release where
  lockHash : String
  keyId : String
  signature : String
  deriving DecidableEq

def Release.fit (r : Release) : Bool :=
  isSha256 r.lockHash && r.keyId ≠ "" && r.signature ≠ ""

namespace TransparencyEntry

def release (e : TransparencyEntry) : Release := ⟨e.lockHash,e.keyId,e.signature⟩

def document (e : TransparencyEntry) : Json :=
  .dict [("schema",.str "transparency.log/v1"),("seq",.int e.seq),("prev",.str e.prev),
    ("lock_hash",.str e.lockHash),("key_id",.str e.keyId),("signature",.str e.signature)]

def toLine (e : TransparencyEntry) : List Char := e.document.bytes

end TransparencyEntry

variable {entries : List TransparencyEntry}

namespace TransparencyLog
variable (codec : Codec)

/-- The handle is opened for appending, where there is a file or not. -/
def write (log : TransparencyLog) (e : TransparencyEntry) : TransparencyLog :=
  ⟨some (log.text.getD [] ++ e.toLine ++ ['\n'])⟩

def append (log : TransparencyLog) (r : Release) :
    Except Raise (TransparencyEntry × TransparencyLog) := do
  let entries ← log.read codec
  match entries.getLast?.filter (·.release = r) with
  | some last => pure (last,log)
  | none => do
      let entry ← TransparencyEntry.new entries.length (head codec entries) r.lockHash r.keyId
        r.signature
      pure (entry,log.write entry)

def appendOne (log : TransparencyLog) (r : Release) : TransparencyLog :=
  match log.append codec r with
  | .ok (_,after) => after
  | .error _ => log

def appendAll (log : TransparencyLog) (releases : List Release) : TransparencyLog :=
  releases.foldl (appendOne codec) log

def onceMore (releases : List Release) (r : Release) : List Release :=
  if releases.getLast? = some r then releases else releases ++ [r]

def collapse (releases : List Release) : List Release := releases.foldl onceMore []

variable {codec}

theorem new_fields (e : TransparencyEntry) :
    TransparencyEntry.new e.seq e.prev e.lockHash e.keyId e.signature = .ok e := by
  have hseq : ¬ (e.seq : Int) < 0 := by omega
  rw [TransparencyEntry.new,if_neg hseq,dif_pos e.prevHex,dif_pos e.lockHex,dif_neg e.keyed,
    dif_neg e.signed]
  rfl

theorem fromLine_toLine (e : TransparencyEntry) :
    TransparencyEntry.fromLine e.toLine e.seq e.prev = .ok e := by
  have hread : Json.loadsChars e.toLine = some (.dict (Json.sorted [
      ("schema",.str "transparency.log/v1"),("seq",.int e.seq),("prev",.str e.prev),
      ("lock_hash",.str e.lockHash),("key_id",.str e.keyId),("signature",.str e.signature)])) := by
    rw [TransparencyEntry.toLine,Json.loadsChars_bytes,TransparencyEntry.document,
      Json.canonical_dict]
  rw [TransparencyEntry.fromLine,hread]
  simp [TransparencyEntry.hasSchema,TransparencyEntry.ofFields,ComponentManifest.itemText,
    ComponentManifest.item,Json.lookup_sorted,Dict.lookup,Json.canonical,expect,require,
    TransparencyEntry.seqOf,Json.toInt,bind,Except.bind,pure,Except.pure,new_fields,
    Except.mapError]

theorem toLine_printable (e : TransparencyEntry) : e.toLine.all printable = true :=
  bytes_printable e.document

theorem toLine_brace (e : TransparencyEntry) : ∃ rest, e.toLine = '{' :: rest := by
  rw [TransparencyEntry.toLine,TransparencyEntry.document,Json.bytes,Json.canonical_dict]
  cases hitems : Json.sorted [("schema",Json.str "transparency.log/v1"),("seq",.int e.seq),
    ("prev",.str e.prev),("lock_hash",.str e.lockHash),("key_id",.str e.keyId),
    ("signature",.str e.signature)] with
  | nil => exact ⟨_,rfl⟩
  | cons item items => exact ⟨_,rfl⟩

theorem toLine_not_blank (e : TransparencyEntry) : ¬ e.toLine.all isSpace = true := by
  obtain ⟨rest,hrest⟩ := toLine_brace e
  rw [hrest,List.all_cons]
  simp [isSpace]

def fileOf (entries : List TransparencyEntry) : List Char :=
  entries.flatMap fun e => e.toLine ++ ['
']

theorem splitLines_fileOf (entries : List TransparencyEntry) :
    splitLines (fileOf entries) = entries.map (·.toLine) := by
  induction entries with
  | nil => rfl
  | cons e entries ih =>
    have hline := splitLines_line (fileOf entries) (unbroken_of_printable (toLine_printable e))
    rw [List.map_cons,← ih,← hline]
    simp [fileOf]

theorem readLines_toLine {index : Nat} {prev : String} (h : Chained codec index prev entries) :
    readLines codec index prev (entries.map (·.toLine)) = .ok entries := by
  induction h with
  | nil index prev => rfl
  | @cons index prev e rest hseq hprev hrest ih =>
    subst hseq
    subst hprev
    rw [List.map_cons,readLines,fromLine_toLine]
    simp [require,toLine_not_blank e,bind,Except.bind,ih,pure,Except.pure]

def Keeps (codec : Codec) (log : TransparencyLog) (entries : List TransparencyEntry) : Prop :=
  log.text.getD [] = fileOf entries ∧ Chained codec 0 genesis entries

theorem Keeps.read {log : TransparencyLog}
    (h : Keeps codec log entries) : log.read codec = .ok entries := by
  obtain ⟨htext,hchained⟩ := h
  have hlines := readLines_toLine hchained
  unfold TransparencyLog.read
  cases hlog : log.text with
  | none =>
    rw [hlog] at htext
    cases entries with
    | nil => rfl
    | cons e rest =>
      obtain ⟨cs,hcs⟩ := toLine_brace e
      simp [fileOf,hcs] at htext
  | some text =>
    rw [hlog] at htext
    simp only [Option.getD_some] at htext
    subst htext
    show readLines codec 0 genesis (splitLines (fileOf entries)) = .ok entries
    rw [splitLines_fileOf]
    exact hlines

theorem head_concat (entries : List TransparencyEntry) (e : TransparencyEntry) :
    head codec (entries ++ [e]) = e.entryHash codec := by
  simp [head]

theorem chained_cons {index : Nat} {prev : String}
    {e : TransparencyEntry} : Chained codec index prev (e :: entries) ↔
      e.seq = index ∧ e.prev = prev ∧ Chained codec (index + 1) (e.entryHash codec) entries := by
  constructor
  · intro h
    cases h with
    | cons hseq hprev hrest => exact ⟨hseq,hprev,hrest⟩
  · exact fun h => .cons h.1 h.2.1 h.2.2

theorem chained_concat {index : Nat} {prev : String}
    {e : TransparencyEntry} : Chained codec index prev (entries ++ [e]) ↔
      Chained codec index prev entries ∧ e.seq = index + entries.length ∧
        e.prev = (entries.getLast?.map (TransparencyEntry.entryHash codec)).getD prev := by
  induction entries generalizing index prev with
  | nil =>
    rw [List.nil_append,chained_cons]
    simp [Chained.nil]
  | cons d entries ih =>
    rw [List.cons_append,chained_cons,ih,chained_cons]
    have hlast : ((d :: entries).getLast?.map (TransparencyEntry.entryHash codec)).getD prev =
        (entries.getLast?.map (TransparencyEntry.entryHash codec)).getD (d.entryHash codec) := by
      cases entries with
      | nil => rfl
      | cons c entries =>
        rw [List.getLast?_cons_cons]
        cases hlast : (c :: entries).getLast? with
        | none => simp at hlast
        | some last => rfl
    rw [hlast,List.length_cons]
    have hindex : index + 1 + entries.length = index + (entries.length + 1) := by omega
    rw [hindex]
    tauto

theorem Chained.at (h : Chained codec 0 genesis entries) (i : Nat) (hi : i < entries.length) :
    (entries[i]).seq = i ∧ (entries[i]).prev = head codec (entries.take i) := by
  induction entries using List.reverseRecOn with
  | nil => simp at hi
  | append_singleton entries e ih =>
    obtain ⟨hfront,hseq,hprev⟩ := chained_concat.1 h
    rcases Nat.lt_or_ge i entries.length with hlt | hge
    · rw [List.getElem_append_left hlt,List.take_append_of_le_length (Nat.le_of_lt hlt)]
      exact ih hfront hlt
    · have heq : i = entries.length := by
        rw [List.length_append,List.length_singleton] at hi
        omega
      subst heq
      rw [List.getElem_append_right (Nat.le_refl _)]
      simp only [Nat.sub_self,List.getElem_cons_zero,List.take_left]
      exact ⟨by omega,hprev⟩

theorem collapse_concat (releases : List Release) (r : Release) :
    collapse (releases ++ [r]) = onceMore (collapse releases) r := by
  simp [collapse]

theorem head_hex (codec : Codec) (entries : List TransparencyEntry) :
    isSha256 (head codec entries) = true := by
  cases hlast : entries.getLast? with
  | none =>
    rw [head,hlast]
    show isSha256 genesis = true
    decide +kernel
  | some e =>
    rw [head,hlast]
    exact ContentAddressedCache.isSha256_bundle codec _

theorem new_of_fit (codec : Codec) (entries : List TransparencyEntry) {r : Release}
    (h : r.fit = true) :
    ∃ e, TransparencyEntry.new entries.length (head codec entries) r.lockHash r.keyId
        r.signature = .ok e ∧ e.release = r ∧ e.seq = entries.length ∧
      e.prev = head codec entries := by
  simp only [Release.fit,Bool.and_eq_true,decide_eq_true_eq] at h
  obtain ⟨⟨hlock,hkey⟩,hsigned⟩ := h
  have hseq : ¬ (entries.length : Int) < 0 := by omega
  refine ⟨⟨entries.length,head codec entries,r.lockHash,r.keyId,r.signature,
    head_hex codec entries,hlock,hkey,hsigned⟩,?_,rfl,rfl,rfl⟩
  rw [TransparencyEntry.new,if_neg hseq,dif_pos (head_hex codec entries),dif_pos hlock,
    dif_neg hkey,dif_neg hsigned]
  rfl

theorem new_of_not_fit (entries : List TransparencyEntry) (prev : String) {r : Release}
    (h : r.fit = false) : ∃ raised, TransparencyEntry.new entries.length prev r.lockHash r.keyId
      r.signature = .error raised := by
  cases hnew : TransparencyEntry.new entries.length prev r.lockHash r.keyId r.signature with
  | error raised => exact ⟨raised,rfl⟩
  | ok e =>
    unfold TransparencyEntry.new at hnew
    repeat' split at hnew
    all_goals simp_all [Release.fit]

theorem release_fit (e : TransparencyEntry) : e.release.fit = true := by
  simp [TransparencyEntry.release,Release.fit,e.lockHex,e.keyed,e.signed]

theorem appendOne_keeps {log : TransparencyLog}
    (h : Keeps codec log entries) (r : Release) : ∃ after,
      Keeps codec (appendOne codec log r) after ∧ after.map (·.release) =
        if r.fit then onceMore (entries.map (·.release)) r else entries.map (·.release) := by
  have hread := h.read
  have hlast : (entries.map (·.release)).getLast? = entries.getLast?.map (·.release) := by simp
  by_cases hrepeat : (entries.map (·.release)).getLast? = some r
  · -- the call returns the last entry
    obtain ⟨last,hentry,hrelease⟩ := Option.map_eq_some_iff.1 (hlast ▸ hrepeat)
    have hfound : entries.getLast?.filter (·.release = r) = some last := by
      rw [hentry]
      simp [Option.filter,hrelease]
    have hcall : log.append codec r = .ok (last,log) := by
      rw [append,hread]
      simp [bind,Except.bind,hfound,pure,Except.pure]
    refine ⟨entries,by rw [appendOne,hcall]; exact h,?_⟩
    rw [if_pos (hrelease ▸ release_fit last),onceMore,if_pos hrepeat]
  · have hnone : entries.getLast?.filter (·.release = r) = none := by
      rw [hlast] at hrepeat
      cases hentry : entries.getLast? with
      | none => rfl
      | some last =>
        rw [hentry] at hrepeat
        simp only [Option.map_some,Option.some.injEq] at hrepeat
        simp [hrepeat]
    cases hfit : r.fit with
    | false =>
      obtain ⟨raised,hnew⟩ := new_of_not_fit entries (head codec entries) hfit
      have hcall : log.append codec r = .error raised := by
        rw [append,hread]
        simp [bind,Except.bind,hnone,hnew]
      exact ⟨entries,by rw [appendOne,hcall]; exact h,by simp⟩
    | true =>
      obtain ⟨e,hnew,hrelease,hseq,hprev⟩ := new_of_fit codec entries hfit
      have hcall : log.append codec r = .ok (e,log.write e) := by
        rw [append,hread]
        simp [bind,Except.bind,hnone,hnew,pure,Except.pure]
      refine ⟨entries ++ [e],?_,?_⟩
      · rw [appendOne,hcall]
        refine ⟨?_,chained_concat.2 ⟨h.2,by omega,hprev⟩⟩
        show log.text.getD [] ++ e.toLine ++ ['\n'] = fileOf (entries ++ [e])
        rw [h.1]
        simp [fileOf]
      · rw [if_pos rfl,onceMore,if_neg hrepeat,List.map_append,List.map_cons,hrelease]
        rfl

variable (codec) in
theorem appendAll_keeps (releases : List Release) : ∃ entries,
    Keeps codec (appendAll codec ⟨none⟩ releases) entries ∧
      entries.map (·.release) = collapse (releases.filter (·.fit)) := by
  induction releases using List.reverseRecOn with
  | nil => exact ⟨[],⟨rfl,.nil 0 genesis⟩,rfl⟩
  | append_singleton releases r ih =>
    obtain ⟨entries,hkeeps,hreleases⟩ := ih
    obtain ⟨after,hafter,hmore⟩ := appendOne_keeps hkeeps r
    refine ⟨after,?_,?_⟩
    · rw [appendAll,List.foldl_append]
      exact hafter
    · rw [hmore,hreleases,List.filter_append]
      cases hfit : r.fit with
      | false => simp [hfit]
      | true => simp [hfit,collapse_concat]

/-- No two of the entries have one hash, and none has that of the beginning. -/
structure CollisionFree (codec : Codec) (es es' : List TransparencyEntry) : Prop where
  apart : ∀ e ∈ es, ∀ e' ∈ es', e.entryHash codec = e'.entryHash codec →
    encode e.core.compact = encode e'.core.compact
  begun : ∀ e ∈ es ++ es', e.entryHash codec ≠ genesis

theorem encode_inj {s t : String} (h : encode s = encode t) : s = t := by
  have hdata : s.toByteArray.data = t.toByteArray.data := Array.toList_inj.1 h
  exact String.toByteArray_inj.1 (ByteArray.ext hdata)

theorem core_inj {e e' : TransparencyEntry}
    (h : encode e.core.compact = encode e'.core.compact) : e = e' := by
  have hcanonical : e.core.canonical = e'.core.canonical :=
    Json.bytes_inj.1 (String.ofList_injective (encode_inj h))
  rw [TransparencyEntry.core,TransparencyEntry.core,Json.canonical_dict,Json.canonical_dict,
    Json.dict.injEq] at hcanonical
  have hseq := congrArg (fun items => Dict.lookup items "seq") hcanonical
  have hprev := congrArg (fun items => Dict.lookup items "prev") hcanonical
  have hlock := congrArg (fun items => Dict.lookup items "lock_hash") hcanonical
  have hkey := congrArg (fun items => Dict.lookup items "key_id") hcanonical
  have hsigned := congrArg (fun items => Dict.lookup items "signature") hcanonical
  simp [Json.lookup_sorted,Dict.lookup,Json.canonical] at hseq hprev hlock hkey hsigned
  cases e
  cases e'
  simp_all

theorem chained_commits {es es' : List TransparencyEntry} (h : Chained codec 0 genesis es)
    (h' : Chained codec 0 genesis es') (hfree : CollisionFree codec es es')
    (hhead : head codec es = head codec es') : es = es' := by
  induction es using List.reverseRecOn generalizing es' with
  | nil =>
    induction es' using List.reverseRecOn with
    | nil => rfl
    | append_singleton es' e' _ =>
      rw [head_concat] at hhead
      exact absurd hhead.symm (hfree.begun e' (by simp))
  | append_singleton es e ih =>
    induction es' using List.reverseRecOn with
    | nil =>
      rw [head_concat] at hhead
      exact absurd hhead (hfree.begun e (by simp))
    | append_singleton es' e' _ =>
      rw [head_concat,head_concat] at hhead
      have heq : e = e' := core_inj (hfree.apart e (by simp) e' (by simp) hhead)
      obtain ⟨hfront,_,hprev⟩ := chained_concat.1 h
      obtain ⟨hfront',_,hprev'⟩ := chained_concat.1 h'
      have hheads : head codec es = head codec es' := by
        rw [heq] at hprev
        exact hprev.symm.trans hprev'
      have hfree' : CollisionFree codec es es' :=
        ⟨fun d hd d' hd' => hfree.apart d (by simp [hd]) d' (by simp [hd']),
          fun d hd => hfree.begun d (by simp only [List.mem_append] at hd ⊢; tauto)⟩
      rw [ih hfront hfront' hfree' hheads,heq]

theorem read_chained {log : TransparencyLog}
    (h : log.read codec = .ok entries) : Chained codec 0 genesis entries := by
  unfold read at h
  split at h
  · cases h
    exact .nil 0 genesis
  · exact readLines_chained h

/-- The log keeps what was appended, and its head stands for all of it. -/
theorem log_commits (codec : Codec) :
    (∀ releases, ∃ entries, (appendAll codec ⟨none⟩ releases).read codec = .ok entries ∧
      entries.map (·.release) = collapse (releases.filter (·.fit)) ∧
      ∀ i, ∀ hi : i < entries.length,
        (entries[i]).seq = i ∧ (entries[i]).prev = head codec (entries.take i)) ∧
    ∀ (log log' : TransparencyLog) (es es' : List TransparencyEntry),
      log.read codec = .ok es → log'.read codec = .ok es' → CollisionFree codec es es' →
      head codec es = head codec es' → es = es' := by
  constructor
  · intro releases
    obtain ⟨entries,hkeeps,hreleases⟩ := appendAll_keeps codec releases
    exact ⟨entries,hkeeps.read,hreleases,fun i hi => hkeeps.2.at i hi⟩
  · intro log log' es es' hread hread' hfree hhead
    exact chained_commits (read_chained hread) (read_chained hread') hfree hhead

end TransparencyLog
end AgentCentric.Boot
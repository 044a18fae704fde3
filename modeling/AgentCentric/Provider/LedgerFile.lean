import AgentCentric.Library.JsonLines
import AgentCentric.Provider.Plan

namespace AgentCentric.Provider.LedgerFile
open JsonLines
variable {sha256 : List Char → Digest}

/-- `json.loads(existing).get("fingerprint") == fingerprint`, none where it raises. -/
def hasFingerprint (fingerprint : String) (line : List Char) : Option Bool :=
  match Json.loads (String.ofList line) with
  | some (.dict items) =>
    match Dict.lookup items "fingerprint" with
    | some (.str found) => some (found = fingerprint)
    | _ => some false
  | _ => none

/-- The loop of `append` over the lines that are there. -/
def holds (fingerprint : String) : List (List Char) → Option Bool
  | [] => some false
  | [] :: lines => holds fingerprint lines
  | line :: lines => do
      let found ← hasFingerprint fingerprint line
      if found then some true else holds fingerprint lines

/-- `ProviderLedger.append`: whether the record is new, and the text of the file. -/
def append (sha256 : List Char → Digest) (text : List Char) (e : Evidence) :
    Option (Bool × List Char) := do
  let found ← holds (e.fingerprint sha256).text (splitLines text)
  if found then some (false,text) else some (true,text ++ (e.line sha256).toList ++ ['\n'])

def appendAll (sha256 : List Char → Digest) : List Char → List Evidence → Option (List Char)
  | text, [] => some text
  | text, e :: es => do
      let (_,text) ← append sha256 text e
      appendAll sha256 text es

/-- `ProviderLedger.entries`, each with the fingerprint on its line. -/
def entries (text : List Char) : Option (List (String × Evidence)) :=
  ((splitLines text).filter fun line => !line.all isSpace).mapM
    fun line => Evidence.readLine (String.ofList line)

/-- The file of the records `es`, and the ledger that it stands for. -/
def written (sha256 : List Char → Digest) (es : List Evidence) : List Char :=
  es.flatMap fun e => (e.line sha256).toList ++ ['\n']

def ledgerOf (sha256 : List Char → Digest) (es : List Evidence) : Ledger :=
  es.map fun e => ⟨e.fingerprint sha256,e.reread⟩

/-- The records of the file after one more call. -/
def keep (sha256 : List Char → Digest) (es : List Evidence) (e : Evidence) : List Evidence :=
  if (ledgerOf sha256 es).holds (e.fingerprint sha256) then es else es ++ [e]

theorem line_cons (e : Evidence) : ∃ rest, (e.line sha256).toList = '\x7b' :: rest := by
  rw [Evidence.line,Json.compact,String.toList_ofList,Json.bytes,Json.canonical_dict]
  cases Json.sorted (e.toItems ++ [("fingerprint",.str (e.fingerprint sha256).text)]) with
  | nil => exact ⟨_,rfl⟩
  | cons item items => exact ⟨_,rfl⟩

theorem splitLines_written (es : List Evidence) :
    splitLines (written sha256 es) = es.map fun e => (e.line sha256).toList := by
  induction es with
  | nil => rfl
  | cons e es ih =>
    have hunbroken : (e.line sha256).toList.all (!isBreak ·) = true := by
      rw [Evidence.line,Json.compact,String.toList_ofList]
      exact unbroken_of_printable (bytes_printable _)
    rw [List.map_cons,← ih,← splitLines_line _ hunbroken]
    simp [written]

theorem hasFingerprint_line (fingerprint : Digest) (e : Evidence) :
    hasFingerprint fingerprint.text (e.line sha256).toList =
      some (decide (e.fingerprint sha256 = fingerprint)) := by
  have hlookup := Json.lookup_sorted
    (e.toItems ++ [("fingerprint",.str (e.fingerprint sha256).text)]) "fingerprint"
  unfold hasFingerprint Evidence.line
  rw [String.ofList_toList,Json.loads_compact,Json.canonical_dict]
  simp only [hlookup]
  cases e.fingerprint sha256
  cases fingerprint
  simp [Evidence.toItems,Dict.lookup,Json.canonical]

theorem holds_written (fingerprint : Digest) (es : List Evidence) :
    holds fingerprint.text (es.map fun e => (e.line sha256).toList) =
      some ((ledgerOf sha256 es).holds fingerprint) := by
  induction es with
  | nil => rfl
  | cons e es ih =>
    obtain ⟨rest,hline⟩ := @line_cons sha256 e
    have hfound := @hasFingerprint_line sha256 fingerprint e
    rw [hline] at hfound
    rw [List.map_cons,hline,holds,hfound]
    · by_cases h : e.fingerprint sha256 = fingerprint
      · simp [ledgerOf,Ledger.holds,h]
      · simpa [ledgerOf,Ledger.holds,h] using ih
    · simp

theorem append_written (es : List Evidence) (e : Evidence) :
    append sha256 (written sha256 es) e =
      some (!(ledgerOf sha256 es).holds (e.fingerprint sha256),written sha256 (keep sha256 es e)) := by
  have hholds := @holds_written sha256 (e.fingerprint sha256) es
  rw [← splitLines_written] at hholds
  unfold append keep
  rw [hholds]
  cases (ledgerOf sha256 es).holds (e.fingerprint sha256) with
  | true => rfl
  | false => simp [written]

theorem appendAll_written (es kept : List Evidence) : appendAll sha256 (written sha256 kept) es =
    some (written sha256 (es.foldl (keep sha256) kept)) := by
  induction es generalizing kept with
  | nil => rfl
  | cons e es ih =>
    rw [appendAll,append_written]
    exact ih (keep sha256 kept e)

/-- The file of a ledger without repeats stays one, and follows `Ledger.append`. -/
theorem ledgerOf_foldl (es kept : List Evidence)
    (h : ((ledgerOf sha256 kept).map Entry.fingerprint).Nodup) :
    ledgerOf sha256 (es.foldl (keep sha256) kept) =
        es.foldl (Ledger.append sha256) (ledgerOf sha256 kept) ∧
      ((ledgerOf sha256 (es.foldl (keep sha256) kept)).map Entry.fingerprint).Nodup := by
  induction es generalizing kept with
  | nil => exact ⟨rfl,h⟩
  | cons e es ih =>
    rw [List.foldl_cons,List.foldl_cons,Ledger.append,keep]
    split
    · exact ih kept h
    · rename_i hnew
      have hconcat : ledgerOf sha256 (kept ++ [e]) =
          ledgerOf sha256 kept ++ [⟨e.fingerprint sha256,e.reread⟩] := by simp [ledgerOf]
      rw [← hconcat]
      apply ih
      rw [hconcat,List.map_append,List.nodup_append]
      refine ⟨h,List.nodup_singleton _,fun a ha b hb hab => hnew ?_⟩
      obtain ⟨entry,hentry,rfl⟩ := List.mem_map.1 ha
      exact List.any_eq_true.2 ⟨entry,hentry,by simpa [hab] using hb⟩

theorem entries_written (es : List Evidence) : entries (written sha256 es) =
    some ((ledgerOf sha256 es).map fun entry => (entry.fingerprint.text,entry.evidence)) := by
  have hkept : ∀ line ∈ es.map fun e => (e.line sha256).toList, (!line.all isSpace) = true := by
    simp only [List.forall_mem_map]
    intro e _
    obtain ⟨rest,hline⟩ := @line_cons sha256 e
    rw [hline,List.all_cons]
    rfl
  rw [entries,splitLines_written,List.filter_eq_self.2 hkept]
  clear hkept
  induction es with
  | nil => rfl
  | cons e es ih =>
    simp only [List.map_cons,List.mapM_cons,String.ofList_toList,Evidence.readLine_line,ih]
    rfl

/-- Whatever is appended to a new file, with or without repeats, is read back as the ledger of it,
where no fingerprint stands twice. One more record only extends the file, and is new exactly if the
ledger does not hold it. -/
theorem file_refines_ledger (sha256 : List Char → Digest) (es : List Evidence) :
    ∃ text ledger, appendAll sha256 [] es = some text ∧
      ledger = es.foldl (Ledger.append sha256) [] ∧ (ledger.map Entry.fingerprint).Nodup ∧
      entries text = some (ledger.map fun entry => (entry.fingerprint.text,entry.evidence)) ∧
      ∀ e, ∃ text', text <+: text' ∧
        append sha256 text e = some (!ledger.holds (e.fingerprint sha256),text') := by
  obtain ⟨hledger,hnodup⟩ := @ledgerOf_foldl sha256 es [] List.nodup_nil
  refine ⟨_,_,appendAll_written es [],hledger,hnodup,entries_written _,fun e =>
    ⟨_,?_,append_written _ e⟩⟩
  unfold keep
  split
  · exact List.prefix_rfl
  · simp [written]

end AgentCentric.Provider.LedgerFile

import AgentCentric.Library.JsonLines
import AgentCentric.Library.JsonScan

namespace AgentCentric.Holdout
open Json JsonLines JsonScan

/-- A file: a text, or bytes that are none. -/
inductive Content where
  | text : List Char → Content
  | garbled : Content

abbrev Record := Dict String Json

/-- The line breaks that reading a text file leaves. -/
def universal : List Char → List Char
  | [] => []
  | '\r' :: '\n' :: rest => '\n' :: universal rest
  | c :: rest => (if c = '\r' then '\n' else c) :: universal rest

/-- `handle.read().splitlines()`. -/
def linesOf (cs : List Char) : List (List Char) := splitLines (universal cs)

def fingerprintOf (sha256 : String → HexDigest) (record : Record) : String :=
  (sha256 (Json.dict (record.entries.filter (·.1 ≠ "fingerprint"))).compact).text

def entryOf (sha256 : String → HexDigest) (record : Record) : Json :=
  .dict (Dict.insert record.entries "fingerprint" (.str (fingerprintOf sha256 record)))

def isText (t : String) : Json → Bool
  | .str s => s = t
  | _ => false

def holds (fingerprint : String) (line : List Char) : Bool :=
  if line.all isSpace then false
  else match loads (String.ofList line) with
    | some (.dict items) => (Dict.lookup items.reverse "fingerprint").any (isText fingerprint)
    | _ => false

section
variable (sha256 : String → HexDigest)

/-- `append_record`: what it returns, unless it raises, and the file afterwards. -/
def appendRecord (content : Content) (record : Record) : Option Bool × Content :=
  match content with
  | .garbled => (none,.garbled)
  | .text cs =>
    if (linesOf cs).any (holds (fingerprintOf sha256 record)) then (some false,.text cs)
    else (some true,.text (cs ++ ((entryOf sha256 record).bytes ++ ['\n'])))

def appendAll (content : Content) (records : List Record) : Content :=
  records.foldl (fun content record => (appendRecord sha256 content record).2) content

def readable : Content → List (List Char)
  | .text cs => (linesOf cs).filter fun line => (loads (String.ofList line)).isSome
  | .garbled => []

def Recorded (content : Content) (record : Record) : Prop :=
  ∃ line ∈ readable content, loads (String.ofList line) = some (entryOf sha256 record).canonical

/-- After each append, and after every one that follows: an acknowledged record can be read and is
not appended again, and the lines that could be read are still there. -/
def Kept (content : Content) (records : List Record) : Prop :=
  ∀ front record middle back, records = front ++ record :: (middle ++ back) →
    let before := appendAll sha256 content front
    let returned := appendRecord sha256 before record
    let after := appendAll sha256 returned.2 middle
    (returned.1 = some true → Recorded sha256 after record ∧
      appendRecord sha256 after record = (some false,after)) ∧
    readable before <+: readable after

/-- The last line is blank, or there is nothing to append. -/
def Placed (content : Content) (records : List Record) : Prop :=
  match content with
  | .garbled => True
  | .text cs => skip (lastLine (universal cs)) = [] ∨
    ∀ record ∈ records, (linesOf cs).any (holds (fingerprintOf sha256 record)) = true

end

theorem universal_cons {c : Char} {cs : List Char}
    (h : ∀ rest, c = '\r' → cs = '\n' :: rest → False) :
    universal (c :: cs) = (if c = '\r' then '\n' else c) :: universal cs := by
  rw [universal]
  exact h

theorem universal_append (cs : List Char) {c : Char} (hc : c ≠ '\n') (rest : List Char) :
    universal (cs ++ c :: rest) = universal cs ++ universal (c :: rest) := by
  induction cs using universal.induct with
  | case1 => rfl
  | case2 more ih => simp [universal,ih]
  | case3 d more hpair ih =>
    have hpair' : ∀ r, d = '\r' → more ++ c :: rest = '\n' :: r → False := by
      intro r hd heq
      cases more with
      | nil =>
        cases heq
        exact hc rfl
      | cons e more =>
        cases heq
        exact hpair more hd rfl
    rw [List.cons_append,universal_cons hpair',universal_cons hpair,ih,List.cons_append]

theorem universal_plain {cs : List Char} (h : '\r' ∉ cs) : universal cs = cs := by
  induction cs with
  | nil => rfl
  | cons c cs ih =>
    obtain ⟨hc,hcs⟩ := not_or.1 (mt List.mem_cons.2 h)
    rw [universal_cons fun _ heq => absurd heq.symm hc,if_neg fun heq => hc heq.symm,ih hcs]

theorem not_mem_universal (cs : List Char) : '\r' ∉ universal cs := by
  induction cs using universal.induct with
  | case1 => simp [universal]
  | case2 more ih => simpa [universal] using ih
  | case3 d more hpair ih =>
    rw [universal_cons hpair,List.mem_cons,not_or]
    refine ⟨?_,ih⟩
    split
    · decide
    · next hd => exact fun heq => hd heq.symm

theorem entry_bytes (sha256 : String → HexDigest) (record : Record) :
    ∃ body, (entryOf sha256 record).bytes = '{' :: body := by
  unfold entryOf bytes
  rw [canonical_dict]
  cases sorted (Dict.insert record.entries "fingerprint"
    (.str (fingerprintOf sha256 record))) with
  | nil => exact ⟨_,rfl⟩
  | cons item items => exact ⟨_,rfl⟩

theorem loads_bytes (j : Json) : loads (String.ofList j.bytes) = some j.canonical := loads_compact j

theorem entry_unbroken (sha256 : String → HexDigest) (record : Record) :
    ((entryOf sha256 record).bytes).all (!isBreak ·) = true :=
  unbroken_of_printable (bytes_printable _)

theorem holds_entry {sha256 : String → HexDigest} {record : Record} {line : List Char}
    (h : loads (String.ofList line) = some (entryOf sha256 record).canonical) :
    holds (fingerprintOf sha256 record) line = true := by
  rw [entryOf,canonical_dict] at h
  have hspace : line.all isSpace = false := by
    obtain ⟨body,hbody,-⟩ := scan_loads_dict h
    have hmem : '{' ∈ line := by
      have hskip : '{' ∈ skip line := by
        rw [hbody]
        exact List.mem_cons_self
      exact (List.dropWhile_sublist _).subset hskip
    rw [List.all_eq_false]
    exact ⟨_,hmem,by decide⟩
  have hnodup : ((sorted (Dict.insert record.entries "fingerprint"
      (.str (fingerprintOf sha256 record)))).map Prod.fst).Nodup := by
    have hinsert := Dict.nodup_insert record.entries "fingerprint"
      (.str (fingerprintOf sha256 record)) record.nodup
    have hkeys : (canonicalItems (Dict.insert record.entries "fingerprint"
        (.str (fingerprintOf sha256 record)))).map Prod.fst =
        (Dict.insert record.entries "fingerprint"
          (.str (fingerprintOf sha256 record))).map Prod.fst := by
      rw [canonicalItems_eq,List.map_map]
      rfl
    rw [← hkeys] at hinsert
    exact ((List.perm_insertionSort _ _).map Prod.fst).nodup_iff.2 hinsert
  have hlookup : Dict.lookup (sorted (Dict.insert record.entries "fingerprint"
      (.str (fingerprintOf sha256 record)))).reverse "fingerprint" =
        some (.str (fingerprintOf sha256 record)) := by
    rw [Dict.lookup_perm (List.reverse_perm _) (by rw [List.map_reverse]; simpa using hnodup),
      lookup_sorted,Dict.lookup_insert,if_pos rfl]
    rfl
  rw [holds,hspace,h]
  simp [hlookup,isText]

theorem closed_plain (cs : List Char) : '\r' ∉ closedLines (universal cs) := by
  intro hmem
  apply not_mem_universal cs
  rw [← closedLines_append (universal cs)]
  exact List.mem_append_left _ hmem

section
variable (cs : List Char) (sha256 : String → HexDigest) (record : Record)

theorem universal_entry : universal (cs ++ ((entryOf sha256 record).bytes ++ ['\n'])) =
    universal cs ++ ((entryOf sha256 record).bytes ++ ['\n']) := by
  obtain ⟨body,hbody⟩ := entry_bytes sha256 record
  have hplain : '\r' ∉ (entryOf sha256 record).bytes ++ ['\n'] := by
    rw [List.mem_append,not_or]
    refine ⟨fun hmem => ?_,by decide⟩
    have hbreak := List.all_eq_true.1 (entry_unbroken sha256 record) _ hmem
    exact absurd hbreak (by decide)
  have hwhole := universal_plain hplain
  rw [hbody,List.cons_append] at hwhole ⊢
  rw [universal_append cs (by decide),hwhole]

theorem lines_append : linesOf (cs ++ ((entryOf sha256 record).bytes ++ ['\n'])) =
    splitLines (closedLines (universal cs)) ++
      [lastLine (universal cs) ++ (entryOf sha256 record).bytes] := by
  have hline : (lastLine (universal cs) ++ (entryOf sha256 record).bytes).all (!isBreak ·) = true := by
    rw [List.all_append,lastLine_unbroken,entry_unbroken]
    rfl
  calc linesOf (cs ++ ((entryOf sha256 record).bytes ++ ['\n']))
      = splitLines (closedLines (universal cs) ++
          ((lastLine (universal cs) ++ (entryOf sha256 record).bytes) ++ ['\n'])) := by
        rw [linesOf,universal_entry,List.append_assoc,← List.append_assoc (closedLines _),
          closedLines_append]
    _ = splitLines (closedLines (universal cs)) ++
          splitLines ((lastLine (universal cs) ++ (entryOf sha256 record).bytes) ++ ['\n']) :=
        splitLines_closed (closed_plain cs) (fun _ _ h => closedLines_closed _ h) _
    _ = _ := by rw [splitLines_line [] hline]; rfl

theorem lines_eq : linesOf cs = splitLines (closedLines (universal cs)) ++
    if lastLine (universal cs) = [] then [] else [lastLine (universal cs)] := by
  have hlast : splitLines (lastLine (universal cs)) =
      if lastLine (universal cs) = [] then [] else [lastLine (universal cs)] := by
    split
    · next heq => rw [heq]; rfl
    · next hne => exact splitLines_unbroken hne (lastLine_unbroken _)
  rw [← hlast,← splitLines_closed (closed_plain cs) (fun _ _ h => closedLines_closed _ h),
    closedLines_append,linesOf]

end

end AgentCentric.Holdout

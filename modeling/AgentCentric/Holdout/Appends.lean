import AgentCentric.Holdout.Record

namespace AgentCentric.Holdout
open Json JsonLines JsonScan

def Settled : Content → Prop
  | .garbled => True
  | .text cs => skip (lastLine (universal cs)) = []

variable {cs : List Char} {record : Record}

section
variable (sha256 : String → HexDigest)

theorem appendRecord_known (h : (linesOf cs).any (holds (fingerprintOf sha256 record)) = true) :
    appendRecord sha256 (.text cs) record = (some false,.text cs) := by
  rw [appendRecord,if_pos h]

theorem appendRecord_new (h : (linesOf cs).any (holds (fingerprintOf sha256 record)) = false) :
    appendRecord sha256 (.text cs) record =
      (some true,.text (cs ++ ((entryOf sha256 record).bytes ++ ['\n']))) := by
  rw [appendRecord,if_neg (by simp [h])]

theorem recorded_known {content : Content} (h : Recorded sha256 content record) :
    appendRecord sha256 content record = (some false,content) := by
  obtain ⟨line,hline,hloads⟩ := h
  cases content with
  | garbled => simp [readable] at hline
  | text cs =>
    exact appendRecord_known sha256
      (List.any_eq_true.2 ⟨line,(List.mem_filter.1 hline).1,holds_entry hloads⟩)

theorem Recorded.mono {content content' : Content}
    (h : Recorded sha256 content record) (hle : readable content <+: readable content') :
    Recorded sha256 content' record := by
  obtain ⟨line,hline,hloads⟩ := h
  exact ⟨line,hle.subset hline,hloads⟩

theorem loads_blank {line : List Char} (h : skip line = []) :
    loads (String.ofList line) = none := by
  have hvalue : parseValue (line.length + 1) line = none := by
    rw [parseValue,h]
    simp [parseNumber,parseInt]
  simp [loads,hvalue]

theorem loads_gap {gap : List Char} (h : skip gap = []) (j : Json) :
    loads (String.ofList (gap ++ j.bytes)) = some j.canonical := by
  have hgap : Gap gap := by
    intro c hc
    have hblank := List.dropWhile_eq_nil_iff.1 h c hc
    simpa [blank] using hblank
  have hvalue : parseValue ((gap ++ j.bytes).length + 1) (gap ++ j.bytes) =
      some (j.canonical,[]) := by
    have hrender := parseValue_render gap_nil j.canonical ((gap ++ j.bytes).length + 1) []
      (by simp only [List.length_append,bytes]; omega) (by simp [Stops])
    rw [hgap.parseValue]
    simpa [bytes] using hrender
  rw [loads,String.toList_ofList,String.length_ofList,hvalue]
  simp [skip]

theorem lastLine_append (cs : List Char) (record : Record) :
    lastLine (universal (cs ++ ((entryOf sha256 record).bytes ++ ['\n']))) = [] := by
  rw [universal_entry,← List.append_assoc,lastLine,List.reverse_append]
  rfl

theorem settled_step {content : Content} (h : Settled content) (record : Record) :
    Settled (appendRecord sha256 content record).2 ∧
      readable content <+: readable (appendRecord sha256 content record).2 ∧
      ((appendRecord sha256 content record).1 = some true →
        Recorded sha256 (appendRecord sha256 content record).2 record) := by
  cases content with
  | garbled => exact ⟨trivial,List.prefix_refl _,fun h => nomatch h⟩
  | text cs =>
    cases hknown : (linesOf cs).any (holds (fingerprintOf sha256 record)) with
    | true =>
      rw [appendRecord_known sha256 hknown]
      exact ⟨h,List.prefix_refl _,fun h => nomatch h⟩
    | false =>
      rw [appendRecord_new sha256 hknown]
      have hloads := loads_gap h (entryOf sha256 record)
      have hbefore : readable (.text cs) = (splitLines (closedLines (universal cs))).filter
          fun line => (loads (String.ofList line)).isSome := by
        rw [readable,lines_eq,List.filter_append]
        have hblank := loads_blank h
        split
        · simp
        · simp [hblank]
      have hafter : readable (.text (cs ++ ((entryOf sha256 record).bytes ++ ['\n']))) =
          readable (.text cs) ++ [lastLine (universal cs) ++ (entryOf sha256 record).bytes] := by
        have hread : (loads (String.ofList (lastLine (universal cs) ++
            (entryOf sha256 record).bytes))).isSome = true := by
          rw [hloads]
          rfl
        rw [hbefore,readable,lines_append,List.filter_append,
          List.filter_cons_of_pos (by exact hread),List.filter_nil]
      refine ⟨?_,?_,fun _ => ?_⟩
      · rw [Settled,lastLine_append]
        rfl
      · rw [hafter]
        exact List.prefix_append _ _
      · refine ⟨_,?_,hloads⟩
        rw [hafter]
        simp

theorem settled_run {content : Content} (h : Settled content) (records : List Record) :
    Settled (appendAll sha256 content records) ∧
      readable content <+: readable (appendAll sha256 content records) := by
  induction records generalizing content with
  | nil => exact ⟨h,List.prefix_refl _⟩
  | cons record records ih =>
    obtain ⟨hsettled,hinitial,-⟩ := settled_step sha256 h record
    obtain ⟨hsettled',hinitial'⟩ := ih hsettled
    exact ⟨hsettled',hinitial.trans hinitial'⟩

theorem known_run {records : List Record}
    (h : ∀ record ∈ records, (linesOf cs).any (holds (fingerprintOf sha256 record)) = true) :
    appendAll sha256 (.text cs) records = .text cs := by
  induction records with
  | nil => rfl
  | cons record records ih =>
    have hstep := appendRecord_known sha256 (h record List.mem_cons_self)
    rw [appendAll,List.foldl_cons,hstep]
    exact ih fun r hr => h r (List.mem_cons_of_mem _ hr)

theorem kept_of_settled {content : Content} (h : Settled content) (records : List Record) :
    Kept sha256 content records := by
  intro front record middle back _ before returned after
  obtain ⟨hbefore,-⟩ := settled_run sha256 h front
  obtain ⟨hreturned,hinitial,hrecorded⟩ := settled_step sha256 hbefore record
  obtain ⟨-,hinitial'⟩ := settled_run sha256 hreturned middle
  refine ⟨fun htrue => ?_,hinitial.trans hinitial'⟩
  have hafter := (hrecorded htrue).mono sha256 hinitial'
  exact ⟨hafter,recorded_known sha256 hafter⟩

theorem kept_of_known {records : List Record}
    (h : ∀ record ∈ records, (linesOf cs).any (holds (fingerprintOf sha256 record)) = true) :
    Kept sha256 (.text cs) records := by
  intro front record middle back hrecords before returned after
  have hmem : ∀ r, r ∈ front ∨ r = record ∨ r ∈ middle → r ∈ records := by
    intro r hr
    rw [hrecords]
    simp only [List.mem_append,List.mem_cons]
    tauto
  have hbefore : before = .text cs := known_run sha256 fun r hr => h r (hmem r (.inl hr))
  have hreturned : returned = (some false,.text cs) := by
    show appendRecord sha256 before record = _
    rw [hbefore]
    exact appendRecord_known sha256 (h record (hmem record (.inr (.inl rfl))))
  have hafter : after = .text cs := by
    show appendAll sha256 returned.2 middle = _
    rw [hreturned]
    exact known_run sha256 fun r hr => h r (hmem r (.inr (.inr hr)))
  rw [hreturned,hbefore,hafter]
  refine ⟨?_,List.prefix_refl _⟩
  intro htrue
  cases htrue

theorem not_recorded (hlast : skip (lastLine (universal cs)) ≠ [])
    (hnew : (linesOf cs).any (holds (fingerprintOf sha256 record)) = false) :
    ¬ Recorded sha256 (appendRecord sha256 (.text cs) record).2 record := by
  rintro ⟨line,hline,hloads⟩
  rw [appendRecord_new sha256 hnew,readable,lines_append] at hline
  obtain ⟨hline,-⟩ := List.mem_filter.1 hline
  rcases List.mem_append.1 hline with hline | hline
  · have hmem : line ∈ linesOf cs := by
      rw [lines_eq]
      exact List.mem_append_left _ hline
    exact List.any_eq_false.1 hnew line hmem (holds_entry hloads)
  · rw [List.mem_singleton.1 hline] at hloads
    obtain ⟨body,hbody⟩ := entry_bytes sha256 record
    have hentry := loads_bytes (entryOf sha256 record)
    rw [hbody] at hentry hloads
    rw [entryOf,canonical_dict] at hloads
    exact loads_glued hlast hentry _ hloads

theorem exists_new {records : List Record} (h : ¬ ∀ record ∈ records,
      (linesOf cs).any (holds (fingerprintOf sha256 record)) = true) :
    ∃ front record back, records = front ++ record :: back ∧
      (∀ r ∈ front, (linesOf cs).any (holds (fingerprintOf sha256 r)) = true) ∧
      (linesOf cs).any (holds (fingerprintOf sha256 record)) = false := by
  induction records with
  | nil => exact absurd (by simp) h
  | cons record records ih =>
    cases hrecord : (linesOf cs).any (holds (fingerprintOf sha256 record)) with
    | false => exact ⟨[],record,records,rfl,by simp,hrecord⟩
    | true =>
      have hrest : ¬ ∀ r ∈ records, (linesOf cs).any (holds (fingerprintOf sha256 r)) = true := by
        intro hall
        apply h
        intro r hr
        rcases List.mem_cons.1 hr with rfl | hr
        · exact hrecord
        · exact hall r hr
      obtain ⟨front,r,back,rfl,hfront,hr⟩ := ih hrest
      refine ⟨record :: front,r,back,rfl,fun x hx => ?_,hr⟩
      rcases List.mem_cons.1 hx with rfl | hx
      · exact hrecord
      · exact hfront x hx

end

def zeroDigest (_ : String) : HexDigest := .zeros

/-- A record whose write was cut off, and the next record. -/
def tornLedger : Content := .text ['{','"','a','"',':']

def nextRecord : Record := ⟨[("verdict",.str "green")],by decide⟩

end AgentCentric.Holdout

import AgentCentric.Library.Json

namespace AgentCentric.JsonLines
open Json

/-- What `str.splitlines` takes for the end of a line. -/
def isBreak (c : Char) : Bool :=
  c.toNat ∈ [10,11,12,13,28,29,30,133,8232,8233]

def splitLines : List Char → List (List Char)
  | [] => []
  | '\r' :: '\n' :: rest => [] :: splitLines rest
  | c :: rest =>
    if isBreak c then [] :: splitLines rest
    else match splitLines rest with
      | [] => [[c]]
      | line :: lines => (c :: line) :: lines

attribute [grind =] splitLines

/-- What `str.strip` takes away. -/
def isSpace (c : Char) : Bool :=
  c.toNat ∈ [32,133,160,5760,8232,8233,8239,8287,12288] ∨ (9 ≤ c.toNat ∧ c.toNat ≤ 13) ∨
    (28 ≤ c.toNat ∧ c.toNat ≤ 31) ∨ (8192 ≤ c.toNat ∧ c.toNat ≤ 8202)

theorem splitLines_break {c : Char} (rest : List Char) (h : isBreak c = true) :
    ∃ lines, splitLines (c :: rest) = [] :: lines := by
  rw [splitLines.eq_def]
  split
  · contradiction
  · exact ⟨_,rfl⟩
  · rename_i heq
    cases heq
    rw [if_pos h]
    exact ⟨_,rfl⟩

theorem splitLines_newline (rest : List Char) : splitLines ('\n' :: rest) = [] :: splitLines rest := by
  rw [splitLines.eq_def]
  simp [isBreak]

theorem splitLines_plain {c : Char} {rest line : List Char} {lines : List (List Char)}
    (hc : isBreak c = false) (h : splitLines rest = line :: lines) :
    splitLines (c :: rest) = (c :: line) :: lines := by
  rw [splitLines.eq_def]
  split
  · contradiction
  · rename_i heq
    cases heq
    simp [isBreak] at hc
  · rename_i heq
    cases heq
    rw [if_neg (by simp [hc]),h]

theorem splitLines_line {line : List Char} (rest : List Char) (h : line.all (!isBreak ·) = true) :
    splitLines (line ++ '\n' :: rest) = line :: splitLines rest := by
  induction line with
  | nil => exact splitLines_newline rest
  | cons c line ih =>
    simp only [List.all_cons,Bool.and_eq_true] at h
    exact splitLines_plain (by simpa using h.1) (ih h.2)

theorem splitLines_first {text : List Char} (h : text ≠ []) :
    ∃ lines, splitLines text = text.takeWhile (!isBreak ·) :: lines := by
  induction text with
  | nil => contradiction
  | cons c rest ih =>
    cases hc : isBreak c with
    | true =>
      obtain ⟨lines,hlines⟩ := splitLines_break rest hc
      exact ⟨lines,by simp [hlines,hc]⟩
    | false =>
      cases rest with
      | nil => exact ⟨[],by simp [splitLines,hc]⟩
      | cons d rest =>
        obtain ⟨lines,hlines⟩ := ih (by simp)
        exact ⟨lines,by simp [splitLines_plain hc hlines,hc]⟩

theorem splitLines_single {c : Char} {rest : List Char} (h : isBreak c = true)
    (hsingle : ∀ cs, c = '\r' → rest = '\n' :: cs → False) :
    splitLines (c :: rest) = [] :: splitLines rest := by
  rw [splitLines.eq_def]
  split
  · contradiction
  · rename_i heq
    cases heq
    exact (hsingle _ rfl rfl).elim
  · rename_i heq
    cases heq
    rw [if_pos h]

/-- A text after a line feed has its own lines. -/
theorem splitLines_append (a b : List Char) :
    splitLines (a ++ '\n' :: b) = splitLines (a ++ ['\n']) ++ splitLines b := by
  have hplain : ∀ (c : Char) (rest : List Char), isBreak c = false →
      splitLines (rest ++ '\n' :: b) = splitLines (rest ++ ['\n']) ++ splitLines b →
      splitLines (c :: rest ++ '\n' :: b) = splitLines (c :: rest ++ ['\n']) ++ splitLines b := by
    intro c rest hc ih
    obtain ⟨lines,hlines⟩ := splitLines_first (show rest ++ ['\n'] ≠ [] by simp)
    rw [hlines,List.cons_append] at ih
    rw [List.cons_append,List.cons_append,splitLines_plain hc ih,splitLines_plain hc hlines,
      List.cons_append]
  induction a using splitLines.induct with
  | case1 => simp [splitLines_newline,splitLines]
  | case2 rest ih => simp [splitLines,ih]
  | case3 c rest hpair hbreak ih =>
    cases rest with
    | nil =>
      by_cases hc : c = '\r'
      · simp [hc,splitLines]
      · rw [List.cons_append,List.cons_append,splitLines_single hbreak fun _ h => absurd h hc,
          splitLines_single hbreak fun _ h => absurd h hc,ih,List.cons_append]
    | cons d rest =>
      have hnot : ∀ more cs, c = '\r' → d :: rest ++ more = '\n' :: cs → False := by
        intro more cs hc hd
        rw [List.cons_append,List.cons.injEq] at hd
        exact hpair rest hc (by rw [hd.1])
      calc splitLines (c :: (d :: rest ++ '\n' :: b))
          = [] :: splitLines (d :: rest ++ '\n' :: b) := splitLines_single hbreak (hnot _)
        _ = [] :: splitLines (d :: rest ++ ['\n']) ++ splitLines b := by rw [ih]; rfl
        _ = splitLines (c :: (d :: rest ++ ['\n'])) ++ splitLines b := by
          rw [splitLines_single hbreak (hnot _)]
  | case4 c rest _ hc _ ih => exact hplain c rest (by simpa using hc) ih
  | case5 c rest _ hc _ _ _ ih => exact hplain c rest (by simpa using hc) ih

theorem one_le_lines {text : List Char} (h : text ≠ []) : 1 ≤ (splitLines text).length := by
  obtain ⟨lines,hlines⟩ := splitLines_first h
  rw [hlines,List.length_cons]
  omega

variable {front : List Char}

/-- A break within a line makes two of it. -/
theorem two_le_lines {c : Char} (hc : isBreak c = false)
    (h : front.any isBreak = true) : 2 ≤ (splitLines (front ++ [c,'\n'])).length := by
  have hplain : ∀ (d : Char) (rest : List Char), isBreak d = false →
      2 ≤ (splitLines (rest ++ [c,'\n'])).length →
      2 ≤ (splitLines (d :: rest ++ [c,'\n'])).length := by
    intro d rest hd ih
    obtain ⟨lines,hlines⟩ := splitLines_first (show rest ++ [c,'\n'] ≠ [] by simp)
    rw [hlines] at ih
    rw [List.cons_append,splitLines_plain hd hlines]
    exact ih
  induction front using splitLines.induct with
  | case1 => simp at h
  | case2 rest ih =>
    have hrest := one_le_lines (show rest ++ [c,'\n'] ≠ [] by simp)
    simp only [List.cons_append,splitLines,List.length_cons]
    omega
  | case3 d rest hpair hbreak ih =>
    have hrest := one_le_lines (show rest ++ [c,'\n'] ≠ [] by simp)
    have hsingle : ∀ cs, d = '\r' → rest ++ [c,'\n'] = '\n' :: cs → False := by
      intro cs hd heq
      cases rest with
      | nil =>
        rw [List.nil_append,List.cons.injEq] at heq
        rw [heq.1] at hc
        exact absurd hc (by decide)
      | cons e rest =>
        rw [List.cons_append,List.cons.injEq] at heq
        exact hpair rest hd (by rw [heq.1])
    rw [List.cons_append,splitLines_single hbreak hsingle,List.length_cons]
    omega
  | case4 d rest _ hd _ ih => exact hplain d rest (by simpa using hd) (ih (by simpa [hd] using h))
  | case5 d rest _ hd _ _ _ ih =>
    exact hplain d rest (by simpa using hd) (ih (by simpa [hd] using h))

theorem line_count_iff {c : Char} (hc : isBreak c = false) :
    (splitLines (front ++ [c] ++ ['\n'])).length = 1 ↔ (front ++ [c]).all (!isBreak ·) = true := by
  constructor
  · intro h
    by_contra hbroken
    have hany : front.any isBreak = true := by
      simpa [hc,List.any_eq_true] using hbroken
    have htwo := two_le_lines hc hany
    rw [List.append_assoc] at h
    simp only [List.cons_append,List.nil_append] at h
    omega
  · intro h
    rw [splitLines_line [] h]
    rfl

theorem splitLines_flatMap (lines : List (List Char)) :
    splitLines (lines.flatMap (· ++ ['\n'])) = lines.flatMap fun l => splitLines (l ++ ['\n']) := by
  induction lines with
  | nil => rfl
  | cons l lines ih =>
    rw [List.flatMap_cons,List.flatMap_cons,← ih,← splitLines_append,List.append_assoc]
    rfl

def lastLine (text : List Char) : List Char := (text.reverse.takeWhile (!isBreak ·)).reverse

def closedLines (text : List Char) : List Char := (text.reverse.dropWhile (!isBreak ·)).reverse

theorem closedLines_append (text : List Char) : closedLines text ++ lastLine text = text := by
  rw [closedLines,lastLine,← List.reverse_append,List.takeWhile_append_dropWhile,
    List.reverse_reverse]

theorem lastLine_unbroken (text : List Char) : (lastLine text).all (!isBreak ·) = true := by
  rw [lastLine,List.all_reverse]
  exact List.all_takeWhile

theorem closedLines_closed (text : List Char) {c : Char}
    (h : closedLines text = front ++ [c]) : isBreak c = true := by
  have hrest : text.reverse.dropWhile (!isBreak ·) = c :: front.reverse := by
    rw [closedLines,List.reverse_eq_iff] at h
    rw [h,List.reverse_append]
    rfl
  have hhead := List.head?_dropWhile_not (!isBreak ·) text.reverse
  rw [hrest] at hhead
  simpa using hhead

/-- What follows a line break has its own lines, where no carriage return is. -/
theorem splitLines_closed (hplain : '\r' ∉ front)
    (hclosed : ∀ c cs, front = cs ++ [c] → isBreak c = true) (rest : List Char) :
    splitLines (front ++ rest) = splitLines front ++ splitLines rest := by
  induction front with
  | nil => rfl
  | cons c front ih =>
    obtain ⟨hc,hfront⟩ := not_or.1 (mt List.mem_cons.2 hplain)
    have hlast : ∀ d cs, front = cs ++ [d] → isBreak d = true := by
      intro d cs heq
      exact hclosed d (c :: cs) (by rw [heq]; rfl)
    have hrest := ih hfront hlast
    cases hbreak : isBreak c with
    | true =>
      rw [List.cons_append,splitLines_single hbreak fun _ heq => absurd heq.symm hc,
        splitLines_single hbreak fun _ heq => absurd heq.symm hc,hrest,List.cons_append]
    | false =>
      have hne : front ≠ [] := by
        rintro rfl
        rw [hclosed c [] rfl] at hbreak
        cases hbreak
      obtain ⟨lines,hlines⟩ := splitLines_first hne
      rw [hlines,List.cons_append] at hrest
      rw [List.cons_append,splitLines_plain hbreak hrest,splitLines_plain hbreak hlines,
        List.cons_append]

theorem splitLines_unbroken {line : List Char} (hne : line ≠ [])
    (h : line.all (!isBreak ·) = true) : splitLines line = [line] := by
  induction line with
  | nil => contradiction
  | cons c line ih =>
    simp only [List.all_cons,Bool.and_eq_true] at h
    have hc : isBreak c = false := by simpa using h.1
    cases line with
    | nil => simp [splitLines,hc]
    | cons d line => exact splitLines_plain hc (ih (by simp) h.2)

/-- A character that `ensure_ascii` leaves. -/
def printable (c : Char) : Bool := 32 ≤ c.toNat ∧ c.toNat ≤ 126

theorem not_break_of_printable {c : Char} (h : printable c = true) : isBreak c = false := by
  simp only [printable,decide_eq_true_eq] at h
  simp only [isBreak,decide_eq_false_iff_not,List.mem_cons,List.not_mem_nil,or_false]
  omega

theorem printable_hexDigit (n : Nat) : printable (hexDigit (n % 16)) = true := by
  have hall : ∀ d < 16, printable (hexDigit d) = true := by decide
  exact hall _ (Nat.mod_lt n (by omega))

theorem printable_hex4 (n : Nat) : (hex4 n).all printable = true := by
  simp [hex4,printable_hexDigit]

theorem printable_escapeChar (c : Char) : (escapeChar c).all printable = true := by
  have hslash : printable '\\' = true := by decide
  have hu : printable 'u' = true := by decide
  unfold escapeChar
  split
  · decide
  split
  · decide
  split
  · decide
  split
  · decide
  split
  · decide
  split
  · decide
  split
  · decide
  split
  · rename_i h
    simpa [printable] using h
  split
  · simp [hslash,hu,printable_hex4]
  · simp [hslash,hu,printable_hex4]

theorem printable_string (s : String) : (renderString s).all printable = true := by
  have hquote : printable '"' = true := by decide
  have hinner : ((chars s).flatMap escapeChar).all printable = true := by
    rw [List.all_flatMap]
    exact List.all_eq_true.2 fun c _ => printable_escapeChar c
  rw [renderString,List.cons_append,List.all_cons,List.all_append,hinner]
  simp [hquote]

theorem printable_numberChar {c : Char} (h : numberChar c = true) : printable c = true := by
  simp only [numberChar,Bool.or_eq_true,decide_eq_true_eq,List.mem_cons,List.not_mem_nil,
    or_false] at h
  rcases h with h | rfl | rfl | rfl | rfl | rfl
  · simp only [Char.isDigit,Bool.and_eq_true,decide_eq_true_eq] at h
    have hval : c.toNat = c.val.toNat := rfl
    have hlow : 48 ≤ c.val.toNat := by exact_mod_cast h.1
    have hhigh : c.val.toNat ≤ 57 := by exact_mod_cast h.2
    simp only [printable,decide_eq_true_eq]
    omega
  all_goals decide

variable {cs : List Char}

theorem printable_number (h : cs.all numberChar = true) : cs.all printable = true :=
  List.all_eq_true.2 fun c hc => printable_numberChar (List.all_eq_true.1 h c hc)

section
variable {gap : List Char} (hgap : gap.all printable = true)
include hgap

mutual

theorem printable_render : ∀ j : Json, (render gap j).all printable = true
  | .null => by simp [render,printable]
  | .bool true => by simp [render,printable]
  | .bool false => by simp [render,printable]
  | .int n => printable_number (renderInt_number n)
  | .decimal d => printable_number d.number
  | .nan => by simp [render,printable]
  | .infinity => by simp [render,printable]
  | .negInfinity => by simp [render,printable]
  | .str s => printable_string s
  | .list [] => by simp [render,printable]
  | .list (x :: xs) => by
    have hx := printable_render x
    have hxs := printable_renderRest xs
    rw [render,List.all_append,List.all_cons,hx,hxs]
    decide
  | .dict [] => by simp [render,printable]
  | .dict ((k,v) :: items) => by
    have hv := printable_render v
    have hitems := printable_renderItems items
    simp only [render,List.all_append,List.all_cons,printable_string k,hv,hitems,hgap]
    decide

theorem printable_renderRest : ∀ xs : List Json, (renderRest gap xs).all printable = true
  | [] => by simp [renderRest,printable]
  | x :: xs => by
    have hx := printable_render x
    have hxs := printable_renderRest xs
    simp only [renderRest,List.all_append,List.all_cons,hx,hxs,hgap]
    decide

theorem printable_renderItems : ∀ items : List (String × Json),
    (renderItems gap items).all printable = true
  | [] => by simp [renderItems,printable]
  | (k,v) :: items => by
    have hv := printable_render v
    have hitems := printable_renderItems items
    simp only [renderItems,List.all_append,List.all_cons,printable_string k,hv,hitems,hgap]
    decide

end

end

theorem unbroken_of_printable (h : cs.all printable = true) : cs.all (!isBreak ·) = true := by
  rw [List.all_eq_true] at h ⊢
  intro c hc
  simp [not_break_of_printable (h c hc)]

theorem dumps_unbroken (j : Json) : (dumps j).toList.all (!isBreak ·) = true := by
  rw [dumps,String.toList_ofList]
  exact unbroken_of_printable (printable_render (by decide) j.canonical)

theorem bytes_printable (j : Json) : j.bytes.all printable = true :=
  printable_render (by decide) j.canonical

/-- Only quotes, backslashes and control characters are escaped. -/
def rawEscape (c : Char) : List Char :=
  if c = '"' then ['\\','"']
  else if c = '\\' then ['\\','\\']
  else if c = '\n' then ['\\','n']
  else if c = '\r' then ['\\','r']
  else if c = '\t' then ['\\','t']
  else if c.toNat = 8 then ['\\','b']
  else if c.toNat = 12 then ['\\','f']
  else if c.toNat < 32 then '\\' :: 'u' :: hex4 c.toNat
  else [c]

def rawString (s : String) : List Char := '"' :: s.toList.flatMap rawEscape ++ ['"']

/-- The members of a mapping of texts, in the order they come. -/
def rawMembers : List (String × String) → List Char
  | [] => ['}']
  | [(k,v)] => rawString k ++ ':' :: ' ' :: (rawString v ++ ['}'])
  | (k,v) :: items => rawString k ++ ':' :: ' ' :: (rawString v ++ ',' :: ' ' :: rawMembers items)

/-- `json.dumps(items, ensure_ascii=False, sort_keys=True)` of a mapping of texts. -/
def rawDumps (items : List (String × String)) : List Char :=
  '{' :: rawMembers (items.insertionSort (fun a b => decide (a.1 ≤ b.1)))

theorem parseUnits_rawEscape (c : Char) (rest : List Char) :
    parseUnits (rawEscape c ++ rest) = (parseUnits rest).map fun r => (c.toNat :: r.1,r.2) := by
  refine parseUnits_short rest (fun _ => rfl) fun hquote hslash => ?_
  split
  · exact parseUnits_hex4 (by omega) rest
  · exact parseUnits_plain rest hquote hslash

theorem parseUnits_raw (cs rest : List Char) :
    parseUnits (cs.flatMap rawEscape ++ '"' :: rest) = some (cs.map Char.toNat,rest) := by
  induction cs with
  | nil => simp [parseUnits]
  | cons c cs ih =>
    rw [List.flatMap_cons,List.append_assoc,parseUnits_rawEscape,ih]
    rfl

/-- A text that is not closed cannot be read. -/
theorem parseUnits_unclosed (cs : List Char) : parseUnits (cs.flatMap rawEscape) = none := by
  induction cs with
  | nil => simp [parseUnits]
  | cons c cs ih =>
    rw [List.flatMap_cons,parseUnits_rawEscape,ih]
    rfl

theorem joinUnits_raw (cs : List Char) : joinUnits (cs.map Char.toNat) = cs := by
  induction cs with
  | nil => rfl
  | cons c cs ih =>
    have hrange := char_not_surrogate c
    rw [List.map_cons,joinUnits_plain _ (by omega),ih,Char.ofNat_toNat]

theorem parseChars_raw (cs rest : List Char) :
    parseChars (cs.flatMap rawEscape ++ '"' :: rest) = some (cs,rest) := by
  simp [parseChars,parseUnits_raw,joinUnits_raw]

theorem rawMembers_cons (k v : String) (item : String × String) (items : List (String × String)) :
    rawMembers ((k,v) :: item :: items) =
      rawString k ++ ':' :: ' ' :: (rawString v ++ ',' :: ' ' :: rawMembers (item :: items)) := rfl

theorem parseValue_raw (n : Nat) (s : String) (rest : List Char) :
    parseValue (n + 1) (' ' :: (rawString s ++ rest)) = some (.str s,rest) := by
  have hchars := parseChars_raw s.toList rest
  have hskip : skip ('"' :: (s.toList.flatMap rawEscape ++ '"' :: rest)) =
      '"' :: (s.toList.flatMap rawEscape ++ '"' :: rest) := skip_of_not_blank _ (by decide)
  simp [rawString,parseValue,hskip,hchars]

/-- The members of a mapping of texts read back. -/
theorem parseMembers_raw (item : String × String) (items : List (String × String)) (n : Nat)
    (rest : List Char) (hn : items.length < n) :
    parseMembers (n + 1) (rawMembers (item :: items) ++ rest) =
      some ((item :: items).map (fun p => (p.1,.str p.2)),rest) := by
  obtain ⟨k,v⟩ := item
  induction items generalizing k v n with
  | nil =>
    obtain ⟨m,rfl⟩ : ∃ m, n = m + 1 := ⟨n - 1,by omega⟩
    have hk := parseChars_raw k.toList (':' :: ' ' :: (rawString v ++ '}' :: rest))
    have hv := parseValue_raw m v ('}' :: rest)
    have hkey : rawMembers [(k,v)] ++ rest =
        '"' :: (k.toList.flatMap rawEscape ++ '"' :: ':' :: ' ' :: (rawString v ++ '}' :: rest)) := by
      simp [rawMembers,rawString]
    rw [hkey,parseMembers,skip_of_not_blank _ (by decide)]
    simp [hk,hv,skip_of_not_blank,blank]
  | cons item items ih =>
    obtain ⟨m,rfl⟩ : ∃ m, n = m + 1 := ⟨n - 1,by omega⟩
    have hk := parseChars_raw k.toList (':' :: ' ' :: (rawString v ++ ',' :: ' ' ::
      (rawMembers (item :: items) ++ rest)))
    have hv := parseValue_raw m v (',' :: ' ' :: (rawMembers (item :: items) ++ rest))
    have hitems := ih m (by simp at hn; omega) item.1 item.2
    have hspace : parseMembers (m + 1) (' ' :: (rawMembers (item :: items) ++ rest)) =
        parseMembers (m + 1) (rawMembers (item :: items) ++ rest) :=
      gap_space.parseMembers (m + 1) _
    have hkey : rawMembers ((k,v) :: item :: items) ++ rest =
        '"' :: (k.toList.flatMap rawEscape ++ '"' :: ':' :: ' ' :: (rawString v ++ ',' :: ' ' ::
          (rawMembers (item :: items) ++ rest))) := by
      simp [rawMembers_cons,rawString]
    rw [hkey,parseMembers,skip_of_not_blank _ (by decide)]
    simp [hk,hv,skip_of_not_blank,blank,hspace,hitems]

variable {items : List (String × String)}

/-- The mapping reads back, its members sorted. -/
theorem loads_rawDumps (h : items ≠ []) : loads (String.ofList (rawDumps items)) =
      some (.dict ((items.insertionSort (fun a b => decide (a.1 ≤ b.1))).map
        fun p => (p.1,.str p.2))) := by
  have hperm := List.perm_insertionSort (fun a b : String × String => decide (a.1 ≤ b.1)) items
  cases hsorted : items.insertionSort (fun a b : String × String => decide (a.1 ≤ b.1)) with
  | nil =>
    rw [hsorted] at hperm
    exact absurd hperm.symm.eq_nil h
  | cons item rest =>
    have hlength : ∀ l : List (String × String), l.length < (rawMembers l).length := by
      intro l
      induction l with
      | nil => simp [rawMembers]
      | cons p l ih =>
        obtain ⟨k,v⟩ := p
        cases l with
        | nil => simp [rawMembers,rawString]
        | cons q l =>
          rw [rawMembers_cons]
          simp only [List.length_append,List.length_cons] at ih ⊢
          omega
    have hmembers := parseMembers_raw item rest (rawMembers (item :: rest)).length [] (by
      have hl := hlength (item :: rest)
      simp only [List.length_cons] at hl
      omega)
    rw [List.append_nil] at hmembers
    have hstart : ∃ cs, rawMembers (item :: rest) = '"' :: cs := by
      obtain ⟨k,v⟩ := item
      cases rest <;> exact ⟨_,rfl⟩
    obtain ⟨cs,hcs⟩ := hstart
    have htext : rawDumps items = '{' :: rawMembers (item :: rest) := by rw [rawDumps,hsorted]
    rw [hcs] at hmembers htext
    have hvalue := parseValue_dict hmembers
    simp only [loads,htext,String.toList_ofList,String.length_ofList]
    have hfuel : ('{' :: '"' :: cs).length + 1 = ('"' :: cs).length + 1 + 1 := rfl
    rw [hfuel,hvalue]
    simp [skip]

/-- The character is left as it is, and ends the line. -/
def splits (c : Char) : Bool := (rawEscape c).any isBreak

theorem escape_or_self (c : Char) : (rawEscape c).all printable = true ∨ rawEscape c = [c] := by
  have hslash : printable '\\' = true := by decide
  have hu : printable 'u' = true := by decide
  unfold rawEscape
  split
  · exact .inl (by decide)
  split
  · exact .inl (by decide)
  split
  · exact .inl (by decide)
  split
  · exact .inl (by decide)
  split
  · exact .inl (by decide)
  split
  · exact .inl (by decide)
  split
  · exact .inl (by decide)
  split
  · exact .inl (by simp [hslash,hu,printable_hex4])
  · exact .inr rfl

theorem splits_iff (c : Char) : splits c = true ↔ rawEscape c = [c] ∧ isBreak c = true := by
  unfold splits
  rcases escape_or_self c with hprint | hself
  · have hnone : (rawEscape c).any isBreak = false := by
      rw [List.any_eq_false]
      intro d hd
      simp [not_break_of_printable (List.all_eq_true.1 hprint d hd)]
    constructor
    · intro h
      rw [hnone] at h
      cases h
    · rintro ⟨hself,hbreak⟩
      rw [hself] at hnone
      simp [hbreak] at hnone
  · simp [hself]

theorem first_clean (rest : List Char) (h : cs.any splits = false) :
    (cs.flatMap rawEscape ++ rest).takeWhile (!isBreak ·) =
      cs.flatMap rawEscape ++ rest.takeWhile (!isBreak ·) := by
  apply List.takeWhile_append_of_pos
  intro d hd
  obtain ⟨c,hc,hd⟩ := List.mem_flatMap.1 hd
  have hclean := List.any_eq_false.1 h c hc
  unfold splits at hclean
  rw [Bool.not_eq_true,List.any_eq_false] at hclean
  simpa using hclean d hd

/-- A text with such a character is not closed on its first line. -/
theorem first_cut (rest : List Char) (h : cs.any splits = true) :
    ∃ pre : List Char, (cs.flatMap rawEscape ++ rest).takeWhile (!isBreak ·) = pre.flatMap rawEscape := by
  induction cs with
  | nil => simp at h
  | cons c cs ih =>
    cases hc : splits c with
    | true =>
      obtain ⟨hself,hbreak⟩ := (splits_iff c).1 hc
      refine ⟨[],?_⟩
      rw [List.flatMap_cons,hself]
      simp [hbreak]
    | false =>
      rw [List.any_cons,hc,Bool.false_or] at h
      obtain ⟨pre,hpre⟩ := ih h
      refine ⟨c :: pre,?_⟩
      have hone : [c].any splits = false := by simp [hc]
      have hfirst := first_clean (cs.flatMap rawEscape ++ rest) hone
      rw [List.flatMap_singleton] at hfirst
      rw [List.flatMap_cons,List.append_assoc,hfirst,hpre,List.flatMap_cons]

theorem not_break_plain : isBreak '"' = false ∧ isBreak ':' = false ∧ isBreak ' ' = false ∧
    isBreak ',' = false ∧ isBreak '{' = false ∧ isBreak '}' = false := by decide

theorem rawString_append (s : String) (rest : List Char) :
    rawString s ++ rest = '"' :: (s.toList.flatMap rawEscape ++ '"' :: rest) := by
  simp [rawString]

theorem firstString_clean {s : String} (rest : List Char) (h : s.toList.any splits = false) :
    (rawString s ++ rest).takeWhile (!isBreak ·) =
      '"' :: (s.toList.flatMap rawEscape ++ '"' :: rest.takeWhile (!isBreak ·)) := by
  rw [rawString_append,List.takeWhile_cons_of_pos (by simp [not_break_plain]),first_clean _ h,
    List.takeWhile_cons_of_pos (by simp [not_break_plain])]

theorem firstString_cut {s : String} (rest : List Char) (h : s.toList.any splits = true) :
    ∃ pre : List Char, (rawString s ++ rest).takeWhile (!isBreak ·) =
      '"' :: pre.flatMap rawEscape := by
  obtain ⟨pre,hpre⟩ := first_cut ('"' :: rest) h
  refine ⟨pre,?_⟩
  rw [rawString_append,List.takeWhile_cons_of_pos (by simp [not_break_plain]),hpre]

theorem parseChars_unclosed (cs : List Char) : parseChars (cs.flatMap rawEscape) = none := by
  simp [parseChars,parseUnits_unclosed]

theorem parseValue_unclosed (n : Nat) (cs : List Char) :
    parseValue n (' ' :: '"' :: cs.flatMap rawEscape) = none := by
  cases n with
  | zero => rfl
  | succ n =>
    have hskip : skip ('"' :: cs.flatMap rawEscape) = '"' :: cs.flatMap rawEscape :=
      skip_of_not_blank _ (by decide)
    simp [parseValue,hskip,parseChars_unclosed]

/-- The members cannot be read from the first line alone. -/
theorem parseMembers_cut (items : List (String × String))
    (h : ∃ p ∈ items, p.1.toList.any splits = true ∨ p.2.toList.any splits = true) (n : Nat) :
    parseMembers n ((rawMembers items).takeWhile (!isBreak ·)) = none := by
  induction items generalizing n with
  | nil => simp at h
  | cons item items ih =>
    obtain ⟨k,v⟩ := item
    obtain ⟨rest,hmembers,hrest⟩ : ∃ rest, rawMembers ((k,v) :: items) =
        rawString k ++ ':' :: ' ' :: (rawString v ++ rest) ∧
        (∀ q qs, items = q :: qs → rest = ',' :: ' ' :: rawMembers items) := by
      cases items with
      | nil => exact ⟨['}'],rfl,by simp⟩
      | cons q qs => exact ⟨_,rawMembers_cons k v q qs,fun _ _ _ => rfl⟩
    cases n with
    | zero => rfl
    | succ n =>
      cases hk : k.toList.any splits with
      | true =>
        obtain ⟨pre,hpre⟩ := firstString_cut (':' :: ' ' :: (rawString v ++ rest)) hk
        rw [hmembers,hpre,parseMembers,skip_of_not_blank _ (by decide)]
        simp [parseChars_unclosed]
      | false =>
        have hkey := parseChars_raw k.toList
        have hcolon : ∀ cs, (':' :: ' ' :: cs).takeWhile (!isBreak ·) =
            ':' :: ' ' :: cs.takeWhile (!isBreak ·) := fun cs => by simp [not_break_plain]
        rw [hmembers,firstString_clean _ hk,hcolon,parseMembers,skip_of_not_blank _ (by decide)]
        cases hv : v.toList.any splits with
        | true =>
          obtain ⟨pre,hpre⟩ := firstString_cut rest hv
          rw [hpre]
          simp [hkey,skip_of_not_blank,blank,parseValue_unclosed]
        | false =>
          obtain ⟨p,hp,hbroken⟩ := h
          have hlater : p ∈ items := by
            rcases List.mem_cons.1 hp with rfl | hlater
            · simp [hk,hv] at hbroken
            · exact hlater
          obtain ⟨q,qs,hitems⟩ := List.exists_cons_of_ne_nil (List.ne_nil_of_mem hlater)
          have hcut := ih ⟨p,hlater,hbroken⟩ n
          have hcomma : (',' :: ' ' :: rawMembers items).takeWhile (!isBreak ·) =
              ',' :: ' ' :: (rawMembers items).takeWhile (!isBreak ·) := by
            simp [not_break_plain]
          have hspace : parseMembers n (' ' :: (rawMembers items).takeWhile (!isBreak ·)) = none := by
            rw [← hcut]
            exact gap_space.parseMembers n _
          rw [firstString_clean _ hv,hrest q qs hitems,hcomma]
          cases n with
          | zero => simp [hkey,skip_of_not_blank,blank,parseValue]
          | succ n =>
            have hvalue := parseValue_raw n v (',' :: ' ' :: (rawMembers items).takeWhile (!isBreak ·))
            rw [rawString_append] at hvalue
            simp [hkey,skip_of_not_blank,blank,hvalue,hspace]

/-- No text of the mapping ends a line. -/
def Unbroken (items : List (String × String)) : Prop :=
  ∀ p ∈ items, p.1.toList.any splits = false ∧ p.2.toList.any splits = false

instance (items : List (String × String)) : Decidable (Unbroken items) := by
  unfold Unbroken
  infer_instance

theorem rawString_unbroken {s : String} (h : s.toList.any splits = false) :
    (rawString s).all (!isBreak ·) = true := by
  have hinner : (s.toList.flatMap rawEscape).all (!isBreak ·) = true := by
    rw [List.all_flatMap,List.all_eq_true]
    intro c hc
    have hclean := List.any_eq_false.1 h c hc
    unfold splits at hclean
    rw [Bool.not_eq_true,List.any_eq_false] at hclean
    exact List.all_eq_true.2 fun d hd => by simpa using hclean d hd
  rw [rawString,List.cons_append,List.all_cons,List.all_append,hinner]
  simp [not_break_plain]

theorem rawMembers_unbroken (items : List (String × String)) (h : Unbroken items) :
    (rawMembers items).all (!isBreak ·) = true := by
  induction items with
  | nil => decide
  | cons item items ih =>
    obtain ⟨k,v⟩ := item
    have hk := rawString_unbroken (h (k,v) (by simp)).1
    have hv := rawString_unbroken (h (k,v) (by simp)).2
    cases items with
    | nil =>
      simp only [rawMembers,List.all_append,List.all_cons,List.all_nil,hk,hv]
      decide
    | cons q qs =>
      have hrest := ih fun p hp => h p (List.mem_cons_of_mem _ hp)
      simp only [rawMembers_cons,List.all_append,List.all_cons,hk,hv,hrest]
      decide

theorem mem_sorted {p : String × String} :
    p ∈ items.insertionSort (fun a b => decide (a.1 ≤ b.1)) ↔ p ∈ items :=
  (List.perm_insertionSort _ items).mem_iff

/-- A mapping whose texts end no line is written on one line. -/
theorem rawDumps_unbroken (h : Unbroken items) : (rawDumps items).all (!isBreak ·) = true := by
  have hmembers := rawMembers_unbroken (items.insertionSort (fun a b => decide (a.1 ≤ b.1)))
    fun p hp => h p (mem_sorted.1 hp)
  rw [rawDumps,List.all_cons,hmembers]
  decide

/-- Any other one cannot be read from its first line. -/
theorem loads_cut (h : ¬ Unbroken items) :
    loads (String.ofList ((rawDumps items).takeWhile (!isBreak ·))) = none := by
  obtain ⟨p,hp,hany⟩ : ∃ p ∈ items, p.1.toList.any splits = true ∨ p.2.toList.any splits = true := by
    by_contra hnone
    apply h
    intro p hp
    constructor
    · by_contra hfirst
      exact hnone ⟨p,hp,.inl (by simpa using hfirst)⟩
    · by_contra hsecond
      exact hnone ⟨p,hp,.inr (by simpa using hsecond)⟩
  have hcut := parseMembers_cut (items.insertionSort (fun a b => decide (a.1 ≤ b.1)))
    ⟨p,mem_sorted.2 hp,hany⟩
  have hsome : items.insertionSort (fun a b => decide (a.1 ≤ b.1)) ≠ [] :=
    List.ne_nil_of_mem (mem_sorted.2 hp)
  obtain ⟨cs,hcs⟩ : ∃ cs, rawMembers (items.insertionSort (fun a b => decide (a.1 ≤ b.1))) =
      '"' :: cs := by
    obtain ⟨q,qs,hq⟩ := List.exists_cons_of_ne_nil hsome
    rw [hq]
    obtain ⟨k,v⟩ := q
    cases qs <;> exact ⟨_,rfl⟩
  have hfirst : (rawDumps items).takeWhile (!isBreak ·) =
      '{' :: '"' :: cs.takeWhile (!isBreak ·) := by
    rw [rawDumps,hcs]
    simp [not_break_plain]
  have hmembers : ∀ n, parseMembers n ('"' :: cs.takeWhile (!isBreak ·)) = none := by
    intro n
    have hn := hcut n
    rw [hcs] at hn
    simpa [not_break_plain] using hn
  have hquote : skip ('"' :: cs.takeWhile (!isBreak ·)) = '"' :: cs.takeWhile (!isBreak ·) :=
    skip_of_not_blank _ (by decide)
  rw [hfirst]
  simp only [loads,String.toList_ofList,String.length_ofList]
  rw [parseValue,skip_of_not_blank _ (by decide)]
  simp [hquote,hmembers]

end AgentCentric.JsonLines

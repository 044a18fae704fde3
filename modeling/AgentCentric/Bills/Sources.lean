import AgentCentric.Bills.BillsAgent
import AgentCentric.Library.Regex

namespace AgentCentric.PdfText
open Regex

def latin1 (bytes : List UInt8) : List Char := bytes.map fun byte => Char.ofNat byte.toNat

def bytesOf (text : List Char) : List UInt8 := text.map fun c => UInt8.ofNat c.toNat

def isZlib : List Char → Bool
  | first :: second :: _ :: _ => first.toNat = 0x78 ∧ second.toNat ∈ [0x01,0x5e,0x9c,0xda]
  | _ => false

def escapes : Char → Option Char
  | 'n' => some '\n'
  | 'r' => some '\r'
  | 't' => some '\t'
  | 'b' => some '\x08'
  | 'f' => some '\x0c'
  | '(' => some '('
  | ')' => some ')'
  | '\\' => some '\\'
  | _ => none

/-- `0o60 <= c <= 0o77`: more characters than the octal digits. -/
def octalLike (c : Char) : Bool := 0o60 ≤ c.toNat ∧ c.toNat ≤ 0o77

/-- `int(digits, 8)`, where it is a byte. -/
def octal (digits : List Char) : Except Raised Char :=
  if digits.all fun c => c.toNat ≤ 0o67 then
    let n := digits.foldl (fun n c => n * 8 + (c.toNat - 0o60)) 0
    if n < 256 then .ok (Char.ofNat n) else .error (.rejected "byte must be in range(0, 256)")
  else .error (.rejected "invalid literal for int() with base 8")

def decodeLiteral : List Char → Except Raised (List Char)
  | [] => .ok []
  | '\\' :: c :: rest =>
    match escapes c,rest with
    | some e,rest => do pure (e :: (← decodeLiteral rest))
    | none,d :: e :: after =>
      if octalLike c ∧ octalLike d ∧ octalLike e then do
        let byte ← octal [c,d,e]
        pure (byte :: (← decodeLiteral after))
      else do pure (c :: (← decodeLiteral (d :: e :: after)))
    | none,rest => do pure (c :: (← decodeLiteral rest))
  | c :: rest => do pure (c :: (← decodeLiteral rest))

/-- The escapes of three digits that are read in a literal. -/
def octals : List Char → List (List Char)
  | [] => []
  | '\\' :: c :: rest =>
    match escapes c,rest with
    | some _,rest => octals rest
    | none,d :: e :: after =>
      if octalLike c ∧ octalLike d ∧ octalLike e then [c,d,e] :: octals after
      else octals (d :: e :: after)
    | none,rest => octals rest
  | _ :: rest => octals rest

/-- What stands in parentheses, and what is after them. -/
def readLiteral : Nat → List Char → List Char × List Char
  | _,[] => ([],[])
  | depth,'\\' :: c :: rest => let r := readLiteral depth rest; ('\\' :: c :: r.1,r.2)
  | depth,'(' :: rest => let r := readLiteral (depth + 1) rest; ('(' :: r.1,r.2)
  | depth,')' :: rest =>
    if depth = 1 then ([],rest)
    else let r := readLiteral (depth - 1) rest; (')' :: r.1,r.2)
  | depth,c :: rest => let r := readLiteral depth rest; (c :: r.1,r.2)

/-- The literals of a stream, no more than `n`. -/
def literals : Nat → List Char → List (List Char)
  | 0,_ => []
  | _,[] => []
  | n + 1,c :: rest =>
    if c = '(' then let r := readLiteral 1 rest; r.1 :: literals n r.2
    else literals n rest

/-- `stream\r?\n(.*?)\r?\nendstream`, where the point is any character -/
def streamRe : Pattern :=
  let word (text : String) : Pattern := .all (text.toList.map fun x => .set (· = x))
  let line : Pattern := .seq (Pattern.set (· = '\r')).optional (.set (· = '\n'))
  .all [word "stream",line,.group 1 (.fewest (.set fun _ => true)),line,word "endstream"]

variable (decompress : List UInt8 → Option (List UInt8))

def blobOf (raw : List Char) : List Char :=
  if isZlib raw then ((decompress (bytesOf raw)).map latin1).getD raw else raw

def documentLiterals (pdf : List UInt8) : List (List Char) :=
  (findAll streamRe (latin1 pdf)).flatMap fun stream =>
    let blob := blobOf decompress (stream.group 1)
    literals blob.length blob

/-- `re.sub(r"\s+", " ", text).strip()`: the words, with a blank between them. -/
def normalised (t : Tables) (text : List Char) : List Char :=
  [' '].intercalate ((text.splitOnP t.space).filter (· ≠ []))

def extractText (t : Tables) (pdf : List UInt8) : Except Raised (List Char) := do
  let chunks ← (documentLiterals decompress pdf).mapM decodeLiteral
  pure (normalised t ([' '].intercalate chunks))

/-- The text is there unless an escape is no byte. -/
def Readable (pdf : List UInt8) : Prop :=
  ∀ literal ∈ documentLiterals decompress pdf, ∀ digits ∈ octals literal,
    ∃ byte, octal digits = .ok byte

theorem returns_cons {x : Except Raised (List Char)} {c : Char} :
    (∃ text, (do pure (c :: (← x)) : Except Raised (List Char)) = .ok text) ↔
      ∃ text, x = .ok text := by
  cases x <;> simp [bind,Except.bind,pure,Except.pure]

theorem decodeLiteral_returns (literal : List Char) : (∃ text, decodeLiteral literal = .ok text) ↔
    ∀ digits ∈ octals literal, ∃ byte, octal digits = .ok byte := by
  fun_induction decodeLiteral literal with
  | case1 => simp [octals]
  | case2 c e rest he ih =>
    rw [returns_cons,ih]
    simp [octals,he]
  | case3 c d e after he hdigits ih =>
    have hoctals : octals ('\\' :: c :: d :: e :: after) = [c,d,e] :: octals after := by
      simp [octals,he,hdigits]
    rw [hoctals,List.forall_mem_cons,← ih]
    cases octal [c,d,e] <;> cases decodeLiteral after <;>
      simp [bind,Except.bind,pure,Except.pure]
  | case4 c d e after he hdigits ih =>
    rw [returns_cons,ih]
    simp [octals,he,hdigits]
  | case5 c rest hrest he ih =>
    rw [returns_cons,ih]
    simp [octals,he]
  | case6 c rest hplain ih =>
    rw [returns_cons,ih]
    simp [octals]

theorem extractText_returns (t : Tables) (pdf : List UInt8) :
    (∃ text, extractText decompress t pdf = .ok text) ↔ Readable decompress pdf := by
  have hchunks : (∃ chunks, (documentLiterals decompress pdf).mapM decodeLiteral = .ok chunks) ↔
      Readable decompress pdf := by
    simp only [Readable,mapM_returns,decodeLiteral_returns]
  rw [← hchunks,extractText]
  cases (documentLiterals decompress pdf).mapM decodeLiteral <;>
    simp [bind,Except.bind,pure,Except.pure]

end AgentCentric.PdfText

namespace AgentCentric.BillsLoop
open Json Regex

section
variable (t : Tables)

def digit : Pattern := .set Char.isDigit

def spaces : Pattern := t.spaces

def maybe (p : Char → Bool) : Pattern := (Pattern.set p).optional

/-- `[0-9]+(?:\.[0-9]{1,2})?` -/
def figure : Pattern :=
  .seq digit.some (Pattern.all [.set (· = '.'),digit,.upTo 1 digit]).optional

/-- `\b(?:total|amount)\s*[:$]?\s*\$?([0-9]+(?:\.[0-9]{1,2})?)\b` -/
def amountRe : Pattern :=
  .all [t.edge,.either (t.literal "total") (t.literal "amount"),spaces t,
    maybe fun c => c = ':' || c = '$',spaces t,maybe (· = '$'),.group 1 figure,t.edge]

/-- `\b(?:due date|due|pay by)\s*[:]?\s*([0-9]{4}-[0-9]{2}-[0-9]{2})\b` -/
def dueRe : Pattern :=
  .all [t.edge,.either (t.literal "due date") (.either (t.literal "due") (t.literal "pay by")),
    spaces t,maybe (· = ':'),spaces t,
    .group 1 (.all [digit,digit,digit,digit,.set (· = '-'),digit,digit,.set (· = '-'),digit,digit]),
    t.edge]

/-- `[A-Za-z0-9&.'\-]` where case is ignored. -/
def nameChar : Pattern :=
  .set fun c => let x := t.lower c
    x.isAlphanum || x ∈ ['&','.','\'','-','ı','ſ']

def nameRe (words : List String) (more : Nat) : Pattern :=
  .seq (nameChar t).some (.upTo more (.all [(Pattern.set t.space).some,
    .notAhead (words.foldr (fun word r => .either (t.literal word) r) (.set fun _ => false)),
    (nameChar t).some]))

/-- `\b(?:from|vendor|billed by)\s*[:.]?\s*(name)` -/
def vendorEmailRe : Pattern :=
  .all [t.edge,.either (t.literal "from") (.either (t.literal "vendor") (t.literal "billed by")),
    spaces t,maybe fun c => c = ':' || c = '.',spaces t,
    .group 1 (nameRe t ["total","amount","due","date"] 2)]

/-- `\b(vendor|from|billed to)\s*[:\-]?\s*(name)` -/
def vendorPdfRe : Pattern :=
  .all [t.edge,.group 1 (.either (t.literal "vendor") (.either (t.literal "from")
      (t.literal "billed to"))),
    spaces t,maybe fun c => c = ':' || c = '-',spaces t,
    .group 2 (nameRe t ["total","amount","due","pay"] 3)]

def found (r : Pattern) (n : Nat) (text : List Char) : Option (List Char) :=
  (search r text).map (·.group n)

def strip (text : List Char) : List Char :=
  ((text.dropWhile t.space).reverse.dropWhile t.space).reverse

end

def ofDigits (digits : List Char) : Nat := Nat.ofDigitChars 10 digits 0

def allDigits (text : List Char) : Bool := text ≠ [] ∧ text.all Char.isDigit

/-- `_parse_money`, on texts with the digits 0 to 9 only. -/
def parseMoney (t : Tables) (value : List Char) : Option Nat :=
  let v := strip t value
  if v.count '.' = 1 then
    let whole := v.takeWhile (· ≠ '.')
    let frac := (v.dropWhile (· ≠ '.')).drop 1
    if frac ≠ [] ∧ frac.length ≤ 2 ∧ allDigits whole ∧ allDigits frac then
      some (ofDigits whole * 100 + ofDigits (frac ++ List.replicate (2 - frac.length) '0'))
    else none
  else if allDigits v then some (ofDigits v)
  else none

/-- The fields of a draft, or nothing where one is missing. -/
structure Parsed where
  vendor : List Char
  amountCents : Option Nat
  dueDate : List Char

namespace Parsed
variable (fields : Parsed)

def draft (id : String) : List (String × Json) :=
  [("id",.str id),("vendor",.str (String.ofList fields.vendor)),
    ("amount_cents",match fields.amountCents with
      | some amount => .int amount
      | none => .null),
    ("due_date",.str (String.ofList fields.dueDate))]

/-- `not vendor or amount_cents is None or not due_date` -/
def incomplete : Bool := fields.vendor = [] || fields.amountCents.isNone || fields.dueDate = []

end Parsed

/-- `f"{subject} {body}"`, where a field that is missing or false is empty. -/
def emailText (message : List (String × Json)) : List Char :=
  let part (key : String) : String :=
    if (get message key).truthy then (get message key).text else ""
  (part "subject" ++ " " ++ part "body").toList

def emailParsed (t : Tables) (text : List Char) : Parsed where
  vendor := ((found (vendorEmailRe t) 1 text).map (strip t)).getD []
  amountCents := (found (amountRe t) 1 text).bind (parseMoney t)
  dueDate := (found (dueRe t) 1 text).getD []

def draftFromEmail (t : Tables) (message : List (String × Json)) : Except String Json := do
  let folder ← expect (textOf (get message "folder"))
    "email message is missing a non-empty 'folder'"
  let messageId ← expect (textOf (get message "id")) "email message is missing a non-empty 'id'"
  let sourcePath := "email://" ++ folder ++ "/" ++ messageId
  let fields := emailParsed t (emailText message)
  require (!fields.incomplete) (sourcePath ++ ": email lacks a complete vendor/amount/due date " ++
    "(fail closed - no draft invented)")
  draftFromIntake (fields.draft (messageId ++ ":" ++ String.ofList fields.dueDate))

/-- What the standard library makes of a text or of bytes. -/
structure Readers where
  tables : Tables
  lower : String → String
  splitLines : String → List String
  intOf : String → Option Int
  csvRows : String → Except String (List (List (Option String × Json)))
  loads : String → Except String Json
  decode : List UInt8 → String
  b64decode : String → Option (List UInt8)
  decompress : List UInt8 → Option (List UInt8)
  floatSum : List Json → Json

namespace Readers
variable (readers : Readers)

def stripped (s : String) : String := String.ofList (strip readers.tables s.toList)

/-- `_draft`: texts become numbers, and lose the blanks around them. -/
def draft (sourcePath : String) (raw : List (String × Json)) : Except String Json :=
  let raw := if (Dict.lookup raw "id").isSome then raw else Dict.insert raw "id" (.str sourcePath)
  let raw := match get raw "amount_cents" with
    | .str s => if readers.stripped s ≠ "" then
        Dict.insert raw "amount_cents" (match readers.intOf s with
          | some n => .int n
          | none => .null)
      else raw
    | _ => raw
  let trim (raw : List (String × Json)) (key : String) : List (String × Json) :=
    match get raw key with
    | .str s => Dict.insert raw key (.str (readers.stripped s))
    | _ => raw
  draftFromIntake (["vendor","due_date"].foldl trim raw)

def extractFromJson (sourcePath content : String) : Except String Json := do
  let data ← (readers.loads content).mapError fun reason =>
    sourcePath ++ ": not valid JSON (" ++ reason ++ ")"
  match data with
  | .dict items => readers.draft sourcePath items
  | _ => .error (sourcePath ++ ": JSON must be an object")

def extractFromCsv (sourcePath content : String) : Except String Json := do
  let rows ← (readers.csvRows content).mapError fun reason =>
    sourcePath ++ ": could not parse CSV (" ++ reason ++ ")"
  match rows with
  | [] => .error (sourcePath ++ ": CSV has no data rows")
  | row :: _ => readers.draft sourcePath (row.foldl (fun raw cell =>
      let key := readers.stripped (cell.1.getD "")
      if key = "" then raw
      else Dict.insert raw key (match cell.2 with
        | .str s => .str (readers.stripped s)
        | other => other)) [])

def extractFromTxt (sourcePath content : String) : Except String Json :=
  readers.draft sourcePath ((readers.splitLines content).foldl (fun raw line =>
    if ':' ∈ line.toList then
      let key := String.ofList (line.toList.takeWhile (· ≠ ':'))
      let value := String.ofList ((line.toList.dropWhile (· ≠ ':')).drop 1)
      Dict.insert raw (readers.lower (readers.stripped key)) (.str (readers.stripped value))
    else raw) [])

def pdfParsed (text : List Char) : Parsed where
  vendor := ((found (vendorPdfRe readers.tables) 2 text).map (strip readers.tables)).getD []
  amountCents := (found (amountRe readers.tables) 1 text).bind (parseMoney readers.tables)
  dueDate := (found (dueRe readers.tables) 1 text).getD []

def extractFromPdf (sourcePath : String) (content : List UInt8) :
    Except Raised (Except String Json) := do
  let text ← PdfText.extractText readers.decompress readers.tables content
  let fields := readers.pdfParsed text
  pure (if fields.incomplete then .error (sourcePath ++ ": PDF embedded text lacks a complete " ++
      "vendor/amount/due date (fail closed - no draft invented)")
    else draftFromIntake (fields.draft sourcePath))

end Readers

inductive Content where
  | text (s : String)
  | bytes (b : List UInt8)

def supportedSuffixes : List String := [".json",".csv",".txt",".pdf"]

def draftFromFile (readers : Readers) (content : Content) (sourcePath : String) :
    Except Raised (Except String Json) :=
  let text := match content with
    | .text s => s
    | .bytes b => readers.decode b
  match supportedSuffixes.find? fun suffix =>
      suffix.toList <:+ (readers.lower sourcePath).toList with
  | none => .ok (.error (sourcePath ++ ": unsupported intake format (expected " ++
      String.intercalate ", " supportedSuffixes ++ ")"))
  | some suffix =>
    if suffix = ".pdf" then
      match content with
      | .bytes b => readers.extractFromPdf sourcePath b
      | .text _ => .ok (.error (sourcePath ++ ": PDF intake requires bytes"))
    else .ok (if suffix = ".json" then readers.extractFromJson sourcePath text
      else if suffix = ".csv" then readers.extractFromCsv sourcePath text
      else readers.extractFromTxt sourcePath text)

/-- `args.get("source_path") or ""` -/
def sourcePathOf (args : List (String × Json)) : Json :=
  if (get args "source_path").truthy then get args "source_path" else .str ""

/-- The message of a `BillsError`, under the name of the task. -/
def rejected (task : Task) (result : Except String Json) : Except String Json :=
  result.mapError fun message => "bills " ++ task.name ++ " rejected: " ++ message

/-- `_op_intake_source`, but for the response. -/
def intakeSource (readers : Readers) (task : Task) (args : List (String × Json)) :
    Except Raised (Except String Json) :=
  match task with
  | .intakeFile =>
    match textOf (sourcePathOf args),get args "content" with
    | none,_ => .ok (.error "bills_intake_file requires 'source_path'")
    | some sourcePath,.str content =>
      (draftFromFile readers (.text content) sourcePath).map (rejected task)
    | _,_ => .ok (.error "bills_intake_file requires 'content' (text)")
  | .intakeEmail =>
    match get args "message" with
    | .dict message => .ok (rejected task (draftFromEmail readers.tables message))
    | _ => .ok (.error "bills_intake_email requires a 'message' dict")
  | _ =>
    match textOf (get args "pdf_b64") with
    | none => .ok (.error "bills_intake_pdf requires 'pdf_b64' (base64 string)")
    | some b64 =>
      match readers.b64decode b64 with
      | none => .ok (.error "bills_intake_pdf has invalid base64")
      | some pdf =>
        match sourcePathOf args with
        | .str sourcePath => (draftFromFile readers (.bytes pdf) sourcePath).map (rejected task)
        | other => .error (.escaped
            ("'" ++ other.typeName ++ "' object has no attribute 'lower'"))

def capabilities (readers : Readers) : Capabilities :=
  ⟨intakeSource readers,projectCalendar readers.floatSum⟩

end AgentCentric.BillsLoop

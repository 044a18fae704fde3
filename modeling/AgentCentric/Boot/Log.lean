import AgentCentric.Boot.Runtime
import AgentCentric.Library.JsonLines
import AgentCentric.Network.Parse

namespace AgentCentric.Boot
open JsonLines

structure TransparencyEntry where
  seq : Nat
  prev : String
  lockHash : String
  keyId : String
  signature : String
  prevHex : isSha256 prev = true
  lockHex : isSha256 lockHash = true
  keyed : keyId ≠ ""
  signed : signature ≠ ""

namespace TransparencyEntry

def new (seq : Int) (prev lockHash keyId signature : String) : Except Raise TransparencyEntry :=
  if seq < 0 then .error (.transparency "transparency entry seq must be non-negative")
  else if hprev : isSha256 prev then
    if hlock : isSha256 lockHash then
      if hkey : keyId = "" then
        .error (.transparency "transparency entry key_id must be non-empty")
      else if hsigned : signature = "" then
        .error (.transparency "transparency entry signature must be non-empty")
      else .ok ⟨seq.toNat,prev,lockHash,keyId,signature,hprev,hlock,hkey,hsigned⟩
    else .error (.transparency "transparency entry lock_hash must be 64-hex")
  else .error (.transparency "transparency entry prev must be 64-hex")

def core (e : TransparencyEntry) : Json :=
  .dict [("seq",.int e.seq),("prev",.str e.prev),("lock_hash",.str e.lockHash),
    ("key_id",.str e.keyId),("signature",.str e.signature)]

def entryHash (codec : Codec) (e : TransparencyEntry) : String :=
  codec.bundleSha256 (encode e.core.compact)

/-- `int(data["seq"])`. An infinity overflows, which is not told as a malformed record. -/
def seqOf : Json → Except Raise Int
  | .infinity => .error (.other "cannot convert float infinity to integer")
  | .negInfinity => .error (.other "cannot convert float infinity to integer")
  | value => expect (value.toInt Network.intOfText) .typeError

def malformed (index : Nat) : Raise → Raise
  | .keyError name => .transparency ("log record " ++ toString index ++ " is malformed: " ++
      pyRepr name)
  | .typeError => .transparency ("log record " ++ toString index ++ " is malformed: ")
  | e => e

def ofFields (items : List (String × Json)) : Except Raise TransparencyEntry := do
  let text (key : String) := ComponentManifest.itemText (.dict items) key
  let seq ← ComponentManifest.item (.dict items) "seq"
  let seq ← seqOf seq
  let prev ← text "prev"
  let lockHash ← text "lock_hash"
  let keyId ← text "key_id"
  let signature ← text "signature"
  new seq prev lockHash keyId signature

def hasSchema (items : List (String × Json)) : Bool :=
  match Dict.lookup items "schema" with
  | some (.str s) => s = "transparency.log/v1"
  | _ => false

def fromLine (line : List Char) (index : Nat) (prev : String) :
    Except Raise TransparencyEntry := do
  let record := "log record " ++ toString index
  let data ← expect (Json.loadsChars line) (.transparency (record ++ " is not JSON"))
  match data with
  | .dict items => do
      require (hasSchema items) (.transparency (record ++ " has a bad schema"))
      let entry ← (ofFields items).mapError (malformed index)
      require (entry.seq = index) (.transparency ("log record out of order: expected seq " ++
        toString index ++ ", got " ++ toString entry.seq))
      require (entry.prev = prev) (.transparency (record ++ " breaks the chain (expected prev " ++
        prev ++ ", got " ++ entry.prev ++ ")"))
      pure entry
  | _ => .error (.transparency (record ++ " has a bad schema"))

end TransparencyEntry

structure TransparencyLog where
  text : Option (List Char)

namespace TransparencyLog
variable (codec : Codec)

def genesis : String := String.ofList (List.replicate 64 '0')

def readLines : Nat → String → List (List Char) → Except Raise (List TransparencyEntry)
  | _, _, [] => .ok []
  | index, prev, raw :: rest => do
      require (¬ raw.all isSpace) (.transparency ("log record " ++ toString index ++ " is blank"))
      let entry ← TransparencyEntry.fromLine raw index prev
      let entries ← readLines (index + 1) (entry.entryHash codec) rest
      pure (entry :: entries)

def read (log : TransparencyLog) : Except Raise (List TransparencyEntry) :=
  match log.text with
  | none => .ok []
  | some text => readLines codec 0 genesis (splitLines text)

def head (entries : List TransparencyEntry) : String :=
  (entries.getLast?.map (TransparencyEntry.entryHash codec)).getD genesis

def invalid (seq : Nat) : Raise → Raise
  | .signature m => .transparency ("log record " ++ toString seq ++ " signature is invalid: " ++ m)
  | e => e

def checkHead (entries : List TransparencyEntry) : Option String → Except Raise Unit
  | none => .ok ()
  | some expected => require (head codec entries = expected) (.transparency
      ("transparency head mismatch (truncation or rewrite): expected " ++ expected ++ ", got " ++
        head codec entries))

/-- `verify` with one verifier for every record. -/
def verify (log : TransparencyLog) (verifier : SignatureVerifier) (expectedHead : Option String) :
    Except Raise (List TransparencyEntry) := do
  let entries ← log.read codec
  forEach (fun e => (verifier (encode e.lockHash) (encode e.signature)).mapError (invalid e.seq))
    entries
  checkHead codec entries expectedHead
  pure entries

/-- Entries that are chained from a position on. -/
inductive Chained : Nat → String → List TransparencyEntry → Prop where
  | nil (index : Nat) (prev : String) : Chained index prev []
  | cons {index : Nat} {prev : String} {e : TransparencyEntry} {rest : List TransparencyEntry} :
      e.seq = index → e.prev = prev → Chained (index + 1) (e.entryHash codec) rest →
        Chained index prev (e :: rest)

variable {codec}

theorem fromLine_ok {line : List Char} {index : Nat} {prev : String} {e : TransparencyEntry}
    (h : TransparencyEntry.fromLine line index prev = .ok e) : e.seq = index ∧ e.prev = prev := by
  unfold TransparencyEntry.fromLine at h
  obtain ⟨data,_,h⟩ := bind_ok.mp h
  split at h
  · obtain ⟨_,_,h⟩ := bind_ok.mp h
    obtain ⟨entry,_,h⟩ := bind_ok.mp h
    obtain ⟨_,hseq,h⟩ := bind_ok.mp h
    obtain ⟨_,hprev,h⟩ := bind_ok.mp h
    cases h
    exact ⟨by simpa using hseq,by simpa using hprev⟩
  · cases h

theorem readLines_chained {lines : List (List Char)} {index : Nat} {prev : String}
    {entries : List TransparencyEntry} (h : readLines codec index prev lines = .ok entries) :
    Chained codec index prev entries := by
  induction lines generalizing index prev entries with
  | nil =>
    cases h
    exact .nil index prev
  | cons raw rest ih =>
    simp only [readLines] at h
    obtain ⟨_,_,h⟩ := bind_ok.mp h
    obtain ⟨e,he,h⟩ := bind_ok.mp h
    obtain ⟨es,hes,h⟩ := bind_ok.mp h
    cases h
    obtain ⟨hseq,hprev⟩ := fromLine_ok he
    exact .cons hseq hprev (ih hes)

structure Verified (codec : Codec) (log : TransparencyLog) (verifier : SignatureVerifier)
    (expectedHead : Option String) (entries : List TransparencyEntry) : Prop where
  read : log.read codec = .ok entries
  chained : Chained codec 0 genesis entries
  accepted : ∀ e ∈ entries, verifier (encode e.lockHash) (encode e.signature) = .ok ()
  head : ∀ expected ∈ expectedHead, head codec entries = expected

theorem verify_ok {log : TransparencyLog} {verifier : SignatureVerifier}
    {expectedHead : Option String} {entries : List TransparencyEntry}
    (h : log.verify codec verifier expectedHead = .ok entries) :
    Verified codec log verifier expectedHead entries := by
  unfold verify at h
  obtain ⟨es,hread,h⟩ := bind_ok.mp h
  obtain ⟨_,hsigned,h⟩ := bind_ok.mp h
  obtain ⟨_,hhead,h⟩ := bind_ok.mp h
  cases h
  refine ⟨hread,?_,fun e he => mapError_ok.mp (forEach_ok.mp hsigned e he),?_⟩
  · unfold read at hread
    split at hread
    · cases hread
      exact .nil 0 genesis
    · exact readLines_chained hread
  · intro expected hexpected
    rw [Option.mem_def] at hexpected
    subst hexpected
    simpa [checkHead] using hhead

end TransparencyLog
end AgentCentric.Boot

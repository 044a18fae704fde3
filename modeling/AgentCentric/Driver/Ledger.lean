import AgentCentric.Library.Checked
import AgentCentric.Library.Names

namespace AgentCentric.Durable

/-- What a driver raises: a `StoreError`, or a `RuntimeError`. -/
inductive DriverRaise where
  | store (message : String)
  | runtime (message : String)
  deriving DecidableEq

/-- A row of the table `directives`. -/
structure LedgerRow where
  seq : Nat
  correlationId : String
  kind : String
  payload : String
  response : Option String
  child : Bool

/-- A directive as `all` tells it. -/
structure Recorded where
  seq : Nat
  correlationId : String
  kind : String
  payload : Json
  response : Option Json
  child : Bool

/-- The rows, in the order they were written, and the number of the last one. -/
structure DirectiveLedger where
  rows : List LedgerRow
  seq : Nat

namespace DirectiveLedger

/-- `open`: the numbers go on where the rows end. -/
def reopen (rows : List LedgerRow) : DirectiveLedger :=
  ⟨rows,(rows.map LedgerRow.seq).foldr max 0⟩

/-- Numbers and correlation ids are unique. The number is spent also where the row is refused. -/
def append (ledger : DirectiveLedger) (correlationId kind : String) (payload : Json)
    (child : Bool) : Except DriverRaise Nat × DirectiveLedger :=
  let seq := ledger.seq + 1
  if seq ∈ ledger.rows.map LedgerRow.seq ∨ correlationId ∈ ledger.rows.map LedgerRow.correlationId
  then (.error (.store ("correlation id " ++ pyRepr correlationId ++
      " already in the directive ledger (a directive is append-once)")),⟨ledger.rows,seq⟩)
  else (.ok seq,⟨ledger.rows ++ [⟨seq,correlationId,kind,payload.dumps,none,child⟩],seq⟩)

def setOutcome (ledger : DirectiveLedger) (correlationId : String) (outcome : Json) :
    DirectiveLedger :=
  ⟨ledger.rows.map fun row =>
    if row.correlationId = correlationId then { row with response := some outcome.dumps } else row,
    ledger.seq⟩

end DirectiveLedger

/-- `_loads`. -/
def loadResponse : Option String → Option (Option Json)
  | none => some none
  | some text => (Json.loads text).map some

def LedgerRow.load (row : LedgerRow) : Option Recorded := do
  let payload ← Json.loads row.payload
  let response ← loadResponse row.response
  pure ⟨row.seq,row.correlationId,row.kind,payload,response,row.child⟩

/-- `ORDER BY seq`. -/
def DirectiveLedger.all (ledger : DirectiveLedger) : Option (List Recorded) :=
  (ledger.rows.insertionSort fun a b => a.seq ≤ b.seq).mapM LedgerRow.load

/-- A call to a driver that goes through its ledger. -/
inductive Call where
  /-- `_roundtrip`. `refused`: the peer may not issue it. `answer`: the outcome, where there is a
  response. -/
  | roundtrip (kind : String) (payload : Json) (stem : String) (refused : Bool)
    (answer : Option Json)
  | configureChild (payload : Json)

structure CbpDriver where
  seq : Nat
  ledger : DirectiveLedger

namespace CbpDriver

/-- `__init__`: the ledger is opened again, the directives are numbered from the start. -/
def new (rows : List LedgerRow) : CbpDriver := ⟨0,.reopen rows⟩

def correlation (driver : CbpDriver) (stem : String) : String × CbpDriver :=
  (stem ++ "-" ++ toString (driver.seq + 1),⟨driver.seq + 1,driver.ledger⟩)

def roundtrip (driver : CbpDriver) (kind : String) (payload : Json) (stem : String)
    (refused : Bool) (answer : Option Json) : Except DriverRaise (Option Json) × CbpDriver :=
  let (correlationId,driver) := driver.correlation stem
  if refused then (.error (.runtime "per-peer authorization refused: "),driver)
  else
    match driver.ledger.append correlationId kind payload false with
    | (.error e,ledger) => (.error e,⟨driver.seq,ledger⟩)
    | (.ok _,ledger) =>
      match answer with
      | some outcome => (.ok (some outcome),⟨driver.seq,ledger.setOutcome correlationId outcome⟩)
      | none => (.error (.runtime ("no response from root for " ++ pyRepr stem ++
          " after 5 attempts")),⟨driver.seq,ledger⟩)

def configureChild (driver : CbpDriver) (payload : Json) :
    Except DriverRaise (Option Json) × CbpDriver :=
  let (correlationId,driver) := driver.correlation "configure-child"
  match driver.ledger.append correlationId "configure" payload true with
  | (.error e,ledger) => (.error e,⟨driver.seq,ledger⟩)
  | (.ok _,ledger) => (.ok none,⟨driver.seq,ledger⟩)

def call (driver : CbpDriver) : Call → Except DriverRaise (Option Json) × CbpDriver
  | .roundtrip kind payload stem refused answer =>
    driver.roundtrip kind payload stem refused answer
  | .configureChild payload => driver.configureChild payload

def session : CbpDriver → List Call → List (Except DriverRaise (Option Json)) × CbpDriver
  | driver, [] => ([],driver)
  | driver, c :: calls =>
    let first := driver.call c
    let rest := session first.2 calls
    (first.1 :: rest.1,rest.2)

def sessions : List LedgerRow → List (List Call) →
    List (Except DriverRaise (Option Json)) × List LedgerRow
  | rows, [] => ([],rows)
  | rows, calls :: later =>
    let first := session (new rows) calls
    let rest := sessions first.2.ledger.rows later
    (first.1 ++ rest.1,rest.2)

end CbpDriver

namespace Call

def stem : Call → String
  | .roundtrip _ _ stem _ _ => stem
  | .configureChild _ => "configure-child"

def refused : Call → Bool
  | .roundtrip _ _ _ refused _ => refused
  | .configureChild _ => false

def recorded (seq number : Nat) : Call → Recorded
  | .roundtrip kind payload stem _ answer =>
    ⟨seq,stem ++ "-" ++ toString number,kind,payload.canonical,answer.map Json.canonical,false⟩
  | .configureChild payload =>
    ⟨seq,"configure-child" ++ "-" ++ toString number,"configure",payload.canonical,none,true⟩

end Call

/-- The directives that a session issues. What the peer may not issue is counted, not recorded. -/
def issued : Nat → Nat → List Call → List Recorded
  | _, _, [] => []
  | seq, number, c :: calls =>
    if c.refused then issued seq (number + 1) calls
    else c.recorded (seq + 1) (number + 1) :: issued (seq + 1) (number + 1) calls

def history : Nat → List (List Call) → List Recorded
  | _, [] => []
  | seq, calls :: later =>
    issued seq 0 calls ++ history (seq + (issued seq 0 calls).length) later

structure Faithful (calls : List (List Call)) : Prop where
  appended : ∀ r ∈ (CbpDriver.sessions [] calls).1, ∀ message, r ≠ .error (.store message)
  told : (DirectiveLedger.reopen (CbpDriver.sessions [] calls).2).all = some (history 0 calls)

/-- No two sessions issue directives of one kind of name at the same place. -/
def Apart (calls : List (List Call)) : Prop :=
  calls.Pairwise fun earlier later => ∀ (n : Nat) (c d : Call), earlier[n]? = some c →
    later[n]? = some d → c.refused = false → d.refused = false → c.stem ≠ d.stem

/-- A response that is no refusal by the ledger. -/
def NotStore (r : Except DriverRaise (Option Json)) : Prop := ∀ message, r ≠ .error (.store message)

namespace Call

def id (number : Nat) (c : Call) : String := c.stem ++ "-" ++ toString number

def row (seq number : Nat) : Call → LedgerRow
  | .roundtrip kind payload stem _ answer =>
    ⟨seq,stem ++ "-" ++ toString number,kind,payload.dumps,answer.map Json.dumps,false⟩
  | .configureChild payload =>
    ⟨seq,"configure-child" ++ "-" ++ toString number,"configure",payload.dumps,none,true⟩

theorem row_seq (seq number : Nat) (c : Call) : (c.row seq number).seq = seq := by
  cases c <;> rfl

theorem row_correlationId (seq number : Nat) (c : Call) :
    (c.row seq number).correlationId = c.id number := by
  cases c <;> rfl

theorem row_load (seq number : Nat) (c : Call) :
    (c.row seq number).load = some (c.recorded seq number) := by
  cases c with
  | roundtrip kind payload stem refused answer =>
    cases answer <;> simp [row,LedgerRow.load,loadResponse,recorded,Json.loads_dumps]
  | configureChild payload => simp [row,LedgerRow.load,loadResponse,recorded,Json.loads_dumps]

theorem id_inj {c d : Call} {m n : Nat} (h : c.id m = d.id n) : c.stem = d.stem ∧ m = n := by
  have hcongr := congrArg String.toList h
  exact numbered_inj (c := '-') (by decide) (by simpa [id] using hcongr)

end Call

def issuedRows : Nat → Nat → List Call → List LedgerRow
  | _, _, [] => []
  | seq, number, c :: calls =>
    if c.refused then issuedRows seq (number + 1) calls
    else c.row (seq + 1) (number + 1) :: issuedRows (seq + 1) (number + 1) calls

theorem issuedRows_load (seq number : Nat) (calls : List Call) :
    (issuedRows seq number calls).mapM LedgerRow.load = some (issued seq number calls) := by
  induction calls generalizing seq number with
  | nil => rfl
  | cons c calls ih =>
    rw [issuedRows,issued]
    split
    · exact ih seq (number + 1)
    · rw [List.mapM_cons,c.row_load,ih]
      rfl

theorem issuedRows_length (seq number : Nat) (calls : List Call) :
    (issuedRows seq number calls).length = (issued seq number calls).length := by
  induction calls generalizing seq number with
  | nil => rfl
  | cons c calls ih =>
    rw [issuedRows,issued]
    split
    · exact ih seq (number + 1)
    · rw [List.length_cons,List.length_cons,ih]

structure Sound (ledger : DirectiveLedger) : Prop where
  numbered : ledger.rows.map LedgerRow.seq = List.range' 1 ledger.rows.length
  last : ledger.seq = ledger.rows.length
  unique : (ledger.rows.map LedgerRow.correlationId).Nodup

namespace DirectiveLedger
variable {ledger : DirectiveLedger}

def ids (ledger : DirectiveLedger) : List String := ledger.rows.map LedgerRow.correlationId

theorem reopen_rows (h : Sound ledger) : reopen ledger.rows = ledger := by
  rw [reopen,h.numbered,foldr_max_numbered,← h.last]

theorem append_known (correlationId kind : String) (payload : Json) (child : Bool)
    (h : correlationId ∈ ledger.ids) :
    ∃ message after, ledger.append correlationId kind payload child =
      (.error (.store message),after) := by
  have hknown : correlationId ∈ ledger.rows.map LedgerRow.correlationId := h
  rw [append,if_pos (Or.inr hknown)]
  exact ⟨_,_,rfl⟩

theorem append_new (h : Sound ledger) {correlationId : String} (kind : String) (payload : Json)
    (child : Bool) (hnew : correlationId ∉ ledger.ids) :
    ledger.append correlationId kind payload child = (.ok (ledger.seq + 1),
      ⟨ledger.rows ++ [⟨ledger.seq + 1,correlationId,kind,payload.dumps,none,child⟩],
        ledger.seq + 1⟩) := by
  have hseq : ledger.seq + 1 ∉ ledger.rows.map LedgerRow.seq := by
    rw [h.numbered,h.last,List.mem_range']
    rintro ⟨i,hi,heq⟩
    omega
  have hid : correlationId ∉ ledger.rows.map LedgerRow.correlationId := hnew
  rw [append,if_neg (not_or.2 ⟨hseq,hid⟩)]

theorem sound_concat (h : Sound ledger) {row : LedgerRow} (hseq : row.seq = ledger.seq + 1)
    (hnew : row.correlationId ∉ ledger.ids) : Sound ⟨ledger.rows ++ [row],ledger.seq + 1⟩ where
  numbered := by
    simp [h.numbered,hseq,h.last,List.range'_concat,Nat.add_comm]
  last := by simp [h.last]
  unique := by
    rw [List.map_append,List.nodup_append]
    refine ⟨h.unique,by simp,?_⟩
    rintro id hid id' hid' rfl
    rw [List.map_cons,List.map_nil,List.mem_singleton] at hid'
    exact hnew (hid' ▸ hid)

theorem setOutcome_last {rows : List LedgerRow} {row : LedgerRow} {seq : Nat} (outcome : Json)
    (hnew : row.correlationId ∉ rows.map LedgerRow.correlationId) :
    setOutcome ⟨rows ++ [row],seq⟩ row.correlationId outcome =
      ⟨rows ++ [{ row with response := some outcome.dumps }],seq⟩ := by
  have hrows : rows.map (fun r : LedgerRow => if r.correlationId = row.correlationId then
      { r with response := some outcome.dumps } else r) = rows := by
    conv_rhs => rw [← List.map_id rows]
    apply List.map_congr_left
    intro r hr
    have hother : r.correlationId ≠ row.correlationId := by
      intro heq
      exact hnew (heq ▸ List.mem_map_of_mem hr)
    rw [if_neg hother]
    rfl
  rw [setOutcome]
  simp only [List.map_append,hrows,List.map_cons,List.map_nil,if_true]

end DirectiveLedger

namespace CbpDriver
variable {driver : CbpDriver}

theorem call_refused {c : Call} (h : c.refused = true) :
    NotStore (driver.call c).1 ∧ (driver.call c).2 = ⟨driver.seq + 1,driver.ledger⟩ := by
  cases c with
  | roundtrip kind payload stem refused answer =>
    cases h
    exact ⟨fun message => by simp [call,roundtrip,correlation],rfl⟩
  | configureChild payload => cases h

theorem call_known {c : Call} (h : c.refused = false)
    (hknown : c.id (driver.seq + 1) ∈ driver.ledger.ids) : ¬NotStore (driver.call c).1 := by
  intro hstore
  cases c with
  | roundtrip kind payload stem refused answer =>
    cases h
    obtain ⟨message,after,happend⟩ := DirectiveLedger.append_known _ kind payload false hknown
    apply hstore message
    simp only [call,roundtrip,correlation]
    change driver.ledger.append (stem ++ "-" ++ toString (driver.seq + 1)) kind payload false = _
      at happend
    rw [happend]
    rfl
  | configureChild payload =>
    obtain ⟨message,after,happend⟩ := DirectiveLedger.append_known _ "configure" payload true hknown
    apply hstore message
    simp only [call,configureChild,correlation]
    change driver.ledger.append ("configure-child" ++ "-" ++ toString (driver.seq + 1)) "configure"
      payload true = _ at happend
    rw [happend]

theorem call_new {c : Call} (hsound : Sound driver.ledger) (h : c.refused = false)
    (hnew : c.id (driver.seq + 1) ∉ driver.ledger.ids) :
    NotStore (driver.call c).1 ∧ (driver.call c).2 = ⟨driver.seq + 1,
      ⟨driver.ledger.rows ++ [c.row (driver.ledger.seq + 1) (driver.seq + 1)],
        driver.ledger.seq + 1⟩⟩ := by
  cases c with
  | roundtrip kind payload stem refused answer =>
    cases h
    have happend := DirectiveLedger.append_new hsound kind payload false hnew
    change driver.ledger.append (stem ++ "-" ++ toString (driver.seq + 1)) kind payload false = _
      at happend
    simp only [call,roundtrip,correlation]
    rw [happend]
    cases answer with
    | none => exact ⟨fun message => by simp,rfl⟩
    | some outcome =>
      have hlast := @DirectiveLedger.setOutcome_last driver.ledger.rows ⟨driver.ledger.seq + 1,
        stem ++ "-" ++ toString (driver.seq + 1),kind,payload.dumps,none,false⟩
        (driver.ledger.seq + 1) outcome hnew
      exact ⟨fun message => by simp,congrArg (CbpDriver.mk (driver.seq + 1)) hlast⟩
  | configureChild payload =>
    have happend := DirectiveLedger.append_new hsound "configure" payload true hnew
    change driver.ledger.append ("configure-child" ++ "-" ++ toString (driver.seq + 1)) "configure"
      payload true = _ at happend
    simp only [call,configureChild,correlation]
    rw [happend]
    exact ⟨fun message => by simp,rfl⟩

theorem session_appends {calls : List Call} (hsound : Sound driver.ledger) :
    ((∀ r ∈ (session driver calls).1, NotStore r) ↔ ((driver.ledger.rows ++
      issuedRows driver.ledger.seq driver.seq calls).map LedgerRow.correlationId).Nodup) ∧
    ((∀ r ∈ (session driver calls).1, NotStore r) → (session driver calls).2.ledger.rows =
        driver.ledger.rows ++ issuedRows driver.ledger.seq driver.seq calls ∧
      Sound (session driver calls).2.ledger) := by
  induction calls generalizing driver with
  | nil =>
    refine ⟨⟨fun _ => ?_,fun _ r hr => absurd hr List.not_mem_nil⟩,fun _ => ⟨?_,hsound⟩⟩
    · simpa [issuedRows] using hsound.unique
    · simp [session,issuedRows]
  | cons c calls ih =>
    rw [session,issuedRows]
    simp only [List.forall_mem_cons]
    cases hrefused : c.refused with
    | true =>
      obtain ⟨hstore,hafter⟩ := @call_refused driver c hrefused
      rw [if_pos rfl,hafter]
      obtain ⟨hiff,hrows⟩ := @ih ⟨driver.seq + 1,driver.ledger⟩ hsound
      exact ⟨⟨fun h => hiff.1 h.2,fun h => ⟨hstore,hiff.2 h⟩⟩,fun h => hrows h.2⟩
    | false =>
      rw [if_neg (by simp)]
      have hid := c.row_correlationId (driver.ledger.seq + 1) (driver.seq + 1)
      by_cases hknown : c.id (driver.seq + 1) ∈ driver.ledger.ids
      · have hstore := call_known hrefused hknown
        refine ⟨⟨fun h => absurd h.1 hstore,fun h => ?_⟩,fun h => absurd h.1 hstore⟩
        rw [List.map_append,List.nodup_append] at h
        exact absurd rfl (h.2.2 _ hknown _ (by simp [hid]))
      · obtain ⟨hstore,hafter⟩ := call_new hsound hrefused hknown
        rw [hafter]
        have hsound' := DirectiveLedger.sound_concat hsound (c.row_seq _ _) (hid ▸ hknown)
        obtain ⟨hiff,hrows⟩ := @ih ⟨driver.seq + 1,_⟩ hsound'
        simp only [List.append_assoc,List.singleton_append] at hiff hrows
        exact ⟨⟨fun h => hiff.1 h.2,fun h => ⟨hstore,hiff.2 h⟩⟩,fun h => hrows h.2⟩

end CbpDriver

def historyRows : Nat → List (List Call) → List LedgerRow
  | _, [] => []
  | seq, calls :: later =>
    issuedRows seq 0 calls ++ historyRows (seq + (issuedRows seq 0 calls).length) later

theorem historyRows_load (seq : Nat) (calls : List (List Call)) :
    (historyRows seq calls).mapM LedgerRow.load = some (history seq calls) := by
  induction calls generalizing seq with
  | nil => rfl
  | cons first later ih =>
    rw [historyRows,history,List.mapM_append,issuedRows_load,ih,issuedRows_length]
    rfl

namespace CbpDriver

theorem sessions_append {rows : List LedgerRow} {calls : List (List Call)}
    (hsound : Sound ⟨rows,rows.length⟩) : ((∀ r ∈ (sessions rows calls).1, NotStore r) ↔
      ((rows ++ historyRows rows.length calls).map LedgerRow.correlationId).Nodup) ∧
    ((∀ r ∈ (sessions rows calls).1, NotStore r) →
      (sessions rows calls).2 = rows ++ historyRows rows.length calls ∧
      Sound (.reopen (sessions rows calls).2)) := by
  induction calls generalizing rows with
  | nil =>
    have hreopen := DirectiveLedger.reopen_rows hsound
    refine ⟨⟨fun _ => ?_,fun _ r hr => absurd hr List.not_mem_nil⟩,fun _ => ⟨?_,?_⟩⟩
    · simpa [historyRows] using hsound.unique
    · simp [sessions,historyRows]
    · rw [sessions,hreopen]
      exact hsound
  | cons first later ih =>
    have hreopen := DirectiveLedger.reopen_rows hsound
    have hnew : session (new rows) first = session ⟨0,⟨rows,rows.length⟩⟩ first := by
      rw [new,hreopen]
    obtain ⟨hiff,hrows⟩ := @session_appends ⟨0,⟨rows,rows.length⟩⟩ first hsound
    rw [← hnew] at hiff hrows
    simp only [sessions,historyRows,List.forall_mem_append,← List.append_assoc]
    by_cases hfirst : ∀ r ∈ (session (new rows) first).1, NotStore r
    · obtain ⟨hafter,hsound'⟩ := hrows hfirst
      have hlength : (session (new rows) first).2.ledger.rows.length =
          rows.length + (issuedRows rows.length 0 first).length := by
        rw [hafter,List.length_append]
      have hsound'' : Sound ⟨(session (new rows) first).2.ledger.rows,
          (session (new rows) first).2.ledger.rows.length⟩ := by
        rw [← hsound'.last]
        exact hsound'
      obtain ⟨hiff',hrows'⟩ := ih hsound''
      rw [hlength,hafter] at hiff' hrows'
      rw [hafter]
      exact ⟨⟨fun h => hiff'.1 h.2,fun h => ⟨hfirst,hiff'.2 h⟩⟩,fun h => hrows' h.2⟩
    · refine ⟨⟨fun h => absurd h.1 hfirst,fun h => ?_⟩,fun h => absurd h.1 hfirst⟩
      rw [List.map_append] at h
      exact absurd (hiff.2 (List.nodup_append.1 h).1) hfirst

end CbpDriver

theorem mem_issued_ids {id : String} {seq number : Nat} {calls : List Call} :
    id ∈ (issuedRows seq number calls).map LedgerRow.correlationId ↔ ∃ (n : Nat) (c : Call),
      calls[n]? = some c ∧ c.refused = false ∧ id = c.id (number + n + 1) := by
  induction calls generalizing seq number with
  | nil => simp [issuedRows]
  | cons c calls ih =>
    have hrest : ∀ seq', (id ∈ (issuedRows seq' (number + 1) calls).map LedgerRow.correlationId ↔
        ∃ (n : Nat) (d : Call), (c :: calls)[n + 1]? = some d ∧ d.refused = false ∧
          id = d.id (number + (n + 1) + 1)) := by
      intro seq'
      simp only [ih,List.getElem?_cons_succ,show ∀ n, number + 1 + n = number + (n + 1) by omega]
    have hsplit : (∃ (n : Nat) (d : Call), (c :: calls)[n]? = some d ∧ d.refused = false ∧
        id = d.id (number + n + 1)) ↔ (c.refused = false ∧ id = c.id (number + 1)) ∨
        ∃ (n : Nat) (d : Call), (c :: calls)[n + 1]? = some d ∧ d.refused = false ∧
          id = d.id (number + (n + 1) + 1) := by
      constructor
      · rintro ⟨n,d,hd,hrefused,hid⟩
        cases n with
        | zero =>
          cases hd
          exact .inl ⟨hrefused,hid⟩
        | succ n => exact .inr ⟨n,d,hd,hrefused,hid⟩
      · rintro (⟨hrefused,hid⟩ | ⟨n,d,hd,hrefused,hid⟩)
        · exact ⟨0,c,rfl,hrefused,hid⟩
        · exact ⟨n + 1,d,hd,hrefused,hid⟩
    rw [hsplit,issuedRows]
    cases hrefused : c.refused with
    | true => rw [if_pos rfl,hrest]; simp
    | false =>
      rw [if_neg (by simp),List.map_cons,List.mem_cons,c.row_correlationId,hrest]
      simp

theorem issued_ids_nodup (seq number : Nat) (calls : List Call) :
    ((issuedRows seq number calls).map LedgerRow.correlationId).Nodup := by
  induction calls generalizing seq number with
  | nil => exact List.nodup_nil
  | cons c calls ih =>
    rw [issuedRows]
    split
    · exact ih seq (number + 1)
    · rw [List.map_cons,List.nodup_cons]
      refine ⟨?_,ih (seq + 1) (number + 1)⟩
      rw [c.row_correlationId,mem_issued_ids]
      rintro ⟨n,d,_,_,hid⟩
      have hnumber := (Call.id_inj hid).2
      omega

theorem mem_history_ids {id : String} {seq : Nat} {calls : List (List Call)} :
    id ∈ (historyRows seq calls).map LedgerRow.correlationId ↔ ∃ session ∈ calls,
      ∃ (n : Nat) (c : Call), session[n]? = some c ∧ c.refused = false ∧ id = c.id (n + 1) := by
  induction calls generalizing seq with
  | nil => simp [historyRows]
  | cons first later ih =>
    rw [historyRows,List.map_append,List.mem_append,ih,mem_issued_ids,List.exists_mem_cons_iff]
    simp only [Nat.zero_add]

theorem history_ids_nodup (seq : Nat) (calls : List (List Call)) :
    ((historyRows seq calls).map LedgerRow.correlationId).Nodup ↔ Apart calls := by
  induction calls generalizing seq with
  | nil => simp [historyRows,Apart]
  | cons first later ih =>
    have hcons : Apart (first :: later) ↔ (∀ session ∈ later, ∀ (n : Nat) (c d : Call),
        first[n]? = some c → session[n]? = some d → c.refused = false → d.refused = false →
          c.stem ≠ d.stem) ∧ Apart later := List.pairwise_cons
    rw [historyRows,List.map_append,List.nodup_append,ih,hcons]
    constructor
    · rintro ⟨-,hlater,hdisjoint⟩
      refine ⟨fun session hsession n c d hc hd hrefused hrefused' hstem => ?_,hlater⟩
      refine hdisjoint (c.id (n + 1)) (mem_issued_ids.2 ⟨n,c,hc,hrefused,by rw [Nat.zero_add]⟩)
        (d.id (n + 1)) (mem_history_ids.2 ⟨session,hsession,n,d,hd,hrefused',rfl⟩) ?_
      rw [Call.id,Call.id,hstem]
    · rintro ⟨hfirst,hlater⟩
      refine ⟨issued_ids_nodup seq 0 first,hlater,?_⟩
      rintro id hid id' hid' rfl
      obtain ⟨n,c,hc,hrefused,hcid⟩ := mem_issued_ids.1 hid
      obtain ⟨session,hsession,m,d,hd,hrefused',hdid⟩ := mem_history_ids.1 hid'
      obtain ⟨hstem,hnumber⟩ := Call.id_inj (hcid.symm.trans hdid)
      obtain rfl : n = m := by omega
      exact hfirst session hsession n c d hc hd hrefused hrefused' hstem

theorem all_of_sound {ledger : DirectiveLedger} (h : Sound ledger) :
    ledger.all = ledger.rows.mapM LedgerRow.load := by
  have hsorted : ledger.rows.Pairwise fun a b => a.seq ≤ b.seq := by
    have hnumbers : (ledger.rows.map LedgerRow.seq).Pairwise (· ≤ ·) := by
      rw [h.numbered]
      exact (List.pairwise_lt_range' 1).imp fun h => le_of_lt h
    exact List.pairwise_map.1 hnumbers
  rw [DirectiveLedger.all,hsorted.insertionSort_eq]

/-- A ledger that one driver after the other opens takes every directive and tells all of them
exactly if no later driver issues a directive of the same name at the same place. -/
theorem ledger_faithful_iff (calls : List (List Call)) : Faithful calls ↔ Apart calls := by
  have hempty : Sound ⟨[],([] : List LedgerRow).length⟩ := ⟨rfl,rfl,List.nodup_nil⟩
  obtain ⟨hiff,hrows⟩ := @CbpDriver.sessions_append [] calls hempty
  rw [List.nil_append,List.length_nil,history_ids_nodup] at hiff
  constructor
  · intro h
    exact hiff.1 fun r hr => h.appended r hr
  · intro h
    have hall := hiff.2 h
    obtain ⟨hafter,hsound⟩ := hrows hall
    refine ⟨fun r hr => hall r hr,?_⟩
    rw [all_of_sound hsound]
    show (CbpDriver.sessions [] calls).2.mapM LedgerRow.load = _
    rw [hafter,List.nil_append]
    exact historyRows_load 0 calls

namespace Sample

def ping : Call := .roundtrip "ping" (.dict []) "ping" false (some (.str "pong"))

/-- The first directive of a second driver has an id that is in the ledger. -/
theorem second_ping_refused : ¬∀ calls : List (List Call), Faithful calls := by
  intro h
  have hmem : Except.error (.store ("correlation id " ++ pyRepr "ping-1" ++
      " already in the directive ledger (a directive is append-once)")) ∈
      (CbpDriver.sessions [] [[ping],[ping]]).1 := by
    have hresults : (CbpDriver.sessions [] [[ping],[ping]]).1 = [.ok (some (.str "pong")),
        .error (.store ("correlation id " ++ pyRepr "ping-1" ++
          " already in the directive ledger (a directive is append-once)"))] := by
      rfl
    rw [hresults]
    simp
  exact (h _).appended _ hmem _ rfl

end Sample
end AgentCentric.Durable

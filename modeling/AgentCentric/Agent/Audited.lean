import AgentCentric.Agent.Trajectory

namespace AgentCentric.Trajectory
open WriteOnce

structure Entry where
  session : Option Nat
  row : AuditRow

/-- `record` of what is due. That an id is recorded already is no error to the agent. -/
def Due.offer (due : Due) : String × Option Entry :=
  (due.correlationId,due.row.map fun row => ⟨some due.session,row⟩)

/-- A relay is given up where its row cannot be bound: the exception goes through. -/
def Due.Aborted (due : Due) : Prop := due.relayed = true ∧ due.row.isNone = true

structure Entry.Own (entry : Entry) (due : Due) : Prop where
  session : entry.session = some due.session
  fingerprint : entry.row.fingerprint = due.fingerprint
  told : ∀ response, due.outcome = some response →
    entry.row.kind = due.kindOf response ∧ entry.row.Tells response

/-- What is due has an event of its own once it is recorded. -/
def Kept (table : Dict String Entry) (due : Due) : Prop :=
  (due.Aborted ∧ table.get due.correlationId = none) ∨
    ∃ entry, (write table due.offer.1 due.offer.2).get due.correlationId = some entry ∧
      entry.Own due

/-- The outcome is handed to the store, and its error is a text or missing. -/
def Due.Recordable (due : Due) : Prop :=
  due.Aborted ∨ ∃ response, due.recorded = some response ∧ plainError response.error = true

/-- The id is new, and the outcome can be recorded; or the directive was recorded before in this
session, with this outcome. -/
def Covered (initial : Dict String Entry) (earlier : List Due) (due : Due) : Prop :=
  initial.get due.correlationId = none ∧
    match first (earlier.map Due.offer) due.correlationId with
    | none => due.Recordable
    | some entry => entry.Own due

def written (rows : Dict String AuditRow) : Dict String Entry :=
  rows.mapValues fun row => ⟨none,row⟩

theorem get_written {rows : Dict String AuditRow} {key : String} {entry : Entry}
    (h : (written rows).get key = some entry) : entry.session = none := by
  rw [written,Dict.get_mapValues,Option.map_eq_some_iff] at h
  obtain ⟨row,-,rfl⟩ := h
  rfl

theorem Due.own_iff {due : Due} {response : Response} {row : AuditRow}
    (hrecorded : due.recorded = some response) (hrow : due.row = some row) :
    Entry.Own ⟨some due.session,row⟩ due ↔ plainError response.error = true := by
  obtain ⟨houtcome,hsource⟩ := due.same response hrecorded
  have hof : rowOf (due.kindOf response) due.node due.fingerprint response = some row := by
    rw [Due.row,hrecorded] at hrow
    exact hrow
  rw [← rowOf_tells hof hsource]
  constructor
  · intro h
    exact (h.told response houtcome).2
  · intro h
    have hcolumns := hof
    rw [rowOf,Option.map_eq_some_iff] at hcolumns
    obtain ⟨error,-,rfl⟩ := hcolumns
    refine ⟨rfl,rfl,fun response' houtcome' => ?_⟩
    rw [houtcome] at houtcome'
    cases houtcome'
    exact ⟨rfl,h⟩

theorem row_of_plain {due : Due} {response : Response} (hrecorded : due.recorded = some response)
    (hplain : plainError response.error = true) : ∃ row, due.row = some row := by
  have herror : ∃ error, errorColumn response.error = some error := by
    cases he : response.error with
    | null => exact ⟨none,rfl⟩
    | str s => exact ⟨some s,rfl⟩
    | _ =>
      rw [he] at hplain
      cases hplain
  obtain ⟨error,herror⟩ := herror
  rw [Due.row,hrecorded,Option.bind_some,rowOf,herror]
  exact ⟨_,rfl⟩

theorem kept_new {table : Dict String Entry} {due : Due}
    (hnew : table.get due.correlationId = none) : Kept table due ↔ due.Recordable := by
  rw [Kept,Due.offer,get_write,hnew,if_pos rfl,Option.none_or]
  constructor
  · rintro (⟨haborted,-⟩ | ⟨entry,hentry,hown⟩)
    · exact .inl haborted
    · obtain ⟨row,hrow,rfl⟩ := Option.map_eq_some_iff.1 hentry
      obtain ⟨response,hrecorded,-⟩ := Option.bind_eq_some_iff.1 hrow
      exact .inr ⟨response,hrecorded,(Due.own_iff hrecorded hrow).1 hown⟩
  · rintro (haborted | ⟨response,hrecorded,hplain⟩)
    · exact .inl ⟨haborted,rfl⟩
    · obtain ⟨row,hrow⟩ := row_of_plain hrecorded hplain
      exact .inr ⟨_,by rw [hrow]; rfl,(Due.own_iff hrecorded hrow).2 hplain⟩

theorem kept_taken {table : Dict String Entry} {due : Due} {entry : Entry}
    (htaken : table.get due.correlationId = some entry) : Kept table due ↔ entry.Own due := by
  rw [Kept,Due.offer,get_write,htaken,Option.some_or]
  simp

theorem kept_iff_covered (rows : Dict String AuditRow) (earlier : List Due) (due : Due) :
    Kept (writeAll (written rows) (earlier.map Due.offer)) due ↔
      Covered (written rows) earlier due := by
  have hget := get_writeAll (written rows) (earlier.map Due.offer) due.correlationId
  rw [Covered]
  cases hrow : (written rows).get due.correlationId with
  | some entry =>
    rw [hrow,Option.some_or] at hget
    rw [kept_taken hget]
    refine iff_of_false (fun hown => ?_) fun h => Option.some_ne_none _ h.1
    have hsession := hown.session
    rw [get_written hrow] at hsession
    cases hsession
  | none =>
    rw [hrow,Option.none_or] at hget
    cases hfirst : first (earlier.map Due.offer) due.correlationId with
    | none =>
      rw [hfirst] at hget
      rw [kept_new hget]
      simp
    | some entry =>
      rw [hfirst] at hget
      rw [kept_taken hget]
      simp

variable {W : Type}

/-- Whatever is executed or relayed has an event of its own. -/
def AllKept (H : Handler W) (I : Integrity) (path : String) (rows : Dict String AuditRow)
    (life : Life W) (moves : List (Move W)) : Prop :=
  ∀ before due after, dues H I path life moves = before ++ due :: after →
    Kept (writeAll (written rows) (before.map Due.offer)) due

def AllCovered (H : Handler W) (I : Integrity) (path : String) (rows : Dict String AuditRow)
    (life : Life W) (moves : List (Move W)) : Prop :=
  ∀ before due after, dues H I path life moves = before ++ due :: after →
    Covered (written rows) before due

/-- In every history of an agent's sessions, everything has an event of its own exactly if its id is
new and its outcome can be recorded, or if it comes again in its session with the same outcome. -/
theorem audited_iff (H : Handler W) (I : Integrity) (path : String) (rows : Dict String AuditRow)
    (life : Life W) (moves : List (Move W)) :
    AllKept H I path rows life moves ↔ AllCovered H I path rows life moves :=
  forall₄_congr fun before due _ _ => kept_iff_covered rows before due

def root : Agent Unit := .new "root" none []

def granting : Event :=
  .directive ⟨"configure-1",.configure,Dict.empty.set "trajectory" (.str "audit.db")⟩
    ⟨false,.error (.escaped ""),.ok (),.ok none,none⟩

/-- What the second session does first is executed, and not recorded. -/
theorem second_session : ¬∀ rows moves, AllKept Handler.base Integrity.off "audit.db" rows
    ⟨1,root,(),none⟩ moves := by
  intro h
  have hdues : (dues Handler.base Integrity.off "audit.db" ⟨1,root,(),none⟩
      [.event granting,.session root (),.event granting]).map
        (fun due => (due.session,due.correlationId,due.row.isSome)) =
      [(1,"configure-1",true),(2,"configure-1",true)] := by decide +kernel
  obtain ⟨due,rest,hlist,hdue,hrest⟩ := List.map_eq_cons_iff.1 hdues
  obtain ⟨again,rest',hlist',hagain,hnil⟩ := List.map_eq_cons_iff.1 hrest
  rw [List.map_eq_nil_iff.1 hnil] at hlist'
  rw [hlist'] at hlist
  simp only [Prod.mk.injEq] at hdue hagain
  obtain ⟨row,hrow⟩ := Option.isSome_iff_exists.1 hdue.2.2
  have hkept := h .empty _ [due] again [] hlist
  rw [kept_iff_covered,Covered] at hkept
  have hfirst : first ([due].map Due.offer) again.correlationId = some ⟨some 1,row⟩ := by
    rw [List.map_singleton,WriteOnce.first_cons,Due.offer,hdue.2.1,hagain.2.1,hrow,hdue.1]
    rfl
  rw [hfirst] at hkept
  have hsession := hkept.2.session
  rw [hagain.1] at hsession
  exact absurd (Option.some.inj hsession) (by omega)

end AgentCentric.Trajectory

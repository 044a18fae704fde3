import AgentCentric.Bills.Stored

namespace AgentCentric.BillsLoop
open Json Unwinding BillsAgent

/-- The agent and the files of its stores. `place` is the path of the file that the store child has
open. -/
structure Scene (W : Type) where
  agent : BillsAgent W
  files : Dict String Table
  place : Option String
  world : W

def taskOf (d : Directive) : Option Task := Task.ofName (field d.payload "task")

def setupPath (d : Directive) : String := (stringOf (get (opArgs d) "state")).getD ""

namespace Scene
variable {W : Type}

def tableAt (s : Scene W) (path : String) : Table := (s.files.get path).getD Dict.empty

def opened (s : Scene W) (o : Outside) (d : Directive) : Outside :=
  { o with state := o.state.map fun _ => ⟨true,false,s.tableAt (setupPath d)⟩ }

def placeAfter (s : Scene W) (d : Directive) (result : Except Raised Response) : Option String :=
  if taskOf d = some .setup ∧ acknowledged result then some (setupPath d) else s.place

def filesAfter (s : Scene W) (place : Option String) (table : Option Table) : Dict String Table :=
  match place,table with
  | some path,some table => s.files.set path table
  | _,_ => s.files

def step (tools : Capabilities) (s : Scene W) (input : Outside × Directive) :
    Except Raised Response × Scene W :=
  let outcome := s.agent.run input.2 tools (s.opened input.1 input.2) s.world
  let place := s.placeAfter input.2 outcome.result
  (outcome.result,⟨outcome.agent,s.filesAfter place outcome.agent.table,place,outcome.world⟩)

/-- What is stored, in whichever file, is a bill under its id or the rules. -/
def Sound (s : Scene W) : Prop := ∀ path, SoundTable (s.tableAt path)

/-- The store child has what is in its file. -/
def Coherent (s : Scene W) : Prop :=
  ∀ table, s.agent.table = some table → ∃ path, s.place = some path ∧ s.files.get path = some table

def Lasting (s t : Scene W) : Prop :=
  ∀ path key items, key ≠ rulesKey → stored (s.tableAt path) key = some (.dict items) →
    ∃ items', stored (t.tableAt path) key = some (.dict items') ∧
      ∀ field ∈ ["vendor","amount_cents","due_date"], get items' field = get items field

/-- A directive leaves what is stored sound, and only an accept changes vendor, money and date of a
stored bill. -/
def Keeps (tools : Capabilities) (s : Scene W) (input : Outside × Directive) : Prop :=
  s.Sound ∧ (s.step tools input).2.Sound ∧
    (taskOf input.2 ≠ some .accept → taskOf input.2 ≠ some .acceptDeterministic →
      s.Lasting (s.step tools input).2)

end Scene

/-- The fields of a bill, as the registry has them. -/
structure IsDraft (draft : List (String × Json)) : Prop where
  vendor : ∃ vendor, get draft "vendor" = .str vendor
  amount : ∃ cents : Nat, get draft "amount_cents" = .int cents
  due : ∃ date, get draft "due_date" = .str date ∧ (IsoDate.ofText date).isSome

def Filled (draft : List (String × Json)) : Prop :=
  ∀ field ∈ ["vendor","amount_cents","due_date"], (Dict.lookup draft field).isSome

variable {table : Table} {key : String}

namespace BillsAgent
variable {W : Type}

/-- A draft that is filled, with an id that the store child takes, is a bill's, and its id is not
the key of the rules. -/
def TrustedDraft (b : BillsAgent W) (d : Directive) : Prop :=
  ∀ draft key, get (opArgs d) "draft" = .dict draft → get draft "id" = .str key → Filled draft →
    b.Takes key → key ≠ rulesKey ∧ IsDraft draft

def Trusted (b : BillsAgent W) (d : Directive) : Prop :=
  match taskOf d with
  | some .accept => b.TrustedDraft d
  | some .acceptDeterministic => (∃ draft, get (opArgs d) "draft" = .dict draft ∧
      (b.loadRulesFromStore.2.ruleSet.firstMatch draft).isSome) → b.TrustedDraft d
  | some .ruleAdd => ∀ rr id, ruleGiven (opArgs d) = .dict rr → get rr "id" = .str id →
      b.Takes rulesKey → ∃ rule, ruleOf id rr = .ok rule
  | _ => True

variable {b : BillsAgent W} {d : Directive}

theorem filled_of_acceptDraft {draft bill : List (String × Json)}
    (h : acceptDraft draft = .ok bill) : Filled draft ∧ ∃ vendor amount due,
      bill = [("id",get draft "id"),("vendor",vendor),("amount_cents",amount),("due_date",due),
        ("status",.str "open")] ∧ vendor = get draft "vendor" ∧
        amount = get draft "amount_cents" ∧ due = get draft "due_date" := by
  obtain ⟨_,-,h⟩ := bind_ok.mp h
  obtain ⟨id,hid,h⟩ := bind_ok.mp h
  obtain ⟨vendor,hvendor,h⟩ := bind_ok.mp h
  obtain ⟨amount,hamount,h⟩ := bind_ok.mp h
  obtain ⟨due,hdue,h⟩ := bind_ok.mp h
  have hid' := expect_ok.mp hid
  have hvendor' := expect_ok.mp hvendor
  have hamount' := expect_ok.mp hamount
  have hdue' := expect_ok.mp hdue
  constructor
  · intro field hfield
    simp only [List.mem_cons,List.not_mem_nil,or_false] at hfield
    rcases hfield with rfl | rfl | rfl <;> simp_all
  · refine ⟨vendor,amount,due,?_,?_,?_,?_⟩
    · rw [← Except.ok.inj h,get,hid']
      rfl
    · rw [get,hvendor']
      rfl
    · rw [get,hamount']
      rfl
    · rw [get,hdue']
      rfl

theorem isBill_of_acceptDraft {draft bill : List (String × Json)}
    (h : acceptDraft draft = .ok bill) (hdraft : IsDraft draft) (hkey : get bill "id" = .str key) :
    IsBill key bill := by
  obtain ⟨-,vendor,amount,due,rfl,rfl,rfl,rfl⟩ := filled_of_acceptDraft h
  exact ⟨hkey,hdraft.vendor,hdraft.amount,hdraft.due,"open",by decide,rfl⟩

theorem isRule_mem (hsound : SoundTable table) {id : String}
    {rr : List (String × Json)} (hid : get rr "id" = .str id) {rule : Rule}
    (hrule : ruleOf id rr = .ok rule) :
    ∀ value ∈ rulesWith ((stored table rulesKey).getD .null) id rr, IsRule value := by
  intro value hvalue
  rcases List.mem_append.mp hvalue with hkept | hnew
  · have hmem := (List.mem_filter.mp hkept).1
    cases hstored : stored table rulesKey with
    | none =>
      rw [hstored] at hmem
      cases hmem
    | some found =>
      obtain ⟨value',hvalue',hsound'⟩ := hsound rulesKey (row_of_stored hstored)
      rw [SoundValue,if_pos rfl] at hsound'
      obtain ⟨rules,rfl,hrules⟩ := hsound'
      rw [hvalue'] at hmem
      exact hrules value hmem
  · obtain rfl := List.mem_singleton.mp hnew
    exact ⟨rr,id,rule,rfl,hid,hrule⟩

theorem get_marked {current updated : List (String × Json)} {status : String} {note : Json}
    (h : markBillStatus current status note = .ok updated) :
    status ∈ allowedStatuses ∧ get updated "status" = .str status ∧
      ∀ field, field ≠ "status" → field ≠ "note" → get updated field = get current field := by
  obtain ⟨_,hstatus,h⟩ := bind_ok.mp h
  obtain ⟨_,-,h⟩ := bind_ok.mp h
  refine ⟨of_decide_eq_true (require_ok.mp hstatus),?_,?_⟩
  · rw [← Except.ok.inj h]
    split
    · simp [get,Dict.lookup_insert]
    · simp [get,Dict.lookup_insert]
  · intro field hfield hnote
    rw [← Except.ok.inj h]
    split
    · simp [get,Dict.lookup_insert,hfield.symm,hnote.symm]
    · simp [get,Dict.lookup_insert,hfield.symm]

theorem isBill_of_stored (hsound : SoundTable table)
    {items : List (String × Json)} (h : stored table key = some (.dict items)) :
    key ≠ rulesKey ∧ IsBill key items := by
  obtain ⟨value,hvalue,hsoundValue⟩ := hsound key (row_of_stored h)
  obtain rfl := Option.some.inj (hvalue.symm.trans h)
  rw [SoundValue] at hsoundValue
  split at hsoundValue
  · obtain ⟨rules,hrules,-⟩ := hsoundValue
    cases hrules
  · rename_i hkey
    obtain ⟨items',hitems,hbill⟩ := hsoundValue
    obtain rfl := Json.dict.inj hitems
    exact ⟨hkey,hbill⟩

theorem IsBill.canonical_field {items updated : List (String × Json)}
    (h : IsBill key items) {name : String} (hname : name ∈ ["vendor","amount_cents","due_date"])
    (hget : ∀ field, field ≠ "status" → field ≠ "note" → get updated field = get items field) :
    (get updated name).canonical = get items name := by
  simp only [List.mem_cons,List.not_mem_nil,or_false] at hname
  rcases hname with rfl | rfl | rfl
  · obtain ⟨vendor,hvendor⟩ := h.vendor
    rw [hget "vendor" (by decide) (by decide),hvendor]
    rfl
  · obtain ⟨cents,hcents⟩ := h.amount
    rw [hget "amount_cents" (by decide) (by decide),hcents]
    rfl
  · obtain ⟨date,hdate,-⟩ := h.due
    rw [hget "due_date" (by decide) (by decide),hdate]
    rfl

theorem Writes.sound {value : Json} (h : Writes b d key value)
    (htrusted : b.Trusted d) (htakes : b.Takes key) (htable : b.table = some table)
    (hsound : SoundTable table) : SoundValue key value := by
  cases h with
  | accepted draft bill key htask hdraft hbill hkey =>
    obtain ⟨hfilled,vendor,amount,due,hitems,-⟩ := filled_of_acceptDraft hbill
    have hid : get draft "id" = .str key := by
      rw [hitems] at hkey
      exact hkey
    have hgood : b.TrustedDraft d := by
      rw [Trusted] at htrusted
      rcases htask with haccept | ⟨haccept,hmatch⟩
      · rw [taskOf,haccept] at htrusted
        exact htrusted
      · rw [taskOf,haccept] at htrusted
        exact htrusted ⟨draft,hdraft,hmatch⟩
    obtain ⟨hne,hisDraft⟩ := hgood draft key hdraft hid hfilled htakes
    rw [SoundValue,if_neg hne]
    exact ⟨bill,rfl,isBill_of_acceptDraft hbill hisDraft hkey⟩
  | ruled id rr table' htask htable' hrule hid =>
    obtain rfl := Option.some.inj (htable.symm.trans htable')
    rw [Trusted,taskOf,htask] at htrusted
    obtain ⟨rule,hread⟩ := htrusted rr id hrule hid htakes
    rw [SoundValue,if_pos rfl]
    exact ⟨_,rfl,isRule_mem hsound hid hread⟩
  | marked current updated key status note table' htask htable' hcurrent hupdated =>
    obtain rfl := Option.some.inj (htable.symm.trans htable')
    obtain ⟨hne,hbill⟩ := isBill_of_stored hsound hcurrent
    obtain ⟨hallowed,hstatus,hsame⟩ := get_marked hupdated
    rw [SoundValue,if_neg hne]
    refine ⟨updated,rfl,?_,?_,?_,?_,status,hallowed,hstatus⟩
    · rw [hsame "id" (by decide) (by decide)]
      exact hbill.id
    · rw [hsame "vendor" (by decide) (by decide)]
      exact hbill.vendor
    · rw [hsame "amount_cents" (by decide) (by decide)]
      exact hbill.amount
    · rw [hsame "due_date" (by decide) (by decide)]
      exact hbill.due

end BillsAgent

namespace Scene
variable {W : Type} {s : Scene W} {d : Directive}

theorem filesAfter_put {agent : BillsAgent W} (path : String) {w : W}
    (htable : agent.table = some table) :
    let t : Scene W := ⟨agent,s.filesAfter (some path) agent.table,some path,w⟩
    t.Coherent ∧ ∀ other, t.tableAt other = if path = other then table else s.tableAt other := by
  have hfiles : s.filesAfter (some path) agent.table = s.files.set path table := by
    rw [htable]
    rfl
  dsimp only
  rw [hfiles]
  constructor
  · intro table' htable'
    obtain rfl := Option.some.inj (htable.symm.trans htable')
    exact ⟨path,rfl,Dict.get_set_self s.files path table⟩
  · intro other
    rw [tableAt,Dict.get_set]
    split <;> rfl

theorem filesAfter_same {agent : BillsAgent W} {w : W} (hcoherent : s.Coherent)
    (htable : agent.table = s.agent.table) :
    let t : Scene W := ⟨agent,s.filesAfter s.place agent.table,s.place,w⟩
    t.Coherent ∧ ∀ other, t.tableAt other = s.tableAt other := by
  cases htable' : s.agent.table with
  | none =>
    have hnone : agent.table = none := htable.trans htable'
    have hfiles : s.filesAfter s.place agent.table = s.files := by
      rw [hnone]
      cases s.place <;> rfl
    dsimp only
    rw [hfiles]
    refine ⟨fun table h => ?_,fun _ => rfl⟩
    cases hnone.symm.trans h
  | some table =>
    obtain ⟨path,hplace,hfile⟩ := hcoherent table htable'
    obtain ⟨hkept,htables⟩ := filesAfter_put (s := s) path (w := w) (htable.trans htable')
    rw [hplace]
    refine ⟨hkept,fun other => ?_⟩
    rw [htables other]
    split
    · rename_i hpath
      rw [← hpath,tableAt,hfile]
      rfl
    · rfl

/-- What one directive does: the files hold what they held, or the open one has one value more that
the directive writes. -/
theorem step_cases (tools : Capabilities) (o : Outside) (hcoherent : s.Coherent) :
    (s.step tools (o,d)).2.Coherent ∧
      ((∀ path, (s.step tools (o,d)).2.tableAt path = s.tableAt path) ∨
        ∃ path table key value fingerprint, s.agent.table = some table ∧ s.tableAt path = table ∧
          Writes s.agent d key value ∧ s.agent.Takes key ∧
          ∀ other, (s.step tools (o,d)).2.tableAt other =
            if path = other then table.set key ⟨value.dumps,fingerprint⟩ else s.tableAt other) := by
  let outcome := s.agent.run d tools (s.opened o d) s.world
  by_cases hsetup : taskOf d = some .setup
  · have hrun : outcome = s.agent.opSetup d (s.opened o d) s.world (opArgs d) := by
      have htask : Task.ofName (field d.payload "task") = some .setup := hsetup
      simp only [outcome,run,htask]
    have htable := opSetup_table (b := s.agent) (d := d) (s.opened o d) s.world (opArgs d)
    rw [← hrun] at htable
    by_cases hacknowledged : acknowledged outcome.result
    · have hplace : s.placeAfter d outcome.result = some (setupPath d) :=
        if_pos ⟨hsetup,hacknowledged⟩
      rw [if_pos hacknowledged] at htable
      obtain ⟨store,path,hstate,-,hafter⟩ := htable
      have hcontents : store.contents = s.tableAt (setupPath d) := by
        rw [opened] at hstate
        cases hopen : o.state with
        | error e =>
          rw [hopen] at hstate
          cases hstate
        | ok given =>
          rw [hopen] at hstate
          obtain rfl := Except.ok.inj hstate
          rfl
      obtain ⟨hkept,htables⟩ := filesAfter_put (s := s) (setupPath d) (w := outcome.world)
        (hafter.trans (congrArg some hcontents))
      rw [← hplace] at hkept htables
      refine ⟨hkept,.inl fun other => ?_⟩
      refine (htables other).trans ?_
      split
      · rename_i hpath
        rw [hpath]
      · rfl
    · have hplace : s.placeAfter d outcome.result = s.place :=
        if_neg fun h => hacknowledged h.2
      rw [if_neg hacknowledged] at htable
      obtain ⟨hkept,htables⟩ := filesAfter_same (w := outcome.world) hcoherent htable
      rw [← hplace] at hkept htables
      exact ⟨hkept,.inl htables⟩
  · have hplace : s.placeAfter d outcome.result = s.place := if_neg fun h => hsetup h.1
    rcases run_steps (b := s.agent) tools (s.opened o d) s.world hsetup with
      hsame | ⟨key,value,hwrites,table,fingerprint,htable,htakes,hafter⟩
    · obtain ⟨hkept,htables⟩ := filesAfter_same (w := outcome.world) hcoherent hsame
      rw [← hplace] at hkept htables
      exact ⟨hkept,.inl htables⟩
    · obtain ⟨path,hopen,hfile⟩ := hcoherent table htable
      obtain ⟨hkept,htables⟩ := filesAfter_put (s := s) path (w := outcome.world) hafter
      rw [← hopen,← hplace] at hkept htables
      refine ⟨hkept,.inr ⟨path,table,key,value,fingerprint,htable,?_,hwrites,htakes,htables⟩⟩
      rw [tableAt,hfile]
      rfl

theorem lasting_of_same {t : Scene W} (h : ∀ path, t.tableAt path = s.tableAt path) :
    s.Lasting t := by
  intro path key items _ hstored
  exact ⟨items,by rw [h path]; exact hstored,fun _ _ => rfl⟩

theorem lasting_of_put {t : Scene W} {path key fingerprint : String} {value : Json}
    (hsound : s.Sound) (haccept : taskOf d ≠ some .accept)
    (hrule : taskOf d ≠ some .acceptDeterministic) (htable : s.agent.table = some table)
    (hfile : s.tableAt path = table) (hwrites : Writes s.agent d key value)
    (htables : ∀ other, t.tableAt other =
      if path = other then table.set key ⟨value.dumps,fingerprint⟩ else s.tableAt other) :
    s.Lasting t := by
  intro other key' items hkey hstored
  rw [htables other]
  by_cases hpath : path = other
  · rw [if_pos hpath,stored_set]
    rw [← hpath,hfile] at hstored
    by_cases hsame : key = key'
    · rw [if_pos hsame]
      subst hsame
      cases hwrites with
      | accepted draft bill key htask =>
        rcases htask with htask | ⟨htask,-⟩
        · exact absurd htask haccept
        · exact absurd htask hrule
      | ruled => exact absurd rfl hkey
      | marked current updated key status note table' htask htable' hcurrent hupdated =>
        obtain rfl := Option.some.inj (htable.symm.trans htable')
        obtain rfl := Json.dict.inj (Option.some.inj (hstored.symm.trans hcurrent))
        obtain ⟨-,-,hget⟩ := get_marked hupdated
        obtain ⟨-,hbill⟩ := isBill_of_stored (hfile ▸ hsound path) hstored
        refine ⟨sorted updated,congrArg some (canonical_dict updated),fun field hfield => ?_⟩
        rw [get_sorted]
        exact IsBill.canonical_field hbill hfield hget
    · rw [if_neg hsame]
      exact ⟨items,hstored,fun _ _ => rfl⟩
  · rw [if_neg hpath]
    exact ⟨items,hstored,fun _ _ => rfl⟩

theorem step_keeps (tools : Capabilities) (o : Outside) (hcoherent : s.Coherent) (hsound : s.Sound)
    (htrusted : s.agent.Trusted d) : s.Keeps tools (o,d) ∧ (s.step tools (o,d)).2.Coherent := by
  obtain ⟨hkept,hsame | ⟨path,table,key,value,fingerprint,htable,hfile,hwrites,htakes,htables⟩⟩ :=
    step_cases (d := d) tools o hcoherent
  · refine ⟨⟨hsound,fun path => ?_,fun _ _ => lasting_of_same hsame⟩,hkept⟩
    rw [hsame path]
    exact hsound path
  · have hopen : SoundTable table := hfile ▸ hsound path
    refine ⟨⟨hsound,fun other => ?_,fun haccept hrule => ?_⟩,hkept⟩
    · rw [htables other]
      split
      · exact hopen.set (hwrites.sound htrusted htakes htable hopen)
      · exact hsound other
    · exact lasting_of_put hsound haccept hrule htable hfile hwrites htables

/-- In a run whose accepts and rules can be trusted every directive leaves what is stored sound, and
only an accept changes vendor, money and date of a stored bill. -/
theorem runs_sound (tools : Capabilities) (inputs : List (Outside × Directive)) (s : Scene W)
    (hcoherent : s.Coherent) (hsound : s.Sound)
    (htrusted : Along (step tools) (fun s input => s.agent.Trusted input.2) s inputs) :
    Along (step tools) (fun s input => s.Keeps tools input) s inputs ∧
      (after (step tools) s inputs).Sound := by
  have hstep : ∀ (t : Scene W) (input : Outside × Directive), True → t.Coherent ∧ t.Sound →
      t.agent.Trusted input.2 →
      t.Keeps tools input ∧ (step tools t input).2.Coherent ∧ (step tools t input).2.Sound := by
    rintro t ⟨o,d⟩ - ⟨hcoherent,hsound⟩ htrusted
    obtain ⟨hkeeps,hkept⟩ := step_keeps tools o hcoherent hsound htrusted
    exact ⟨hkeeps,hkept,hkeeps.2.1⟩
  obtain ⟨hkeeps,-,hlast⟩ := Along.keeps hstep (fun _ _ => trivial) htrusted ⟨hcoherent,hsound⟩
  exact ⟨hkeeps,hlast⟩

namespace Sample

def tools : Capabilities := ⟨fun _ _ => .ok (.error "none"),fun _ _ _ => .ok .null⟩
def outside : Outside := ⟨false,.ok StateStore.fresh,.ok (),.ok none,none⟩

def start : Scene Unit := ⟨⟨Agent.new "bills" none ["store"],Dict.empty,none⟩,Dict.empty,none,()⟩

def directive (id : String) (task : Task) (args : List (String × Json)) : Outside × Directive :=
  (outside,⟨id,.run,⟨[("task",.str task.name),("args",.dict args)],by simp⟩⟩)

def setup : Outside × Directive :=
  directive "d1" .setup [("state",.str "bills.db"),("store_keys",.list [.str "*"])]

def accept (draft : List (String × Json)) : Outside × Directive :=
  directive "d2" .accept [("draft",.dict draft)]

def bill : List (String × Json) :=
  [("id",.str "b1"),("vendor",.str "WaterCo"),("amount_cents",.int 2000),
    ("due_date",.str "2026-09-01")]

def noBill : List (String × Json) :=
  [("id",.str "b1"),("vendor",.int 5),("amount_cents",.int (-1)),("due_date",.str "soon")]

def paid : Outside × Directive := directive "d3" .markPaid [("id",.str "b1")]

theorem sound : start.Sound := fun _ _ h => by cases h

theorem coherent : start.Coherent := fun _ h => by cases h

end Sample

theorem runs_sound_accepted_and_paid :
    Along (step Sample.tools) (fun s input => s.Keeps Sample.tools input) Sample.start
      [Sample.setup,Sample.accept Sample.bill,Sample.paid] ∧
    (after (step Sample.tools) Sample.start
      [Sample.setup,Sample.accept Sample.bill,Sample.paid]).Sound := by
  refine runs_sound Sample.tools _ Sample.start Sample.coherent Sample.sound
    ⟨trivial,?_,trivial,trivial⟩
  intro draft key hdraft hkey _ _
  obtain rfl : Sample.bill = draft := Json.dict.inj hdraft
  obtain rfl : "b1" = key := Json.str.inj hkey
  exact ⟨by decide,⟨"WaterCo",rfl⟩,⟨2000,rfl⟩,"2026-09-01",rfl,by decide +kernel⟩

/-- The fields of a draft that no intake has made are stored as they are. -/
theorem accept_stores_anything : ¬∀ (tools : Capabilities) (inputs : List (Outside × Directive))
    (s : Scene Unit), s.Coherent → s.Sound →
      Along (step tools) (fun s input => s.Keeps tools input) s inputs := by
  intro h
  obtain ⟨-,⟨-,hsound,-⟩,-⟩ := h Sample.tools [Sample.setup,Sample.accept Sample.noBill]
    Sample.start Sample.coherent Sample.sound
  have hrow : ((((Sample.start.step Sample.tools Sample.setup).2.step Sample.tools
      (Sample.accept Sample.noBill)).2.tableAt "bills.db").get "b1").map StateRow.value =
        some (Json.dict (Sample.noBill ++ [("status",.str "open")])).dumps := by
    decide +kernel
  obtain ⟨row,hget,hvalue⟩ := Option.map_eq_some_iff.mp hrow
  have hstored := hsound "bills.db" "b1" (by rw [hget]; rfl)
  rw [stored,hget,Option.bind_some,hvalue,loads_dumps,canonical_dict] at hstored
  obtain ⟨value,hbill,hsoundValue⟩ := hstored
  obtain rfl := Option.some.inj hbill
  rw [SoundValue,if_neg (by decide)] at hsoundValue
  obtain ⟨items,hitems,hisBill⟩ := hsoundValue
  obtain rfl := Json.dict.inj hitems
  obtain ⟨vendor,hvendor⟩ := hisBill.vendor
  rw [get_sorted] at hvendor
  cases hvendor

end Scene
end AgentCentric.BillsLoop

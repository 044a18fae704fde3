import AgentCentric.Bills.Answers
import Mathlib.Data.List.ReduceOption

namespace AgentCentric.BillsLoop
open Json BillsAgent

namespace BillsAgent
variable {W : Type} {b : BillsAgent W} {d : Directive} {child : StoreAgent W}

theorem filed_table (hfiled : b.Filed) (hstore : b.store = some child) {store : StateStore}
    (hstate : child.base.stateStore = some store) : FiledTable store.contents :=
  hfiled _ (by simp [table,hstore,hstate])

theorem storeGet_returns (hfiled : b.Filed) (hstore : b.store = some child) (key : Json) :
    ∃ found, storeGet d child key = .ok found := by
  have hget : ∃ response, child.base.opStoreGet child.storeKeys
      (childDirective d ":store-get" "store_get" [("key",key)]) = .ok response := by
    rw [Agent.opStoreGet]
    cases hstate : child.base.stateStore with
    | none => exact ⟨_,rfl⟩
    | some store =>
      dsimp only
      split
      · exact ⟨_,rfl⟩
      · rename_i name hname
        split
        · exact ⟨_,rfl⟩
        · cases hconnected : store.connected with
          | false =>
            have hclosed : store.get name = .error .notOpen := by simp [StateStore.get,hconnected]
            rw [hclosed]
            exact ⟨_,rfl⟩
          | true =>
            rw [get_filed hconnected (filed_table hfiled hstore hstate)]
            split
            · rename_i hread
              cases hread
            · rename_i hread
              cases hread
            all_goals exact ⟨_,rfl⟩
  obtain ⟨response,hresponse⟩ := hget
  exact ⟨_,bind_ok.mpr ⟨response,hresponse,rfl⟩⟩

theorem storeGet_some {store : StateStore} (hstate : child.base.stateStore = some store)
    (hconnected : store.connected = true) (hfiled : FiledTable store.contents) {key : String}
    {items : List (String × Json)} (hne : key ≠ "") (hserved : isServed child.storeKeys key = true)
    (hstored : stored store.contents key = some (.dict items)) :
    storeGet d child (.str key) = .ok (some items) := by
  have hargs : opArgs (childDirective d ":store-get" "store_get" [("key",.str key)]) =
      [("key",.str key)] := rfl
  have hlookup : (Dict.lookup [("key",Json.str key)] "key").getD .null = .str key := rfl
  have hname : keyNamed (.str key) = some key := if_neg hne
  rw [storeGet,Agent.opStoreGet,hargs,hlookup,hstate]
  simp only [hname,hserved,not_true_eq_false,if_false,get_filed hconnected hfiled,hstored]
  rfl

theorem storeGet_empty : storeGet d child (.str "") = .ok none := by
  have hargs : opArgs (childDirective d ":store-get" "store_get" [("key",.str "")]) =
      [("key",.str "")] := rfl
  have hlookup : (Dict.lookup [("key",Json.str "")] "key").getD .null = .str "" := rfl
  have hname : keyNamed (.str "") = none := by simp [keyNamed]
  rw [storeGet,Agent.opStoreGet,hargs,hlookup]
  cases child.base.stateStore <;> simp only [hname] <;> rfl

theorem opMarkStatus_answers (hstore : b.store = some child) (hfiled : b.Filed) (task : Task)
    (w : W) (args : List (String × Json)) : b.Answers (b.opMarkStatus d task w args) := by
  rw [opMarkStatus.eq_def]
  split
  · exact (answers_refuse w _ rfl).mpr rfl
  · rename_i id hid
    split
    · exact (answers_refuse w _ rfl).mpr rfl
    · rename_i status hstatus
      rw [hstore]
      dsimp only
      obtain ⟨found,hfound⟩ := @storeGet_returns _ b d child hfiled hstore (.str id)
      rw [hfound]
      cases found with
      | none => exact (answers_refuse w _ rfl).mpr rfl
      | some current =>
        dsimp only
        split
        · exact (answers_refuse w _ rfl).mpr rfl
        · rename_i updated hupdated
          obtain ⟨hrules,-,-,⟨hverified,-⟩ | ⟨hrefused,-,hsame⟩⟩ :=
            @storeSet_cases _ b d _ hstore (.str id) (.dict updated)
          · rw [if_pos hverified]
            exact answers_verified rfl rfl
          · rw [if_neg (by rw [hrefused]; decide)]
            exact (answers_refuse w _ hsame).mpr hrules

def rowRead (d : Directive) (child : StoreAgent W) (key : String) :
    Except Raised (Option (String × Json)) := do
  let items ← storeGet d child (.str key)
  pure (items.map fun items => (key,Json.dict items))

theorem rowRead_ok {key : String} {row : Option (String × Json)} :
    rowRead d child key = .ok row ↔ ∃ items, storeGet d child (.str key) = .ok items ∧
      row = items.map fun items => (key,Json.dict items) := by
  rw [rowRead,bind_ok]
  exact ⟨fun ⟨items,hitems,h⟩ => ⟨items,hitems,(Except.ok.inj h).symm⟩,
    fun ⟨items,hitems,h⟩ => ⟨items,hitems,congrArg Except.ok h.symm⟩⟩

theorem readAll_cases (hfiled : b.Filed) (hstore : b.store = some child) (keep : String → Bool) :
    (∃ message, readAll d child keep = .ok (.error message)) ∧
      (∀ store, child.base.stateStore = some store → store.connected = false) ∨
    ∃ store registry, child.base.stateStore = some store ∧ store.connected = true ∧
      readAll d child keep = .ok (.ok registry) ∧ ∀ key value, (key,value) ∈ registry ↔
        keep key = true ∧ key ≠ "" ∧ isServed child.storeKeys key = true ∧
          ∃ items, value = .dict items ∧ stored store.contents key = some (.dict items) := by
  rw [readAll,Agent.opStoreKeys]
  cases hstate : child.base.stateStore with
  | none => exact .inl ⟨⟨_,rfl⟩,fun _ h => by cases h⟩
  | some store =>
    cases hconnected : store.connected with
    | false =>
      left
      have hclosed : store.keys = .error .notOpen := by simp [StateStore.keys,hconnected]
      simp only [hclosed]
      refine ⟨⟨_,rfl⟩,fun store' h => ?_⟩
      obtain rfl := Option.some.inj h
      exact hconnected
    | true =>
      right
      have hkeys : store.keys = .ok (store.contents.keys.insertionSort (· ≤ ·)) := by
        simp [StateStore.keys,hconnected]
      have htable := filed_table hfiled hstore hstate
      let served := ((store.contents.keys.insertionSort (· ≤ ·)).filter
        (isServed child.storeKeys)).insertionSort (· ≤ ·)
      have hnames : (served.map Json.str).filterMap stringOf = served := by
        simp [List.filterMap_map,Function.comp_def,stringOf]
      have hrows : ∃ rows, (served.filter keep).mapM (rowRead d child) = .ok rows := by
        refine mapM_returns.mpr fun key _ => ?_
        obtain ⟨items,hitems⟩ := @storeGet_returns _ b d child hfiled hstore (.str key)
        exact ⟨_,rowRead_ok.mpr ⟨items,hitems,rfl⟩⟩
      obtain ⟨rows,hrows⟩ := hrows
      refine ⟨store,rows.reduceOption,rfl,hconnected,?_,fun key value => ?_⟩
      · simp only [hkeys]
        change (do
          let found ← (((served.map Json.str).filterMap stringOf).filter keep).mapM
            (rowRead d child)
          pure (.ok found.reduceOption) : Except Raised (Except Json (List (String × Json)))) = _
        rw [hnames,hrows]
        rfl
      · rw [List.reduceOption_mem_iff,mem_mapM hrows]
        simp only [List.mem_filter,rowRead_ok,served,(List.perm_insertionSort _ _).mem_iff]
        constructor
        · rintro ⟨key',⟨⟨hrow,hserved⟩,hkeep⟩,items,hitems,hsame⟩
          cases items with
          | none => cases hsame
          | some items =>
            obtain ⟨rfl,rfl⟩ := Prod.mk.inj (Option.some.inj hsame)
            obtain ⟨store',hstate',hstored⟩ := storeGet_stored hitems
            obtain rfl := Option.some.inj (hstate.symm.trans hstate')
            refine ⟨hkeep,?_,hserved,items,rfl,hstored⟩
            rintro rfl
            cases storeGet_empty.symm.trans hitems
        · rintro ⟨hkeep,hne,hserved,items,rfl,hstored⟩
          refine ⟨key,⟨⟨?_,hserved⟩,hkeep⟩,some items,
            storeGet_some hstate hconnected htable hne hserved hstored,rfl⟩
          exact (Dict.lookup_isSome _ key).mp (row_of_stored hstored)

theorem opRegistry_answers (hstore : b.store = some child) (hfiled : b.Filed) (w : W) :
    b.Answers (b.opRegistry d w) := by
  rw [opRegistry,hstore]
  dsimp only
  rcases readAll_cases (d := d) hfiled hstore fun key => decide (key ≠ rulesKey) with
    ⟨⟨message,hread⟩,-⟩ | ⟨store,registry,-,-,hread,-⟩
  · rw [hread]
    exact (answers_refuse w _ rfl).mpr rfl
  · rw [hread]
    exact answers_verified rfl rfl

/-- The day of an open bill is a text or nothing, and what is due between the days is a number. -/
def EntryFine (fromDate toDate : String) (items : List (String × Json)) : Prop :=
  pyEq (get items "status") (.str "open") = true →
    match get items "due_date" with
    | .null => True
    | .str due => fromDate ≤ due → due ≤ toDate → isAddend (get items "amount_cents") = true
    | _ => False

theorem lookup_of_filled {items : List (String × Json)} (hfilled : Filled items) {field : String}
    (hfield : field ∈ ["vendor","amount_cents","due_date"]) :
    Dict.lookup items field = some (get items field) := by
  obtain ⟨value,hvalue⟩ := Option.isSome_iff_exists.mp (hfilled field hfield)
  rw [get,hvalue]
  rfl

/-- An entry is made of what is filed unless its day is no text, and it has the amount of the
bill. -/
theorem entryOf_cases {key : String} {items : List (String × Json)} (fromDate toDate : String)
    (hfiled : FiledValue key (.dict items)) :
    (¬EntryFine fromDate toDate items ∧ ∃ e, entryOf fromDate toDate items = .error e) ∨
    (EntryFine fromDate toDate items ∧ entryOf fromDate toDate items = .ok none) ∨
    ∃ entry, entryOf fromDate toDate items = .ok (some entry) ∧
      (EntryFine fromDate toDate items ↔ isAddend (get entry "amount_cents") = true) := by
  obtain ⟨hid,hfilled⟩ := hfiled items rfl
  have hlookup : Dict.lookup items "id" = some (.str key) := by
    cases h : Dict.lookup items "id" with
    | none =>
      rw [get,h] at hid
      cases hid
    | some value =>
      rw [get,h] at hid
      exact congrArg some hid
  rw [entryOf,EntryFine]
  by_cases hopen : pyEq (get items "status") (.str "open") = true
  · rw [if_neg (by simp [hopen])]
    cases hdue : get items "due_date" with
    | null => exact .inr (.inl ⟨fun _ => trivial,rfl⟩)
    | str due =>
      dsimp only
      split
      · rename_i hbetween
        refine .inr (.inr ⟨[("id",.str key),("vendor",get items "vendor"),
          ("amount_cents",get items "amount_cents"),("due_date",.str due),
          ("status",get items "status")],?_,?_⟩)
        · rw [member,hlookup,member,lookup_of_filled hfilled (by decide),member,
            lookup_of_filled hfilled (by decide)]
          rfl
        · exact ⟨fun h => h hopen hbetween.1 hbetween.2,fun h _ _ _ => h⟩
      · rename_i hbetween
        exact .inr (.inl ⟨fun _ hfrom hto => absurd ⟨hfrom,hto⟩ hbetween,rfl⟩)
    | _ => exact .inl ⟨fun h => h hopen,_,rfl⟩
  · rw [if_pos hopen]
    exact .inr (.inl ⟨fun h => absurd h hopen,rfl⟩)

theorem amountSum_returns (floatSum : List Json → Json) (amounts : List Json) :
    (∃ total, amountSum floatSum amounts = .ok total) ↔
      ∀ amount ∈ amounts, isAddend amount = true := by
  rw [amountSum]
  cases hfind : amounts.find? fun amount => !isAddend amount with
  | some other =>
    have hother := List.find?_some hfind
    have hmem := List.mem_of_find?_eq_some hfind
    refine iff_of_false (by rintro ⟨total,h⟩; cases h) fun h => ?_
    simp [h other hmem] at hother
  | none =>
    refine iff_of_true ?_ (by simpa using hfind)
    cases amounts.mapM integerOf <;> exact ⟨_,rfl⟩

def rowEntry (fromDate toDate : String) (row : String × Json) :
    Except Raised (Option (List (String × Json))) :=
  match row.2 with
  | .dict items => entryOf fromDate toDate items
  | other => .error (.escaped ("'" ++ other.typeName ++ "' object has no attribute 'get'"))

theorem projectCalendar_ok {floatSum : List Json → Json} {registry : List (String × Json)}
    {fromDate toDate : String} :
    (∃ value, projectCalendar floatSum registry fromDate toDate = .ok value) ↔
      ∃ found, (registry.insertionSort fun a b => a.1 ≤ b.1).mapM (rowEntry fromDate toDate) =
          .ok found ∧ ∀ entry, some entry ∈ found → isAddend (get entry "amount_cents") = true := by
  have hsum (found : List (Option (List (String × Json)))) :
      (∃ total, amountSum floatSum ((found.reduceOption.insertionSort entryLe).map
        fun entry => get entry "amount_cents") = .ok total) ↔
        ∀ entry, some entry ∈ found → isAddend (get entry "amount_cents") = true := by
    rw [amountSum_returns]
    simp [(List.perm_insertionSort _ _).mem_iff,List.reduceOption_mem_iff]
  constructor
  · rintro ⟨value,h⟩
    obtain ⟨found,hfound,h⟩ := bind_ok.mp h
    obtain ⟨total,htotal,-⟩ := bind_ok.mp h
    exact ⟨found,hfound,(hsum found).mp ⟨total,htotal⟩⟩
  · rintro ⟨found,hfound,hadd⟩
    obtain ⟨total,htotal⟩ := (hsum found).mpr hadd
    exact ⟨_,bind_ok.mpr ⟨found,hfound,bind_ok.mpr ⟨total,htotal,rfl⟩⟩⟩

theorem projectCalendar_returns (floatSum : List Json → Json) {registry : List (String × Json)}
    (hregistry : ∀ key value, (key,value) ∈ registry →
      ∃ items, value = .dict items ∧ FiledValue key value) (fromDate toDate : String) :
    (∃ value, projectCalendar floatSum registry fromDate toDate = .ok value) ↔
      ∀ key items, (key,Json.dict items) ∈ registry → EntryFine fromDate toDate items := by
  rw [projectCalendar_ok]
  constructor
  · rintro ⟨found,hfound,hadd⟩ key items hmem
    obtain ⟨items',heq,hfiled⟩ := hregistry key _ hmem
    have hsorted := (List.perm_insertionSort (fun a b : String × Json => a.1 ≤ b.1)
      registry).mem_iff.mpr hmem
    obtain ⟨entry,hentry⟩ := mapM_returns.mp ⟨found,hfound⟩ _ hsorted
    have hrow : entryOf fromDate toDate items = .ok entry := hentry
    rcases entryOf_cases fromDate toDate hfiled with ⟨-,e,herror⟩ | ⟨hfine,-⟩ | ⟨made,hmade,hiff⟩
    · cases herror.symm.trans hrow
    · exact hfine
    · refine hiff.mpr (hadd made ((mem_mapM hfound).mpr ⟨_,hsorted,?_⟩))
      exact hmade
  · intro hfine
    have hrows : ∀ row ∈ registry.insertionSort (fun a b => a.1 ≤ b.1),
        ∃ key items, row = (key,.dict items) ∧ FiledValue key (.dict items) ∧
          EntryFine fromDate toDate items := by
      rintro ⟨key,value⟩ hmem
      have hin := (List.perm_insertionSort _ _).mem_iff.mp hmem
      obtain ⟨items,rfl,hfiled⟩ := hregistry key value hin
      exact ⟨key,items,rfl,hfiled,hfine key items hin⟩
    have hreturns : ∀ row ∈ registry.insertionSort (fun a b => a.1 ≤ b.1),
        ∃ entry, rowEntry fromDate toDate row = .ok entry := by
      intro row hrow
      obtain ⟨key,items,rfl,hfiled,hentry⟩ := hrows row hrow
      rcases entryOf_cases fromDate toDate hfiled with ⟨hnot,-⟩ | ⟨-,hnone⟩ | ⟨made,hmade,-⟩
      · exact absurd hentry hnot
      · exact ⟨none,hnone⟩
      · exact ⟨some made,hmade⟩
    obtain ⟨found,hfound⟩ := mapM_returns.mpr hreturns
    refine ⟨found,hfound,fun entry hentry => ?_⟩
    obtain ⟨row,hrow,hmade⟩ := (mem_mapM hfound).mp hentry
    obtain ⟨key,items,rfl,hfiled,hfineRow⟩ := hrows row hrow
    have hmade : entryOf fromDate toDate items = .ok (some entry) := hmade
    rcases entryOf_cases fromDate toDate hfiled with ⟨hnot,-⟩ | ⟨-,hnone⟩ | ⟨made,hok,hiff⟩
    · exact absurd hfineRow hnot
    · cases hnone.symm.trans hmade
    · obtain rfl := Option.some.inj (Except.ok.inj (hok.symm.trans hmade))
      exact hiff.mp hfineRow

/-- Every bill that the child serves can be put on the agenda. -/
def CalendarFine (child : StoreAgent W) (args : List (String × Json)) : Prop :=
  ∀ fromDate toDate store key items, get args "from_date" = .str fromDate →
    get args "to_date" = .str toDate → child.base.stateStore = some store →
    store.connected = true → key ≠ "" → isServed child.storeKeys key = true →
    stored store.contents key = some (.dict items) → EntryFine fromDate toDate items

theorem opCalendar_answers (readers : Readers) (hstore : b.store = some child)
    (hfiled : b.Filed) (w : W) (args : List (String × Json)) :
    b.Answers (b.opCalendar d (capabilities readers) w args) ↔ CalendarFine child args := by
  rw [opCalendar.eq_def,CalendarFine]
  split
  · rename_i fromDate toDate hfrom hto
    rw [hstore]
    dsimp only
    rcases readAll_cases (d := d) hfiled hstore fun _ => true with
      ⟨⟨message,hread⟩,hclosed⟩ | ⟨store,registry,hstate,hconnected,hread,hmem⟩
    · rw [hread]
      dsimp only
      rw [answers_refuse w _ rfl]
      refine iff_of_true rfl fun _ _ store _ _ _ _ hstate hopen _ _ _ => ?_
      rw [hclosed store hstate] at hopen
      cases hopen
    · rw [hread]
      dsimp only
      have hregistry : ∀ key value, (key,value) ∈ registry →
          ∃ items, value = .dict items ∧ FiledValue key value := by
        intro key value hkey
        obtain ⟨-,-,-,items,rfl,hstored⟩ := (hmem key value).mp hkey
        obtain ⟨value,hvalue,hfiledValue⟩ :=
          filed_table hfiled hstore hstate key (row_of_stored hstored)
        obtain rfl := Option.some.inj (hvalue.symm.trans hstored)
        exact ⟨items,rfl,hfiledValue⟩
      have hreturns := projectCalendar_returns readers.floatSum hregistry fromDate toDate
      have hresult : (∃ response, ((capabilities readers).projectCalendar registry fromDate
          toDate).map (b.valued d) = .ok response) ↔
          ∃ value, projectCalendar readers.floatSum registry fromDate toDate = .ok value := by
        change (∃ response, (projectCalendar readers.floatSum registry fromDate toDate).map
          (b.valued d) = .ok response) ↔ _
        cases projectCalendar readers.floatSum registry fromDate toDate <;> simp [Except.map]
      refine (answers_read rfl).trans (hresult.trans (hreturns.trans ?_))
      constructor
      · intro h from' to' store' key items hfrom' hto' hstate' _ hne hserved hstored
        obtain rfl := Json.str.inj (hfrom.symm.trans hfrom')
        obtain rfl := Json.str.inj (hto.symm.trans hto')
        obtain rfl := Option.some.inj (hstate.symm.trans hstate')
        exact h key items ((hmem key _).mpr ⟨rfl,hne,hserved,items,rfl,hstored⟩)
      · intro h key items hkey
        obtain ⟨-,hne,hserved,items',heq,hstored⟩ := (hmem key _).mp hkey
        obtain rfl := Json.dict.inj heq
        exact h fromDate toDate store key items hfrom hto hstate hconnected hne hserved hstored
  · rename_i hdates
    rw [answers_refuse w _ rfl]
    exact iff_of_true rfl fun from' to' _ _ _ hfrom' hto' _ _ _ _ _ =>
      (hdates from' to' hfrom' hto').elim

theorem opIntake_answers (w : W) (args : List (String × Json)) :
    b.Answers (b.opIntake d w args) := by
  rw [answers_read (opIntake_agent w args),opIntake.eq_def]
  split
  · split
    · exact ⟨_,rfl⟩
    · exact ⟨_,rfl⟩
  · exact ⟨_,rfl⟩

def NamesPdf (readers : Readers) (sourcePath : String) : Prop :=
  ".pdf".toList <:+ (readers.lower sourcePath).toList

theorem suffix_pdf (readers : Readers) (sourcePath : String) :
    (supportedSuffixes.find? fun suffix =>
      suffix.toList <:+ (readers.lower sourcePath).toList) = some ".pdf" ↔
        NamesPdf readers sourcePath := by
  rw [NamesPdf]
  generalize (readers.lower sourcePath).toList = path
  constructor
  · intro h
    have hfound := List.find?_some h
    exact of_decide_eq_true hfound
  · intro hpdf
    have hlast {suffix : List Char} {c : Char} (h : suffix ++ [c] <:+ path) : c = 'f' := by
      obtain ⟨front,hfront⟩ := h
      obtain ⟨lead,hlead⟩ := hpdf
      have hends := hfront.trans hlead.symm
      have hgiven := congrArg List.getLast? hends
      simpa using hgiven
    have hjson : ¬".json".toList <:+ path := fun h =>
      absurd (@hlast ".jso".toList 'n' h) (by decide)
    have hcsv : ¬".csv".toList <:+ path := fun h =>
      absurd (@hlast ".cs".toList 'v' h) (by decide)
    have htxt : ¬".txt".toList <:+ path := fun h =>
      absurd (@hlast ".tx".toList 't' h) (by decide)
    simp only [supportedSuffixes,List.find?_cons,hjson,hcsv,htxt,hpdf,decide_true,decide_false]

theorem draftFromFile_text (readers : Readers) (content sourcePath : String) :
    ∃ result, draftFromFile readers (.text content) sourcePath = .ok result := by
  rw [draftFromFile.eq_def]
  dsimp only
  split
  · exact ⟨_,rfl⟩
  · split
    · exact ⟨_,rfl⟩
    · exact ⟨_,rfl⟩

theorem draftFromFile_bytes (readers : Readers) (content : List UInt8) (sourcePath : String) :
    (∃ result, draftFromFile readers (.bytes content) sourcePath = .ok result) ↔
      (NamesPdf readers sourcePath → PdfText.Readable readers.decompress content) := by
  rw [draftFromFile.eq_def,← suffix_pdf]
  dsimp only
  split
  · rename_i hnone
    rw [hnone]
    exact iff_of_true ⟨_,rfl⟩ fun h => by cases h
  · rename_i suffix hsome
    rw [hsome,Option.some.injEq]
    split
    · rename_i hpdf
      rw [← PdfText.extractText_returns readers.decompress readers.tables,Readers.extractFromPdf]
      cases PdfText.extractText readers.decompress readers.tables content <;>
        simp [hpdf,bind,Except.bind,pure,Except.pure]
    · rename_i hpdf
      exact iff_of_true ⟨_,rfl⟩ fun h => absurd h hpdf

def PdfFine (readers : Readers) (args : List (String × Json)) : Prop :=
  ∀ b64 pdf, textOf (get args "pdf_b64") = some b64 → readers.b64decode b64 = some pdf →
    ∃ sourcePath, sourcePathOf args = .str sourcePath ∧
      (NamesPdf readers sourcePath → PdfText.Readable readers.decompress pdf)

theorem map_returns {α β : Type} {x : Except Raised α} {f : α → β} :
    (∃ y, x.map f = .ok y) ↔ ∃ a, x = .ok a := by
  cases x <;> simp [Except.map]

theorem intakeSource_returns (readers : Readers) (args : List (String × Json)) :
    (∃ result, intakeSource readers .intakeFile args = .ok result) ∧
      (∃ result, intakeSource readers .intakeEmail args = .ok result) ∧
      ((∃ result, intakeSource readers .intakePdf args = .ok result) ↔ PdfFine readers args) := by
  refine ⟨?_,?_,?_⟩
  · rw [intakeSource.eq_def]
    dsimp only
    split
    · exact ⟨_,rfl⟩
    · exact map_returns.mpr (draftFromFile_text readers _ _)
    · exact ⟨_,rfl⟩
  · rw [intakeSource.eq_def]
    dsimp only
    split
    · exact ⟨_,rfl⟩
    · exact ⟨_,rfl⟩
  · rw [intakeSource.eq_def,PdfFine]
    dsimp only
    cases hb64 : textOf (get args "pdf_b64") with
    | none => exact iff_of_true ⟨_,rfl⟩ fun _ _ h => by cases h
    | some b64 =>
      dsimp only
      cases hpdf : readers.b64decode b64 with
      | none =>
        refine iff_of_true ⟨_,rfl⟩ fun _ _ h h' => ?_
        obtain rfl := Option.some.inj h
        cases hpdf.symm.trans h'
      | some pdf =>
        have honly : (∀ b64' pdf', some b64 = some b64' → readers.b64decode b64' = some pdf' →
            ∃ sourcePath, sourcePathOf args = .str sourcePath ∧ (NamesPdf readers sourcePath →
              PdfText.Readable readers.decompress pdf')) ↔
            ∃ sourcePath, sourcePathOf args = .str sourcePath ∧ (NamesPdf readers sourcePath →
              PdfText.Readable readers.decompress pdf) := by
          constructor
          · exact fun h => h b64 pdf rfl hpdf
          · intro h b64' pdf' heq hpdf'
            obtain rfl := Option.some.inj heq
            obtain rfl := Option.some.inj (hpdf.symm.trans hpdf')
            exact h
        rw [honly]
        cases hpath : sourcePathOf args with
        | str sourcePath =>
          dsimp only
          rw [map_returns,draftFromFile_bytes]
          simp
        | _ => simp

theorem opIntakeSource_answers (readers : Readers) (task : Task) (w : W)
    (args : List (String × Json)) :
    b.Answers (b.opIntakeSource d (capabilities readers) task w args) ↔
      ∃ result, intakeSource readers task args = .ok result :=
  (answers_read rfl).trans map_returns

/-- The keys are those of a sequence, and a store at the path can be opened. -/
def SetupFine (o : Outside) (args : List (String × Json)) : Prop :=
  ∃ keys, ((Dict.lookup args "store_keys").getD (.list [])).elements = .ok keys ∧
    ((textOf (get args "state")).isSome → ∃ store, o.state = .ok store)

theorem opSetup_answers (hstore : b.store = some child) (o : Outside) (w : W)
    (args : List (String × Json)) : b.Answers (b.opSetup d o w args) ↔ SetupFine o args := by
  rw [opSetup.eq_def,SetupFine]
  split
  · rename_i e helements
    rw [helements]
    exact iff_of_false (not_answers rfl) (by rintro ⟨_,h,_⟩; cases h)
  · rename_i keys helements
    rw [helements]
    split
    · rename_i hstate
      rw [answers_refuse w _ rfl,hstate]
      exact iff_of_true rfl ⟨keys,rfl,fun h => by cases h⟩
    · rename_i path hpath
      obtain ⟨-,hne⟩ := textOf_ne hpath
      rw [hstore,hpath]
      dsimp only
      rw [configureStore,configure_store hne]
      cases hopen : o.state with
      | error e =>
        refine iff_of_false (not_answers rfl) ?_
        rintro ⟨_,_,h⟩
        obtain ⟨store,hstore'⟩ := h rfl
        cases hstore'
      | ok store => exact iff_of_true (answers_verified rfl rfl) ⟨keys,rfl,fun _ => ⟨store,rfl⟩⟩

end BillsAgent
end AgentCentric.BillsLoop

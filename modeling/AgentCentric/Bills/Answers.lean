import AgentCentric.Bills.Sources
import AgentCentric.Bills.Trusted

namespace AgentCentric.BillsLoop
open Json BillsAgent

/-- A dictionary under a key is named by it and has the fields of a bill. -/
def FiledValue (key : String) (value : Json) : Prop :=
  ∀ items, value = .dict items → get items "id" = .str key ∧
    ∀ field ∈ ["vendor","amount_cents","due_date"], (Dict.lookup items field).isSome

def FiledTable (table : Table) : Prop :=
  ∀ key, (table.get key).isSome → ∃ value, stored table key = some value ∧ FiledValue key value

theorem lookup_isSome_sorted (items : List (String × Json)) (key : String) :
    (Dict.lookup (sorted items) key).isSome = (Dict.lookup items key).isSome := by
  rw [lookup_sorted,Option.isSome_map]

theorem FiledValue.canonical {key : String} {value : Json} (h : FiledValue key value) :
    FiledValue key value.canonical := by
  intro items hitems
  cases value with
  | dict given =>
    rw [canonical_dict] at hitems
    obtain rfl := Json.dict.inj hitems
    obtain ⟨hid,hfields⟩ := h given rfl
    refine ⟨?_,fun field hfield => ?_⟩
    · rw [get_sorted,hid]
      rfl
    · rw [lookup_isSome_sorted]
      exact hfields field hfield
  | list xs => rw [canonical_list] at hitems; cases hitems
  | _ => cases hitems

theorem FiledTable.set {table : Table} {key fingerprint : String} {value : Json}
    (h : FiledTable table) (hvalue : FiledValue key value) :
    FiledTable (table.set key ⟨value.dumps,fingerprint⟩) := by
  intro other hother
  rw [stored_set]
  split
  · rename_i hkey
    exact ⟨_,rfl,hkey ▸ hvalue.canonical⟩
  · rename_i hkey
    rw [Dict.get_set,if_neg hkey] at hother
    exact h other hother

theorem acceptDraft_cases (draft : List (String × Json)) : ((get draft "id").truthy = false ∧
      ∃ message, acceptDraft draft = .error (.billsError message)) ∨
    ((get draft "id").truthy = true ∧ ¬Filled draft ∧
      ∃ key, acceptDraft draft = .error (.keyError key)) ∨
    ((get draft "id").truthy = true ∧ Filled draft ∧ ∃ bill, acceptDraft draft = .ok bill ∧
      get bill "id" = get draft "id" ∧ Filled bill) := by
  rw [acceptDraft]
  cases htruthy : (get draft "id").truthy with
  | false => exact .inl ⟨rfl,_,rfl⟩
  | true =>
    right
    cases hid : Dict.lookup draft "id" with
    | none =>
      rw [get,hid] at htruthy
      cases htruthy
    | some id =>
      have hfilled : Filled draft ↔ (Dict.lookup draft "vendor").isSome ∧
          (Dict.lookup draft "amount_cents").isSome ∧ (Dict.lookup draft "due_date").isSome := by
        simp [Filled]
      rw [hfilled]
      cases hvendor : Dict.lookup draft "vendor" with
      | none => simp [item,require,expect,hid,hvendor,bind,Except.bind]
      | some vendor =>
        cases hamount : Dict.lookup draft "amount_cents" with
        | none => simp [item,require,expect,hid,hvendor,hamount,bind,Except.bind]
        | some amount =>
          cases hdue : Dict.lookup draft "due_date" with
          | none => simp [item,require,expect,hid,hvendor,hamount,hdue,bind,Except.bind]
          | some due =>
            simp [item,require,expect,hid,hvendor,hamount,hdue,bind,Except.bind,pure,Except.pure,
              Filled,get,Dict.lookup]

theorem filed_marked {current updated : List (String × Json)} {key status : String} {note : Json}
    (hcurrent : FiledValue key (.dict current))
    (h : markBillStatus current status note = .ok updated) : FiledValue key (.dict updated) := by
  obtain ⟨hid,hfilled⟩ := hcurrent current rfl
  obtain ⟨-,-,hget⟩ := get_marked h
  rintro items heq
  obtain rfl := Json.dict.inj heq
  refine ⟨(hget "id" (by decide) (by decide)).trans hid,fun field hfield => ?_⟩
  obtain ⟨_,-,h⟩ := bind_ok.mp h
  obtain ⟨_,-,h⟩ := bind_ok.mp h
  have hold := hfilled field hfield
  rw [← Except.ok.inj h]
  split <;> (simp only [Dict.lookup_insert]; repeat' split) <;> simp_all

namespace BillsAgent
variable {W : Type} {b : BillsAgent W} {d : Directive}

theorem Writes.filed {key : String} {value : Json} {table : Table} (h : Writes b d key value)
    (htable : b.table = some table) (hfiled : FiledTable table) : FiledValue key value := by
  cases h with
  | accepted draft bill key htask hdraft hbill hkey =>
    intro items heq
    obtain rfl := Json.dict.inj heq
    rcases acceptDraft_cases draft with ⟨-,message,herror⟩ | ⟨-,-,key,herror⟩ |
      ⟨-,-,bill',hok,-,hfilled⟩
    · cases herror.symm.trans hbill
    · cases herror.symm.trans hbill
    · obtain rfl := Except.ok.inj (hok.symm.trans hbill)
      exact ⟨hkey,hfilled⟩
  | ruled => exact fun _ heq => by cases heq
  | marked current updated key status note table' htask htable' hcurrent hupdated =>
    obtain rfl := Option.some.inj (htable.symm.trans htable')
    obtain ⟨value,hvalue,hcurrentFiled⟩ := hfiled key (row_of_stored hcurrent)
    obtain rfl := Option.some.inj (hvalue.symm.trans hcurrent)
    exact filed_marked hcurrentFiled hupdated

def Writable (child : StoreAgent W) (key : Json) : Prop :=
  ∃ store name, child.base.stateStore = some store ∧ key = .str name ∧ name ≠ "" ∧
    isServed child.storeKeys name = true ∧ store.readOnly = false ∧ store.connected = true

theorem set_ok_iff {store : StateStore} {key fingerprint : String} {value : Json} :
    (∃ written, store.set key value fingerprint = .ok written) ↔
      store.readOnly = false ∧ store.connected = true := by
  rw [StateStore.set]
  cases hreadOnly : store.readOnly <;> cases hconnected : store.connected <;>
    simp only [Bool.false_eq_true,if_true,if_false,not_true_eq_false,not_false_eq_true]
  all_goals try simp
  split
  · exact ⟨_,rfl⟩
  · split
    · exact ⟨_,rfl⟩
    · exact ⟨_,rfl⟩

theorem keyNamed_some {key : Json} {name : String} (h : keyNamed key = some name) :
    key = .str name ∧ name ≠ "" := by
  cases key with
  | str s =>
    rw [keyNamed] at h
    split at h
    · cases h
    · rename_i hne
      obtain rfl := Option.some.inj h
      exact ⟨rfl,hne⟩
  | _ => cases h

theorem storeSet_cases {child : StoreAgent W} (hstore : b.store = some child) (key value : Json) :
    let r := b.storeSet d child key value
    r.2.ruleSet = b.ruleSet ∧ r.2.base = b.base ∧ r.2.store.isSome ∧
      (r.1.verified.truthy = true ∧ Writable child key ∨
        r.1.verified.truthy = false ∧ ¬Writable child key ∧ r.2.table = b.table) := by
  dsimp only
  refine ⟨rfl,rfl,rfl,?_⟩
  have hargs : opArgs (setDirective d key value) = [("key",key),("value",value)] := rfl
  have hlookup : (Dict.lookup [("key",key),("value",value)] "key").getD .null = key := rfl
  rw [storeSet,Agent.opStoreSet,hargs,hlookup]
  cases hstate : child.base.stateStore with
  | none =>
    refine .inr ⟨rfl,?_,by simp [table,hstore,hstate]⟩
    rintro ⟨store,-,hsome,-⟩
    cases hstate.symm.trans hsome
  | some store =>
    dsimp only
    cases hkey : keyNamed key with
    | none =>
      refine .inr ⟨rfl,?_,by simp [table,hstore,hstate]⟩
      rintro ⟨-,name,-,rfl,hne,-⟩
      rw [keyNamed,if_neg hne] at hkey
      cases hkey
    | some name =>
      obtain ⟨rfl,hne⟩ := keyNamed_some hkey
      dsimp only
      split
      · rename_i hserved
        refine .inr ⟨rfl,?_,by simp [table,hstore,hstate]⟩
        rintro ⟨-,name',-,hname,-,hserved',-⟩
        obtain rfl := Json.str.inj hname
        exact hserved hserved'
      · rename_i hserved
        split
        · rename_i e hset
          refine .inr ⟨rfl,?_,by simp [table,hstore,hstate]⟩
          rintro ⟨store',-,hsome,-,-,-,hwritable⟩
          obtain rfl := Option.some.inj (hstate.symm.trans hsome)
          obtain ⟨written,hwritten⟩ := set_ok_iff.mpr hwritable
          cases hset.symm.trans hwritten
        · rename_i written hset
          exact .inl ⟨rfl,store,name,hstate,rfl,hne,Decidable.not_not.mp hserved,
            set_ok_iff.mp ⟨written,hset⟩⟩

/-- There is a response, and one that is not verified leaves the store and the rules alone. -/
def Answers (b : BillsAgent W) (outcome : Outcome W) : Prop :=
  ∃ response, outcome.result = .ok response ∧ (response.verified.truthy = false →
    outcome.agent.table = b.table ∧ outcome.agent.ruleSet = b.ruleSet)

theorem not_answers {outcome : Outcome W} {e : Raised} (h : outcome.result = .error e) :
    ¬b.Answers outcome := by
  rintro ⟨response,hok,-⟩
  cases h.symm.trans hok

theorem answers_verified {outcome : Outcome W} {response : Response}
    (h : outcome.result = .ok response) (hverified : response.verified.truthy = true) :
    b.Answers outcome := by
  refine ⟨response,h,fun hnot => ?_⟩
  rw [hverified] at hnot
  cases hnot

/-- A refusal answers unless the rules have changed. -/
theorem answers_refuse {c : BillsAgent W} (w : W) (message : String) (htable : c.table = b.table) :
    b.Answers (c.refuse d w message) ↔ c.ruleSet = b.ruleSet := by
  constructor
  · rintro ⟨response,hok,hsame⟩
    obtain rfl := Except.ok.inj hok
    exact (hsame rfl).2
  · exact fun hrules => ⟨_,rfl,fun _ => ⟨htable,hrules⟩⟩

theorem answers_read {outcome : Outcome W} (h : outcome.agent = b) :
    b.Answers outcome ↔ ∃ response, outcome.result = .ok response := by
  constructor
  · rintro ⟨response,hok,-⟩
    exact ⟨response,hok⟩
  · rintro ⟨response,hok⟩
    exact ⟨response,hok,fun _ => by rw [h]; exact ⟨rfl,rfl⟩⟩

def Accepts (child : StoreAgent W) (draft : List (String × Json)) : Prop :=
  (get draft "id").truthy = true ∧ Filled draft ∧ Writable child (get draft "id")

theorem promote_answers {c : BillsAgent W} (hc : c.store = b.store) {child : StoreAgent W}
    (hstore : b.store = some child) (task : Task) (w : W) (draft : List (String × Json))
    (sources : Json) : b.Answers (c.promote d task w draft sources) ↔
      ((get draft "id").truthy = true → Filled draft) ∧
        (c.ruleSet = b.ruleSet ∨ Accepts child draft) := by
  have htable := table_congr hc
  rw [promote.eq_def]
  rcases acceptDraft_cases draft with ⟨hid,message,herror⟩ | ⟨hid,hfilled,key,herror⟩ |
    ⟨hid,hfilled,bill,hok,hkey,-⟩
  · rw [herror]
    simp [answers_refuse w _ htable,hid,Accepts]
  · rw [herror]
    simp only [hid,hfilled,forall_const,false_and,iff_false]
    exact not_answers rfl
  · rw [hok]
    simp only [hc,hstore]
    have hcases := @storeSet_cases _ c d _ (hc.trans hstore) (get bill "id") (.dict bill)
    dsimp only at hcases
    rw [hkey] at hcases
    rw [hkey]
    obtain ⟨hrules,-,-,⟨hverified,hwritable⟩ | ⟨hrefused,hwritable,hsame⟩⟩ := hcases
    · rw [if_pos hverified]
      exact iff_of_true (answers_verified rfl rfl)
        ⟨fun _ => hfilled,.inr ⟨hid,hfilled,hwritable⟩⟩
    · rw [if_neg (by rw [hrefused]; decide),answers_refuse w _ (hsame.trans htable),hrules]
      simp [Accepts,hwritable,hfilled]

def AcceptFine (args : List (String × Json)) : Prop :=
  ∀ draft, get args "draft" = .dict draft → (get draft "id").truthy = true → Filled draft

theorem opAccept_answers {child : StoreAgent W} (hstore : b.store = some child) (w : W)
    (args : List (String × Json)) : b.Answers (b.opAccept d w args) ↔ AcceptFine args := by
  rw [opAccept.eq_def,AcceptFine]
  split
  · rename_i draft hdraft
    rw [promote_answers rfl hstore]
    simp [hdraft]
  · rename_i hdraft
    rw [answers_refuse w _ rfl]
    exact iff_of_true rfl fun draft h => absurd h (hdraft draft)

def ReadableRules (raw : List Json) : Prop :=
  ∀ items id, Json.dict items ∈ raw → get items "id" = .str id →
    ∃ pairs, dictOf (matcherOf items) = .ok pairs

theorem readableRules_cons {value : Json} {rest : List Json} :
    ReadableRules (value :: rest) ↔ (∀ items id, value = .dict items → get items "id" = .str id →
      ∃ pairs, dictOf (matcherOf items) = .ok pairs) ∧ ReadableRules rest := by
  simp only [ReadableRules,List.mem_cons]
  constructor
  · exact fun h => ⟨fun items id heq hid => h items id (.inl heq.symm) hid,
      fun items id hmem hid => h items id (.inr hmem) hid⟩
  · rintro ⟨hfirst,hrest⟩ items id (heq | hmem) hid
    · exact hfirst items id heq.symm hid
    · exact hrest items id hmem hid

theorem load_returns (rules : RuleSet) (raw : List Json) :
    (rules.load raw).1 = .ok () ↔ ReadableRules raw := by
  fun_induction RuleSet.load rules raw with
  | case1 => exact iff_of_true rfl fun items id h => by cases h
  | case2 rules rr rest id hid e hrule =>
    rw [readableRules_cons]
    refine iff_of_false nofun fun h => ?_
    obtain ⟨rule,hread⟩ := ruleOf_returns.mpr (h.1 rr id rfl hid)
    cases hrule.symm.trans hread
  | case3 rules rr rest id hid rule hrule ih =>
    rw [ih,readableRules_cons]
    refine ⟨fun h => ⟨fun items other heq hother => ?_,h⟩,fun h => h.2⟩
    obtain rfl := Json.dict.inj heq
    exact ruleOf_returns.mp ⟨rule,hrule⟩
  | case4 rules rr rest hid ih =>
    rw [ih,readableRules_cons]
    refine ⟨fun h => ⟨fun items other heq hother => ?_,h⟩,fun h => h.2⟩
    obtain rfl := Json.dict.inj heq
    exact absurd hother (hid other)
  | case5 rules value rest hvalue ih =>
    rw [ih,readableRules_cons]
    exact ⟨fun h => ⟨fun items other heq _ => absurd heq (hvalue items),h⟩,fun h => h.2⟩

def RulesRead (b : BillsAgent W) : Prop :=
  ∀ child store, b.store = some child → child.base.stateStore = some store →
    store.connected = true ∧
      ∀ raw, stored store.contents rulesKey = some (.list raw) → ReadableRules raw

theorem get_filed {store : StateStore} (hconnected : store.connected = true)
    (hfiled : FiledTable store.contents) (key : String) :
    store.get key = .ok ((stored store.contents key).getD .null) := by
  rw [StateStore.get,if_neg (by simp [hconnected])]
  split
  · rename_i hrow
    rw [stored,hrow]
    rfl
  · rename_i row hrow
    obtain ⟨value,hvalue,-⟩ := hfiled key (by rw [hrow]; rfl)
    rw [hvalue]
    rw [stored,hrow] at hvalue
    have hloads : loads row.value = some value := hvalue
    rw [hloads]
    rfl

/-- Every row of the open store is filed. -/
def Filed (b : BillsAgent W) : Prop := ∀ table, b.table = some table → FiledTable table

def merged (b : BillsAgent W) : RuleSet := b.loadRulesFromStore.2.ruleSet

theorem loadRules_returns (hfiled : b.Filed) : b.loadRulesFromStore.1 = .ok () ↔ b.RulesRead := by
  rw [loadRulesFromStore]
  cases hopen : b.store.bind fun child => child.base.stateStore with
  | none =>
    refine iff_of_true rfl fun child store hchild hstate => ?_
    rw [hchild,Option.bind_some,hstate] at hopen
    cases hopen
  | some store =>
    obtain ⟨child,hchild,hstate⟩ := Option.bind_eq_some_iff.mp hopen
    have hread : b.RulesRead ↔ store.connected = true ∧
        ∀ raw, stored store.contents rulesKey = some (.list raw) → ReadableRules raw := by
      constructor
      · exact fun h => h child store hchild hstate
      · intro h child' store' hchild' hstate'
        obtain rfl := Option.some.inj (hchild.symm.trans hchild')
        obtain rfl := Option.some.inj (hstate.symm.trans hstate')
        exact h
    rw [hread]
    have htable : FiledTable store.contents := hfiled _ (by simp [table,hchild,hstate])
    cases hconnected : store.connected with
    | false => simp [StateStore.get,hconnected]
    | true =>
      dsimp only
      rw [get_filed hconnected htable]
      cases hstored : stored store.contents rulesKey with
      | none => simp
      | some value =>
        cases value with
        | list raw => simp [load_returns]
        | _ => simp

/-- The stored rules can be read, a draft that matches and has an id has the other fields, and the
stored rules are those of the agent already, unless the draft becomes a bill. -/
def AutoFine (b : BillsAgent W) (child : StoreAgent W) (args : List (String × Json)) : Prop :=
  ∀ draft, get args "draft" = .dict draft → b.RulesRead ∧
    ((b.merged.firstMatch draft).isSome → (get draft "id").truthy = true → Filled draft) ∧
      (b.merged = b.ruleSet ∨ (b.merged.firstMatch draft).isSome ∧ Accepts child draft)

theorem opAcceptDeterministic_answers {child : StoreAgent W} (hstore : b.store = some child)
    (hfiled : b.Filed) (w : W) (args : List (String × Json)) :
    b.Answers (b.opAcceptDeterministic d w args) ↔ b.AutoFine child args := by
  rw [opAcceptDeterministic.eq_def,AutoFine]
  split
  · rename_i draft hdraft
    have hloaded := loadRules_store (b := b)
    have hreturns := loadRules_returns hfiled
    have honly : (∀ given, get args "draft" = .dict given → b.RulesRead ∧
        ((b.merged.firstMatch given).isSome → (get given "id").truthy = true → Filled given) ∧
        (b.merged = b.ruleSet ∨ (b.merged.firstMatch given).isSome ∧ Accepts child given)) ↔
        b.RulesRead ∧ ((b.merged.firstMatch draft).isSome → (get draft "id").truthy = true →
          Filled draft) ∧
        (b.merged = b.ruleSet ∨ (b.merged.firstMatch draft).isSome ∧ Accepts child draft) := by
      simp [hdraft]
    rw [honly,← hreturns]
    simp only [merged]
    split
    · rename_i e loaded hload
      rw [hload]
      simp [not_answers]
    · rename_i u loaded hload
      rw [hload] at hloaded ⊢
      dsimp only at hloaded ⊢
      split
      · rename_i hnone
        rw [answers_refuse w _ (table_congr hloaded)]
        simp [hnone]
      · rename_i rule hsome
        rw [promote_answers hloaded hstore]
        simp [hsome]
  · rename_i hdraft
    rw [answers_refuse w _ rfl]
    exact iff_of_true rfl fun draft h => absurd h (hdraft draft)

def RuleFine (child : StoreAgent W) (args : List (String × Json)) : Prop :=
  ∀ rr id store, ruleGiven args = .dict rr → get rr "id" = .str id →
    child.base.stateStore = some store → store.connected = true ∧
      (Writable child (.str rulesKey) → ∃ pairs, dictOf (matcherOf rr) = .ok pairs)

theorem opRuleAdd_answers {child : StoreAgent W} (hstore : b.store = some child)
    (hfiled : b.Filed) (w : W) (args : List (String × Json)) :
    b.Answers (b.opRuleAdd d w args) ↔ RuleFine child args := by
  rw [opRuleAdd.eq_def,RuleFine]
  split
  · rename_i rr hrule
    split
    · rename_i id hid
      rw [hstore]
      dsimp only
      cases hstate : child.base.stateStore with
      | none =>
        rw [answers_refuse w _ rfl]
        exact iff_of_true rfl fun _ _ _ _ _ h => by cases h
      | some store =>
        have honly : (∀ rr' id' store', ruleGiven args = .dict rr' → get rr' "id" = .str id' →
            some store = some store' → store'.connected = true ∧ (Writable child (.str rulesKey) →
              ∃ pairs, dictOf (matcherOf rr') = .ok pairs)) ↔ store.connected = true ∧
            (Writable child (.str rulesKey) → ∃ pairs, dictOf (matcherOf rr) = .ok pairs) := by
          constructor
          · exact fun h => h rr id store hrule hid rfl
          · intro h rr' id' store' hrule' hid' hstore'
            obtain rfl := Json.dict.inj (hrule.symm.trans hrule')
            obtain rfl := Option.some.inj hstore'
            exact h
        rw [honly]
        dsimp only
        have htable : FiledTable store.contents := hfiled _ (by simp [table,hstore,hstate])
        cases hconnected : store.connected with
        | false => simp [StateStore.get,hconnected,not_answers]
        | true =>
          rw [get_filed hconnected htable]
          dsimp only
          obtain ⟨hrules,-,-,⟨hverified,hwritable⟩ | ⟨hrefused,hwritable,hsame⟩⟩ :=
            @storeSet_cases _ b d _ hstore (.str rulesKey) (.list
              (rulesWith ((stored store.contents rulesKey).getD .null) id rr))
          · rw [if_pos hverified]
            split
            · rename_i e hread
              refine iff_of_false (not_answers rfl) fun h => ?_
              obtain ⟨rule,hrule'⟩ := ruleOf_returns.mpr (h.2 hwritable)
              cases hread.symm.trans hrule'
            · rename_i rule hread
              exact iff_of_true (answers_verified rfl rfl)
                ⟨rfl,fun _ => ruleOf_returns.mp ⟨rule,hread⟩⟩
          · rw [if_neg (by rw [hrefused]; decide),answers_refuse w _ hsame]
            exact iff_of_true hrules ⟨rfl,fun h => absurd h hwritable⟩
    · rename_i hid
      rw [answers_refuse w _ rfl]
      exact iff_of_true rfl fun rr' id' _ hrule' hid' => by
        obtain rfl := Json.dict.inj (hrule.symm.trans hrule')
        exact absurd hid' (hid id')
  · rename_i hrule
    rw [answers_refuse w _ rfl]
    exact iff_of_true rfl fun rr _ _ h => absurd h (hrule rr)

end BillsAgent
end AgentCentric.BillsLoop

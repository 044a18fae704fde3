import AgentCentric.Bills.BillsAgent
import AgentCentric.Library.IsoDate

namespace AgentCentric.BillsLoop
open Json

structure IsBill (key : String) (items : List (String × Json)) : Prop where
  id : get items "id" = .str key
  vendor : ∃ vendor, get items "vendor" = .str vendor
  amount : ∃ cents : Nat, get items "amount_cents" = .int cents
  due : ∃ date, get items "due_date" = .str date ∧ (IsoDate.ofText date).isSome
  status : ∃ status ∈ allowedStatuses, get items "status" = .str status

def IsRule (value : Json) : Prop :=
  ∃ items id rule, value = .dict items ∧ get items "id" = .str id ∧ ruleOf id items = .ok rule

def SoundValue (key : String) (value : Json) : Prop :=
  if key = rulesKey then ∃ rules, value = .list rules ∧ ∀ rule ∈ rules, IsRule rule
  else ∃ items, value = .dict items ∧ IsBill key items

abbrev Table := Dict String StateRow

def stored (table : Table) (key : String) : Option Json :=
  (table.get key).bind fun row => loads row.value

def SoundTable (table : Table) : Prop :=
  ∀ key, (table.get key).isSome → ∃ value, stored table key = some value ∧ SoundValue key value

theorem row_of_stored {table : Table} {key : String} {value : Json}
    (h : stored table key = some value) : (table.get key).isSome := by
  rw [stored] at h
  cases hget : table.get key with
  | none =>
    rw [hget] at h
    cases h
  | some row => rfl

theorem get_sorted (items : List (String × Json)) (key : String) :
    get (sorted items) key = (get items key).canonical := by
  rw [get,get,lookup_sorted]
  cases Dict.lookup items key <;> rfl

theorem length_sorted (items : List (String × Json)) : (sorted items).length = items.length := by
  rw [sorted,List.length_insertionSort,canonicalItems_eq,List.length_map]

theorem truthy_canonical (j : Json) : j.canonical.truthy = j.truthy := by
  cases j with
  | list xs =>
    rw [canonical_list]
    cases xs <;> simp [truthy]
  | dict items =>
    rw [canonical_dict]
    have hlength := length_sorted items
    cases items with
    | nil => rfl
    | cons item items =>
      have hne : sorted (item :: items) ≠ [] := fun h => by simp [h] at hlength
      simp [truthy,hne]
  | _ => rfl

theorem hashable_canonical (j : Json) : hashable j.canonical = hashable j := by
  cases j with
  | list xs => rw [canonical_list]; rfl
  | dict items => rw [canonical_dict]; rfl
  | _ => rfl

theorem pairOf_returns {part : Json} : (∃ pair, pairOf part = .ok pair) ↔
    ∃ key value, part.elements = .ok [key,value] ∧ hashable key = true := by
  constructor
  · rintro ⟨pair,h⟩
    obtain ⟨parts,hparts,h⟩ := bind_ok.mp h
    split at h
    · rename_i key value
      obtain ⟨_,hkey,-⟩ := bind_ok.mp h
      exact ⟨key,value,hparts,require_ok.mp hkey⟩
    · cases h
  · rintro ⟨key,value,hparts,hkey⟩
    exact ⟨(key,value),bind_ok.mpr ⟨_,hparts,bind_ok.mpr ⟨(),require_ok.mpr hkey,rfl⟩⟩⟩

theorem pairOf_canonical {part : Json} (h : ∃ pair, pairOf part = .ok pair) :
    ∃ pair, pairOf part.canonical = .ok pair := by
  rw [pairOf_returns] at h ⊢
  obtain ⟨key,value,hparts,hkey⟩ := h
  cases part with
  | list xs =>
    obtain rfl := Except.ok.inj hparts
    refine ⟨key.canonical,value.canonical,?_,?_⟩
    · rw [canonical_list]
      rfl
    · rw [hashable_canonical]
      exact hkey
  | dict items =>
    have hlength : (sorted items).length = 2 := by
      have htwo := congrArg List.length (Except.ok.inj hparts)
      rw [List.length_map] at htwo
      rw [length_sorted,htwo]
      rfl
    obtain ⟨first,second,hsorted⟩ := List.length_eq_two.mp hlength
    rw [canonical_dict]
    refine ⟨.str first.1,.str second.1,?_,rfl⟩
    rw [elements,hsorted]
    rfl
  | str s => exact ⟨key,value,hparts,hkey⟩
  | _ => cases hparts

theorem dictOf_canonical {j : Json} (h : ∃ pairs, dictOf j = .ok pairs) :
    ∃ pairs, dictOf j.canonical = .ok pairs := by
  cases j with
  | dict items =>
    rw [canonical_dict]
    exact ⟨_,rfl⟩
  | list xs =>
    obtain ⟨pairs,h⟩ := h
    obtain ⟨parts,hparts,h⟩ := bind_ok.mp h
    obtain rfl := Except.ok.inj hparts
    obtain ⟨found,hfound,-⟩ := bind_ok.mp h
    have heach := mapM_returns.mp ⟨found,hfound⟩
    have hagain : ∃ ys, (xs.map Json.canonical).mapM pairOf = .ok ys := by
      rw [mapM_returns]
      intro part hpart
      obtain ⟨given,hgiven,rfl⟩ := List.mem_map.mp hpart
      exact pairOf_canonical (heach given hgiven)
    obtain ⟨ys,hys⟩ := hagain
    rw [canonical_list]
    exact ⟨_,bind_ok.mpr ⟨_,rfl,bind_ok.mpr ⟨ys,hys,rfl⟩⟩⟩
  | str s => exact h
  | _ =>
    obtain ⟨pairs,h⟩ := h
    obtain ⟨parts,hparts,-⟩ := bind_ok.mp h
    cases hparts

theorem matcherOf_sorted (items : List (String × Json)) :
    matcherOf (sorted items) = (matcherOf items).canonical := by
  rw [matcherOf,matcherOf,get_sorted,truthy_canonical]
  split <;> rfl

theorem ruleOf_returns {id : String} {items : List (String × Json)} :
    (∃ rule, ruleOf id items = .ok rule) ↔ ∃ pairs, dictOf (matcherOf items) = .ok pairs := by
  constructor
  · rintro ⟨rule,h⟩
    obtain ⟨pairs,hpairs,-⟩ := bind_ok.mp h
    exact ⟨pairs,hpairs⟩
  · rintro ⟨pairs,hpairs⟩
    exact ⟨_,bind_ok.mpr ⟨pairs,hpairs,rfl⟩⟩

theorem IsRule.canonical {value : Json} (h : IsRule value) : IsRule value.canonical := by
  obtain ⟨items,id,rule,rfl,hid,hrule⟩ := h
  have hpairs := dictOf_canonical (ruleOf_returns.mp ⟨rule,hrule⟩)
  rw [← matcherOf_sorted] at hpairs
  obtain ⟨again,hagain⟩ := ruleOf_returns.mpr hpairs
  refine ⟨sorted items,id,again,canonical_dict items,?_,hagain⟩
  rw [get_sorted,hid]
  rfl

theorem IsBill.canonical {key : String} {items : List (String × Json)} (h : IsBill key items) :
    IsBill key (sorted items) := by
  obtain ⟨vendor,hvendor⟩ := h.vendor
  obtain ⟨cents,hcents⟩ := h.amount
  obtain ⟨date,hdate,hday⟩ := h.due
  obtain ⟨status,hallowed,hstatus⟩ := h.status
  refine ⟨?_,⟨vendor,?_⟩,⟨cents,?_⟩,⟨date,?_,hday⟩,⟨status,hallowed,?_⟩⟩
  · rw [get_sorted,h.id]
    rfl
  · rw [get_sorted,hvendor]
    rfl
  · rw [get_sorted,hcents]
    rfl
  · rw [get_sorted,hdate]
    rfl
  · rw [get_sorted,hstatus]
    rfl

theorem SoundValue.canonical {key : String} {value : Json} (h : SoundValue key value) :
    SoundValue key value.canonical := by
  rw [SoundValue] at h ⊢
  split at h
  · rename_i hkey
    obtain ⟨rules,rfl,hrules⟩ := h
    rw [if_pos hkey,canonical_list]
    refine ⟨_,rfl,fun rule hrule => ?_⟩
    obtain ⟨given,hgiven,rfl⟩ := List.mem_map.mp hrule
    exact (hrules given hgiven).canonical
  · rename_i hkey
    obtain ⟨items,rfl,hbill⟩ := h
    rw [if_neg hkey,canonical_dict]
    exact ⟨_,rfl,hbill.canonical⟩

section
variable {table : Table} {key : String} {value : Json} {fingerprint : String}

theorem stored_set (other : String) : stored (table.set key ⟨value.dumps,fingerprint⟩) other =
      if key = other then some value.canonical else stored table other := by
  rw [stored,Dict.get_set]
  split
  · exact loads_dumps value
  · rfl

theorem SoundTable.set (h : SoundTable table) (hvalue : SoundValue key value) :
    SoundTable (table.set key ⟨value.dumps,fingerprint⟩) := by
  intro other hother
  rw [stored_set]
  split
  · rename_i hkey
    exact ⟨_,rfl,hkey ▸ hvalue.canonical⟩
  · rename_i hkey
    rw [Dict.get_set,if_neg hkey] at hother
    exact h other hother

theorem set_contents {store written : StateStore}
    (h : store.set key value fingerprint = .ok written) : written.contents = store.contents ∨
      written.contents = store.contents.set key ⟨value.dumps,fingerprint⟩ := by
  rw [StateStore.set] at h
  split at h
  · cases h
  · split at h
    · cases h
    · dsimp only at h
      split at h
      · obtain rfl := Except.ok.inj h
        exact .inr rfl
      · split at h
        · obtain rfl := Except.ok.inj h
          exact .inr rfl
        · obtain rfl := Except.ok.inj h
          exact .inl rfl

end

namespace BillsAgent
variable {W : Type} {b : BillsAgent W} {d : Directive}

def table (b : BillsAgent W) : Option Table :=
  b.store.bind fun child => child.base.stateStore.map StateStore.contents

def Takes (b : BillsAgent W) (key : String) : Prop :=
  ∃ child, b.store = some child ∧ child.base.stateStore.isSome ∧ key ≠ "" ∧
    isServed child.storeKeys key = true

def Put (b : BillsAgent W) (key : String) (value : Json) (after : Option Table) : Prop :=
  ∃ before fingerprint, b.table = some before ∧ b.Takes key ∧
    after = some (before.set key ⟨value.dumps,fingerprint⟩)

theorem storeSet_table {child : StoreAgent W} (hstore : b.store = some child) (key value : Json) :
    (b.storeSet d child key value).2.table = b.table ∨
      ∃ name, key = .str name ∧ b.Put name value (b.storeSet d child key value).2.table := by
  have hargs : opArgs (setDirective d key value) = [("key",key),("value",value)] := rfl
  rw [storeSet,Agent.opStoreSet,hargs]
  cases hstate : child.base.stateStore with
  | none =>
    left
    simp [table,hstore,hstate]
  | some store =>
    have htable : b.table = some store.contents := by simp [table,hstore,hstate]
    simp only [Dict.lookup,if_true,Option.getD_some]
    cases hkey : keyNamed key with
    | none =>
      left
      simp [table,hstore,hstate]
    | some name =>
      have hname : key = .str name ∧ name ≠ "" := by
        cases key with
        | str s =>
          rw [keyNamed] at hkey
          split at hkey
          · cases hkey
          · rename_i hne
            obtain rfl := Option.some.inj hkey
            exact ⟨rfl,hne⟩
        | _ => cases hkey
      dsimp only
      split
      · left
        simp [table,hstore,hstate]
      · rename_i hserved
        simp only [Decidable.not_not] at hserved
        split
        · left
          simp [table,hstore,hstate]
        · rename_i written hset
          have hafter : table { b with store := some { child with
              base := { child.base with stateStore := some written } } } =
                some written.contents := rfl
          rcases set_contents hset with hsame | hput
          · left
            exact hafter.trans (by rw [hsame,htable])
          · right
            exact ⟨name,hname.1,store.contents,_,htable,
              ⟨child,hstore,by rw [hstate]; rfl,hname.2,hserved⟩,hafter.trans (congrArg some hput)⟩

/-- A directive writes a bill that was accepted, the rules with one more, or a bill with another
status. -/
inductive Writes (b : BillsAgent W) (d : Directive) : String → Json → Prop where
  | accepted (draft bill : List (String × Json)) (key : String)
    (htask : Task.ofName (field d.payload "task") = some .accept ∨
      Task.ofName (field d.payload "task") = some .acceptDeterministic ∧
        (b.loadRulesFromStore.2.ruleSet.firstMatch draft).isSome)
    (hdraft : get (opArgs d) "draft" = .dict draft) (hbill : acceptDraft draft = .ok bill)
    (hkey : get bill "id" = .str key) : Writes b d key (.dict bill)
  | ruled (id : String) (rr : List (String × Json)) (table : Table)
    (htask : Task.ofName (field d.payload "task") = some .ruleAdd)
    (htable : b.table = some table) (hrule : ruleGiven (opArgs d) = .dict rr)
    (hid : get rr "id" = .str id) :
    Writes b d rulesKey (.list (rulesWith ((stored table rulesKey).getD .null) id rr))
  | marked (current updated : List (String × Json)) (key status : String) (note : Json)
    (table : Table) (htask : Task.ofName (field d.payload "task") = some .markPaid ∨
      Task.ofName (field d.payload "task") = some .markStatus)
    (htable : b.table = some table) (hcurrent : stored table key = some (.dict current))
    (hupdated : markBillStatus current status note = .ok updated) : Writes b d key (.dict updated)

def Steps (b : BillsAgent W) (d : Directive) (after : Option Table) : Prop :=
  after = b.table ∨ ∃ key value, Writes b d key value ∧ b.Put key value after

theorem get_stored {store : StateStore} {key : String} {value : Json}
    (h : store.get key = .ok value) : value = (stored store.contents key).getD .null := by
  rw [StateStore.get] at h
  split at h
  · cases h
  · rw [stored]
    split at h
    · rename_i hrow
      obtain rfl := Except.ok.inj h
      rw [hrow]
      rfl
    · rename_i row hrow
      split at h
      · rename_i hloads
        obtain rfl := Except.ok.inj h
        rw [hrow,Option.bind_some,hloads]
        rfl
      · cases h

/-- A dictionary that is read stands in the table. -/
theorem storeGet_stored {child : StoreAgent W} {key : String} {items : List (String × Json)}
    (h : storeGet d child (.str key) = .ok (some items)) :
    ∃ store, child.base.stateStore = some store ∧
      stored store.contents key = some (.dict items) := by
  have hargs : opArgs (childDirective d ":store-get" "store_get" [("key",.str key)]) =
      [("key",.str key)] := rfl
  obtain ⟨response,hget,h⟩ := bind_ok.mp h
  have hserved : response.verified.truthy = true ∧ response.value = .json (.dict items) := by
    have hsome := Except.ok.inj h
    split at hsome
    · rename_i hverified
      split at hsome
      · rename_i found hfound
        obtain rfl := Option.some.inj hsome
        exact ⟨hverified,hfound⟩
      · cases hsome
    · cases hsome
  obtain ⟨hverified,hvalue⟩ := hserved
  -- a refusal is not verified
  have hrefused {message : String} (hresponse : child.base.error (childDirective d ":store-get"
      "store_get" [("key",.str key)]) message = response) : False := by
    rw [← hresponse] at hverified
    cases hverified
  rw [Agent.opStoreGet,hargs] at hget
  split at hget
  · exact (hrefused (Except.ok.inj hget)).elim
  · rename_i store hstore
    split at hget
    · exact (hrefused (Except.ok.inj hget)).elim
    · rename_i name hname
      have hkey : name = key := by
        have hnamed : keyNamed (.str key) = some name := hname
        rw [keyNamed] at hnamed
        split at hnamed
        · cases hnamed
        · exact (Option.some.inj hnamed).symm
      split at hget
      · exact (hrefused (Except.ok.inj hget)).elim
      · split at hget
        · cases hget
        · exact (hrefused (Except.ok.inj hget)).elim
        · exact (hrefused (Except.ok.inj hget)).elim
        · rename_i value _ hread
          obtain rfl := Except.ok.inj hget
          have hdict : value = .dict items := PyValue.json.inj hvalue
          rw [hkey,hdict] at hread
          have hstored := get_stored hread
          refine ⟨store,hstore,?_⟩
          cases hrow : stored store.contents key with
          | none =>
            rw [hrow] at hstored
            cases hstored
          | some found =>
            rw [hrow] at hstored
            exact congrArg some hstored.symm

theorem table_congr {c : BillsAgent W} (h : c.store = b.store) : c.table = b.table := by
  rw [table,table,h]

theorem Put.congr {c : BillsAgent W} {key : String} {value : Json} {after : Option Table}
    (h : c.store = b.store) (hput : c.Put key value after) : b.Put key value after := by
  obtain ⟨before,fingerprint,hbefore,⟨child,hchild,htakes⟩,hafter⟩ := hput
  exact ⟨before,fingerprint,(table_congr h).symm.trans hbefore,⟨child,h.symm.trans hchild,htakes⟩,
    hafter⟩

theorem storeSet_steps {c : BillsAgent W} (hc : c.store = b.store) {child : StoreAgent W}
    (hstore : c.store = some child) {key value : Json}
    (hwrites : ∀ name, key = .str name → Writes b d name value) {outcome : Outcome W}
    (houtcome : outcome.agent.store = (c.storeSet d child key value).2.store) :
    b.Steps d outcome.agent.table := by
  rw [table_congr houtcome]
  rcases storeSet_table hstore key value with hsame | ⟨name,hname,hput⟩
  · exact .inl (hsame.trans (table_congr hc))
  · exact .inr ⟨name,value,hwrites name hname,hput.congr hc⟩

theorem promote_steps {c : BillsAgent W} (hc : c.store = b.store) (task : Task) (w : W)
    {draft : List (String × Json)} (sources : Json) (hdraft : get (opArgs d) "draft" = .dict draft)
    (htask : Task.ofName (field d.payload "task") = some .accept ∨
      Task.ofName (field d.payload "task") = some .acceptDeterministic ∧
        (b.loadRulesFromStore.2.ruleSet.firstMatch draft).isSome) :
    b.Steps d (c.promote d task w draft sources).agent.table := by
  rw [promote.eq_def]
  split
  · exact .inl (table_congr hc)
  · exact .inl (table_congr hc)
  · rename_i bill hbill
    split
    · exact .inl (table_congr hc)
    · rename_i child hstore
      have hwrites : ∀ name, get bill "id" = .str name → Writes b d name (.dict bill) :=
        fun name hname => .accepted draft bill name htask hdraft hbill hname
      dsimp only
      split
      · exact storeSet_steps hc hstore hwrites rfl
      · exact storeSet_steps hc hstore hwrites rfl

theorem loadRules_store : b.loadRulesFromStore.2.store = b.store := by
  rw [loadRulesFromStore.eq_def]
  repeat' split
  all_goals rfl

theorem opAccept_steps (w : W) (htask : Task.ofName (field d.payload "task") = some .accept) :
    b.Steps d (b.opAccept d w (opArgs d)).agent.table := by
  rw [opAccept.eq_def]
  split
  · rename_i draft hdraft
    exact promote_steps rfl _ w _ hdraft (.inl htask)
  · exact .inl rfl

theorem opAcceptDeterministic_steps (w : W)
    (htask : Task.ofName (field d.payload "task") = some .acceptDeterministic) :
    b.Steps d (b.opAcceptDeterministic d w (opArgs d)).agent.table := by
  have hloaded := loadRules_store (b := b)
  rw [opAcceptDeterministic.eq_def]
  split
  · rename_i draft hdraft
    split
    · rename_i e loaded hload
      rw [hload] at hloaded
      exact .inl (table_congr hloaded)
    · rename_i u loaded hload
      rw [hload] at hloaded
      split
      · exact .inl (table_congr hloaded)
      · rename_i rule hrule
        refine promote_steps hloaded _ w _ hdraft (.inr ⟨htask,?_⟩)
        rw [hload,hrule]
        rfl
  · exact .inl rfl

theorem opRuleAdd_steps (w : W) (htask : Task.ofName (field d.payload "task") = some .ruleAdd) :
    b.Steps d (b.opRuleAdd d w (opArgs d)).agent.table := by
  rw [opRuleAdd.eq_def]
  split
  · rename_i rr hrule
    split
    · rename_i id hid
      split
      · exact .inl rfl
      · rename_i child hstore
        split
        · exact .inl rfl
        · rename_i store hstate
          split
          · exact .inl rfl
          · rename_i raw hraw
            have htable : b.table = some store.contents := by simp [table,hstore,hstate]
            have hwrites : ∀ name, Json.str rulesKey = .str name →
                Writes b d name (.list (rulesWith raw id rr)) := by
              intro name hname
              rw [← Json.str.inj hname,get_stored hraw]
              exact .ruled id rr store.contents htask htable hrule hid
            dsimp only
            split
            · split
              · exact storeSet_steps rfl hstore hwrites rfl
              · exact storeSet_steps rfl hstore hwrites rfl
            · exact storeSet_steps rfl hstore hwrites rfl
    · exact .inl rfl
  · exact .inl rfl

theorem opMarkStatus_steps (task : Task) (w : W)
    (htask : Task.ofName (field d.payload "task") = some .markPaid ∨
      Task.ofName (field d.payload "task") = some .markStatus) :
    b.Steps d (b.opMarkStatus d task w (opArgs d)).agent.table := by
  rw [opMarkStatus.eq_def]
  split
  · exact .inl rfl
  · rename_i id hid
    split
    · exact .inl rfl
    · rename_i status hstatus
      split
      · exact .inl rfl
      · rename_i child hstore
        split
        · exact .inl rfl
        · exact .inl rfl
        · rename_i current hcurrent
          split
          · exact .inl rfl
          · rename_i updated hupdated
            obtain ⟨store,hstate,hstored⟩ := storeGet_stored hcurrent
            have htable : b.table = some store.contents := by simp [table,hstore,hstate]
            have hwrites : ∀ name, Json.str id = .str name → Writes b d name (.dict updated) := by
              intro name hname
              rw [← Json.str.inj hname]
              exact .marked current updated id status _ store.contents htask htable hstored hupdated
            dsimp only
            split
            · exact storeSet_steps rfl hstore hwrites rfl
            · exact storeSet_steps rfl hstore hwrites rfl

theorem opIntake_agent (w : W) (args : List (String × Json)) : (b.opIntake d w args).agent = b := by
  rw [opIntake.eq_def]
  repeat' split
  all_goals rfl

theorem opCalendar_agent (tools : Capabilities) (w : W) (args : List (String × Json)) :
    (b.opCalendar d tools w args).agent = b := by
  rw [opCalendar.eq_def]
  repeat' split
  all_goals rfl

theorem opRegistry_agent (w : W) : (b.opRegistry d w).agent = b := by
  rw [opRegistry.eq_def]
  repeat' split
  all_goals rfl

/-- Whatever is not the setup writes one value at most. -/
theorem run_steps (tools : Capabilities) (o : Outside) (w : W)
    (h : Task.ofName (field d.payload "task") ≠ some .setup) :
    b.Steps d (b.run d tools o w).agent.table := by
  rw [run]
  cases htask : Task.ofName (field d.payload "task") with
  | none => exact .inl rfl
  | some task =>
    cases task with
    | intake => exact .inl (congrArg table (opIntake_agent w _))
    | intakeFile => exact .inl rfl
    | intakeEmail => exact .inl rfl
    | intakePdf => exact .inl rfl
    | accept => exact opAccept_steps w htask
    | acceptDeterministic => exact opAcceptDeterministic_steps w htask
    | ruleAdd => exact opRuleAdd_steps w htask
    | calendar => exact .inl (congrArg table (opCalendar_agent tools w _))
    | registry => exact .inl (congrArg table (opRegistry_agent w))
    | markPaid => exact opMarkStatus_steps .markPaid w (.inl htask)
    | markStatus => exact opMarkStatus_steps .markStatus w (.inr htask)
    | setup => exact absurd htask h

theorem configure_store {child : Agent W} {o : Outside} {path : String} {keys : List Json}
    (hpath : path ≠ "") : child.configure o (configureDirective path keys) =
      match o.state with
      | .error e => (.error e,child)
      | .ok store => (.ok (child.ok (configureDirective path keys)),
          { child with stateStore := some store }) := by
  have hrules : (((configureDirective path keys).payload.get "rules").getD (.list [])).elements =
      .ok [] := rfl
  have henvelope : child.grantEnvelope (configureDirective path keys) = .ok child := rfl
  have htasks : (child.grantVerifier (configureDirective path keys)).grantField
      (configureDirective path keys) "tasks" = (.ok (),child) := rfl
  have hverifiers : child.grantField (configureDirective path keys) "verifiers" =
      (.ok (),child) := rfl
  have hgrants : Agent.grantsPath (configureDirective path keys) "state" = true :=
    decide_eq_true hpath
  have htrajectory : Agent.grantTrajectory o (configureDirective path keys) = .ok () := rfl
  rw [Agent.configure,hrules,henvelope]
  simp only [htasks,hverifiers,Agent.grantState,hgrants,if_true,htrajectory]
  cases o.state <;> rfl

/-- A setup that is acknowledged has opened the store at its path; another one has left the table
as it was. -/
theorem configureStore_table (o : Outside) (w : W) (child : StoreAgent W) {path : String}
    (hpath : path ≠ "") (keys : List Json) (hstore : b.store = some child) :
    let outcome := b.configureStore d o w child path keys
    (∃ store, o.state = .ok store ∧ outcome.agent.table = some store.contents ∧
      ∃ response, outcome.result = .ok response ∧ response.verified.truthy = true) ∨
    ∃ e, outcome.result = .error e ∧ outcome.agent.table = b.table := by
  dsimp only
  rw [configureStore,configure_store hpath]
  cases hstate : o.state with
  | error e =>
    right
    exact ⟨e,rfl,by simp [table,hstore]⟩
  | ok store => exact .inl ⟨store,rfl,rfl,_,rfl,rfl⟩

/-- The response says whether the store was opened. -/
def acknowledged (result : Except Raised Response) : Bool :=
  match result with
  | .ok response => response.verified.truthy
  | .error _ => false

theorem textOf_ne {value : Json} {s : String} (h : textOf value = some s) :
    value = .str s ∧ s ≠ "" := by
  cases value with
  | str t =>
    rw [textOf] at h
    split at h
    · cases h
    · rename_i hne
      obtain rfl := Option.some.inj h
      exact ⟨rfl,hne⟩
  | _ => cases h

theorem spawnStore_table {o : Outside} (h : b.store = none) :
    (b.spawnStore d o).2.table = none := by
  rw [spawnStore.eq_def]
  dsimp only
  split
  · rw [table,h]
    rfl
  · split
    · rfl
    · rw [table,h]
      rfl

theorem opSetup_table (o : Outside) (w : W) (args : List (String × Json)) :
    let outcome := b.opSetup d o w args
    if acknowledged outcome.result then ∃ store path, o.state = .ok store ∧
      get args "state" = .str path ∧ outcome.agent.table = some store.contents
    else outcome.agent.table = b.table := by
  dsimp only
  rw [opSetup.eq_def]
  split
  · rfl
  · rename_i keys hkeys
    split
    · rfl
    · rename_i path hpath
      obtain ⟨hstate,hne⟩ := textOf_ne hpath
      have hconfigured {c : BillsAgent W} (hc : c.table = b.table) {child : StoreAgent W}
          (hchild : c.store = some child) :
          if acknowledged (c.configureStore d o w child path (grantedKeys keys)).result then
            ∃ store path', o.state = .ok store ∧ get args "state" = .str path' ∧
              (c.configureStore d o w child path (grantedKeys keys)).agent.table =
                some store.contents
          else (c.configureStore d o w child path (grantedKeys keys)).agent.table = b.table := by
        rcases configureStore_table o w child hne (grantedKeys keys) hchild with
          ⟨store,hopened,htable,response,hresult,hverified⟩ | ⟨e,hresult,htable⟩
        · have hacknowledged : acknowledged
              (c.configureStore d o w child path (grantedKeys keys)).result = true := by
            rw [hresult]
            exact hverified
          rw [if_pos hacknowledged]
          exact ⟨store,path,hopened,hstate,htable⟩
        · rw [hresult]
          exact htable.trans hc
      split
      · rename_i child hchild
        exact hconfigured rfl hchild
      · rename_i hnone
        have hb : b.table = none := by rw [table,hnone]; rfl
        have hspawned : (b.spawnStore d o).2.table = none := spawnStore_table hnone
        have hsame := hspawned.trans hb.symm
        generalize b.spawnStore d o = r at hsame
        obtain ⟨result,⟨base,rules,child⟩⟩ := r
        cases result with
        | error e => exact hsame
        | ok response =>
          cases child with
          | some child => exact hconfigured hsame rfl
          | none => exact hsame

end BillsAgent
end AgentCentric.BillsLoop

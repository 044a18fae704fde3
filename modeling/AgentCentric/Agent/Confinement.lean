import AgentCentric.Agent.StoreAgent

namespace AgentCentric
open Json Transducer Unwinding

/-- No granted key tells the stores apart. -/
structure SameServed (storeKeys : List String) (s t : StateStore) : Prop where
  connected : t.connected = s.connected
  readOnly : t.readOnly = s.readOnly
  rows : ∀ key, isServed storeKeys key = true → t.contents.get key = s.contents.get key

/-- The rows of the other keys are left alone. A closed store is not written to. -/
def Untouched (storeKeys : List String) (before after : Option StateStore) : Prop :=
  ∀ t, after = some t → ∃ s, before = some s ∧
    ∀ key, isServed storeKeys key = false → t.contents.get key = s.contents.get key

variable {key : String}

namespace SameServed
variable {storeKeys : List String} {s t : StateStore}

theorem refl (s : StateStore) : SameServed storeKeys s s := ⟨rfl,rfl,fun _ _ => rfl⟩

theorem get (h : SameServed storeKeys s t) (hkey : isServed storeKeys key = true) :
    t.get key = s.get key := by
  simp only [StateStore.get,h.connected,h.rows key hkey]

theorem get_closed (h : SameServed storeKeys s t) (hclosed : s.connected = false) (key : String) :
    t.get key = s.get key := by
  simp only [StateStore.get,h.connected,hclosed]
  rfl

theorem keys (h : SameServed storeKeys s t) :
    (t.keys.map fun all => (all.filter (isServed storeKeys)).insertionSort (· ≤ ·)) =
      s.keys.map fun all => (all.filter (isServed storeKeys)).insertionSort (· ≤ ·) := by
  have hperm : (t.contents.keys.filter (isServed storeKeys)).Perm
      (s.contents.keys.filter (isServed storeKeys)) := by
    have hnodup (d : Dict String StateRow) : (d.keys.filter (isServed storeKeys)).Nodup :=
      d.nodup.filter _
    rw [List.perm_ext_iff_of_nodup (hnodup t.contents) (hnodup s.contents)]
    intro key
    simp only [List.mem_filter,and_congr_left_iff]
    intro hkey
    have hrow := congrArg Option.isSome (h.rows key hkey)
    have hmem (d : Dict String StateRow) : key ∈ d.keys ↔ (d.get key).isSome = true :=
      (Dict.lookup_isSome d.entries key).symm
    rw [hmem,hmem,hrow]
  have hsorted : ((t.contents.keys.insertionSort (· ≤ ·)).filter (isServed storeKeys)).Perm
      ((s.contents.keys.insertionSort (· ≤ ·)).filter (isServed storeKeys)) :=
    ((List.perm_insertionSort (· ≤ ·) t.contents.keys).filter _).trans
      (hperm.trans ((List.perm_insertionSort (· ≤ ·) s.contents.keys).filter _).symm)
  have heq := insertionSort_congr (· ≤ ·) hsorted fun a _ b _ => le_antisymm
  simp only [StateStore.keys,h.connected]
  split
  · rfl
  · simp only [Except.map,heq]

end SameServed

namespace StateStore

def writable (s : StateStore) : Bool := s.connected && !s.readOnly

/-- The row that a write leaves where `old` was. -/
def written (old : Option StateRow) (value : Json) (fingerprint : String) : StateRow :=
  match old with
  | some row => if row.writeFingerprint = fingerprint then row else ⟨value.dumps,fingerprint⟩
  | none => ⟨value.dumps,fingerprint⟩

theorem set_writable {s : StateStore} (h : s.writable = true) (key : String) (value : Json)
    (fingerprint : String) : ∃ s', s.set key value fingerprint = .ok s' ∧
      s'.connected = s.connected ∧ s'.readOnly = s.readOnly ∧ ∀ k, s'.contents.get k =
        if key = k then some (written (s.contents.get key) value fingerprint)
        else s.contents.get k := by
  simp only [writable,Bool.and_eq_true,Bool.not_eq_true'] at h
  cases hrow : s.contents.get key with
  | none =>
    refine ⟨{ s with contents := s.contents.set key ⟨value.dumps,fingerprint⟩ },
      by simp [set,h,hrow],rfl,rfl,fun k => ?_⟩
    rw [Dict.get_set,written]
  | some row =>
    by_cases hfp : row.writeFingerprint = fingerprint
    · refine ⟨s,by simp [set,h,hrow,hfp],rfl,rfl,fun k => ?_⟩
      by_cases hk : key = k
      · rw [← hk,if_pos rfl,hrow,written,if_pos hfp]
      · rw [if_neg hk]
    · refine ⟨{ s with contents := s.contents.set key ⟨value.dumps,fingerprint⟩ },
        by simp [set,h,hrow,hfp],rfl,rfl,fun k => ?_⟩
      rw [Dict.get_set,written,if_neg hfp]

theorem set_unwritable {s : StateStore} (h : s.writable = false) (key : String) (value : Json)
    (fingerprint : String) : s.set key value fingerprint =
      .error (if s.readOnly then .readOnly else .notOpen) := by
  cases hro : s.readOnly with
  | true => simp [set,hro]
  | false =>
    have hclosed : s.connected = false := by simpa [writable,hro] using h
    simp [set,hro,hclosed]

end StateStore

namespace SameServed
variable {storeKeys : List String} {s t : StateStore}

theorem writable (h : SameServed storeKeys s t) : t.writable = s.writable := by
  rw [StateStore.writable,StateStore.writable,h.connected,h.readOnly]

theorem set_unwritable (h : SameServed storeKeys s t) (hclosed : s.writable = false)
    (key : String) (value : Json) (fingerprint : String) :
    t.set key value fingerprint = s.set key value fingerprint := by
  rw [StateStore.set_unwritable hclosed,StateStore.set_unwritable (h.writable ▸ hclosed),
    h.readOnly]

theorem set (h : SameServed storeKeys s t) (hkey : isServed storeKeys key = true)
    (hopen : s.writable = true) (value : Json) (fingerprint : String) :
    ∃ s' t', s.set key value fingerprint = .ok s' ∧ t.set key value fingerprint = .ok t' ∧
      SameServed storeKeys s' t' ∧ Untouched storeKeys (some s) (some s') := by
  obtain ⟨s',hs,hsc,hsr,hsrows⟩ := StateStore.set_writable hopen key value fingerprint
  obtain ⟨t',ht,htc,htr,htrows⟩ :=
    StateStore.set_writable (h.writable ▸ hopen) key value fingerprint
  refine ⟨s',t',hs,ht,⟨?_,?_,?_⟩,?_⟩
  · rw [htc,hsc,h.connected]
  · rw [htr,hsr,h.readOnly]
  · intro k hk
    rw [htrows,hsrows,h.rows key hkey,h.rows k hk]
  · rintro _ ⟨⟩
    refine ⟨s,rfl,fun k hk => ?_⟩
    have hne : ¬ key = k := by
      rintro rfl
      exact absurd (hkey.symm.trans hk) (by decide)
    rw [hsrows,if_neg hne]

end SameServed

theorem keyNamed_eq_some {value : Json} (h : keyNamed value = some key) :
    value = .str key ∧ key ≠ "" := by
  cases value with
  | str text =>
    simp only [keyNamed] at h
    split at h
    · cases h
    · rename_i hne
      cases h
      exact ⟨rfl,hne⟩
  | _ => simp [keyNamed] at h

variable {d : Directive}

namespace Agent
variable {W : Type}

def withStore (a : Agent W) (store : Option StateStore) : Agent W :=
  { a with stateStore := store }

@[simp] theorem withStore_stateStore (a : Agent W) (store : Option StateStore) :
    (a.withStore store).stateStore = store := rfl

@[simp] theorem withStore_results (a : Agent W) (store : Option StateStore) :
    (a.withStore store).results = a.results := rfl

@[simp] theorem withStore_self (a : Agent W) : a.withStore a.stateStore = a := rfl

def turnWithStore (t : Turn W) (store : Option StateStore) : Turn W :=
  { t with agent := t.agent.withStore store }

theorem execute_withStore (a : Agent W) (d : Directive) (taskName : String) (task : Callable W)
    (w : W) (store : Option StateStore) : (a.withStore store).execute d taskName task w =
      turnWithStore (a.execute d taskName task w) store := by
  cases hargs : runArgs d with
  | dict items =>
    cases hcall : task.call items w with
    | mk value w₁ =>
      cases value with
      | error e => simp only [execute,hargs,hcall]; rfl
      | ok value =>
        cases hverify : a.verify value (a.verifierFor d) w₁ with
        | mk verified w₂ =>
          have hverify' : (a.withStore store).verify value ((a.withStore store).verifierFor d) w₁ =
              (verified,w₂) := hverify ▸ rfl
          cases verified <;> (simp only [execute,hargs,hcall,hverify,hverify']; rfl)
  | _ => simp only [execute,hargs]; rfl

theorem runTask_withStore (a : Agent W) (late : Bool) (d : Directive) (w : W)
    (store : Option StateStore) :
    (a.withStore store).runTask late d w = turnWithStore (a.runTask late d w) store := by
  cases hkept : a.results.get d.fingerprint with
  | some response => simp only [runTask,withStore_results,hkept]; rfl
  | none =>
    by_cases hused : (d.correlationId,d.kind) ∈ a.usedKeys
    · have hused' : (d.correlationId,d.kind) ∈ (a.withStore store).usedKeys := hused
      simp only [runTask,withStore_results,hkept,if_pos hused,if_pos hused']
      rfl
    · have hused' : (d.correlationId,d.kind) ∉ (a.withStore store).usedKeys := hused
      simp only [runTask,withStore_results,hkept,if_neg hused,if_neg hused']
      cases field d.payload "task" with
      | str taskName =>
        have hviolation : (a.withStore store).violation late d = a.violation late d := rfl
        have hresolve : (a.withStore store).resolve taskName = a.resolve taskName := rfl
        simp only [hviolation,hresolve]
        cases a.violation late d with
        | some reason => rfl
        | none =>
          cases a.resolve taskName with
          | none => rfl
          | some task => exact execute_withStore (a.counted false) d taskName task w store
      | _ => rfl

theorem runTask_stateStore (a : Agent W) (late : Bool) (d : Directive) (w : W) :
    (a.runTask late d w).agent.stateStore = a.stateStore := by
  unfold runTask execute
  repeat' split
  all_goals rfl

theorem bindChild_withStore (a : Agent W) (o : Outside) (d : Directive) (identity : Json)
    (store : Option StateStore) : (a.withStore store).bindChild o d identity =
      ((a.bindChild o d identity).1,(a.bindChild o d identity).2.withStore store) := by
  have hdeclares : (a.withStore store).declares (field d.payload "kind") =
    a.declares (field d.payload "kind") := rfl
  unfold bindChild
  dsimp only
  rw [hdeclares]
  by_cases hkind : a.declares (field d.payload "kind")
  · simp only [hkind,not_true_eq_false,if_false]
    cases o.bound with
    | error e => rfl
    | ok reason =>
      cases reason with
      | some reason => rfl
      | none => cases identity <;> rfl
  · simp only [hkind]
    rfl

theorem spawn_withStore (a : Agent W) (o : Outside) (d : Directive) (store : Option StateStore) :
    (a.withStore store).spawn o d = ((a.spawn o d).1,(a.spawn o d).2.withStore store) := by
  have hviolation : (a.withStore store).violation o.late d = a.violation o.late d := rfl
  have hchild (identity : Json) : (a.withStore store).hasChild identity = a.hasChild identity := rfl
  have hcounted : (a.withStore store).counted true = (a.counted true).withStore store := rfl
  unfold spawn
  dsimp only
  rw [hviolation]
  split
  · rfl
  · cases a.violation o.late d with
    | some reason => rfl
    | none =>
      cases field d.payload "identity" <;> first
        | rfl
        | (dsimp only; rw [hchild,hcounted,bindChild_withStore]; split <;> rfl)

/-- What is answered to a write, and what it leaves. -/
def wrote (a : Agent W) (d : Directive) (failed : StoreError → String) :
    Except StoreError StateStore → Response × Agent W
  | .error e => (a.error d (failed e),a)
  | .ok store => (a.ok d,a.withStore (some store))

theorem opStoreSet_served {a : Agent W} {s : StateStore} {storeKeys : List String}
    (hstore : a.stateStore = some s)
    (hkey : keyNamed ((Dict.lookup (opArgs d) "key").getD .null) = some key)
    (hserved : isServed storeKeys key = true) : a.opStoreSet storeKeys d =
      a.wrote d (fun e => "store write failed: " ++ e.text)
        (s.set key ((Dict.lookup (opArgs d) "value").getD .null) d.fingerprint.text) := by
  simp only [opStoreSet,hstore,hkey,hserved,not_true_eq_false,if_false]
  cases s.set key ((Dict.lookup (opArgs d) "value").getD .null) d.fingerprint.text <;> rfl

theorem stateSet_named {a : Agent W} {s : StateStore}
    (hstore : a.stateStore = some s) (hkey : keyNamed (field d.payload "key") = some key)
    (hnew : a.results.get d.fingerprint = none) : a.stateSet d =
      a.wrote d (fun e => "state write failed: " ++ e.text)
        (s.set key (field d.payload "value") d.fingerprint.text) := by
  obtain ⟨hfield,hne⟩ := keyNamed_eq_some hkey
  simp only [stateSet,hstore,hfield,hne,hnew,if_false,Option.isSome_none,Bool.false_eq_true]
  cases s.set key (field d.payload "value") d.fingerprint.text <;> rfl

theorem stateSet_unnamed {a : Agent W} {s : StateStore}
    (hstore : a.stateStore = some s) (hkey : keyNamed (field d.payload "key") = none) :
    a.stateSet d = (a.error d "state_set requires a 'key'",a) := by
  unfold stateSet
  rw [hstore]
  dsimp only
  cases hfield : field d.payload "key" with
  | str key =>
    have hempty : key = "" := by simpa [hfield,keyNamed] using hkey
    dsimp only
    rw [if_pos hempty]
  | _ => rfl

theorem stateSet_kept {a : Agent W} {s : StateStore}
    (hstore : a.stateStore = some s) (hkey : keyNamed (field d.payload "key") = some key)
    (hkept : (a.results.get d.fingerprint).isSome = true) : a.stateSet d = (a.ok d,a) := by
  obtain ⟨hfield,hne⟩ := keyNamed_eq_some hkey
  simp only [stateSet,hstore,hfield,hne,hkept,if_false,if_true]
  rfl

/-- What `state_get` makes of the row. -/
def readState (a : Agent W) (d : Directive) (key : String) :
    Except StoreError Json → Except Raised Response
  | .error .decode => .error (.rejected StoreError.decode.text)
  | .error e => .ok (a.error d ("state read failed: " ++ e.text))
  | .ok .null => .ok (a.error d ("state key " ++ pyRepr key ++ " not found"))
  | .ok value => .ok
      { Response.plain d.correlationId .result true a.identity with value := .json value }

theorem stateGet_named {a : Agent W} {s : StateStore}
    (hstore : a.stateStore = some s) (hkey : keyNamed (field d.payload "key") = some key) :
    a.stateGet d = a.readState d key (s.get key) := by
  obtain ⟨hfield,hne⟩ := keyNamed_eq_some hkey
  simp only [stateGet,hstore,hfield,hne,if_false]
  cases s.get key with
  | error e => cases e <;> rfl
  | ok value => cases value <;> rfl

theorem stateGet_unnamed {a : Agent W} {s : StateStore}
    (hstore : a.stateStore = some s) (hkey : keyNamed (field d.payload "key") = none) :
    a.stateGet d = .ok (a.error d "state_get requires a 'key'") := by
  unfold stateGet
  rw [hstore]
  dsimp only
  cases hfield : field d.payload "key" with
  | str key =>
    have hempty : key = "" := by simpa [hfield,keyNamed] using hkey
    dsimp only
    rw [if_pos hempty]
  | _ => rfl

end Agent

variable {store : Option StateStore}

namespace StoreAgent
variable {W : Type} {storeKeys : List String}

/-- Agents that differ in what an ungranted key holds at most. -/
def Alike (storeKeys : List String) (a b : Agent W) : Prop :=
  ∃ store, b = a.withStore store ∧ Option.Rel (SameServed storeKeys) a.stateStore store

/-- A turn of `a`, and the turn of an agent like it. -/
structure Confines (storeKeys : List String) (a : Agent W) (t t' : Turn W) : Prop where
  outcome : t'.outcome = t.outcome
  world : t'.world = t.world
  agent : Alike storeKeys t.agent t'.agent
  kept : Untouched storeKeys a.stateStore t.agent.stateStore

/-- `state_get` and `state_set` ask for no grant: the directive names an ungranted key, and the
row is read and sent, or written. -/
def bypasses (storeKeys : List String) (a : Agent W) (d : Directive) : Bool :=
  match a.stateStore,keyNamed (field d.payload "key") with
  | some store,some key => !isServed storeKeys key && match d.kind with
    | .stateGet => store.connected && a.alive && d.correlationId ≠ ""
    | .stateSet => store.writable && (a.results.get d.fingerprint).isNone
    | _ => false
  | _,_ => false

theorem untouched_refl (store : Option StateStore) : Untouched storeKeys store store :=
  fun t ht => ⟨t,ht,fun _ _ => rfl⟩

theorem confines_of_same {a : Agent W} {t t' : Turn W}
    (hrel : Option.Rel (SameServed storeKeys) a.stateStore store)
    (hstore : t.agent.stateStore = a.stateStore) (hturn : t' = Agent.turnWithStore t store) :
    Confines storeKeys a t t' := by
  subst hturn
  refine ⟨rfl,rfl,⟨store,rfl,?_⟩,?_⟩
  · rw [hstore]
    exact hrel
  · rw [hstore]
    exact untouched_refl _

theorem base_confines {a : Agent W} (o : Outside) (w : W)
    (hrel : Option.Rel (SameServed storeKeys) a.stateStore store)
    (hconfigure : d.kind ≠ .configure) (hget : d.kind ≠ .stateGet) (hset : d.kind ≠ .stateSet) :
    Confines storeKeys a (a.handle o d w) ((a.withStore store).handle o d w) := by
  unfold Agent.handle
  cases hkind : d.kind with
  | configure => exact absurd hkind hconfigure
  | stateGet => exact absurd hkind hget
  | stateSet => exact absurd hkind hset
  | run =>
    have hturn := Agent.runTask_withStore a o.late d w store
    exact confines_of_same hrel (Agent.runTask_stateStore a o.late d w) hturn
  | spawn =>
    refine confines_of_same hrel ?_ (by rw [Agent.spawn_withStore]; rfl)
    unfold Agent.spawn Agent.bindChild Agent.provision
    dsimp only
    repeat' split
    all_goals rfl
  | register =>
    refine confines_of_same hrel ?_ ?_
    · unfold Agent.registerCapability
      dsimp only
      repeat' split
      all_goals rfl
    · unfold Agent.registerCapability
      dsimp only
      cases field d.payload "name" with
      | str name =>
        dsimp only
        split <;> rfl
      | _ => rfl
  | resolve => exact confines_of_same hrel rfl rfl
  | audit =>
    refine confines_of_same hrel rfl ?_
    unfold Agent.audit
    cases o.rows <;> rfl
  | ping => exact confines_of_same hrel rfl rfl
  | kill => exact ⟨rfl,rfl,⟨none,rfl,.none⟩,fun _ h => nomatch h⟩

theorem confines_answer {a : Agent W} {w : W} {outcome outcome' : Except Raised Response}
    (hrel : Option.Rel (SameServed storeKeys) a.stateStore store) (hsame : outcome' = outcome) :
    Confines storeKeys a ⟨outcome,a,w,false⟩ ⟨outcome',a.withStore store,w,false⟩ :=
  confines_of_same hrel rfl (by rw [hsame]; rfl)

theorem confines_write {a : Agent W} {s t : StateStore}
    (hstore : a.stateStore = some s) (hsame : SameServed storeKeys s t)
    (hkey : isServed storeKeys key = true ∨ s.writable = false) (value : Json)
    (failed : StoreError → String) (w : W) : Confines storeKeys a
      ⟨.ok (a.wrote d failed (s.set key value d.fingerprint.text)).1,
        (a.wrote d failed (s.set key value d.fingerprint.text)).2,w,false⟩
      ⟨.ok ((a.withStore (some t)).wrote d failed (t.set key value d.fingerprint.text)).1,
        ((a.withStore (some t)).wrote d failed (t.set key value d.fingerprint.text)).2,w,
        false⟩ := by
  have hrel : Option.Rel (SameServed storeKeys) a.stateStore (some t) := by
    rw [hstore]
    exact .some hsame
  cases hopen : s.writable with
  | false =>
    rw [hsame.set_unwritable hopen,StateStore.set_unwritable hopen]
    exact confines_answer hrel rfl
  | true =>
    have hserved : isServed storeKeys key = true := by simpa [hopen] using hkey
    obtain ⟨s',t',hs,ht,hsame',hkept⟩ := hsame.set hserved hopen value d.fingerprint.text
    rw [hs,ht]
    exact ⟨rfl,rfl,⟨some t',rfl,.some hsame'⟩,hstore ▸ hkept⟩

theorem opStoreSet_confines {a : Agent W}
    (hrel : Option.Rel (SameServed storeKeys) a.stateStore store) (d : Directive) (w : W) :
    Confines storeKeys a ⟨.ok (a.opStoreSet storeKeys d).1,(a.opStoreSet storeKeys d).2,w,false⟩
      ⟨.ok ((a.withStore store).opStoreSet storeKeys d).1,
        ((a.withStore store).opStoreSet storeKeys d).2,w,false⟩ := by
  cases hs : a.stateStore with
  | none =>
    have hrel' := hrel
    rw [hs] at hrel'
    cases hrel'
    simp only [Agent.opStoreSet,hs,Agent.withStore_stateStore]
    exact confines_answer hrel rfl
  | some s =>
    have hrel' := hrel
    rw [hs] at hrel'
    obtain ⟨hsame⟩ := hrel'
    rename_i t
    cases hkey : keyNamed ((Dict.lookup (opArgs d) "key").getD .null) with
    | none =>
      simp only [Agent.opStoreSet,hs,Agent.withStore_stateStore,hkey]
      exact confines_answer hrel rfl
    | some key =>
      cases hserved : isServed storeKeys key with
      | false =>
        simp only [Agent.opStoreSet,hs,Agent.withStore_stateStore,hkey,hserved]
        exact confines_answer hrel rfl
      | true =>
        rw [Agent.opStoreSet_served hs hkey hserved,
          Agent.opStoreSet_served (Agent.withStore_stateStore a (some t)) hkey hserved]
        exact confines_write hs hsame (.inl hserved) _ _ w

theorem opStoreGet_same {a : Agent W}
    (hrel : Option.Rel (SameServed storeKeys) a.stateStore store) (d : Directive) :
    (a.withStore store).opStoreGet storeKeys d = a.opStoreGet storeKeys d := by
  unfold Agent.opStoreGet
  rw [Agent.withStore_stateStore]
  generalize a.stateStore = before at hrel ⊢
  cases hrel with
  | none => rfl
  | some hsame =>
    dsimp only
    cases keyNamed ((Dict.lookup (opArgs d) "key").getD .null) with
    | none => rfl
    | some key =>
      cases hserved : isServed storeKeys key with
      | false =>
        simp only [hserved]
        rfl
      | true =>
        simp only [hsame.get hserved]
        rfl

theorem opStoreKeys_same {a : Agent W}
    (hrel : Option.Rel (SameServed storeKeys) a.stateStore store) (d : Directive) :
    (a.withStore store).opStoreKeys storeKeys d = a.opStoreKeys storeKeys d := by
  unfold Agent.opStoreKeys
  rw [Agent.withStore_stateStore]
  generalize a.stateStore = before at hrel ⊢
  cases hrel with
  | none => rfl
  | some hsame =>
    rename_i s t
    have hkeys := hsame.keys
    dsimp only
    cases hs : s.keys <;> cases ht : t.keys <;> rw [hs,ht] at hkeys <;>
      simp only [Except.map,reduceCtorEq,Except.ok.injEq,Except.error.injEq] at hkeys
    · rw [hkeys]
      rfl
    · dsimp only
      rw [hkeys]
      rfl

theorem stateSet_confines {a : Agent W}
    (hrel : Option.Rel (SameServed storeKeys) a.stateStore store)
    (hkind : d.kind = .stateSet) (hgood : bypasses storeKeys a d = false) (w : W) :
    Confines storeKeys a ⟨.ok (a.stateSet d).1,(a.stateSet d).2,w,false⟩
      ⟨.ok ((a.withStore store).stateSet d).1,((a.withStore store).stateSet d).2,w,false⟩ := by
  cases hs : a.stateStore with
  | none =>
    have hrel' := hrel
    rw [hs] at hrel'
    cases hrel'
    simp only [Agent.stateSet,hs,Agent.withStore_stateStore]
    exact confines_answer hrel rfl
  | some s =>
    have hrel' := hrel
    rw [hs] at hrel'
    obtain ⟨hsame⟩ := hrel'
    rename_i t
    have ht := Agent.withStore_stateStore a (some t)
    cases hkey : keyNamed (field d.payload "key") with
    | none =>
      rw [Agent.stateSet_unnamed hs hkey,Agent.stateSet_unnamed ht hkey]
      exact confines_answer hrel rfl
    | some key =>
      cases hkept : a.results.get d.fingerprint with
      | some response =>
        have hsome : (a.results.get d.fingerprint).isSome = true := by rw [hkept]; rfl
        rw [Agent.stateSet_kept hs hkey hsome,Agent.stateSet_kept ht hkey hsome]
        exact confines_answer hrel rfl
      | none =>
        rw [Agent.stateSet_named hs hkey hkept,Agent.stateSet_named ht hkey hkept]
        refine confines_write hs hsame ?_ _ _ w
        simp only [bypasses,hs,hkey,hkind,hkept] at hgood
        cases hserved : isServed storeKeys key with
        | true => exact .inl rfl
        | false => exact .inr (by simpa [hserved] using hgood)

theorem handle_eq (a : Agent W) (o : Outside) (w : W)
    (h : d.kind ≠ .run ∨ StoreOp.ofTask (field d.payload "task") = none) :
    handle storeKeys a o d w = a.handle o d w := by
  unfold handle
  by_cases hrun : d.kind = .run
  · have hop : StoreOp.ofTask (field d.payload "task") = none := h.resolve_left fun hne => hne hrun
    rw [if_pos hrun,hop]
  · rw [if_neg hrun]

theorem handle_confines {a : Agent W}
    (hrel : Option.Rel (SameServed storeKeys) a.stateStore store) (o : Outside)
    (w : W) (hconfigure : d.kind ≠ .configure) (hget : d.kind ≠ .stateGet)
    (hgood : bypasses storeKeys a d = false) : Confines storeKeys a (handle storeKeys a o d w)
      (handle storeKeys (a.withStore store) o d w) := by
  by_cases hrun : d.kind = .run
  · cases hop : StoreOp.ofTask (field d.payload "task") with
    | some op =>
      unfold handle
      rw [if_pos hrun,if_pos hrun,hop]
      cases op with
      | set => exact opStoreSet_confines hrel d w
      | get => exact confines_answer hrel (opStoreGet_same hrel d)
      | keys => exact confines_answer hrel (by rw [opStoreKeys_same hrel d])
    | none =>
      rw [handle_eq a o w (.inr hop),handle_eq _ o w (.inr hop)]
      refine base_confines o w hrel hconfigure hget ?_
      rw [hrun]
      decide
  · rw [handle_eq a o w (.inl hrun),handle_eq _ o w (.inl hrun)]
    by_cases hset : d.kind = .stateSet
    · unfold Agent.handle
      rw [hset]
      exact stateSet_confines hrel hset hgood w
    · exact base_confines o w hrel hconfigure hget hset

theorem effectOf_withStore (a : Agent W) (d : Directive) (outcome : Except Raised Response)
    (store : Option StateStore) :
    (a.withStore store).effectOf d outcome = a.effectOf d outcome := by
  cases outcome <;> rfl

theorem readState_unsent {a : Agent W} (h : a.alive = false ∨ d.correlationId = "")
    (key : String) (row : Except StoreError Json) :
    a.effectOf d (a.readState d key row) = .raised a.unsent := by
  cases row with
  | error e =>
    cases e with
    | decode => exact Agent.excused_unsent h _
    | _ => exact Agent.effectOf_unsent h rfl
  | ok value => cases value <;> exact Agent.effectOf_unsent h rfl

theorem stateGet_effect {a : Agent W} (hrel : Option.Rel (SameServed storeKeys) a.stateStore store)
    (hkind : d.kind = .stateGet) (hgood : bypasses storeKeys a d = false) :
    a.effectOf d ((a.withStore store).stateGet d) = a.effectOf d (a.stateGet d) := by
  cases hs : a.stateStore with
  | none =>
    rw [hs] at hrel
    cases hrel
    simp only [Agent.stateGet,hs,Agent.withStore_stateStore]
    rfl
  | some s =>
    rw [hs] at hrel
    obtain ⟨hsame⟩ := hrel
    rename_i t
    have ht := Agent.withStore_stateStore a (some t)
    cases hkey : keyNamed (field d.payload "key") with
    | none =>
      rw [Agent.stateGet_unnamed hs hkey,Agent.stateGet_unnamed ht hkey]
      rfl
    | some key =>
      rw [Agent.stateGet_named hs hkey,Agent.stateGet_named ht hkey]
      have hread (row : Except StoreError Json) :
          (a.withStore (some t)).readState d key row = a.readState d key row := rfl
      rw [hread]
      cases hserved : isServed storeKeys key with
      | true => rw [hsame.get hserved]
      | false =>
        cases hopen : s.connected with
        | false => rw [hsame.get_closed hopen]
        | true =>
          have hmute : a.alive = false ∨ d.correlationId = "" := by
            simp only [bypasses,hs,hkey,hkind,hserved,hopen] at hgood
            by_cases hid : d.correlationId = ""
            · exact .inr hid
            · exact .inl (by simpa [hid] using hgood)
          rw [readState_unsent hmute,readState_unsent hmute]

theorem dispatch_confines (I : Integrity) {a b : Agent W} (h : Alike storeKeys a b) (o : Outside)
    (w : W) (hconfigure : d.kind ≠ .configure) (hgood : bypasses storeKeys a d = false) :
    (b.dispatch (handler storeKeys) I o d w).effect =
        (a.dispatch (handler storeKeys) I o d w).effect ∧
      (b.dispatch (handler storeKeys) I o d w).world =
        (a.dispatch (handler storeKeys) I o d w).world ∧
      Alike storeKeys (a.dispatch (handler storeKeys) I o d w).agent
        (b.dispatch (handler storeKeys) I o d w).agent ∧ Untouched storeKeys a.stateStore
        (a.dispatch (handler storeKeys) I o d w).agent.stateStore := by
  obtain ⟨store,rfl,hrel⟩ := h
  cases hroute : Agent.maybeDelegate d with
  | some target =>
    by_cases hchild : target ∈ a.children
    · have hchild' : target ∈ (a.withStore store).children := hchild
      rw [Agent.dispatch_delegated I o w hroute hchild,
        Agent.dispatch_delegated I o w hroute hchild']
      exact ⟨rfl,rfl,⟨store,rfl,hrel⟩,untouched_refl _⟩
    · have hchild' : target ∉ (a.withStore store).children := hchild
      rw [Agent.dispatch_misrouted I o w hroute hchild,
        Agent.dispatch_misrouted I o w hroute hchild']
      have heffect := effectOf_withStore a d (.ok (a.error d
        ("delegation target " ++ pyRepr target ++ " is not a spawned child"))) store
      exact ⟨heffect,rfl,⟨store,rfl,hrel⟩,untouched_refl _⟩
  | none =>
    rw [Agent.dispatch_handled I a o w hroute,Agent.dispatch_handled I _ o w hroute]
    by_cases hget : d.kind = .stateGet
    · have hturn (a : Agent W) : (handler storeKeys).handle a o d w = ⟨a.stateGet d,a,w,false⟩ := by
        refine (handle_eq a o w (.inl ?_)).trans ?_
        · rw [hget]
          decide
        · unfold Agent.handle
          rw [hget]
      rw [hturn,hturn]
      refine ⟨?_,rfl,⟨store,rfl,hrel⟩,untouched_refl _⟩
      exact (effectOf_withStore a d _ store).trans (stateGet_effect hrel hget hgood)
    · have hturns := handle_confines hrel o w hconfigure hget hgood
      refine ⟨?_,hturns.world,hturns.agent,hturns.kept⟩
      obtain ⟨after,hafter,-⟩ := hturns.agent
      have heffect := effectOf_withStore (handle storeKeys a o d w).agent d
        (handle storeKeys a o d w).outcome after
      rw [← hafter,← hturns.outcome] at heffect
      exact heffect.trans (by rw [hturns.outcome]; rfl)

end StoreAgent

structure Serving (W : Type) where
  agent : StoreAgent W
  world : W
  history : List (Directive × Effect)

namespace Serving
variable {W : Type}

/-- One directive. What is outside, the trajectory with it, may answer by what was done. -/
def step (I : Integrity) (env : List (Directive × Effect) → Outside) (s : Serving W)
    (d : Directive) : Effect × Serving W :=
  let r := s.agent.dispatch I (env s.history) d s.world
  (r.1,⟨r.2.1,r.2.2,s.history ++ [(d,r.1)]⟩)

def start (a : Agent W) (storeKeys : List String) (store : StateStore) (w : W) : Serving W :=
  ⟨⟨a.withStore (some store),storeKeys⟩,w,[]⟩

def Spares (I : Integrity) (env : List (Directive × Effect) → Outside) (s : Serving W)
    (d : Directive) : Prop :=
  Untouched s.agent.storeKeys s.agent.base.stateStore (step I env s d).2.agent.base.stateStore

/-- Whatever the ungranted keys hold, it is left alone, and the responses are the same. -/
def Confined (I : Integrity) (env : List (Directive × Effect) → Outside) (a : Agent W)
    (storeKeys : List String) (store : StateStore) (w : W) (ds : List Directive) : Prop :=
  ∀ s t, SameServed storeKeys store s → SameServed storeKeys store t →
    Along (step I env) (Spares I env) (start a storeKeys s w) ds ∧
    answers (step I env) (start a storeKeys s w) ds =
      answers (step I env) (start a storeKeys t w) ds

/-- The directive is not one of the two that reach an ungranted key. -/
def Mediated (s : Serving W) (d : Directive) : Prop :=
  StoreAgent.bypasses s.agent.storeKeys s.agent.base d = false

/-- States that differ in ungranted rows at most. -/
structure Alike (s t : Serving W) : Prop where
  storeKeys : t.agent.storeKeys = s.agent.storeKeys
  base : StoreAgent.Alike s.agent.storeKeys s.agent.base t.agent.base
  world : t.world = s.world
  history : t.history = s.history

section
variable {I : Integrity} {env : List (Directive × Effect) → Outside}

theorem step_storeKeys (s : Serving W) (hconfigure : d.kind ≠ .configure) :
    (step I env s d).2.agent.storeKeys = s.agent.storeKeys :=
  if_neg hconfigure

theorem step_alike {s t : Serving W} (hconfigure : d.kind ≠ .configure)
    (h : Alike s t) (hgood : Mediated s d) :
    (step I env s d).1 = (step I env t d).1 ∧ Alike (step I env s d).2 (step I env t d).2 ∧
      Spares I env s d := by
  obtain ⟨⟨a,storeKeys⟩,w,history⟩ := s
  obtain ⟨⟨b,keys⟩,v,past⟩ := t
  obtain ⟨hkeys,hbase,hv,hpast⟩ := h
  dsimp only at hkeys hbase hv hpast
  subst hkeys hv hpast
  obtain ⟨heffect,hworld,hagent,hkept⟩ :=
    StoreAgent.dispatch_confines I hbase (env past) v hconfigure hgood
  refine ⟨heffect.symm,⟨?_,?_,hworld,?_⟩,hkept⟩
  · rw [step_storeKeys _ hconfigure,step_storeKeys _ hconfigure]
  · rw [step_storeKeys _ hconfigure]
    exact hagent
  · exact congrArg (fun effect => past ++ [(d,effect)]) heffect

end

theorem sameServed_of {storeKeys : List String} {store s t : StateStore}
    (hs : SameServed storeKeys store s) (ht : SameServed storeKeys store t) :
    SameServed storeKeys s t where
  connected := ht.connected.trans hs.connected.symm
  readOnly := ht.readOnly.trans hs.readOnly.symm
  rows key hkey := (ht.rows key hkey).trans (hs.rows key hkey).symm

theorem mediated_of_alike {s t : Serving W} (h : Alike s t) (hgood : Mediated s d) :
    Mediated t d := by
  obtain ⟨hkeys,⟨store,hbase,hrel⟩,-,-⟩ := h
  unfold Mediated at hgood ⊢
  rw [hkeys,hbase]
  simp only [StoreAgent.bypasses,Agent.withStore_stateStore] at hgood ⊢
  generalize s.agent.base.stateStore = before at hrel hgood
  cases hrel with
  | none => exact hgood
  | some hsame =>
    cases hkey : keyNamed (field d.payload "key") with
    | none => rfl
    | some key =>
      simp only [hkey] at hgood
      simp only [hsame.writable,hsame.connected]
      exact hgood

section
variable {I : Integrity} {env : List (Directive × Effect) → Outside}

theorem mediated_runs {s t : Serving W} {ds : List Directive}
    (hds : ∀ d ∈ ds, d.kind ≠ .configure) (h : Alike s t)
    (hgood : Along (step I env) Mediated s ds) :
    answers (step I env) s ds = answers (step I env) t ds ∧ Along (step I env) Mediated t ds ∧
      Alike (after (step I env) s ds) (after (step I env) t ds) :=
  @answers_alike _ _ _ (step I env) Alike Mediated (fun d => d.kind ≠ .configure)
    (fun _ _ _ => mediated_of_alike)
    (fun _ _ _ hd hst hmed => ⟨(step_alike hd hst hmed).1,(step_alike hd hst hmed).2.1⟩)
    s t ds hds h hgood

theorem alike_refl (s : Serving W) : Alike s s := by
  refine ⟨rfl,⟨s.agent.base.stateStore,rfl,?_⟩,rfl,rfl⟩
  cases s.agent.base.stateStore with
  | none => exact .none
  | some store => exact .some (.refl store)

theorem untouched_trans {storeKeys : List String} {x y z : Option StateStore}
    (h : Untouched storeKeys x y) (h' : Untouched storeKeys y z) : Untouched storeKeys x z := by
  intro t ht
  obtain ⟨s,hs,hrows⟩ := h' t ht
  obtain ⟨r,hr,hrows'⟩ := h s hs
  exact ⟨r,hr,fun key hkey => (hrows key hkey).trans (hrows' key hkey)⟩

theorem mediated_spares {s : Serving W} {ds : List Directive}
    (hds : ∀ d ∈ ds, d.kind ≠ .configure) (hgood : Along (step I env) Mediated s ds) :
    Along (step I env) (Spares I env) s ds ∧
      (after (step I env) s ds).agent.storeKeys = s.agent.storeKeys ∧
      Untouched s.agent.storeKeys s.agent.base.stateStore
        (after (step I env) s ds).agent.base.stateStore := by
  refine Along.keeps (I := fun t => t.agent.storeKeys = s.agent.storeKeys ∧
    Untouched s.agent.storeKeys s.agent.base.stateStore t.agent.base.stateStore) ?_ hds hgood
    ⟨rfl,StoreAgent.untouched_refl _⟩
  rintro t d hd ⟨hkeys,hkept⟩ hmed
  have hspares : Spares I env t d := (step_alike hd (alike_refl t) hmed).2.2
  refine ⟨hspares,(step_storeKeys t hd).trans hkeys,untouched_trans hkept ?_⟩
  rw [← hkeys]
  exact hspares

theorem alike_start (a : Agent W) {storeKeys : List String} {s t : StateStore} (w : W)
    (h : SameServed storeKeys s t) : Alike (start a storeKeys s w) (start a storeKeys t w) :=
  ⟨rfl,⟨some t,rfl,.some h⟩,rfl,rfl⟩

theorem confined_of_mediated {a : Agent W} {storeKeys : List String} {store : StateStore} {w : W}
    {ds : List Directive} (hds : ∀ d ∈ ds, d.kind ≠ .configure)
    (hgood : Along (step I env) Mediated (start a storeKeys store w) ds) :
    Confined I env a storeKeys store w ds := by
  intro s t hs ht
  obtain ⟨-,hs',-⟩ := mediated_runs hds (alike_start a w hs) hgood
  obtain ⟨hsame,-,-⟩ := mediated_runs hds (alike_start a w (sameServed_of hs ht)) hs'
  exact ⟨(mediated_spares hds hs').1,hsame⟩

end

theorem bypasses_cases {storeKeys : List String} {a : Agent W}
    (h : StoreAgent.bypasses storeKeys a d = true) : ∃ store key, a.stateStore = some store ∧
      keyNamed (field d.payload "key") = some key ∧ isServed storeKeys key = false ∧
      ((d.kind = .stateGet ∧ store.connected = true ∧ a.alive = true ∧ d.correlationId ≠ "") ∨
        (d.kind = .stateSet ∧ store.writable = true ∧ a.results.get d.fingerprint = none)) := by
  cases hs : a.stateStore with
  | none => simp [StoreAgent.bypasses,hs] at h
  | some store =>
    cases hkey : keyNamed (field d.payload "key") with
    | none => simp [StoreAgent.bypasses,hs,hkey] at h
    | some key =>
      simp only [StoreAgent.bypasses,hs,hkey,Bool.and_eq_true,Bool.not_eq_true'] at h
      refine ⟨store,key,rfl,rfl,h.1,?_⟩
      cases hkind : d.kind with
      | stateGet =>
        have hread := h.2
        simp only [hkind,Bool.and_eq_true,decide_eq_true_eq] at hread
        exact .inl ⟨rfl,hread.1.1,hread.1.2,hread.2⟩
      | stateSet =>
        have hwrite := h.2
        simp only [hkind,Bool.and_eq_true,Option.isNone_iff_eq_none] at hwrite
        exact .inr ⟨rfl,hwrite⟩
      | _ => simp [hkind] at h

def withRow (store : StateStore) (key : String) : Option StateRow → StateStore
  | none => { store with contents := store.contents.erase key }
  | some row => { store with contents := store.contents.set key row }

theorem sameServed_withRow {storeKeys : List String} (store : StateStore)
    (hkey : isServed storeKeys key = false) (row : Option StateRow) :
    SameServed storeKeys store (withRow store key row) := by
  have hne {k : String} (hk : isServed storeKeys k = true) : key ≠ k := by
    rintro rfl
    exact absurd (hk.symm.trans hkey) (by decide)
  cases row with
  | none => exact ⟨rfl,rfl,fun k hk => by simp [withRow,Dict.get_erase,hne hk]⟩
  | some row => exact ⟨rfl,rfl,fun k hk => Dict.get_set_ne store.contents row (hne hk)⟩

theorem withRow_get (store : StateStore) (key : String) (row : Option StateRow) :
    (withRow store key row).contents.get key = row := by
  cases row with
  | none => simp [withRow,Dict.get_erase]
  | some row => exact Dict.get_set_self store.contents key row

theorem read_missing {a : Agent W} {store : StateStore}
    (halive : a.alive = true) (hid : d.correlationId ≠ "") (hopen : store.connected = true)
    (hrow : store.contents.get key = none) : a.effectOf d (a.readState d key (store.get key)) =
      .answered (a.error d ("state key " ++ pyRepr key ++ " not found")) := by
  have hget : store.get key = .ok .null := by simp [StateStore.get,hopen,hrow]
  simp only [hget,Agent.readState,Agent.effectOf,Agent.sends_error halive hid]

theorem read_number {a : Agent W} {store : StateStore} {key fingerprint : String}
    {n : Int} (halive : a.alive = true) (hid : d.correlationId ≠ "")
    (hopen : store.connected = true)
    (hrow : store.contents.get key = some ⟨(Json.int n).dumps,fingerprint⟩) :
    a.effectOf d (a.readState d key (store.get key)) =
      .answered { Response.plain d.correlationId .result true a.identity with
        value := .json (.int n) } := by
  have hget : store.get key = .ok (.int n) := by
    have hcanonical : (Json.int n).canonical = .int n := by simp [Json.canonical]
    simp [StateStore.get,hopen,hrow,Json.loads_dumps,hcanonical]
  have hsends : a.sends { Response.plain d.correlationId .result true a.identity with
      value := .json (.int n) } = .ok () :=
    Agent.sends_ok halive (Agent.valid_of hid (fun _ => rfl) (by simp [Response.plain]) rfl rfl rfl)
      rfl
  simp only [hget,Agent.readState,Agent.effectOf,hsends]

section
variable {I : Integrity} {env : List (Directive × Effect) → Outside}

theorem step_base {s : Serving W} (hkind : d.kind = .stateGet ∨ d.kind = .stateSet) :
    (step I env s d).1 = (s.agent.base.handle (env s.history) d s.world).agent.effectOf d
          (s.agent.base.handle (env s.history) d s.world).outcome ∧
      (step I env s d).2.agent.base = (s.agent.base.handle (env s.history) d s.world).agent := by
  have hrun : d.kind ≠ .run := by
    rcases hkind with h | h <;> rw [h] <;> decide
  have hroute : Agent.maybeDelegate d = none := by simp [Agent.maybeDelegate,hrun]
  have hhandle : (StoreAgent.handler s.agent.storeKeys).handle s.agent.base (env s.history) d
      s.world = s.agent.base.handle (env s.history) d s.world :=
    StoreAgent.handle_eq s.agent.base (env s.history) s.world (.inl hrun)
  unfold step StoreAgent.dispatch
  dsimp only
  rw [Agent.dispatch_handled I s.agent.base (env s.history) s.world hroute,hhandle]
  exact ⟨rfl,rfl⟩

theorem step_get {s : Serving W} {store : StateStore}
    (hkind : d.kind = .stateGet) (hstore : s.agent.base.stateStore = some store)
    (hkey : keyNamed (field d.payload "key") = some key) : (step I env s d).1 =
      s.agent.base.effectOf d (s.agent.base.readState d key (store.get key)) := by
  rw [(step_base (.inl hkind)).1]
  unfold Agent.handle
  rw [hkind]
  dsimp only
  rw [Agent.stateGet_named hstore hkey]

theorem step_set (I : Integrity) (env : List (Directive × Effect) → Outside) {s : Serving W}
    {store : StateStore} (hkind : d.kind = .stateSet)
    (hstore : s.agent.base.stateStore = some store)
    (hkey : keyNamed (field d.payload "key") = some key) (hopen : store.writable = true)
    (hnew : s.agent.base.results.get d.fingerprint = none) :
    ∃ store' row, (step I env s d).2.agent.base.stateStore = some store' ∧
      store'.contents.get key = some row := by
  obtain ⟨store',hset,-,-,hrows⟩ :=
    StateStore.set_writable hopen key (field d.payload "value") d.fingerprint.text
  refine ⟨store',_,?_,(hrows key).trans (if_pos rfl)⟩
  rw [(step_base (.inr hkind)).2]
  unfold Agent.handle
  rw [hkind]
  dsimp only
  rw [Agent.stateSet_named hstore hkey hnew,hset]
  rfl

theorem reached {a : Agent W} {storeKeys : List String} {store s : StateStore} {w : W}
    {before : List Directive} (hds : ∀ e ∈ before, e.kind ≠ .configure)
    (hgood : Along (step I env) Mediated (start a storeKeys store w) before)
    (hreach : ¬ Mediated (after (step I env) (start a storeKeys store w) before) d)
    (hs : SameServed storeKeys store s) :
    ∃ s' key, (after (step I env) (start a storeKeys s w) before).agent.base.stateStore = some s' ∧
      keyNamed (field d.payload "key") = some key ∧ s'.contents.get key = s.contents.get key ∧
      ((d.kind = .stateGet ∧ s'.connected = true ∧
          (after (step I env) (start a storeKeys s w) before).agent.base.alive = true ∧
          d.correlationId ≠ "") ∨ (d.kind = .stateSet ∧ s'.writable = true ∧
          (after (step I env) (start a storeKeys s w) before).agent.base.results.get
            d.fingerprint = none)) := by
  have hback : SameServed storeKeys s store := sameServed_of hs (.refl store)
  have hgood' := (mediated_runs hds (alike_start a w hs) hgood).2.1
  have halike := (mediated_runs hds (alike_start a w hback) hgood').2.2
  obtain ⟨-,hkeys,hkept⟩ := mediated_spares hds hgood'
  have hreach' : ¬ Mediated (after (step I env) (start a storeKeys s w) before) d :=
    fun hmed => hreach (mediated_of_alike halike hmed)
  rw [Mediated,hkeys,Bool.not_eq_false] at hreach'
  obtain ⟨s',key,hs',hkey,hout,hcases⟩ := bypasses_cases hreach'
  obtain ⟨_,heq,hrows⟩ := hkept s' hs'
  cases heq
  exact ⟨s',key,hs',hkey,hrows key hout,hcases⟩

theorem not_confined {a : Agent W} {storeKeys : List String} {store : StateStore} {w : W}
    {before rest : List Directive} (hds : ∀ e ∈ before ++ d :: rest, e.kind ≠ .configure)
    (hgood : Along (step I env) Mediated (start a storeKeys store w) before)
    (hreach : ¬ Mediated (after (step I env) (start a storeKeys store w) before) d) :
    ¬ Confined I env a storeKeys store w (before ++ d :: rest) := by
  intro hconfined
  have hbefore : ∀ e ∈ before, e.kind ≠ .configure := fun e he => hds e (by simp [he])
  have hout : ∃ key, keyNamed (field d.payload "key") = some key ∧
      isServed storeKeys key = false := by
    have hkeys := (mediated_spares hbefore hgood).2.1
    rw [Mediated,hkeys,Bool.not_eq_false] at hreach
    obtain ⟨-,key,-,hkey,hout,-⟩ := bypasses_cases hreach
    exact ⟨key,hkey,hout⟩
  obtain ⟨key,hkey,hout⟩ := hout
  -- Without a row for the key, and with one.
  have hmissing := sameServed_withRow store hout none
  have hnumber := sameServed_withRow store hout (some ⟨(Json.int 1).dumps,""⟩)
  obtain ⟨s,_,hs,hkeys,hsrow,hscase⟩ := reached hbefore hgood hreach hmissing
  rw [hkey] at hkeys
  cases hkeys
  rw [withRow_get] at hsrow
  obtain ⟨hspares,hanswers⟩ := hconfined _ _ hmissing hnumber
  rcases hscase with ⟨hkind,hsopen,hsalive,hid⟩ | ⟨hkind,hsopen,hsnew⟩
  · obtain ⟨t,_,ht,hkeyt,htrow,htcase⟩ := reached hbefore hgood hreach hnumber
    rw [hkey] at hkeyt
    cases hkeyt
    rw [withRow_get] at htrow
    have hanswer := answer_of_answers hanswers
    rw [step_get hkind hs hkey,step_get hkind ht hkey,
      read_missing hsalive hid hsopen hsrow] at hanswer
    rcases htcase with ⟨-,htopen,htalive,-⟩ | ⟨hset,-,-⟩
    · rw [read_number htalive hid htopen htrow] at hanswer
      cases congrArg Response.kind (Effect.answered.inj hanswer)
    · exact absurd (hkind.symm.trans hset) (by decide)
  · obtain ⟨store',row,hstore',hrow⟩ := step_set I env hkind hs hkey hsopen hsnew
    have hspared := ((along_append _ _ _ _ _).1 hspares).2.1
    have hkept := (mediated_spares hbefore
      (mediated_runs hbefore (alike_start a w hmissing) hgood).2.1).2.1
    rw [Spares,hkept] at hspared
    obtain ⟨_,heq,hrows⟩ := hspared store' hstore'
    rw [hs] at heq
    cases heq
    have hsame := hrows key hout
    rw [hrow,hsrow] at hsame
    cases hsame

/-- Ungranted keys are neither written nor readable exactly if no `state_get` and no `state_set`
that is carried out names one. -/
theorem confined_iff (I : Integrity) (env : List (Directive × Effect) → Outside) (a : Agent W)
    (storeKeys : List String) (store : StateStore) (w : W) {ds : List Directive}
    (hds : ∀ d ∈ ds, d.kind ≠ .configure) :
    Confined I env a storeKeys store w ds ↔
      Along (step I env) Mediated (start a storeKeys store w) ds := by
  constructor
  · intro hconfined
    by_contra hnot
    obtain ⟨before,d,rest,rfl,hgood,hreach⟩ := exists_first hnot
    exact not_confined hds hgood hreach hconfined
  · exact confined_of_mediated hds

end

/-- A key that is not among `bill-*`. -/
def payroll (kind : DirectiveKind) : Directive :=
  ⟨"c1",kind,(Dict.empty.set "key" (.str "payroll")).set "value" (.int 1)⟩

def bill (task : String) : Directive :=
  ⟨"c2",.run,(Dict.empty.set "task" (.str task)).set "args"
    (.dict [("key",.str "bill-b1"),("value",.int 1)])⟩

def clerk : Agent Unit := .new "bills" none []

theorem confined_iff_bills :
    (∀ d ∈ [bill "store_set",bill "store_get",payroll .stateGet], d.kind ≠ .configure) ∧
    (Confined .off (fun _ => Poll.quiet) clerk ["bill-*"] .fresh ()
        [bill "store_set",bill "store_get",payroll .stateGet] ↔
      Along (step .off fun _ => Poll.quiet) Mediated (start clerk ["bill-*"] .fresh ())
        [bill "store_set",bill "store_get",payroll .stateGet]) :=
  have hds : ∀ d ∈ [bill "store_set",bill "store_get",payroll .stateGet], d.kind ≠ .configure := by
    decide
  ⟨hds,confined_iff .off (fun _ => Poll.quiet) clerk ["bill-*"] .fresh () hds⟩

/-- The key is not granted, and yet it is written and read. -/
theorem payroll_reached :
    ¬ Confined .off (fun _ => Poll.quiet) clerk ["bill-*"] .fresh () [payroll .stateSet] ∧
    ¬ Confined .off (fun _ => Poll.quiet) clerk ["bill-*"] .fresh () [payroll .stateGet] := by
  have hkinds (kind : DirectiveKind) (h : kind ≠ .configure) :
      ∀ d ∈ [] ++ payroll kind :: [], d.kind ≠ .configure := by
    intro d hd
    rw [List.mem_singleton.1 hd]
    exact h
  constructor
  · exact not_confined (hkinds .stateSet (by decide)) trivial (by
      rw [Mediated]
      decide +kernel)
  · exact not_confined (hkinds .stateGet (by decide)) trivial (by
      rw [Mediated]
      decide +kernel)

end Serving

end AgentCentric

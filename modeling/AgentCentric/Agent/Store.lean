import AgentCentric.Library.Json
import AgentCentric.Library.Replay
import Mathlib.Data.List.Induction

namespace AgentCentric
open Replay

/-- `StoreError`, and the error of `json.loads`. -/
inductive StoreError where
  | notOpen : StoreError
  | readOnly : StoreError
  | decode : StoreError
  deriving DecidableEq

def StoreError.text : StoreError → String
  | .notOpen => "store is not open"
  | .readOnly => "state store is read-only (cannot write)"
  | .decode => "Expecting value"

/-- A row of the `state` table, beside its key. -/
structure StateRow where
  value : String
  writeFingerprint : String
  deriving DecidableEq

structure StateStore where
  connected : Bool
  readOnly : Bool
  contents : Dict String StateRow

/-- A call of `StateStore.set`. -/
structure SetCall where
  key : String
  value : Json
  fingerprint : String

namespace StateStore

def fresh : StateStore := ⟨true,false,Dict.empty⟩

def set (store : StateStore) (key : String) (value : Json) (fingerprint : String) :
    Except StoreError StateStore :=
  if store.readOnly then .error .readOnly
  else if ¬ store.connected then .error .notOpen
  else
    let encoded := value.dumps
    match store.contents.get key with
    | none => .ok { store with contents := store.contents.set key ⟨encoded,fingerprint⟩ }
    | some row =>
      if row.writeFingerprint ≠ fingerprint then
        .ok { store with contents := store.contents.set key ⟨encoded,fingerprint⟩ }
      else .ok store

/-- A key that is not found reads as `None`. -/
def get (store : StateStore) (key : String) : Except StoreError Json :=
  if ¬ store.connected then .error .notOpen
  else
    match store.contents.get key with
    | none => .ok .null
    | some row =>
      match Json.loads row.value with
      | some value => .ok value
      | none => .error .decode

def keys (store : StateStore) : Except StoreError (List String) :=
  if ¬ store.connected then .error .notOpen
  else .ok (store.contents.keys.insertionSort (· ≤ ·))

def setAll (store : StateStore) (calls : List SetCall) : Except StoreError StateStore :=
  calls.foldlM (fun s c => s.set c.key c.value c.fingerprint) store

end StateStore

namespace SetCall

def row (c : SetCall) : StateRow := ⟨c.value.dumps,c.fingerprint⟩

def on (key : String) (c : SetCall) : Bool := c.key = key

def Consistent (calls : List SetCall) : Prop :=
  ∀ c ∈ calls, ∀ d ∈ calls, c.fingerprint = d.fingerprint →
    c.key = d.key ∧ c.value.canonical = d.value.canonical

/-- `P` of every re-issued call and the calls before it. -/
def EachReplay (P : List SetCall → SetCall → Prop) (calls : List SetCall) : Prop :=
  ∀ before c after, calls = before ++ c :: after → Again fingerprint before c → P before c

def ReplaysChangeNothing : List SetCall → Prop :=
  EachReplay fun before c => ∃ store, StateStore.fresh.setAll before = .ok store ∧
    store.set c.key c.value c.fingerprint = .ok store

def valueOf : Option SetCall → Json
  | some c => c.value.canonical
  | none => .null

def ReadsLatest (calls : List SetCall) : Prop :=
  ∀ before after, calls = before ++ after → ∃ store, StateStore.fresh.setAll before = .ok store ∧
    ∀ k, store.get k = .ok (valueOf (latest (on k) (firstTimes fingerprint before)))

/-- No other directive wrote to the key last when a call is re-issued. -/
def NoStaleReplay : List SetCall → Prop :=
  EachReplay fun before c =>
    ∀ d, latest (on c.key) before = some d → d.fingerprint = c.fingerprint

theorem Consistent.of_append {before after : List SetCall} (h : Consistent (before ++ after)) :
    Consistent before :=
  fun c hc d hd => h c (List.mem_append_left after hc) d (List.mem_append_left after hd)

theorem EachReplay.of_append {P : List SetCall → SetCall → Prop} {before after : List SetCall}
    (h : EachReplay P (before ++ after)) : EachReplay P before := by
  intro first c rest heq hagain
  exact h first c (rest ++ after) (by simp [heq]) hagain

end SetCall

variable {calls : List SetCall} {store : StateStore} {c : SetCall}

namespace StateStore
open SetCall

theorem set_row {row : StateRow} (hwrite : store.readOnly = false) (hopen : store.connected = true)
    (hrow : store.contents.get c.key = some row) (hfp : row.writeFingerprint = c.fingerprint) :
    store.set c.key c.value c.fingerprint = .ok store := by
  simp [set,hwrite,hopen,hrow,hfp]

theorem set_new (hwrite : store.readOnly = false) (hopen : store.connected = true)
    (hfp : ∀ row, store.contents.get c.key = some row → row.writeFingerprint ≠ c.fingerprint) :
    store.set c.key c.value c.fingerprint =
      .ok { store with contents := store.contents.set c.key c.row } := by
  cases hrow : store.contents.get c.key with
  | none => simp [set,hwrite,hopen,hrow,row]
  | some old => simp [set,hwrite,hopen,hrow,row,hfp old hrow]

theorem setAll_concat (store : StateStore) (calls : List SetCall) (c : SetCall) :
    store.setAll (calls ++ [c]) =
      (store.setAll calls).bind fun s => s.set c.key c.value c.fingerprint := by
  unfold setAll
  rw [List.foldlM_append]
  simp only [List.foldlM_cons,List.foldlM_nil,bind_pure]
  rfl

structure Holds (store : StateStore) (calls : List SetCall) : Prop where
  connected : store.connected = true
  writable : store.readOnly = false
  rows : ∀ k, store.contents.get k = (latest (on k) calls).map row

theorem Holds.set (h : Holds store calls) (hcons : Consistent (calls ++ [c])) :
    ∃ store', store.set c.key c.value c.fingerprint = .ok store' ∧ Holds store' (calls ++ [c]) := by
  by_cases hsame : ∃ d, latest (on c.key) calls = some d ∧ d.fingerprint = c.fingerprint
  · obtain ⟨d,hd,hfp⟩ := hsame
    have hrow := h.rows c.key
    rw [hd,Option.map_some] at hrow
    have hmem := List.mem_append_left [c] (latest_mem hd).1
    have hval := (hcons d hmem c (by simp) hfp).2
    have heq : d.row = c.row := by simp [row,hfp,Json.dumps_inj.2 hval]
    refine ⟨store,set_row h.writable h.connected hrow hfp,h.connected,h.writable,?_⟩
    intro k
    rw [latest_concat,h.rows k]
    by_cases hk : c.key = k
    · subst hk
      simp [on,hd,heq]
    · simp [on,hk]
  · have hfp : ∀ r, store.contents.get c.key = some r → r.writeFingerprint ≠ c.fingerprint := by
      intro r hr heq
      rw [h.rows,Option.map_eq_some_iff] at hr
      obtain ⟨d,hd,rfl⟩ := hr
      exact hsame ⟨d,hd,heq⟩
    refine ⟨_,set_new h.writable h.connected hfp,h.connected,h.writable,?_⟩
    intro k
    rw [latest_concat,Dict.get_set,h.rows k]
    by_cases hk : c.key = k <;> simp [on,hk]

theorem holds_fresh : Holds fresh [] := ⟨rfl,rfl,fun _ => rfl⟩

theorem setAll_holds (hcons : Consistent calls) :
    ∃ store, fresh.setAll calls = .ok store ∧ Holds store calls := by
  induction calls using List.reverseRecOn with
  | nil => exact ⟨fresh,rfl,holds_fresh⟩
  | append_singleton calls c ih =>
    obtain ⟨store,hrun,hholds⟩ := ih hcons.of_append
    obtain ⟨store',hset,hholds'⟩ := hholds.set hcons
    refine ⟨store',?_,hholds'⟩
    rw [setAll_concat,hrun]
    exact hset

theorem Holds.get (h : Holds store calls)
    (k : String) : store.get k = .ok (valueOf (latest (on k) calls)) := by
  have hrow := h.rows k
  cases hd : latest (on k) calls with
  | none => simp [StateStore.get,h.connected,hrow,hd,valueOf]
  | some d => simp [StateStore.get,h.connected,hrow,hd,valueOf,row,Json.loads_dumps]

end StateStore

namespace SetCall
open StateStore

theorem Again.on_key {before : List SetCall} (hcons : Consistent (before ++ [c]))
    (hagain : Again fingerprint before c) : ∃ d, latest (on c.key) before = some d ∧ ∃ e ∈ before,
      e.key = c.key ∧ e.fingerprint = c.fingerprint := by
  obtain ⟨e,he,hfp⟩ := List.mem_map.1 hagain
  have hkey := (hcons e (List.mem_append_left [c] he) c (by simp) hfp).1
  obtain ⟨d,hd⟩ := latest_isSome he (p := on c.key) (by simp [on,hkey])
  exact ⟨d,hd,e,he,hkey,hfp⟩

theorem replay_idle_iff {before : List SetCall} (hcons : Consistent (before ++ [c]))
    (hagain : Again fingerprint before c) : (∃ store, fresh.setAll before = .ok store ∧
        store.set c.key c.value c.fingerprint = .ok store) ↔
      ∀ d, latest (on c.key) before = some d → d.fingerprint = c.fingerprint := by
  obtain ⟨store,hrun,hholds⟩ := setAll_holds hcons.of_append
  obtain ⟨d,hd,-⟩ := Again.on_key hcons hagain
  have hrow := hholds.rows c.key
  rw [hd,Option.map_some] at hrow
  simp only [hd,Option.some.injEq,forall_eq']
  constructor
  · rintro ⟨store₁,hrun₁,hidle⟩
    rw [hrun] at hrun₁
    cases hrun₁
    by_contra hfp
    have hother : ∀ r, store.contents.get c.key = some r → r.writeFingerprint ≠ c.fingerprint := by
      intro r hr
      rw [hrow] at hr
      cases hr
      exact hfp
    rw [set_new hholds.writable hholds.connected hother] at hidle
    have hcontents := congrArg (fun s => s.contents.get c.key) (Except.ok.inj hidle)
    simp only [Dict.get_set_self,hrow,Option.some.injEq] at hcontents
    exact hfp (congrArg StateRow.writeFingerprint hcontents).symm
  · intro hfp
    exact ⟨store,hrun,set_row hholds.writable hholds.connected hrow hfp⟩

theorem replaysChangeNothing_iff (hcons : Consistent calls) :
    ReplaysChangeNothing calls ↔ NoStaleReplay calls := by
  have hstep : ∀ before c after, calls = before ++ c :: after → Consistent (before ++ [c]) := by
    intro before c after heq
    rw [heq,← List.singleton_append,← List.append_assoc] at hcons
    exact hcons.of_append
  constructor
  · intro h before c after heq hagain
    exact (replay_idle_iff (hstep before c after heq) hagain).1 (h before c after heq hagain)
  · intro h before c after heq hagain
    exact (replay_idle_iff (hstep before c after heq) hagain).2 (h before c after heq hagain)

theorem NoStaleReplay.latest (hcons : Consistent calls) (h : NoStaleReplay calls) (k : String) :
    valueOf (latest (on k) calls) = valueOf (latest (on k) (firstTimes fingerprint calls)) := by
  induction calls using List.reverseRecOn with
  | nil => rfl
  | append_singleton calls c ih =>
    have hprefix := ih hcons.of_append h.of_append
    by_cases hagain : Again fingerprint calls c
    · rw [firstTimes_concat_again hagain,latest_concat,← hprefix]
      split
      · rename_i hk
        have hkey : c.key = k := by simpa [on] using hk
        obtain ⟨d,hd,-⟩ := Again.on_key hcons hagain
        have hfp := h calls c [] rfl hagain d hd
        have hmem := List.mem_append_left [c] (latest_mem hd).1
        rw [← hkey,hd]
        exact (hcons d hmem c (by simp) hfp).2.symm
      · rfl
    · rw [firstTimes_concat_new hagain,latest_concat,latest_concat]
      split
      · rfl
      · exact hprefix

/-- Re-issued calls change nothing, and a key reads as the latest first-time write to it,
exactly if every re-issued call finds its own fingerprint on the last write to its key. -/
theorem replays_safe_iff {calls : List SetCall} (hcons : Consistent calls) :
    ReplaysChangeNothing calls ∧ ReadsLatest calls ↔ NoStaleReplay calls := by
  constructor
  · rintro ⟨hreplays,-⟩
    exact (replaysChangeNothing_iff hcons).1 hreplays
  · intro h
    refine ⟨(replaysChangeNothing_iff hcons).2 h,?_⟩
    intro before after heq
    subst heq
    obtain ⟨store,hrun,hholds⟩ := setAll_holds hcons.of_append
    refine ⟨store,hrun,fun k => ?_⟩
    rw [hholds.get k,NoStaleReplay.latest hcons.of_append h.of_append k]

/-- Two updates of one key, and the first one again. -/
def retried : List SetCall :=
  [⟨"k",.str "old","c1|state_set|1"⟩,⟨"k",.str "new","c2|state_set|2"⟩,
    ⟨"k",.str "old","c1|state_set|1"⟩]

theorem retried_consistent : Consistent retried := by
  intro c hc d hd
  simp only [retried,List.mem_cons,List.not_mem_nil,or_false] at hc hd
  rcases hc with rfl | rfl | rfl <;> rcases hd with rfl | rfl | rfl <;> simp

theorem replays_safe_iff_retried :
    Consistent retried ∧
      (ReplaysChangeNothing retried ∧ ReadsLatest retried ↔ NoStaleReplay retried) :=
  ⟨retried_consistent,replays_safe_iff retried_consistent⟩

/-- The retry writes, and the old value is back. -/
theorem retried_not_safe :
    Consistent retried ∧ ¬ ReplaysChangeNothing retried ∧ ¬ ReadsLatest retried := by
  refine ⟨retried_consistent,?_,?_⟩
  · intro h
    obtain ⟨store,hrun,hidle⟩ := h (retried.take 2) ⟨"k",.str "old","c1|state_set|1"⟩ [] rfl
      (by decide)
    have hrow : (fresh.setAll (retried.take 2)).map (fun s => s.contents.get "k") =
        .ok (some ⟨"\"new\"","c2|state_set|2"⟩) := by decide
    have hback : ((fresh.setAll (retried.take 2)).bind fun s =>
        s.set "k" (.str "old") "c1|state_set|1").map (fun s => s.contents.get "k") =
        .ok (some ⟨"\"old\"","c1|state_set|1"⟩) := by decide
    simp only [hrun,Except.map,Except.bind,hidle] at hrow hback
    rw [hrow] at hback
    simp at hback
  · intro h
    obtain ⟨store,hrun,hget⟩ := h retried [] rfl
    have hold : (fresh.setAll retried).bind (fun s => s.get "k") = .ok (.str "old") := by rfl
    have hnew : valueOf (latest (on "k") (firstTimes fingerprint retried)) = .str "new" := by rfl
    rw [hrun] at hold
    have hread := hget "k"
    rw [hnew,show store.get "k" = .ok (.str "old") from hold] at hread
    simp at hread

end SetCall
end AgentCentric

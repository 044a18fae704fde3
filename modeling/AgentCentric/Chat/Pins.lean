import AgentCentric.Library.JsonAccess
import Mathlib.Data.List.Induction

namespace AgentCentric.Chat
open Json

structure Request where
  modelId : String
  prompt : String
  templateVersion : String
  context : String
  params : Option (Dict String Json)

/-- `params or {}`. -/
def Request.parameters (r : Request) : Dict String Json := r.params.getD Dict.empty

def Request.items (r : Request) : List (String × Json) :=
  [("model",.str r.modelId),("template_version",.str r.templateVersion),("prompt",.str r.prompt),
    ("context",.str r.context),("params",.dict r.parameters.entries)]

/-- `canonical_json` of what is folded into the key. -/
def Request.material (r : Request) : List Char := (Json.dict r.items).bytes

def requestKey (sha256 : List Char → HexDigest) (r : Request) : String := (sha256 r.material).text

structure Request.Same (r r' : Request) : Prop where
  modelId : r.modelId = r'.modelId
  prompt : r.prompt = r'.prompt
  templateVersion : r.templateVersion = r'.templateVersion
  context : r.context = r'.context
  /-- The same values under the same keys, in any order. -/
  parameters : ∀ k, (r.parameters.get k).map canonical = (r'.parameters.get k).map canonical

theorem material_inj {r r' : Request} : r.material = r'.material ↔ r.Same r' := by
  have hnodup : (r.items.map Prod.fst).Nodup := by
    simp [Request.items]
  have hkeys : r.items.map Prod.fst = r'.items.map Prod.fst := rfl
  rw [Request.material,Request.material,bytes_inj,canonical_dict_inj hkeys hnodup]
  have hstr : ∀ t : String, (Json.str t).canonical = .str t := fun t => by simp [canonical]
  have hparameters := canonical_dict_iff r.parameters.nodup r'.parameters.nodup
  simp only [Request.items,List.map_cons,List.map_nil,List.cons.injEq,Prod.mk.injEq,hstr,
    Json.str.injEq,true_and,and_true,hparameters]
  constructor
  · rintro ⟨hmodel,htemplate,hprompt,hcontext,hsame⟩
    exact ⟨hmodel,hprompt,htemplate,hcontext,hsame⟩
  · rintro ⟨hmodel,hprompt,htemplate,hcontext,hsame⟩
    exact ⟨hmodel,htemplate,hprompt,hcontext,hsame⟩

theorem requestKey_inj {sha256 : List Char → HexDigest} {r r' : Request}
    (hsha : sha256 r.material = sha256 r'.material → r.material = r'.material)
    (h : requestKey sha256 r = requestKey sha256 r') : r.Same r' := by
  have hdigest : sha256 r.material = sha256 r'.material := by
    cases hr : sha256 r.material
    cases hr' : sha256 r'.material
    rw [requestKey,requestKey,hr,hr'] at h
    cases h
    rfl
  exact material_inj.1 (hsha hdigest)

/-- The file behind a cache: one that was there, given by what is read from it, or one that a cache
has written. -/
inductive PinFile where
  | found (read : Option Json)
  | written (text : List Char)

/-- What `_load` makes of the file: anything but a mapping is no pin. -/
def PinFile.load (f : PinFile) : Dict String Json :=
  let read := match f with
    | .found read => read
    | .written text => loadsChars text
  match read with
  | some (.dict items) => Dict.empty.update items
  | _ => Dict.empty

/-- `PinCache`. Without a path there is no file. -/
structure PinCache where
  store : Dict String Json
  file : Option PinFile

namespace PinCache

/-- `PinCache(path)`. -/
def new (file : Option PinFile) : PinCache :=
  ⟨match file with
    | some f => f.load
    | none => Dict.empty,file⟩

def get (c : PinCache) (key : String) : Option Json := c.store.get key

def has (c : PinCache) (key : String) : Bool := (c.get key).isSome

def save (c : PinCache) : PinCache :=
  { c with file := c.file.map fun _ => .written (Json.dict c.store.entries).bytes }

def put (c : PinCache) (key : String) (value : Json) : PinCache :=
  { c with store := c.store.set key value }.save

end PinCache

inductive PinCall where
  | get (key : String)
  | has (key : String)
  | put (key : String) (value : Json)
  | reopen

def PinCache.step (c : PinCache) : PinCall → PinCache
  | .get _ => c
  | .has _ => c
  | .put key value => c.put key value
  | .reopen => if c.file.isSome then .new c.file else c

def PinCache.run (c : PinCache) (calls : List PinCall) : PinCache := calls.foldl PinCache.step c

def firstPut (key : String) : List PinCall → Option Json
  | [] => none
  | .put k value :: calls => if k = key then some value else firstPut key calls
  | _ :: calls => firstPut key calls

def lastPut (key : String) (calls : List PinCall) : Option Json := firstPut key calls.reverse

theorem firstPut_append (key : String) (front rest : List PinCall) :
    firstPut key (front ++ rest) = (firstPut key front).or (firstPut key rest) := by
  induction front with
  | nil => rfl
  | cons call front ih =>
    rw [List.cons_append]
    cases call with
    | put k value =>
      rw [firstPut,firstPut]
      split
      · rfl
      · exact ih
    | _ => exact ih

theorem mem_of_firstPut {key : String} {calls : List PinCall} {v : Json}
    (h : firstPut key calls = some v) : .put key v ∈ calls := by
  induction calls with
  | nil => cases h
  | cons call calls ih =>
    cases call with
    | put k value =>
      rw [firstPut] at h
      split at h
      · rename_i heq
        cases h
        exact heq ▸ List.mem_cons_self
      · exact List.mem_cons_of_mem _ (ih h)
    | _ => exact List.mem_cons_of_mem _ (ih h)

theorem firstPut_isSome {key : String} {calls : List PinCall} {v : Json}
    (h : .put key v ∈ calls) : ∃ u, firstPut key calls = some u := by
  induction calls with
  | nil => cases h
  | cons call calls ih =>
    rcases List.mem_cons.1 h with rfl | h
    · exact ⟨v,by rw [firstPut,if_pos rfl]⟩
    · obtain ⟨u,hu⟩ := ih h
      cases call with
      | put k value =>
        by_cases hk : k = key
        · exact ⟨value,by rw [firstPut,if_pos hk]⟩
        · exact ⟨u,by rw [firstPut,if_neg hk,hu]⟩
      | _ => exact ⟨u,hu⟩

theorem lastPut_concat (key : String) (calls : List PinCall) (call : PinCall) :
    lastPut key (calls ++ [call]) = firstPut key (call :: calls.reverse) := by
  rw [lastPut,List.reverse_append]
  rfl

theorem mem_of_lastPut {key : String} {calls : List PinCall} {v : Json}
    (h : lastPut key calls = some v) : .put key v ∈ calls :=
  List.mem_reverse.1 (mem_of_firstPut h)

theorem load_written (store : Dict String Json) (key : String) :
    (PinFile.written (Json.dict store.entries).bytes).load.get key =
      (store.get key).map canonical := by
  have hkeys : ((sorted store.entries).map Prod.fst).Nodup := by
    have hperm := (List.perm_insertionSort (byKey · ·) (canonicalItems store.entries)).map Prod.fst
    rw [sorted,hperm.nodup_iff,canonicalItems_eq,List.map_map]
    exact store.nodup
  have hupdate := Dict.update_empty (⟨sorted store.entries,hkeys⟩ : Dict String Json)
  simp only [PinFile.load,loadsChars_bytes,canonical_dict]
  rw [hupdate]
  exact lookup_sorted store.entries key

structure Tracks (c : PinCache) (calls : List PinCall) : Prop where
  latest : ∀ key v, lastPut key calls = some v →
    ∃ w, c.get key = some w ∧ w.canonical = v.canonical
  synced : ∀ f, c.file = some f →
    ∀ key, (f.load.get key).map canonical = (c.get key).map canonical

theorem tracks_new (file : Option PinFile) : Tracks (.new file) [] where
  latest key v h := by cases h
  synced f hf key := by
    obtain rfl : file = some f := hf
    rfl

theorem Tracks.step {c : PinCache} {calls : List PinCall} (h : Tracks c calls) (call : PinCall) :
    Tracks (c.step call) (calls ++ [call]) := by
  cases call with
  | get key => exact ⟨fun k v hlast => h.latest k v (by rwa [lastPut_concat] at hlast),h.synced⟩
  | has key => exact ⟨fun k v hlast => h.latest k v (by rwa [lastPut_concat] at hlast),h.synced⟩
  | put key value =>
    constructor
    · intro k v hlast
      rw [lastPut_concat,firstPut] at hlast
      have hget : (c.step (.put key value)).get k = if key = k then some value else c.get k :=
        Dict.get_set c.store key k value
      split at hlast
      · rename_i hk
        cases hlast
        exact ⟨value,by rw [hget,if_pos hk],rfl⟩
      · rename_i hk
        obtain ⟨w,hw,hsame⟩ := h.latest k v hlast
        exact ⟨w,by rw [hget,if_neg hk,hw],hsame⟩
    · intro f hf k
      obtain ⟨f₀,-,rfl⟩ := Option.map_eq_some_iff.1 hf
      rw [load_written]
      have hcanonical : ∀ o : Option Json, (o.map canonical).map canonical = o.map canonical := by
        intro o
        cases o <;> simp [canonical_canonical]
      exact hcanonical _
  | reopen =>
    have hlatest : ∀ k v, lastPut k (calls ++ [.reopen]) = some v → lastPut k calls = some v :=
      fun k v hlast => by rwa [lastPut_concat] at hlast
    cases hfile : c.file with
    | none =>
      have hsame : c.step .reopen = c := by simp [PinCache.step,hfile]
      rw [hsame]
      exact ⟨fun k v hlast => h.latest k v (hlatest k v hlast),h.synced⟩
    | some f =>
      have hopened : c.step .reopen = ⟨f.load,some f⟩ := by
        simp [PinCache.step,hfile,PinCache.new]
      rw [hopened]
      constructor
      · intro k v hlast
        obtain ⟨w,hw,hsame⟩ := h.latest k v (hlatest k v hlast)
        have hsynced := h.synced f hfile k
        rw [hw] at hsynced
        obtain ⟨u,hu,huw⟩ := Option.map_eq_some_iff.1 hsynced
        exact ⟨u,hu,huw.trans hsame⟩
      · intro f' hf' k
        cases hf'
        rfl

theorem tracks_run (file : Option PinFile) (calls : List PinCall) :
    Tracks ((PinCache.new file).run calls) calls := by
  induction calls using List.reverseRecOn with
  | nil => exact tracks_new file
  | append_singleton calls call ih =>
    have hstep : (PinCache.new file).run (calls ++ [call]) =
        ((PinCache.new file).run calls).step call := by
      rw [PinCache.run,PinCache.run,List.foldl_append]
      rfl
    rw [hstep]
    exact ih.step call

def Pinned (c : PinCache) (calls : List PinCall) : Prop :=
  ∀ front rest, calls = front ++ rest → ∀ key v, firstPut key front = some v →
    ∃ w, (c.run front).get key = some w ∧ w.canonical = v.canonical

def Agreed (calls : List PinCall) : Prop :=
  ∀ key v w, firstPut key calls = some v → .put key w ∈ calls → w.canonical = v.canonical

theorem pinned_iff (file : Option PinFile) (calls : List PinCall) :
    Pinned (.new file) calls ↔ Agreed calls := by
  constructor
  · intro h key v w hfirst hput
    obtain ⟨front,rest,rfl⟩ := List.append_of_mem hput
    have hsplit : front ++ .put key w :: rest = (front ++ [.put key w]) ++ rest := by simp
    have hown : firstPut key [.put key w] = some w := by rw [firstPut,if_pos rfl]
    have hfront : firstPut key (front ++ [.put key w]) = some v := by
      rw [hsplit,firstPut_append,firstPut_append,hown] at hfirst
      rw [firstPut_append,hown]
      cases hf : firstPut key front <;> rw [hf] at hfirst <;> exact hfirst
    obtain ⟨u,hu,hsame⟩ := h _ rest hsplit key v hfront
    have hlast : lastPut key (front ++ [.put key w]) = some w := by
      rw [lastPut_concat,firstPut,if_pos rfl]
    obtain ⟨u',hu',hsame'⟩ := (tracks_run file (front ++ [.put key w])).latest key w hlast
    cases hu.symm.trans hu'
    exact hsame'.symm.trans hsame
  · rintro h front rest rfl key v hfirst
    obtain ⟨u,hu⟩ := firstPut_isSome (List.mem_reverse.2 (mem_of_firstPut hfirst))
    obtain ⟨w,hw,hsame⟩ := (tracks_run file front).latest key u hu
    have hall : firstPut key (front ++ rest) = some v := by
      rw [firstPut_append,hfirst]
      rfl
    have hagreed := h key v u hall (List.mem_append_left rest (mem_of_lastPut hu))
    exact ⟨w,hw,hsame.trans hagreed⟩

/-- The first value under each key stays pinned, over files and reopening, if and only if no later
put gives another one; and only the same requests have the same key. -/
theorem pins_first_iff {sha256 : List Char → HexDigest} {r r' : Request}
    (hsha : sha256 r.material = sha256 r'.material → r.material = r'.material)
    (file : Option PinFile) (calls : List PinCall) :
    (Pinned (.new file) calls ∧ (requestKey sha256 r = requestKey sha256 r' → r.Same r')) ↔
      Agreed calls := by
  rw [pinned_iff]
  exact ⟨fun h => h.1,fun h => ⟨h,requestKey_inj hsha⟩⟩

namespace Overridden

def calls : List PinCall := [.put "k" (.int 1),.put "k" (.int 2)]

def request : Request := ⟨"m","p","v0","",none⟩

def bare : Request := ⟨"m","p","v0","",some Dict.empty⟩

end Overridden

/-- The second value replaces the pinned one. -/
theorem pin_overridden : ¬ ∀ (file : Option PinFile) (calls : List PinCall),
    Pinned (.new file) calls := by
  intro h
  obtain ⟨w,hw,hsame⟩ := h none Overridden.calls Overridden.calls [] rfl "k" (.int 1) rfl
  have hget : ((PinCache.new none).run Overridden.calls).get "k" = some (.int 2) := rfl
  cases hget.symm.trans hw
  simp [canonical] at hsame

theorem pins_overridden_iff : (Pinned (.new none) Overridden.calls ∧
    (requestKey (fun _ => HexDigest.repeated 'a' (by decide)) Overridden.request =
      requestKey (fun _ => HexDigest.repeated 'a' (by decide)) Overridden.bare →
        Overridden.request.Same Overridden.bare)) ↔ Agreed Overridden.calls := by
  have hmaterial : Overridden.request.material = Overridden.bare.material := rfl
  exact pins_first_iff (fun _ => hmaterial) none Overridden.calls

end AgentCentric.Chat

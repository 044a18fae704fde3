import AgentCentric.Network.Built

namespace AgentCentric.Network

/-- The number that the `repr` of a float stands for. -/
def floatJson (text : String) : Option Json :=
  if text = "nan" then some .nan
  else if text = "inf" then some .infinity
  else if text = "-inf" then some .negInfinity
  else
    let cs := Json.chars text
    if h : cs.all numberChar = true ∧ cs.any fractionChar = true then
      some (.decimal ⟨cs,h.1,h.2⟩)
    else none

namespace Value

mutual

/-- `none` is the `TypeError` for an object that is not JSON serializable. -/
def json? : Value → Option Json
  | .null => some .null
  | .bool b => some (.bool b)
  | .int n => some (.int n)
  | .float text => floatJson text
  | .str s => some (.str s)
  | .list xs => (jsonList? xs).map .list
  | .dict items => (jsonItems? items).map .dict
  | .iterable _ => none

def jsonList? : List Value → Option (List Json)
  | [] => some []
  | x :: xs => do
      let j ← json? x
      let js ← jsonList? xs
      pure (j :: js)

def jsonItems? : List (String × Value) → Option (List (String × Json))
  | [] => some []
  | (k,v) :: items => do
      let j ← json? v
      let js ← jsonItems? items
      pure ((k,j) :: js)

end

mutual

/-- What `json` reads. -/
def ofJson : Json → Value
  | .null => .null
  | .bool b => .bool b
  | .int n => .int n
  | .decimal d => .float (String.ofList d.chars)
  | .nan => .float "nan"
  | .infinity => .float "inf"
  | .negInfinity => .float "-inf"
  | .str s => .str s
  | .list xs => .list (ofJsonList xs)
  | .dict items => .dict (ofJsonItems items)

def ofJsonList : List Json → List Value
  | [] => []
  | x :: xs => ofJson x :: ofJsonList xs

def ofJsonItems : List (String × Json) → List (String × Value)
  | [] => []
  | (k,v) :: items => (k,ofJson v) :: ofJsonItems items

end

theorem floatJson_decimal (d : Decimal) :
    floatJson (String.ofList d.chars) = some (.decimal d) := by
  have hne : ∀ name : String, name.toList.any (fun c => !numberChar c) = true →
      String.ofList d.chars ≠ name := by
    intro name hname heq
    have hnumber := d.number
    rw [← String.toList_ofList (l := d.chars),heq] at hnumber
    rw [← List.not_all_eq_any_not,hnumber] at hname
    cases hname
  have hchars : Json.chars (String.ofList d.chars) = d.chars := by
    rw [Json.chars_eq,String.toList_ofList]
  rw [floatJson,if_neg (hne "nan" (by decide)),if_neg (hne "inf" (by decide)),
    if_neg (hne "-inf" (by decide))]
  simp only [hchars]
  rw [dif_pos ⟨d.number,d.fraction⟩]

mutual

theorem json_ofJson : ∀ j : Json, (ofJson j).json? = some j
  | .null => rfl
  | .bool _ => rfl
  | .int _ => rfl
  | .decimal d => floatJson_decimal d
  | .nan => rfl
  | .infinity => rfl
  | .negInfinity => rfl
  | .str _ => rfl
  | .list xs => by rw [ofJson,json?,jsonList_ofJson xs,Option.map_some]
  | .dict items => by rw [ofJson,json?,jsonItems_ofJson items,Option.map_some]

theorem jsonList_ofJson : ∀ xs : List Json, jsonList? (ofJsonList xs) = some xs
  | [] => rfl
  | x :: xs => by
    rw [ofJsonList,jsonList?,json_ofJson x,jsonList_ofJson xs]
    rfl

theorem jsonItems_ofJson : ∀ items : List (String × Json),
    jsonItems? (ofJsonItems items) = some items
  | [] => rfl
  | (k,v) :: items => by
    rw [ofJsonItems,jsonItems?,json_ofJson v,jsonItems_ofJson items]
    rfl

end

end Value

def byName {α : Type} (name : α → String) (a b : α) : Bool := name a ≤ name b

/-- `{k: f(v) for k, v in sorted(items)}`. -/
def sortedItems {κ α : Type} (name : κ → String) (items : List (κ × α)) (f : α → Value) : Value :=
  .dict ((items.insertionSort (byName (fun e => name e.1) · ·)).map fun e => (name e.1,f e.2))

def strings (xs : List String) : Value := .list (xs.map .str)

def edgeDict (e : Edge) : Value :=
  .dict [("source",.str e.source),("source_field",.str e.sourceField),("target",.str e.target),
    ("target_arg",.str e.targetArg),("capacity",.int e.capacity)]

def iipDict (i : IIP) : Value :=
  .dict [("component",.str i.component),("port",.str i.port),("value",i.value)]

/-- `key=lambda i: (i.component, i.port)`. -/
def byInport (a b : IIP) : Bool := toLex (a.component,a.port) ≤ toLex (b.component,b.port)

def typeNames (typed : Dict String ValueType) : Value :=
  sortedItems id typed.entries fun t => .str t.name

def componentItems {Net : Type} (c : ComponentOf Net) (body : Value) : List (String × Value) :=
  [("id",.str c.id),("task",.str c.task),("args",.dict c.args.entries),
    ("verifier",.ofJson c.verifier),("child",.ofJson c.child),
    ("ports",sortedItems Direction.name c.ports.entries strings)] ++
  (if c.portTypes.entries = [] then []
    else [("port_types",sortedItems Direction.name c.portTypes.entries typeNames)]) ++
  [("stream",strings c.stream),("external",sortedItems id c.external.entries .str),
    ("subnet",body)]

namespace ComponentNetwork

mutual

def toDict : ComponentNetwork → List (String × Value)
  | .mk components edges iips =>
    [("components",.list (((componentDicts components).insertionSort
        (byName Prod.fst · ·)).map Prod.snd)),
      ("edges",.list (edges.map edgeDict)),
      ("iips",.list ((iips.insertionSort (byInport · ·)).map iipDict))]

def componentDicts : List Component → List (String × Value)
  | [] => []
  | c :: cs => (c.id,componentDict c) :: componentDicts cs

def componentDict : Component → Value
  | ⟨id,task,args,verifier,child,ports,portTypes,stream,external,subnet⟩ =>
    .dict (componentItems
      (⟨id,task,args,verifier,child,ports,portTypes,stream,external,none⟩ : ComponentOf Unit)
      (bodyDict subnet))

def bodyDict : Option ComponentNetwork → Value
  | none => .null
  | some net => .dict (toDict net)

end

def document? (net : ComponentNetwork) : Option Json := (Value.dict net.toDict).json?

/-- `content_hash`; `none` where a value cannot be written. -/
def contentHash (sha256 : List Char → Digest) (net : ComponentNetwork) : Option Digest :=
  net.document?.map fun j => sha256 j.bytes

/-- `components()`. -/
def sortedComponents (net : ComponentNetwork) : List Component :=
  net.components.insertionSort (byName (·.id) · ·)

def sortedIIPs (net : ComponentNetwork) : List IIP := net.iips.insertionSort (byInport · ·)

theorem componentDicts_eq (cs : List Component) :
    componentDicts cs = cs.map fun c => (c.id,componentDict c) := by
  induction cs with
  | nil => rfl
  | cons c cs ih => rw [componentDicts,ih,List.map_cons]

theorem componentDict_eq (c : Component) :
    componentDict c = .dict (componentItems c (bodyDict c.subnet)) := by
  cases c
  rw [componentDict]
  rfl

theorem toDict_eq (net : ComponentNetwork) :
    net.toDict = [("components",.list (net.sortedComponents.map componentDict)),
      ("edges",.list (net.edges.map edgeDict)),("iips",.list (net.sortedIIPs.map iipDict))] := by
  have hsort : ((net.components.map fun c => (c.id,componentDict c)).insertionSort
      (byName Prod.fst · ·)).map Prod.snd = net.sortedComponents.map componentDict := by
    have hmap := List.map_insertionSort (fun a b => byName (·.id) a b = true)
      (fun a b => byName Prod.fst a b = true) (fun c : Component => (c.id,componentDict c))
      net.components fun a _ b _ => Iff.rfl
    rw [sortedComponents,← hmap,List.map_map]
    rfl
  cases net
  rw [toDict,componentDicts_eq]
  simp only [components] at hsort
  rw [hsort]
  rfl

end ComponentNetwork

/-- Both values can be written, and up to the order of keys they are the same text. -/
def Alike (v w : Value) : Prop :=
  ∃ j k, v.json? = some j ∧ w.json? = some k ∧ j.canonical = k.canonical

def Written (v : Value) : Prop := ∃ j, v.json? = some j

theorem alike_self {v : Value} : Alike v v ↔ Written v := by
  constructor
  · rintro ⟨j,_,hj,_,_⟩
    exact ⟨j,hj⟩
  · rintro ⟨j,hj⟩
    exact ⟨j,j,hj,hj,rfl⟩

theorem alike_str {s t : String} : Alike (.str s) (.str t) ↔ s = t := by
  simp [Alike,Value.json?,Json.canonical]

theorem alike_int {m n : Int} : Alike (.int m) (.int n) ↔ m = n := by
  simp [Alike,Value.json?,Json.canonical]

theorem jsonList_cons {v : Value} {vs : List Value} {j : Json} {js : List Json} :
    Value.jsonList? (v :: vs) = some (j :: js) ↔
      v.json? = some j ∧ Value.jsonList? vs = some js := by
  simp only [Value.jsonList?,Option.bind_eq_bind,Option.bind_eq_some_iff,Option.pure_def,
    Option.some.injEq,List.cons.injEq]
  constructor
  · rintro ⟨_,hj,_,hjs,rfl,rfl⟩
    exact ⟨hj,hjs⟩
  · rintro ⟨hj,hjs⟩
    exact ⟨j,hj,js,hjs,rfl,rfl⟩

theorem jsonList_iff {vs : List Value} {js : List Json} :
    Value.jsonList? vs = some js ↔ List.Forall₂ (fun v j => v.json? = some j) vs js := by
  induction vs generalizing js with
  | nil => cases js <;> simp [Value.jsonList?]
  | cons v vs ih =>
    cases js with
    | nil => simp [Value.jsonList?,Option.bind_eq_some_iff]
    | cons j js => rw [jsonList_cons,ih,List.forall₂_cons]

def ItemReads (e : String × Value) (f : String × Json) : Prop :=
  e.1 = f.1 ∧ e.2.json? = some f.2

theorem jsonItems_cons {e : String × Value} {es : List (String × Value)} {f : String × Json}
    {fs : List (String × Json)} : Value.jsonItems? (e :: es) = some (f :: fs) ↔
      ItemReads e f ∧ Value.jsonItems? es = some fs := by
  obtain ⟨k,v⟩ := e
  obtain ⟨k',j⟩ := f
  simp only [Value.jsonItems?,Option.bind_eq_bind,Option.bind_eq_some_iff,Option.pure_def,
    Option.some.injEq,List.cons.injEq,Prod.mk.injEq,ItemReads]
  constructor
  · rintro ⟨_,hj,_,hjs,⟨rfl,rfl⟩,rfl⟩
    exact ⟨⟨rfl,hj⟩,hjs⟩
  · rintro ⟨⟨rfl,hj⟩,hjs⟩
    exact ⟨j,hj,fs,hjs,⟨rfl,rfl⟩,rfl⟩

theorem jsonItems_iff {es : List (String × Value)} {fs : List (String × Json)} :
    Value.jsonItems? es = some fs ↔ List.Forall₂ ItemReads es fs := by
  induction es generalizing fs with
  | nil => cases fs <;> simp [Value.jsonItems?]
  | cons e es ih =>
    cases fs with
    | nil =>
      obtain ⟨k,v⟩ := e
      simp [Value.jsonItems?,Option.bind_eq_some_iff]
    | cons f fs => rw [jsonItems_cons,ih,List.forall₂_cons]

theorem exists_map_eq_iff {α β γ : Type} {P : α → β → Prop} {g : β → γ} {xs ys : List α} :
    (∃ js ks, List.Forall₂ P xs js ∧ List.Forall₂ P ys ks ∧ js.map g = ks.map g) ↔
      List.Forall₂ (fun x y => ∃ j k, P x j ∧ P y k ∧ g j = g k) xs ys := by
  induction xs generalizing ys with
  | nil =>
    cases ys with
    | nil => exact ⟨fun _ => .nil,fun _ => ⟨[],[],.nil,.nil,rfl⟩⟩
    | cons y ys =>
      refine ⟨?_,fun h => by cases h⟩
      rintro ⟨js,ks,hjs,hks,h⟩
      cases hjs
      cases hks
      cases h
  | cons x xs ih =>
    cases ys with
    | nil =>
      refine ⟨?_,fun h => by cases h⟩
      rintro ⟨js,ks,hjs,hks,h⟩
      cases hjs
      cases hks
      cases h
    | cons y ys =>
      rw [List.forall₂_cons,← @ih ys]
      constructor
      · rintro ⟨_,_,hxs,hys,h⟩
        obtain ⟨j,js,hj,hjs,rfl⟩ := List.forall₂_cons_left_iff.mp hxs
        obtain ⟨k,ks,hk,hks,rfl⟩ := List.forall₂_cons_left_iff.mp hys
        simp only [List.map_cons,List.cons.injEq] at h
        exact ⟨⟨j,k,hj,hk,h.1⟩,js,ks,hjs,hks,h.2⟩
      · rintro ⟨⟨j,k,hj,hk,hjk⟩,js,ks,hjs,hks,h⟩
        exact ⟨j :: js,k :: ks,.cons hj hjs,.cons hk hks,by simp [hjk,h]⟩

theorem alike_list {xs ys : List Value} :
    Alike (.list xs) (.list ys) ↔ List.Forall₂ Alike xs ys := by
  have hunfold : Alike (.list xs) (.list ys) ↔ ∃ js ks, Value.jsonList? xs = some js ∧
      Value.jsonList? ys = some ks ∧ js.map Json.canonical = ks.map Json.canonical := by
    simp only [Alike,Value.json?,Option.map_eq_some_iff]
    constructor
    · rintro ⟨_,_,⟨js,hjs,rfl⟩,⟨ks,hks,rfl⟩,h⟩
      rw [Json.canonical_list,Json.canonical_list,Json.list.injEq] at h
      exact ⟨js,ks,hjs,hks,h⟩
    · rintro ⟨js,ks,hjs,hks,h⟩
      refine ⟨_,_,⟨js,hjs,rfl⟩,⟨ks,hks,rfl⟩,?_⟩
      rw [Json.canonical_list,Json.canonical_list,h]
  rw [hunfold]
  simp only [jsonList_iff]
  exact exists_map_eq_iff

theorem keys_of_items {es : List (String × Value)} {js : List (String × Json)}
    (h : List.Forall₂ ItemReads es js) : js.map Prod.fst = es.map Prod.fst := by
  induction h with
  | nil => rfl
  | cons hef _ ih => rw [List.map_cons,List.map_cons,ih,hef.1]

/-- Dictionaries with the same keys in the same order. -/
theorem alike_dict {es fs : List (String × Value)} (hkeys : es.map Prod.fst = fs.map Prod.fst)
    (hnodup : (es.map Prod.fst).Nodup) : Alike (.dict es) (.dict fs) ↔
      List.Forall₂ (fun e f => e.1 = f.1 ∧ Alike e.2 f.2) es fs := by
  have hunfold : Alike (.dict es) (.dict fs) ↔ ∃ js ks, List.Forall₂ ItemReads es js ∧
      List.Forall₂ ItemReads fs ks ∧
      (js.map fun e => (e.1,e.2.canonical)) = ks.map fun e => (e.1,e.2.canonical) := by
    simp only [Alike,Value.json?,Option.map_eq_some_iff,jsonItems_iff]
    have hinj : ∀ {js ks : List (String × Json)}, List.Forall₂ ItemReads es js →
        List.Forall₂ ItemReads fs ks →
        ((Json.dict js).canonical = (Json.dict ks).canonical ↔
          (js.map fun e => (e.1,e.2.canonical)) = ks.map fun e => (e.1,e.2.canonical)) := by
      intro js ks hjs hks
      apply Json.canonical_dict_inj
      · rw [keys_of_items hjs,keys_of_items hks,hkeys]
      · rw [keys_of_items hjs]
        exact hnodup
    constructor
    · rintro ⟨_,_,⟨js,hjs,rfl⟩,⟨ks,hks,rfl⟩,h⟩
      exact ⟨js,ks,hjs,hks,(hinj hjs hks).mp h⟩
    · rintro ⟨js,ks,hjs,hks,h⟩
      exact ⟨_,_,⟨js,hjs,rfl⟩,⟨ks,hks,rfl⟩,(hinj hjs hks).mpr h⟩
  have hpair : ∀ e f : String × Value, (∃ j k : String × Json, ItemReads e j ∧ ItemReads f k ∧
      (j.1,j.2.canonical) = (k.1,k.2.canonical)) ↔ e.1 = f.1 ∧ Alike e.2 f.2 := by
    intro e f
    constructor
    · rintro ⟨j,k,⟨he,hj⟩,⟨hf,hk⟩,h⟩
      rw [Prod.mk.injEq] at h
      exact ⟨he.trans (h.1.trans hf.symm),j.2,k.2,hj,hk,h.2⟩
    · rintro ⟨hef,j,k,hj,hk,h⟩
      exact ⟨(e.1,j),(f.1,k),⟨rfl,hj⟩,⟨rfl,hk⟩,by rw [hef,h]⟩
  rw [hunfold,exists_map_eq_iff]
  simp only [hpair]

theorem written_str (s : String) : Written (.str s) := ⟨.str s,rfl⟩

theorem written_list {xs : List Value} : Written (.list xs) ↔ ∀ x ∈ xs, Written x := by
  rw [← alike_self,alike_list,List.forall₂_same]
  simp only [alike_self]

theorem written_dict {es : List (String × Value)} : Written (.dict es) ↔ ∀ e ∈ es, Written e.2 := by
  simp only [Written,Value.json?,Option.map_eq_some_iff,jsonItems_iff]
  induction es with
  | nil => exact ⟨fun _ => by simp,fun _ => ⟨_,[],.nil,rfl⟩⟩
  | cons e es ih =>
    rw [List.forall_mem_cons,← ih]
    constructor
    · rintro ⟨_,js,hjs,rfl⟩
      obtain ⟨f,fs,hf,hfs,rfl⟩ := List.forall₂_cons_left_iff.mp hjs
      exact ⟨⟨f.2,hf.2⟩,_,fs,hfs,rfl⟩
    · rintro ⟨⟨j,hj⟩,_,fs,hfs,rfl⟩
      exact ⟨_,(e.1,j) :: fs,.cons ⟨rfl,hj⟩ hfs,rfl⟩

theorem written_strings (xs : List String) : Written (strings xs) :=
  written_list.mpr fun v hv => by
    obtain ⟨s,_,rfl⟩ := List.mem_map.mp hv
    exact written_str s

theorem written_ofJson (j : Json) : Written (.ofJson j) := ⟨j,Value.json_ofJson j⟩

theorem written_sortedItems {κ α : Type} (name : κ → String) (items : List (κ × α))
    {f : α → Value} (h : ∀ a, Written (f a)) : Written (sortedItems name items f) :=
  written_dict.mpr fun e he => by
    obtain ⟨x,_,rfl⟩ := List.mem_map.mp he
    exact h x.2

end AgentCentric.Network

import AgentCentric.Library.First
import AgentCentric.Network.Parse

namespace AgentCentric.Network
open Json

/-- It raises something else than a `NetworkError`. -/
def Escapes {α : Type} (x : Except ParseError α) : Prop :=
  ∃ e, (∀ m, e ≠ .network m) ∧ x = .error e

theorem escapes_ok {α : Type} (a : α) : ¬Escapes (.ok a : Except ParseError α) := by
  rintro ⟨e,-,h⟩
  cases h

theorem escapes_network {α : Type} (m : String) :
    ¬Escapes (.error (.network m) : Except ParseError α) := by
  rintro ⟨e,he,h⟩
  cases h
  exact he m rfl

theorem escapes_error {α : Type} {e : ParseError} (h : ∀ m, e ≠ .network m) :
    Escapes (.error e : Except ParseError α) := ⟨e,h,rfl⟩

theorem escapes_bind {α β : Type} {x : Except ParseError α} {f : α → Except ParseError β} :
    Escapes (x >>= f) ↔ Escapes x ∨ ∃ a, x = .ok a ∧ Escapes (f a) := by
  cases x with
  | error e =>
    constructor
    · rintro ⟨e',he,h⟩
      have heq : e = e' := Except.error.inj (show (.error e : Except ParseError β) = .error e' from h)
      exact .inl ⟨e',he,congrArg _ heq⟩
    · rintro (⟨e',he,h⟩ | ⟨a,h,-⟩)
      · cases h
        exact ⟨e,he,rfl⟩
      · cases h
  | ok a =>
    constructor
    · intro h
      exact .inr ⟨a,rfl,h⟩
    · rintro (h | ⟨b,h,hb⟩)
      · exact absurd h (escapes_ok a)
      · cases h
        exact hb

theorem escapes_networkError {α : Type} (x : Except String α) : ¬Escapes (networkError x) := by
  cases x with
  | error m => exact escapes_network m
  | ok a => exact escapes_ok a

theorem escapes_expect {α : Type} (x : Option α) (m : String) :
    ¬Escapes (expect x (.network m)) := by
  cases x with
  | none => exact escapes_network m
  | some a => exact escapes_ok a

theorem escapes_mapM {α β : Type} {f : α → Except ParseError β} {xs : List α}
    (h : ∀ x ∈ xs, ¬Escapes (f x)) : ¬Escapes (xs.mapM f) := by
  rintro ⟨e,he,hxs⟩
  obtain ⟨x,hx,hfx⟩ := mapM_error hxs
  exact h x hx ⟨e,he,hfx⟩

/-- When it returns, and when it raises something else than a `NetworkError`. -/
structure Settles {α : Type} (x : Except ParseError α) (P Q : Prop) : Prop where
  returns : (∃ a, x = .ok a) ↔ P
  escapes : Escapes x ↔ Q

section
variable {α β : Type} {x : Except ParseError α} {P Q P' Q' : Prop}

theorem settles_ok (h : ∃ a, x = .ok a) (hP : P) (hQ : ¬Q) : Settles x P Q := by
  obtain ⟨a,rfl⟩ := h
  exact ⟨⟨fun _ => hP,fun _ => ⟨a,rfl⟩⟩,⟨fun h => absurd h (escapes_ok a),fun h => absurd h hQ⟩⟩

theorem settles_network (h : ∃ m, x = .error (.network m)) (hP : ¬P) (hQ : ¬Q) : Settles x P Q := by
  obtain ⟨m,rfl⟩ := h
  exact ⟨⟨nofun,fun h => absurd h hP⟩,⟨fun h => absurd h (escapes_network m),fun h => absurd h hQ⟩⟩

theorem Settles.congr (h : Settles x P Q) (hP : P ↔ P') (hQ : Q ↔ Q') : Settles x P' Q' :=
  ⟨h.returns.trans hP,h.escapes.trans hQ⟩

theorem Settles.bind {f : α → Except ParseError β} (h : Settles x P Q)
    (hf : ∀ a, x = .ok a → Settles (f a) P' Q') : Settles (x >>= f) (P ∧ P') (Q ∨ P ∧ Q') := by
  constructor
  · rw [← h.returns]
    constructor
    · rintro ⟨b,hb⟩
      obtain ⟨a,ha,hb⟩ := bind_ok.1 hb
      exact ⟨⟨a,ha⟩,(hf a ha).returns.1 ⟨b,hb⟩⟩
    · rintro ⟨⟨a,ha⟩,hP⟩
      obtain ⟨b,hb⟩ := (hf a ha).returns.2 hP
      exact ⟨b,bind_ok.2 ⟨a,ha,hb⟩⟩
  · rw [escapes_bind,h.escapes,← h.returns]
    refine or_congr_right ⟨?_,?_⟩
    · rintro ⟨a,ha,hb⟩
      exact ⟨⟨a,ha⟩,(hf a ha).escapes.1 hb⟩
    · rintro ⟨⟨a,ha⟩,hQ⟩
      exact ⟨a,ha,(hf a ha).escapes.2 hQ⟩

theorem Settles.of_ok {f : α → Except ParseError β} {a : α} (hx : x = .ok a)
    (h : Settles (f a) P Q) : Settles (x >>= f) P Q := by
  subst hx
  exact h

theorem Settles.map {f : α → Except ParseError β} (h : Settles x P Q)
    (hf : ∀ a, ∃ b, f a = .ok b) : Settles (x >>= f) P Q :=
  (h.bind fun a _ => settles_ok (hf a) trivial not_false).congr (by simp) (by simp)

end

section
variable {σ α β : Type} {P Q : α → Prop}

theorem settles_mapM {f : α → Except ParseError β} (h : ∀ x, Settles (f x) (P x) (Q x))
    (xs : List α) : Settles (xs.mapM f) (∀ x ∈ xs, P x) (First P Q xs) := by
  induction xs with
  | nil => exact settles_ok ⟨[],rfl⟩ (by simp) first_nil
  | cons x xs ih =>
    rw [List.mapM_cons,List.forall_mem_cons,first_cons]
    exact (h x).bind fun y _ => ih.map fun ys => ⟨y :: ys,rfl⟩

theorem settles_foldlM {f : σ → α → Except ParseError σ} (h : ∀ s x, Settles (f s x) (P x) (Q x))
    (xs : List α) (s : σ) : Settles (xs.foldlM f s) (∀ x ∈ xs, P x) (First P Q xs) := by
  induction xs generalizing s with
  | nil => exact settles_ok ⟨s,rfl⟩ (by simp) first_nil
  | cons x xs ih =>
    rw [List.foldlM_cons,List.forall_mem_cons,first_cons]
    exact (h s x).bind fun s' _ => ih s'

end

namespace Value

theorem ofJsonItems_eq (items : List (String × Json)) :
    ofJsonItems items = items.map fun e => (e.1,ofJson e.2) := by
  induction items with
  | nil => rfl
  | cons e items ih => rw [ofJsonItems,ih,List.map_cons]

theorem ofJsonList_eq (xs : List Json) : ofJsonList xs = xs.map ofJson := by
  induction xs with
  | nil => rfl
  | cons x xs ih => rw [ofJsonList,ih,List.map_cons]

theorem lookup_ofJsonItems (items : List (String × Json)) (key : String) :
    Dict.lookup (ofJsonItems items) key = (Dict.lookup items key).map ofJson := by
  rw [ofJsonItems_eq]
  induction items with
  | nil => rfl
  | cons e items ih =>
    rw [List.map_cons]
    by_cases hkey : e.1 = key <;> simp [Dict.lookup,hkey,ih]

mutual

theorem repr_ofJson : ∀ j : Json, ∃ t, (ofJson j).repr? = some t
  | .null => ⟨_,rfl⟩
  | .bool _ => ⟨_,rfl⟩
  | .int _ => ⟨_,rfl⟩
  | .decimal _ => ⟨_,rfl⟩
  | .nan => ⟨_,rfl⟩
  | .infinity => ⟨_,rfl⟩
  | .negInfinity => ⟨_,rfl⟩
  | .str _ => ⟨_,rfl⟩
  | .list xs => by
    obtain ⟨ts,hts⟩ := reprs_ofJsonList xs
    exact ⟨_,by rw [ofJson,repr?,hts,Option.map_some]⟩
  | .dict items => by
    obtain ⟨ts,hts⟩ := reprItems_ofJsonItems items
    exact ⟨_,by rw [ofJson,repr?,hts,Option.map_some]⟩

theorem reprs_ofJsonList : ∀ xs : List Json, ∃ ts, reprs? (ofJsonList xs) = some ts
  | [] => ⟨[],rfl⟩
  | x :: xs => by
    obtain ⟨t,ht⟩ := repr_ofJson x
    obtain ⟨ts,hts⟩ := reprs_ofJsonList xs
    exact ⟨t :: ts,by rw [ofJsonList,reprs?,ht,hts]; rfl⟩

theorem reprItems_ofJsonItems : ∀ items : List (String × Json),
    ∃ ts, reprItems? (ofJsonItems items) = some ts
  | [] => ⟨[],rfl⟩
  | (k,v) :: items => by
    obtain ⟨t,ht⟩ := repr_ofJson v
    obtain ⟨ts,hts⟩ := reprItems_ofJsonItems items
    exact ⟨_ :: ts,by rw [ofJsonItems,reprItems?,ht,hts]; rfl⟩

end

theorem text_ofJson (j : Json) : ∃ t, (ofJson j).text = .ok t := by
  obtain ⟨t,ht⟩ := repr_ofJson j
  cases j with
  | str s => exact ⟨s,rfl⟩
  | _ => exact ⟨t,(@expect_ok _ _ _ ParseError.foreign t).2 ht⟩

end Value

/-- `dict` takes it for a pair. -/
def pairLike : Json → Bool
  | .list [.list _,_] => false
  | .list [.dict _,_] => false
  | .list [_,_] => true
  | .dict [_,_] => true
  | .str s => s.toList.length = 2
  | _ => false

/-- `dict(value or {})` returns. -/
def dictLike (value : Json) : Bool :=
  !value.truthy || match value with
    | .dict _ => true
    | .list xs => xs.all pairLike
    | _ => false

/-- `iter(value or [])` returns. -/
def iterableLike (value : Json) : Bool :=
  !value.truthy || match value with
    | .list _ | .dict _ | .str _ => true
    | _ => false

/-- It returns or raises something else than a `NetworkError`, as `b` says. -/
structure Decided {α : Type} (x : Except ParseError α) (b : Bool) : Prop where
  ok : b = true → ∃ a, x = .ok a
  error : b = false → Escapes x

theorem decided_ok {α : Type} {x : Except ParseError α} (a : α) (h : x = .ok a) : Decided x true :=
  ⟨fun _ => ⟨a,h⟩,nofun⟩

theorem decided_type {α : Type} {x : Except ParseError α} (h : x = .error .type) :
    Decided x false := ⟨nofun,fun _ => ⟨.type,nofun,h⟩⟩

theorem decided_value {α : Type} {x : Except ParseError α} (h : x = .error .value) :
    Decided x false := ⟨nofun,fun _ => ⟨.value,nofun,h⟩⟩

theorem Decided.settles {α : Type} {x : Except ParseError α} {b : Bool} (h : Decided x b) :
    Settles x (b = true) (b = false) := by
  cases b with
  | true => exact settles_ok (h.ok rfl) rfl nofun
  | false =>
    obtain ⟨e,he,rfl⟩ := h.error rfl
    exact ⟨⟨nofun,nofun⟩,⟨fun _ => rfl,fun _ => ⟨e,he,rfl⟩⟩⟩

theorem truthy_ofJson (j : Json) : (Value.ofJson j).truthy = j.truthy := by
  cases j with
  | decimal d =>
    have hzero : String.ofList d.chars = "0.0" ↔ d.chars = ['0','.','0'] := String.ofList_inj
    have hminus : String.ofList d.chars = "-0.0" ↔ d.chars = ['-','0','.','0'] :=
      String.ofList_inj
    simp only [Value.ofJson,Value.truthy,Json.truthy,ne_eq,hzero,hminus,Bool.decide_and]
  | list xs => cases xs <;> rfl
  | dict items =>
    cases items with
    | nil => rfl
    | cons e items => rfl
  | nan => decide
  | infinity => decide
  | negInfinity => decide
  | _ => rfl

theorem pairOf_ofJson (j : Json) : Decided (pairOf (.ofJson j)) (pairLike j) := by
  cases j with
  | list xs =>
    match xs with
    | [] => exact decided_value rfl
    | [j] => cases j <;> exact decided_value rfl
    | [k,v] =>
      cases k with
      | list _ => exact decided_type rfl
      | dict _ => exact decided_type rfl
      | _ => exact decided_ok _ rfl
    | j :: _ :: _ :: _ => cases j <;> exact decided_value rfl
  | dict items =>
    match items with
    | [] => exact decided_value rfl
    | [_] => exact decided_value rfl
    | [(_,_),(_,_)] => exact decided_ok _ rfl
    | _ :: _ :: _ :: _ => exact decided_value rfl
  | str s =>
    rw [Value.ofJson,pairOf,pairLike]
    match s.toList with
    | [] => exact decided_value rfl
    | [_] => exact decided_value rfl
    | [_,_] => exact decided_ok _ rfl
    | _ :: _ :: _ :: rest =>
      have hlength : (decide ((rest.length + 1 + 1 + 1) = 2)) = false := by simp
      simp only [List.length_cons,hlength]
      exact decided_value rfl
  | _ => exact decided_type rfl

theorem decided_map {α β : Type} {x : Except ParseError α} {f : α → Except ParseError β} {b : Bool}
    (h : Decided x b) (hf : ∀ a, ∃ c, f a = .ok c) : Decided (x >>= f) b := by
  refine ⟨fun hb => ?_,fun hb => escapes_bind.2 (.inl (h.error hb))⟩
  obtain ⟨a,ha⟩ := h.ok hb
  obtain ⟨c,hc⟩ := hf a
  exact ⟨c,bind_ok.2 ⟨a,ha,hc⟩⟩

theorem decided_mapM {f : Json → Except ParseError (Option (String × Value))} {p : Json → Bool}
    (h : ∀ j, Decided (f j) (p j)) (xs : List Json) : Decided (xs.mapM f) (xs.all p) := by
  induction xs with
  | nil => exact decided_ok _ rfl
  | cons x xs ih =>
    rw [List.mapM_cons,List.all_cons]
    cases hx : p x with
    | false => exact ⟨nofun,fun _ => escapes_bind.2 (.inl ((h x).error hx))⟩
    | true =>
      obtain ⟨y,hy⟩ := (h x).ok hx
      rw [hy,Bool.true_and]
      show Decided (xs.mapM f >>= fun ys => pure (y :: ys)) (xs.all p)
      exact decided_map ih fun ys => ⟨y :: ys,rfl⟩

theorem dictOf_ofJson (value : Option Json) :
    Decided (dictOf (value.map .ofJson)) (value.all dictLike) := by
  cases value with
  | none => exact decided_ok _ rfl
  | some j =>
    by_cases hj : j.truthy = true
    · simp only [Option.map_some,dictOf,truthy_ofJson,hj,if_true,Option.all_some,dictLike,
        Bool.not_true,Bool.false_or]
      cases j with
      | list xs =>
        simp only [Value.ofJson,Value.ofJsonList_eq,List.mapM_map]
        exact decided_map (decided_mapM pairOf_ofJson xs) fun pairs => ⟨_,rfl⟩
      | dict items => exact decided_ok _ rfl
      | str s => exact decided_value rfl
      | _ => exact decided_type rfl
    · simp only [Option.map_some,dictOf,truthy_ofJson,hj,Option.all_some,dictLike]
      exact decided_ok _ rfl

theorem streamOf_ofJson (value : Option Json) :
    Decided (streamOf (value.map .ofJson)) (value.all iterableLike) := by
  cases value with
  | none => exact decided_ok _ rfl
  | some j =>
    by_cases hj : j.truthy = true
    · simp only [Option.map_some,streamOf,truthy_ofJson,hj,if_true,Option.all_some,iterableLike,
        Bool.not_true,Bool.false_or]
      cases j with
      | list xs =>
        refine ⟨fun _ => ?_,nofun⟩
        simp only [Value.ofJson,Value.ofJsonList_eq]
        refine mapM_returns.2 fun v hv => ?_
        obtain ⟨x,-,rfl⟩ := List.mem_map.1 hv
        exact Value.text_ofJson x
      | dict items => exact decided_ok _ rfl
      | str s => exact decided_ok _ rfl
      | _ => exact decided_type rfl
    · simp only [Option.map_some,streamOf,truthy_ofJson,hj,Option.all_some,iterableLike]
      exact decided_ok _ rfl

def infinite : Json → Bool
  | .infinity | .negInfinity => true
  | _ => false

/-- `int` takes it. -/
def integral : Json → Bool
  | .int _ | .bool _ | .decimal _ => true
  | .str s => (intOfText s).isSome
  | _ => false

theorem capacityOf_decimal (d : Decimal) :
    capacityOf (.ofJson (.decimal d)) = .ok (d.double.num.tdiv d.double.den) := by
  simp [Value.ofJson,capacityOf,Value.floatJson_decimal]

theorem capacityOf_str (s : String) : capacityOf (.ofJson (.str s)) =
    expect (intOfText s) (.network (s!"edge capacity must be an integer: " ++
      s!"invalid literal for int() with base 10: {pyRepr s}")) := rfl

theorem capacityOf_settles (j : Json) :
    Settles (capacityOf (.ofJson j)) (integral j = true) (infinite j = true) := by
  cases j with
  | int n => exact settles_ok ⟨n,rfl⟩ rfl Bool.false_ne_true
  | bool b => exact settles_ok ⟨_,rfl⟩ rfl Bool.false_ne_true
  | decimal d => exact settles_ok ⟨_,capacityOf_decimal d⟩ rfl Bool.false_ne_true
  | str s =>
    rw [capacityOf_str]
    refine ⟨?_,fun h => absurd h (escapes_expect _ _),fun h => absurd h Bool.false_ne_true⟩
    simp only [expect_ok,integral]
    exact Option.isSome_iff_exists.symm
  | infinity =>
    refine ⟨iff_of_false ?_ Bool.false_ne_true,fun _ => rfl,fun _ => ⟨.overflow,by simp,rfl⟩⟩
    rintro ⟨_,h⟩
    cases h
  | negInfinity =>
    refine ⟨iff_of_false ?_ Bool.false_ne_true,fun _ => rfl,fun _ => ⟨.overflow,by simp,rfl⟩⟩
    rintro ⟨_,h⟩
    cases h
  | _ => exact settles_network ⟨_,rfl⟩ Bool.false_ne_true Bool.false_ne_true

theorem textOr_ofJson (value : Option Json) : ∃ t, textOr (value.map .ofJson) = .ok t := by
  cases value with
  | none => exact ⟨"",rfl⟩
  | some j => exact Value.text_ofJson j

def isDict : Json → Bool
  | .dict _ => true
  | _ => false

def edgeRead : Json → Bool
  | .dict items => integral ((Dict.lookup items "capacity").getD (.int 1))
  | _ => false

def edgeInfinite : Json → Bool
  | .dict items => infinite ((Dict.lookup items "capacity").getD (.int 1))
  | _ => false

theorem capacity_ofJson (items : List (String × Json)) :
    (Dict.lookup (Value.ofJsonItems items) "capacity").getD (.int 1) =
      .ofJson ((Dict.lookup items "capacity").getD (.int 1)) := by
  rw [Value.lookup_ofJsonItems]
  cases Dict.lookup items "capacity" <;> rfl

theorem parseEdge_eq (items : List (String × Json)) :
    ∃ source field target arg, ComponentNetwork.parseEdge (.ofJson (.dict items)) =
      (capacityOf (.ofJson ((Dict.lookup items "capacity").getD (.int 1))) >>=
        fun capacity => .ok ⟨source,field,target,arg,capacity⟩) := by
  obtain ⟨source,hsource⟩ := textOr_ofJson (Dict.lookup items "source")
  obtain ⟨field,hfield⟩ := textOr_ofJson (Dict.lookup items "source_field")
  obtain ⟨target,htarget⟩ := textOr_ofJson (Dict.lookup items "target")
  obtain ⟨arg,harg⟩ := textOr_ofJson (Dict.lookup items "target_arg")
  refine ⟨source,field,target,arg,?_⟩
  rw [Value.ofJson,ComponentNetwork.parseEdge,capacity_ofJson]
  simp only [Value.lookup_ofJsonItems,hsource,hfield,htarget,harg]
  rfl

theorem parseEdge_settles (j : Json) : Settles (ComponentNetwork.parseEdge (.ofJson j))
    (edgeRead j = true) (edgeInfinite j = true) := by
  cases j with
  | dict items =>
    obtain ⟨source,field,target,arg,heq⟩ := parseEdge_eq items
    rw [heq]
    exact (capacityOf_settles _).map fun _ => ⟨_,rfl⟩
  | _ => exact settles_network ⟨_,rfl⟩ nofun nofun

theorem parseIIP_eq (items : List (String × Json)) :
    ∃ i, ComponentNetwork.parseIIP (.ofJson (.dict items)) = .ok i := by
  obtain ⟨component,hcomponent⟩ := textOr_ofJson (Dict.lookup items "component")
  obtain ⟨port,hport⟩ := textOr_ofJson (Dict.lookup items "port")
  rw [Value.ofJson,ComponentNetwork.parseIIP]
  simp only [Value.lookup_ofJsonItems,hcomponent,hport]
  exact ⟨_,rfl⟩

theorem parseIIP_settles (j : Json) :
    Settles (ComponentNetwork.parseIIP (.ofJson j)) (isDict j = true) False := by
  cases j with
  | dict items => exact settles_ok (parseIIP_eq items) rfl not_false
  | _ => exact settles_network ⟨_,rfl⟩ nofun not_false

namespace ComponentNetwork

def headOf (items : List (String × Value)) : Except ParseError (List (String × List String) ×
    List (String × List (String × String)) × List (String × String)) := do
  let rawPorts ← mappingOr "component 'ports' must be a mapping" (Dict.lookup items "ports")
  let ports ← rawPorts.mapM portsOf
  let rawTypes ← mappingOr "component 'port_types' must be a mapping"
    (Dict.lookup items "port_types")
  let portTypes ← rawTypes.mapM portTypesOf
  let rawExternal ← mappingOr "component 'external' must be a mapping" (Dict.lookup items "external")
  let external ← rawExternal.mapM textItem
  pure (ports,portTypes,external)

variable {descend : List (String × Value) → Except ParseError ComponentNetwork}

theorem parseComponent_eq (net : ComponentNetwork) {items : List (String × Value)} {id : String}
    (hid : Dict.lookup items "id" = some (.str id)) : parseComponent descend net (.dict items) = (do
      let head ← headOf items
      let subnet ← parseBody descend (Dict.lookup items "subnet")
      let task ← textOr (Dict.lookup items "task")
      let args ← dictOf (Dict.lookup items "args")
      let verifier ← roleOf (Dict.lookup items "verifier")
      let child ← roleOf (Dict.lookup items "child")
      let stream ← streamOf (Dict.lookup items "stream")
      net.addNamed ⟨id,task,args,verifier,child,.empty,.empty,stream,
        Dict.empty.update head.2.2,subnet⟩ head.1 head.2.1) := by
  simp only [parseComponent,hid,headOf,bind_assoc,pure_bind]

theorem escapes_mappingOr (m : String) (value : Option Value) : ¬Escapes (mappingOr m value) := by
  cases value with
  | none => exact escapes_ok _
  | some v =>
    unfold mappingOr
    dsimp only
    by_cases htruthy : v.truthy = true
    · rw [if_pos htruthy]
      cases v with
      | dict items => exact escapes_ok _
      | _ => exact escapes_network _
    · rw [if_neg htruthy]
      exact escapes_ok _

theorem textItem_ofJson (key : String) (j : Json) : ∃ t, textItem (key,.ofJson j) = .ok t := by
  obtain ⟨t,ht⟩ := Value.text_ofJson j
  exact ⟨(key,t),bind_ok.2 ⟨t,ht,rfl⟩⟩

theorem mappingOr_ofJson {m : String} {value : Option Json} {items : List (String × Value)}
    (h : mappingOr m (value.map .ofJson) = .ok items) : ∃ es, items = Value.ofJsonItems es := by
  cases value with
  | none => exact ⟨[],(Except.ok.inj h).symm⟩
  | some j =>
    unfold mappingOr at h
    dsimp only [Option.map_some] at h
    by_cases htruthy : (Value.ofJson j).truthy = true
    · rw [if_pos htruthy] at h
      cases j with
      | dict es => exact ⟨es,(Except.ok.inj h).symm⟩
      | _ => cases h
    · rw [if_neg htruthy] at h
      exact ⟨[],(Except.ok.inj h).symm⟩

theorem textItems_ofJson (es : List (String × Json)) :
    ∃ ts, (Value.ofJsonItems es).mapM textItem = .ok ts := by
  refine mapM_returns.2 fun entry hentry => ?_
  rw [Value.ofJsonItems_eq] at hentry
  obtain ⟨e,-,rfl⟩ := List.mem_map.1 hentry
  exact textItem_ofJson e.1 e.2

theorem escapes_portsOf (e : String × Json) : ¬Escapes (portsOf (e.1,.ofJson e.2)) := by
  obtain ⟨key,j⟩ := e
  cases j with
  | list xs =>
    have hnames : ∃ names, (Value.ofJsonList xs).mapM Value.text = .ok names := by
      refine mapM_returns.2 fun v hv => ?_
      rw [Value.ofJsonList_eq] at hv
      obtain ⟨x,-,rfl⟩ := List.mem_map.1 hv
      exact Value.text_ofJson x
    obtain ⟨names,hnames⟩ := hnames
    simp only [Value.ofJson,portsOf,hnames]
    exact escapes_ok _
  | _ => exact escapes_network _

theorem escapes_portTypesOf (e : String × Json) : ¬Escapes (portTypesOf (e.1,.ofJson e.2)) := by
  obtain ⟨key,j⟩ := e
  cases j with
  | dict es =>
    obtain ⟨ts,hts⟩ := textItems_ofJson es
    simp only [Value.ofJson,portTypesOf,hts]
    exact escapes_ok _
  | _ => exact escapes_network _

theorem escapes_items {β : Type} {f : String × Value → Except ParseError β}
    (h : ∀ e : String × Json, ¬Escapes (f (e.1,.ofJson e.2))) (es : List (String × Json)) :
    ¬Escapes ((Value.ofJsonItems es).mapM f) := by
  refine escapes_mapM fun entry hentry => ?_
  rw [Value.ofJsonItems_eq] at hentry
  obtain ⟨e,-,rfl⟩ := List.mem_map.1 hentry
  exact h e

theorem escapes_headOf (items : List (String × Json)) : ¬Escapes (headOf (Value.ofJsonItems items)) := by
  simp only [headOf,Value.lookup_ofJsonItems,escapes_bind,not_or,not_exists,not_and]
  refine ⟨escapes_mappingOr _ _,fun rawPorts hports => ?_⟩
  obtain ⟨es,rfl⟩ := mappingOr_ofJson hports
  refine ⟨escapes_items escapes_portsOf es,fun ports _ => ⟨escapes_mappingOr _ _,
    fun rawTypes htypes => ?_⟩⟩
  obtain ⟨fs,rfl⟩ := mappingOr_ofJson htypes
  refine ⟨escapes_items escapes_portTypesOf fs,fun portTypes _ => ⟨escapes_mappingOr _ _,
    fun rawExternal hexternal => ?_⟩⟩
  obtain ⟨gs,rfl⟩ := mappingOr_ofJson hexternal
  obtain ⟨ts,hts⟩ := textItems_ofJson gs
  rw [hts]
  exact ⟨escapes_ok _,fun _ _ => escapes_ok _⟩

def named (id : String) : Component := ⟨id,"",.empty,.null,.null,.empty,.empty,[],.empty,none⟩

theorem admissible_congr {c d : Component} (hid : c.id = d.id) (hports : c.ports = d.ports)
    (htypes : c.portTypes = d.portTypes) (h : Admissible c) : Admissible d := by
  obtain ⟨id,task,args,verifier,child,ports,portTypes,stream,external,subnet⟩ := c
  obtain ⟨id',task',args',verifier',child',ports',portTypes',stream',external',subnet'⟩ := d
  cases hid
  cases hports
  cases htypes
  exact ⟨h.named,h.undotted,h.ports,h.portTypes⟩

theorem admitPorts_congr {c d : Component} (hid : c.id = d.id) : admitPorts c = admitPorts d := by
  funext entry
  simp only [admitPorts,checkPorts,hid]

theorem admitPortTypes_congr {c d : Component} (hid : c.id = d.id) (hports : c.ports = d.ports) :
    admitPortTypes c = admitPortTypes d := by
  have hnames : ∀ side, c.portNames side = d.portNames side := fun side => by
    rw [ComponentOf.portNames,ComponentOf.portNames,hports]
  have htype : admitType c = admitType d := by
    funext side entry
    simp only [admitType,checkPortTypes,hid,hnames]
  funext entry
  simp only [admitPortTypes,hid,htype]

theorem addComponent_returns (net : ComponentNetwork) (c : Component) :
    (∃ net', networkError (net.addComponent c) = .ok net') ↔ Admissible c := by
  constructor
  · rintro ⟨net',h⟩
    exact (addComponent_ok.1 (mapError_ok.1 h)).1
  · intro h
    exact ⟨_,mapError_ok.2 (addComponent_ok.2 ⟨h,rfl⟩)⟩

theorem addNamed_congr {net net' net₁ : ComponentNetwork} {c d : Component} (hid : c.id = d.id)
    (hports : c.ports = d.ports) (htypes : c.portTypes = d.portTypes)
    {ports : List (String × List String)} {types : List (String × List (String × String))}
    (h : net.addNamed c ports types = .ok net₁) : ∃ net₂, net'.addNamed d ports types = .ok net₂ := by
  simp only [addNamed,bind_ok] at h
  obtain ⟨first,hfirst,ps,hps,ts,hts,hlast⟩ := h
  have hbare := (addComponent_returns net c).1 ⟨first,hfirst⟩
  have hfull := (addComponent_returns net _).1 ⟨net₁,hlast⟩
  obtain ⟨first',hfirst'⟩ := (addComponent_returns net' d).2 (admissible_congr hid hports htypes hbare)
  obtain ⟨net₂,hlast'⟩ := (addComponent_returns net' { d with
    ports := Dict.empty.update ps,portTypes := Dict.empty.update ts }).2
      (admissible_congr (c := { c with
        ports := Dict.empty.update ps,portTypes := Dict.empty.update ts }) hid rfl rfl hfull)
  refine ⟨net₂,?_⟩
  simp only [addNamed,bind_ok]
  refine ⟨first',hfirst',ps,?_,ts,?_,hlast'⟩
  · rw [← admitPorts_congr hid]
    exact hps
  · have hsame := @admitPortTypes_congr { c with ports := Dict.empty.update ps }
      { d with ports := Dict.empty.update ps } hid rfl
    rw [← hsame]
    exact hts

/-- `add_component` takes the id and the ports. -/
def Added (id : String) (ports : List (String × List String))
    (types : List (String × List (String × String))) : Prop :=
  ∃ net, empty.addNamed (named id) ports types = .ok net

theorem addNamed_returns (net : ComponentNetwork) {bare : Component} (hports : bare.ports = .empty)
    (htypes : bare.portTypes = .empty) (ports : List (String × List String))
    (types : List (String × List (String × String))) :
    (∃ net', net.addNamed bare ports types = .ok net') ↔ Added bare.id ports types := by
  constructor
  · rintro ⟨net',h⟩
    exact @addNamed_congr net empty net' bare (named bare.id) rfl hports htypes ports types h
  · rintro ⟨net',h⟩
    exact @addNamed_congr empty net net' (named bare.id) bare rfl hports.symm htypes.symm ports
      types h

theorem escapes_admitPorts (c : Component) (entry : String × List String) :
    ¬Escapes (admitPorts c entry) := by
  simp only [admitPorts,escapes_bind,not_or,not_exists,not_and]
  exact ⟨escapes_expect _ _,fun d _ => ⟨escapes_networkError _,fun _ _ => escapes_ok _⟩⟩

theorem escapes_admitType (c : Component) (d : Direction) (entry : String × String) :
    ¬Escapes (admitType c d entry) := by
  simp only [admitType,escapes_bind,not_or,not_exists,not_and]
  exact ⟨escapes_networkError _,fun _ _ => ⟨escapes_expect _ _,fun _ _ => escapes_ok _⟩⟩

theorem escapes_admitPortTypes (c : Component) (entry : String × List (String × String)) :
    ¬Escapes (admitPortTypes c entry) := by
  simp only [admitPortTypes,escapes_bind,not_or,not_exists,not_and]
  exact ⟨escapes_expect _ _,fun d _ => ⟨escapes_mapM fun typed _ => escapes_admitType c d typed,
    fun _ _ => escapes_ok _⟩⟩

theorem escapes_addNamed (net : ComponentNetwork) (bare : Component)
    (ports : List (String × List String)) (types : List (String × List (String × String))) :
    ¬Escapes (net.addNamed bare ports types) := by
  simp only [addNamed,escapes_bind,not_or,not_exists,not_and]
  exact ⟨escapes_networkError _,fun _ _ => ⟨escapes_mapM fun entry _ => escapes_admitPorts bare entry,
    fun _ _ => ⟨escapes_mapM fun entry _ => escapes_admitPortTypes _ entry,
      fun _ _ => escapes_networkError _⟩⟩⟩

def rowsOf : Option Json → Option (List Json)
  | none => some []
  | some .null => some []
  | some (.list xs) => some xs
  | some _ => none

def BodyTaken (taken : List (String × Json) → Prop) : Option Json → Prop
  | none => True
  | some .null => True
  | some (.dict body) => taken body
  | some _ => False

def ComponentTaken (taken : List (String × Json) → Prop) (c : Json) : Prop :=
  ∃ items id head, c = .dict items ∧ Dict.lookup items "id" = some (.str id) ∧
    headOf (Value.ofJsonItems items) = .ok head ∧ BodyTaken taken (Dict.lookup items "subnet") ∧
    (Dict.lookup items "args").all dictLike = true ∧
    (Dict.lookup items "stream").all iterableLike = true ∧ Added id head.1 head.2.1

/-- The entry of a component with arguments that `dict` does not take, or a stream that is not
iterable, behind fields that are in order, or with such an entry in its body. -/
def ComponentEscapes (taken escapes : List (String × Json) → Prop) (c : Json) : Prop :=
  ∃ items id head, c = .dict items ∧ Dict.lookup items "id" = some (.str id) ∧
    headOf (Value.ofJsonItems items) = .ok head ∧
    ((∃ body, Dict.lookup items "subnet" = some (.dict body) ∧ escapes body) ∨
      BodyTaken taken (Dict.lookup items "subnet") ∧
        ((Dict.lookup items "args").all dictLike = false ∨
          (Dict.lookup items "stream").all iterableLike = false))

/-- A document that a network is made of. -/
def Taken : Nat → List (String × Json) → Prop
  | 0, _ => False
  | levels+1, data => ∃ comps edges iips, Dict.lookup data "components" = some (.list comps) ∧
      (∀ c ∈ comps, ComponentTaken (Taken levels) c) ∧
      rowsOf (Dict.lookup data "edges") = some edges ∧ (∀ e ∈ edges, edgeRead e = true) ∧
      rowsOf (Dict.lookup data "iips") = some iips ∧ ∀ i ∈ iips, isDict i = true

/-- The first component that is not taken escapes, or all are taken and the first edge that is not
read has an infinite capacity. -/
def DocumentEscapes : Nat → List (String × Json) → Prop
  | 0, _ => False
  | levels+1, data => ∃ comps, Dict.lookup data "components" = some (.list comps) ∧
      (First (ComponentTaken (Taken levels))
          (ComponentEscapes (Taken levels) (DocumentEscapes levels)) comps ∨
        (∀ c ∈ comps, ComponentTaken (Taken levels) c) ∧
        ∃ edges, rowsOf (Dict.lookup data "edges") = some edges ∧
          First (fun e => edgeRead e = true) (fun e => edgeInfinite e = true) edges)

section
variable {descend : List (String × Value) → Except ParseError ComponentNetwork}
  {taken escapes : List (String × Json) → Prop}

theorem parseBody_settles (h : ∀ body, Settles (descend (Value.ofJsonItems body)) (taken body)
    (escapes body)) (value : Option Json) : Settles (parseBody descend (value.map .ofJson))
      (BodyTaken taken value) (∃ body, value = some (.dict body) ∧ escapes body) := by
  cases value with
  | none => exact settles_ok ⟨none,rfl⟩ trivial nofun
  | some j =>
    cases j with
    | null => exact settles_ok ⟨none,rfl⟩ trivial nofun
    | dict body => exact ((h body).map fun net => ⟨some net,rfl⟩).congr Iff.rfl (by simp)
    | _ => exact settles_network ⟨_,rfl⟩ id nofun

theorem parseComponent_other (net : ComponentNetwork) {c : Json}
    (h : ∀ items id, c = .dict items → Dict.lookup items "id" ≠ some (.str id)) :
    ∃ m, parseComponent descend net (.ofJson c) = .error (.network m) := by
  cases c with
  | dict items =>
    rw [Value.ofJson,parseComponent,Value.lookup_ofJsonItems]
    cases hid : Dict.lookup items "id" with
    | none => exact ⟨_,rfl⟩
    | some j =>
      cases j with
      | str id => exact absurd hid (h items id rfl)
      | _ => exact ⟨_,rfl⟩
  | _ => exact ⟨_,rfl⟩

theorem roleOf_returns (value : Option Json) : ∃ role, roleOf (value.map .ofJson) = .ok role := by
  cases value with
  | none => exact ⟨.null,rfl⟩
  | some j => exact ⟨j,by rw [roleOf,Option.map_some,Option.getD_some,Value.json_ofJson]; rfl⟩

theorem addNamed_settles (net : ComponentNetwork) {bare : Component} {id : String}
    (hid : bare.id = id) (hports : bare.ports = .empty) (htypes : bare.portTypes = .empty)
    (ports : List (String × List String)) (types : List (String × List (String × String))) :
    Settles (net.addNamed bare ports types) (Added id ports types) False :=
  ⟨hid ▸ addNamed_returns net hports htypes ports types,
    iff_false_intro (escapes_addNamed _ _ _ _)⟩

theorem parseComponent_settles (h : ∀ body, Settles (descend (Value.ofJsonItems body)) (taken body)
    (escapes body)) (net : ComponentNetwork) (c : Json) :
    Settles (parseComponent descend net (.ofJson c)) (ComponentTaken taken c)
      (ComponentEscapes taken escapes c) := by
  by_cases hc : ∃ items id, c = .dict items ∧ Dict.lookup items "id" = some (.str id)
  · obtain ⟨items,id,rfl,hid⟩ := hc
    have hid' : Dict.lookup (Value.ofJsonItems items) "id" = some (.str id) := by
      rw [Value.lookup_ofJsonItems,hid]
      rfl
    rw [Value.ofJson,parseComponent_eq net hid']
    simp only [Value.lookup_ofJsonItems]
    cases hhead : headOf (Value.ofJsonItems items) with
    | error e =>
      cases e with
      | network m =>
        refine settles_network ⟨m,rfl⟩ ?_ ?_
        · simp [ComponentTaken,hhead]
        · simp [ComponentEscapes,hhead]
      | _ => exact absurd (hhead ▸ escapes_error nofun) (escapes_headOf items)
    | ok head =>
      obtain ⟨task,htask⟩ := textOr_ofJson (Dict.lookup items "task")
      obtain ⟨verifier,hverifier⟩ := roleOf_returns (Dict.lookup items "verifier")
      obtain ⟨child,hchild⟩ := roleOf_returns (Dict.lookup items "child")
      obtain ⟨ports,types,external⟩ := head
      refine Settles.congr (.of_ok rfl <| .bind (parseBody_settles h _) fun subnet _ =>
        .of_ok htask <| .bind (dictOf_ofJson _).settles fun args _ => .of_ok hverifier <|
          .of_ok hchild <| .bind (streamOf_ofJson _).settles fun stream _ =>
            @addNamed_settles net ⟨id,task,args,verifier,child,.empty,.empty,stream,
              Dict.empty.update external,subnet⟩ id rfl rfl rfl ports types)
        (by simp [ComponentTaken,hid,hhead]) ?_
      simp only [ComponentEscapes,Json.dict.injEq,exists_and_left,exists_eq_left',hid,
        Option.some.injEq,Json.str.injEq,hhead,Except.ok.injEq]
      cases (Dict.lookup items "args").all dictLike <;> simp
  · obtain ⟨m,hm⟩ := parseComponent_other net fun items id heq hid => hc ⟨items,id,heq,hid⟩
    refine settles_network ⟨m,hm⟩ ?_ ?_
    · rintro ⟨items,id,head,heq,hid,-⟩
      exact hc ⟨items,id,heq,hid⟩
    · rintro ⟨items,id,head,heq,hid,-⟩
      exact hc ⟨items,id,heq,hid⟩

end

theorem settles_rows {α : Type} {f : List Value → Except ParseError α} {P Q : List Json → Prop}
    (m : String) (value : Option Json) (h : ∀ rows, Settles (f (rows.map .ofJson)) (P rows) (Q rows)) :
    Settles (optionalList m (value.map .ofJson) >>= f) (∃ rows, rowsOf value = some rows ∧ P rows)
      (∃ rows, rowsOf value = some rows ∧ Q rows) := by
  have hsome : ∀ {rows}, rowsOf value = some rows →
      optionalList m (value.map .ofJson) = .ok (rows.map .ofJson) →
      Settles (optionalList m (value.map .ofJson) >>= f) (∃ rows, rowsOf value = some rows ∧ P rows)
        (∃ rows, rowsOf value = some rows ∧ Q rows) := by
    intro rows hrows hlist
    rw [hlist,hrows]
    exact (h rows).congr (by simp) (by simp)
  cases value with
  | none => exact hsome rfl rfl
  | some j =>
    cases j with
    | null => exact hsome rfl rfl
    | list xs => exact hsome rfl (congrArg Except.ok (Value.ofJsonList_eq xs))
    | _ => exact settles_network ⟨m,rfl⟩ nofun nofun

theorem parseEdges_settles (edges : List Json) : Settles ((edges.map Value.ofJson).mapM parseEdge)
    (∀ e ∈ edges, edgeRead e = true)
    (First (fun e => edgeRead e = true) (fun e => edgeInfinite e = true) edges) := by
  rw [List.mapM_map]
  exact settles_mapM parseEdge_settles edges

theorem parseIIPs_settles (iips : List Json) : Settles ((iips.map Value.ofJson).mapM parseIIP)
    (∀ i ∈ iips, isDict i = true) False := by
  rw [List.mapM_map]
  exact (settles_mapM parseIIP_settles iips).congr Iff.rfl (by simp [First])

theorem fromDictDepth_settles (levels : Nat) (data : List (String × Json)) :
    Settles (fromDictDepth levels (Value.ofJsonItems data)) (Taken levels data)
      (DocumentEscapes levels data) := by
  induction levels generalizing data with
  | zero => exact settles_network ⟨_,rfl⟩ id id
  | succ levels ih =>
    rw [fromDictDepth,Value.lookup_ofJsonItems]
    cases hcomps : Dict.lookup data "components" with
    | none => exact settles_network ⟨_,rfl⟩ (by simp [Taken,hcomps]) (by simp [DocumentEscapes,hcomps])
    | some j =>
      cases j with
      | list comps =>
        simp only [Value.lookup_ofJsonItems,Option.map_some,Value.ofJson,Value.ofJsonList_eq,
          List.foldlM_map]
        refine Settles.congr (Settles.bind (settles_foldlM (parseComponent_settles ih) comps empty)
          fun net _ => settles_rows _ _ fun edges => Settles.bind (parseEdges_settles edges)
            fun es _ => settles_rows _ _ fun iips => Settles.map (parseIIPs_settles iips)
              fun is => ⟨_,rfl⟩) ?_ ?_
        · simp [Taken,hcomps]
        · simp [DocumentEscapes,hcomps]
      | _ => exact settles_network ⟨_,rfl⟩ (by simp [Taken,hcomps]) (by simp [DocumentEscapes,hcomps])

end ComponentNetwork

end AgentCentric.Network

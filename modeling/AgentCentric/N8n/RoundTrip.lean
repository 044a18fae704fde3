import AgentCentric.N8n.Adapter

namespace AgentCentric.N8n
open Boot (RequestedComponent EnvelopeGrant)

theorem asDict_ok {value : Json} {what : String} {items : List (String × Json)} :
    asDict value what = .ok items ↔ value = .dict items := by
  cases value <;> simp [asDict]

theorem asList_ok {value : Json} {message : String} {xs : List Json} :
    asList value message = .ok xs ↔ value = .list xs := by
  cases value <;> simp [asList]

theorem unsupported_nil {items : List (String × Json)} {known : List String} :
    unsupported items known = [] ↔ ∀ key ∈ items.map Prod.fst, key ∈ known := by
  rw [unsupported,← List.length_eq_zero_iff,(sortStrings_perm _).length_eq,
    List.length_eq_zero_iff,List.filter_eq_nil_iff]
  exact forall₂_congr fun key _ => by rw [decide_eq_true_eq,not_not]

theorem knownKeys_ok {items : List (String × Json)} {required optional : List String}
    {what : String} {u : Unit} : knownKeys items required optional what = .ok u ↔
      (∀ key ∈ required, key ∈ items.map Prod.fst) ∧
      ∀ key ∈ items.map Prod.fst, key ∈ required ++ optional := by
  simp only [knownKeys,bind_ok,forEach_ok,require_ok,decide_eq_true_eq,unsupported_nil]
  exact exists_const _

theorem lookup_optional (key k : String) (value : Option Json) :
    Dict.lookup (optional key value) k = if key = k then value else none := by
  cases value <;> simp [optional,Dict.lookup]

theorem lookup_append {α : Type} (es fs : List (String × α)) (k : String) :
    Dict.lookup (es ++ fs) k = (Dict.lookup es k).or (Dict.lookup fs k) := by
  induction es with
  | nil => rfl
  | cons e es ih => by_cases hk : e.1 = k <;> simp [Dict.lookup,hk,ih]

theorem optionsOf_cons (items : List (String × Json)) (key : String) (keys : List String) :
    optionsOf items (key :: keys) =
      optional key (Dict.lookup items key) ++ optionsOf items keys := by
  rw [optionsOf,List.filterMap_cons]
  cases Dict.lookup items key <;> rfl

theorem lookup_optionsOf (items : List (String × Json)) {keys : List String} (h : keys.Nodup)
    (key : String) : Dict.lookup (optionsOf items keys) key =
      if key ∈ keys then Dict.lookup items key else none := by
  induction keys with
  | nil => rfl
  | cons k keys ih =>
    obtain ⟨hk,hkeys⟩ := List.nodup_cons.1 h
    rw [optionsOf_cons,lookup_append,lookup_optional,ih hkeys]
    by_cases hkey : k = key
    · subst hkey
      simp [hk]
    · have hkey' : key ≠ k := fun h => hkey h.symm
      simp [hkey,hkey']

theorem lookup_field {items : List (String × Json)} {key : String}
    (h : key ∈ items.map Prod.fst) : Dict.lookup items key = some (field items key) := by
  obtain ⟨value,hvalue⟩ := Option.isSome_iff_exists.1 ((Dict.lookup_isSome items key).2 h)
  rw [field,hvalue,Option.getD_some]

theorem lookup_none {items : List (String × Json)} {key : String} (h : key ∉ items.map Prod.fst) :
    Dict.lookup items key = none := by
  rw [← Option.not_isSome_iff_eq_none,Dict.lookup_isSome]
  exact h

theorem lookup_ext {es fs : List (String × Json)} (known : List String)
    (hes : ∀ key ∈ es.map Prod.fst, key ∈ known) (hfs : ∀ key ∈ fs.map Prod.fst, key ∈ known)
    (h : ∀ key ∈ known, Dict.lookup es key = Dict.lookup fs key) (key : String) :
    Dict.lookup es key = Dict.lookup fs key := by
  by_cases hkey : key ∈ known
  · exact h key hkey
  · rw [lookup_none fun hmem => hkey (hes key hmem),lookup_none fun hmem => hkey (hfs key hmem)]

theorem Part.read_ok {component : Json} {p : Part} (h : Part.read component = .ok p) :
    ∃ items, component = .dict items ∧ ∀ key, Dict.lookup items key = Dict.lookup p.items key := by
  simp only [Part.read,bind_ok,asDict_ok,knownKeys_ok,pure,Except.pure,Except.ok.injEq] at h
  obtain ⟨items,hitems,-,-,-,⟨hrequired,hknown⟩,rfl⟩ := h
  refine ⟨items,hitems,lookup_ext _ hknown ?_ ?_⟩
  · intro key hkey
    rw [Part.items,List.map_cons,List.map_cons,List.mem_cons,List.mem_cons] at hkey
    simp only [componentRequired,List.cons_append,List.nil_append,List.mem_cons]
    exact hkey.imp_right (Or.imp_right fun h => (optionsOf_keys items componentOptional).subset h)
  · intro key hkey
    simp only [Part.items,Dict.lookup,
      lookup_optionsOf items (show componentOptional.Nodup by decide)]
    rcases List.mem_append.1 hkey with hrow | hoption
    · have hvalue := lookup_field (hrequired key hrow)
      simp only [componentRequired,List.mem_cons,List.not_mem_nil,or_false] at hrow
      rcases hrow with rfl | rfl <;> simp [hvalue]
    · have hid : ¬"id" = key := fun h => absurd (h ▸ hoption) (by decide)
      have htask : ¬"task" = key := fun h => absurd (h ▸ hoption) (by decide)
      rw [if_neg hid,if_neg htask,if_pos hoption]

theorem Wire.items_keys (w : Wire) :
    (w.items.map Prod.fst).Sublist (edgeRequired ++ edgeOptional) := by
  rw [Wire.items]
  cases w.capacity with
  | none => exact List.sublist_append_left edgeRequired edgeOptional
  | some value => exact .refl _

theorem Wire.read_ok {edge : Json} {w : Wire} (h : Wire.read edge = .ok w) :
    ∃ items, edge = .dict items ∧ ∀ key, Dict.lookup items key = Dict.lookup w.items key := by
  simp only [Wire.read,bind_ok,asDict_ok,knownKeys_ok,pure,Except.pure,Except.ok.injEq] at h
  obtain ⟨items,hitems,-,⟨hrequired,hknown⟩,target,htarget,rfl⟩ := h
  have htarget : Dict.lookup items "target" = some (.str target) := by
    rw [targetOf] at htarget
    split at htarget
    · cases htarget
      assumption
    · cases htarget
  refine ⟨items,hitems,lookup_ext _ hknown ?_ ?_⟩
  · intro key hkey
    exact (Wire.items_keys _).subset hkey
  · intro key hkey
    simp only [Wire.items,lookup_append,lookup_optional,Dict.lookup]
    rcases List.mem_append.1 hkey with hrow | hoption
    · have hvalue := lookup_field (hrequired key hrow)
      simp only [edgeRequired,List.mem_cons,List.not_mem_nil,or_false] at hrow
      rcases hrow with rfl | rfl | rfl | rfl
      · simp [hvalue]
      · simp [hvalue]
      · simp [htarget]
      · simp [hvalue]
    · rw [List.mem_singleton.1 hoption]
      simp

theorem Packet.read_ok {iip : Json} {p : Packet} (h : Packet.read iip = .ok p) :
    ∃ items, iip = .dict items ∧ ∀ key, Dict.lookup items key = Dict.lookup p.items key := by
  simp only [Packet.read,bind_ok,asDict_ok,knownKeys_ok,pure,Except.pure,Except.ok.injEq] at h
  obtain ⟨items,hitems,-,⟨hrequired,hknown⟩,rfl⟩ := h
  refine ⟨items,hitems,lookup_ext _ hknown (fun key hkey => hkey) ?_⟩
  intro key hkey
  have hvalue := lookup_field (hrequired key hkey)
  simp only [iipRequired,List.append_nil,List.mem_cons,List.not_mem_nil,or_false] at hkey
  rcases hkey with rfl | rfl | rfl <;> simp [hvalue,Packet.items,Dict.lookup]

def Wire.at (w : Wire) (name : String) : Wire := { w with target := name }

def Packet.at (p : Packet) (name : String) : Packet := { p with component := .str name }

theorem readEntries_map {α : Type} {what : String} {required optional : List String}
    {read : List (String × Json) → α} {β : Type} (items : Nat × β → List (String × Json))
    (value : β → α) (hkeys : ∀ e, knownKeys (items e) required optional what = .ok ())
    (horder : ∀ e, Dict.lookup (items e) "cbp_order" = some (.int e.1))
    (hread : ∀ e, read (items e) = value e.2) (index : Nat) (rows : List (Nat × β)) :
    readEntries what required optional read index (rows.map fun e => .dict (items e)) =
      .ok (rows.map fun e => (e.1,value e.2)) := by
  induction rows generalizing index with
  | nil => rfl
  | cons e rows ih =>
    have hindex : edgeOrder (items e) index = .ok e.1 := by
      rw [edgeOrder,horder]
      exact if_pos (Int.natCast_nonneg e.1)
    rw [List.map_cons,readEntries,asDict,ih]
    simp only [bind,Except.bind,hkeys,hindex,hread]
    rfl

theorem readEntries_inputs (name : String) (rows : List (Nat × Wire)) :
    readEntries "node input" ["from","field","arg"] ["capacity","cbp_order"] (wireAt name) 0
      (rows.map fun e => inputEntry e.1 e.2) = .ok (rows.map fun e => (e.1,e.2.at name)) := by
  refine readEntries_map (fun e => [("from",e.2.source),("field",e.2.sourceField),
    ("arg",e.2.targetArg)] ++ optional "capacity" e.2.capacity ++ [("cbp_order",.int e.1)])
    (fun w => w.at name) (fun e => ?_) (fun e => ?_) (fun e => ?_) 0 rows
  · rw [knownKeys_ok]
    cases e.2.capacity <;> simp [optional]
  · cases e.2.capacity <;> simp [optional,Dict.lookup]
  · rw [wireAt,Wire.at]
    simp only [field,lookup_append,lookup_optional,Dict.lookup]
    cases e.2.capacity <;> simp

theorem readEntries_iips (name : String) (rows : List (Nat × Packet)) :
    readEntries "node iip" ["port","value"] ["cbp_order"] (packetAt name) 0
      (rows.map fun e => iipEntry e.1 e.2) = .ok (rows.map fun e => (e.1,e.2.at name)) := by
  refine readEntries_map (fun e => [("port",e.2.port),("value",e.2.value),("cbp_order",.int e.1)])
    (fun p => p.at name) (fun e => ?_) (fun e => ?_) (fun e => ?_) 0 rows
  · rw [knownKeys_ok]
    simp
  · simp [Dict.lookup]
  · simp [packetAt,Packet.at,field,Dict.lookup]

def Part.named (p : Part) : Part := { p with id := .str p.id.text }

def readOf (p : Part) (inputs : List (Nat × Wire)) (iips : List (Nat × Packet)) : NodeRead :=
  ⟨p.named,p.id.text,inputs.map fun e => (e.1,e.2.at p.id.text),
    iips.map fun e => (e.1,e.2.at p.id.text)⟩

theorem optionsOf_congr {es fs : List (String × Json)} {keys : List String}
    (h : ∀ key ∈ keys, Dict.lookup es key = Dict.lookup fs key) :
    optionsOf es keys = optionsOf fs keys :=
  List.filterMap_congr fun key hkey => by rw [h key hkey]

theorem optionsOf_self {keys : List String} (hkeys : keys.Nodup) {es : List (String × Json)}
    (h : (es.map Prod.fst).Sublist keys) : optionsOf es keys = es := by
  induction keys generalizing es with
  | nil =>
    rw [List.sublist_nil,List.map_eq_nil_iff] at h
    rw [h]
    rfl
  | cons key keys ih =>
    obtain ⟨hkey,hrest⟩ := List.nodup_cons.1 hkeys
    rw [optionsOf_cons]
    rcases List.sublist_cons_iff.1 h with h | ⟨tail,hes,htail⟩
    · rw [lookup_none fun hmem => hkey (h.subset hmem),ih hrest h]
      rfl
    · cases es with
      | nil => cases hes
      | cons e es =>
        obtain ⟨rfl,rfl⟩ := List.cons.inj hes
        have hskip : optionsOf (e :: es) keys = optionsOf es keys := by
          refine optionsOf_congr fun k hk => ?_
          have hne : ¬e.1 = k := fun heq => hkey (heq.symm ▸ hk)
          rw [Dict.lookup,if_neg hne]
        rw [hskip,ih hrest htail,Dict.lookup,if_pos rfl]
        rfl

theorem lookup_bodyOf (p : Part) (inputs iips : List Json) (key : String) :
    Dict.lookup (bodyOf p inputs iips) key = if key = "task" then some p.task
      else if key = "inputs" then some (.list inputs) else if key = "iips" then some (.list iips)
      else Dict.lookup p.options key := by
  have hoptions {key : String} (hkey : key ∈ ["task","inputs","iips"]) :
      Dict.lookup p.options key = none := by
    refine lookup_none fun hmem => ?_
    have hknown := p.known.subset hmem
    revert hkey hknown
    simp only [List.mem_cons,List.not_mem_nil,or_false]
    rintro (rfl | rfl | rfl) <;> decide
  rw [bodyOf,List.cons_append,Dict.lookup,lookup_append]
  simp only [Dict.lookup,@eq_comm _ _ key]
  split
  · rfl
  · split
    · rename_i hkey
      subst hkey
      rw [hoptions (by decide)]
      rfl
    · split
      · rename_i hkey
        subst hkey
        rw [hoptions (by decide)]
        rfl
      · simp

theorem optionsOf_bodyOf (p : Part) (inputs iips : List Json) :
    optionsOf (bodyOf p inputs iips) componentOptional = p.options := by
  have hsame : ∀ key ∈ componentOptional,
      Dict.lookup (bodyOf p inputs iips) key = Dict.lookup p.options key := by
    intro key hkey
    have htask : key ≠ "task" := fun h => absurd (h ▸ hkey) (by decide)
    have hinputs : key ≠ "inputs" := fun h => absurd (h ▸ hkey) (by decide)
    have hiips : key ≠ "iips" := fun h => absurd (h ▸ hkey) (by decide)
    rw [lookup_bodyOf,if_neg htask,if_neg hinputs,if_neg hiips]
  rw [optionsOf_congr hsame,optionsOf_self (by decide) p.known]

theorem readNode_ok {seen : List String} {value : Json} {read : NodeRead}
    (h : readNode seen value = .ok read) : ∃ items params body inputs iips,
      value = .dict items ∧ Dict.lookup items "name" = some (.str read.name) ∧
      field items "parameters" = .dict params ∧ field params "cbp" = .dict body ∧
      read.name ∉ seen ∧ read.part.id = .str read.name ∧ read.part.task = field body "task" ∧
      read.part.options = optionsOf body componentOptional ∧
      ((Dict.lookup body "inputs").getD (.list [])).iterate = some inputs ∧
      readEntries "node input" ["from","field","arg"] ["capacity","cbp_order"] (wireAt read.name) 0
        inputs = .ok read.inputs ∧ ((Dict.lookup body "iips").getD (.list [])).iterate = some iips ∧
      readEntries "node iip" ["port","value"] ["cbp_order"] (packetAt read.name) 0 iips =
        .ok read.iips := by
  simp only [readNode,bind_ok,asDict_ok,require_ok,decide_eq_true_eq,elements,expect_ok,pure,
    Except.pure,Except.ok.injEq] at h
  obtain ⟨items,hitems,-,-,name,hname,-,hseen,params,hparams,body,hbody,-,-,-,-,inputs,hinputs,
    inputRows,hinputRows,iips,hiips,iipRows,hiipRows,rfl⟩ := h
  have hname : Dict.lookup items "name" = some (.str name) := by
    rw [nameOf] at hname
    split at hname
    · split at hname
      · cases hname
      · cases hname
        assumption
    · cases hname
  exact ⟨items,params,body,inputs,iips,hitems,hname,hparams,hbody,hseen,rfl,rfl,rfl,hinputs,
    hinputRows,hiips,hiipRows⟩

theorem readNode_node {seen : List String} {index : Nat} {p : Part} {inputs : List (Nat × Wire)}
    {iips : List (Nat × Packet)} {read : NodeRead}
    (h : readNode seen (node index p (inputs.map fun e => inputEntry e.1 e.2)
      (iips.map fun e => iipEntry e.1 e.2)) = .ok read) :
    read = readOf p inputs iips ∧ p.id.text ∉ seen := by
  obtain ⟨items,params,body,inputEntries,iipEntries,hitems,hname,hparams,hbody,hseen,hid,htask,
    hoptions,hinputs,hinputRows,hiips,hiipRows⟩ := readNode_ok h
  cases hitems
  cases hparams
  cases hbody
  have hread : read.name = p.id.text := by
    simpa [Dict.lookup] using hname.symm
  rw [lookup_bodyOf,if_neg (by decide),if_pos rfl,Option.getD_some,Json.iterate,
    Option.some.injEq] at hinputs
  rw [lookup_bodyOf,if_neg (by decide),if_neg (by decide),if_pos rfl,Option.getD_some,Json.iterate,
    Option.some.injEq] at hiips
  rw [field,lookup_bodyOf,if_pos rfl,Option.getD_some] at htask
  rw [optionsOf_bodyOf] at hoptions
  subst hinputs hiips
  rw [readEntries_inputs,Except.ok.injEq] at hinputRows
  rw [readEntries_iips,Except.ok.injEq] at hiipRows
  obtain ⟨part,name,inputRows,iipRows⟩ := read
  obtain ⟨id,task,options,known⟩ := part
  simp only at hread hid htask hoptions hinputRows hiipRows
  subst hread hid htask hoptions hinputRows hiipRows
  exact ⟨rfl,hseen⟩

def names (parts : List Part) : List String := parts.map fun p => p.id.text

theorem readNodes_nodes (inputs : String → List (Nat × Wire)) (iips : String → List (Nat × Packet))
    {seen : List String} {n : Nat} {parts : List Part} {reads : List NodeRead}
    (h : readNodes seen ((enumerate n parts).map fun e =>
      node e.1 e.2 ((inputs e.2.id.text).map fun e => inputEntry e.1 e.2)
        ((iips e.2.id.text).map fun e => iipEntry e.1 e.2)) = .ok reads) :
    reads = parts.map (fun p => readOf p (inputs p.id.text) (iips p.id.text)) ∧
      (names parts).Nodup ∧ ∀ name ∈ names parts, name ∉ seen := by
  induction parts generalizing seen n reads with
  | nil =>
    cases h
    exact ⟨rfl,List.nodup_nil,fun name hname => absurd hname List.not_mem_nil⟩
  | cons p parts ih =>
    rw [enumerate,List.map_cons,readNodes] at h
    simp only [bind_ok,pure,Except.pure,Except.ok.injEq] at h
    obtain ⟨read,hread,rest,hrest,rfl⟩ := h
    obtain ⟨rfl,hnew⟩ := readNode_node hread
    obtain ⟨rfl,hnodup,hseen⟩ := ih hrest
    refine ⟨rfl,List.nodup_cons.2 ⟨fun hmem => ?_,hnodup⟩,?_⟩
    · exact hseen _ hmem List.mem_cons_self
    · intro name hname
      rcases List.mem_cons.1 hname with rfl | hname
      · exact hnew
      · exact fun hmem => hseen name hname (List.mem_cons_of_mem _ hmem)

theorem inOrder_ok {α : Type} {rows placed : List (Nat × α)} {message : String} {values : List α}
    (hperm : rows.Perm placed) (hplaced : placed.Pairwise fun a b => a.1 < b.1)
    (h : inOrder rows message = .ok values) : values = placed.map Prod.snd := by
  rw [inOrder,byOrder,sort_places hperm hplaced] at h
  simp only [bind_ok,pure,Except.pure,Except.ok.injEq] at h
  obtain ⟨-,-,rfl⟩ := h
  rfl

theorem filter_enumerate {α : Type} (p : α → Bool) (start : Nat) (rows : List α) :
    ((enumerate start rows).filter fun e => p e.2).map Prod.snd = rows.filter p := by
  conv_rhs => rw [← enumerate_snd start rows,List.filter_map]
  rfl

theorem collected {α : Type} (key : α → String) (placed : α → String → α) {rows : List α}
    {keys : List String} (hkeys : keys.Nodup) {message : String} {values : List α}
    (h : inOrder (keys.flatMap fun k => ((enumerate 0 rows).filter fun e => key e.2 = k).map
      fun e => (e.1,placed e.2 k)) message = .ok values) :
    values = (rows.filter fun row => key row ∈ keys).map fun row => placed row (key row) := by
  have hswap : (keys.flatMap fun k => ((enumerate 0 rows).filter fun e => key e.2 = k).map
      fun e => (e.1,placed e.2 k)) = (keys.flatMap fun k =>
        (enumerate 0 rows).filter fun e => key e.2 = k).map
          fun e => (e.1,placed e.2 (key e.2)) := by
    rw [List.map_flatMap]
    refine congrArg (fun f => keys.flatMap f) (funext fun k => ?_)
    refine List.map_congr_left fun e he => ?_
    rw [of_decide_eq_true (List.mem_filter.1 he).2]
  have hperm := (flatMap_filter_perm (fun e : Nat × α => key e.2) hkeys (enumerate 0 rows)).map
    fun e => (e.1,placed e.2 (key e.2))
  have hplaced : (((enumerate 0 rows).filter fun e => key e.2 ∈ keys).map
      fun e => (e.1,placed e.2 (key e.2))).Pairwise fun a b => a.1 < b.1 :=
    List.pairwise_map.2 ((enumerate_lt 0 rows).sublist List.filter_sublist)
  rw [hswap] at h
  have hrows := filter_enumerate (fun row => decide (key row ∈ keys)) 0 rows
  rw [inOrder_ok hperm hplaced h,List.map_map,← hrows,List.map_map]
  rfl

theorem mem_of_slot {ts us : List String} (h : (slot ts).pyEq (slot us) = true) {t : String}
    (ht : t ∈ ts) : t ∈ us := by
  obtain ⟨place,hplace⟩ : ∃ place, (place,t) ∈ enumerate 0 ts := by
    rw [← enumerate_snd 0 ts] at ht
    obtain ⟨⟨place,_⟩,he,rfl⟩ := List.mem_map.1 ht
    exact ⟨place,he⟩
  simp only [slot,Json.pyEq,Json.pyEqItems,Dict.lookup,if_true,Json.pyEqList,Bool.and_eq_true] at h
  obtain ⟨y,hy,heq⟩ := Json.mem_of_pyEqList h.2.1.1 (List.mem_map_of_mem hplace)
  obtain ⟨⟨place',u⟩,hu,rfl⟩ := List.mem_map.1 hy
  simp only [Json.pyEq,Json.pyEqItems,Dict.lookup,if_true,Bool.and_eq_true,decide_eq_true_eq] at heq
  rw [heq.2.1,← enumerate_snd 0 us]
  exact List.mem_map_of_mem hu

theorem target_of_connect {wires edges : List Wire}
    (h : (connect wires).pyEq (connect edges) = true) {w : Wire} (hw : w ∈ wires) :
    ∃ e ∈ edges, e.target = w.target := by
  rw [connect,connect,Json.pyEq,Bool.and_eq_true] at h
  obtain ⟨targets,hget,hmem⟩ :=
    @Dict.group_of_mem _ _ _ _ (fun w : Wire => w.source.text) Wire.target _ _ hw
  have hslot : ((Dict.group (fun w : Wire => w.source.text) Wire.target wires).mapValues slot).get
      w.source.text = some (slot targets) := by rw [Dict.get_mapValues,hget,Option.map_some]
  obtain ⟨other,hother,heq⟩ := Json.lookup_of_pyEqItems h.2
    ((Dict.lookup_eq_some_iff (Dict.nodup _)).1 hslot)
  have hother : ((Dict.group (fun w : Wire => w.source.text) Wire.target edges).mapValues slot).get
      w.source.text = some other := hother
  rw [Dict.get_mapValues,Option.map_eq_some_iff] at hother
  obtain ⟨targets',hget',rfl⟩ := hother
  obtain ⟨e,he,-,htarget⟩ := (Dict.mem_group hget').1 (mem_of_slot heq hmem)
  exact ⟨e,he,htarget⟩

def Packet.placed (p : Packet) : Packet := p.at p.component.text

/-- The keys of the network that `to_n8n` writes. -/
def keysIn (design : Design) : List String :=
  networkKeys.filter fun key => key ∈ design.network.entries.keys

structure Accepted (workflow : Json) (imported : Design) where
  items : List (String × Json)
  nodes : List Json
  connections : List (String × Json)
  metaItems : List (String × Json)
  cbp : List (String × Json)
  keys : List String
  reads : List NodeRead
  edges : List Wire
  iips : List Packet
  components : List Json
  metadata : List (String × Json)
  envelopes : List Json
  workflow_eq : workflow = .dict items
  nodes_eq : field items "nodes" = .list nodes
  connections_eq : field items "connections" = .dict connections
  meta_eq : field items "meta" = .dict metaItems
  cbp_eq : field metaItems "cbp" = .dict cbp
  keys_ok : keysOf cbp = .ok keys
  reads_ok : readNodes [] nodes = .ok reads
  edges_ok : inOrder (reads.flatMap NodeRead.inputs)
    "edge cbp_order must be a permutation of 0..n-1" = .ok edges
  iips_ok : inOrder (reads.flatMap NodeRead.iips)
    "IIP cbp_order must be a permutation of 0..n-1" = .ok iips
  connected : (Json.dict connections).pyEq (connect edges) = true
  components_eq : (Dict.lookup cbp "components").getD (.list []) = .list components
  metadata_eq : (Dict.lookup cbp "metadata").getD (.dict []) = .dict metadata
  envelopes_eq : (Dict.lookup cbp "envelopes").getD (.list []) = .list envelopes
  design_ok : designOf cbp (networkOf (reads.map NodeRead.part) edges iips keys) components metadata
    envelopes = .ok imported

theorem fromN8n_ok {workflow : Json} {imported : Design} (h : fromN8n workflow = .ok imported) :
    Nonempty (Accepted workflow imported) := by
  simp only [fromN8n,bind_ok,asDict_ok,asList_ok,require_ok] at h
  obtain ⟨items,hitems,nodes,hnodes,connections,hconnections,metaItems,hmeta,cbp,hcbp,-,-,keys,
    hkeys,reads,hreads,edges,hedges,iips,hiips,-,-,-,hconnected,components,hcomponents,metadata,
    hmetadata,envelopes,henvelopes,hdesign⟩ := h
  have hconnections : field items "connections" = .dict connections := by
    unfold asConnections at hconnections
    split at hconnections
    · cases hconnections
      assumption
    · cases hconnections
  cases hmade : designOf cbp (networkOf (reads.map NodeRead.part) edges iips keys) components
      metadata envelopes with
  | error e =>
    rw [hmade] at hdesign
    cases hdesign
  | ok design =>
    rw [hmade] at hdesign
    cases hdesign
    exact ⟨⟨items,nodes,connections,metaItems,cbp,keys,reads,edges,iips,components,metadata,
      envelopes,hitems,hnodes,hconnections,hmeta,hcbp,hkeys,hreads,hedges,hiips,hconnected,
      hcomponents,hmetadata,henvelopes,hmade⟩⟩

theorem lookup_metaOf {design : Design} {cbp : List (String × Json)}
    (h : metaOf design = .dict cbp) (key : String) : Dict.lookup cbp key =
      if key = "projection" then some (.str projection)
      else if key = "schema" then some (.str designSchema)
      else if key = "id" then some (.str design.id)
      else if key = "title" then some (.str design.title)
      else if key = "components" then some (.list (design.components.map requestedToDict))
      else if key = "metadata" then some (.dict design.metadata.entries)
      else if key = "network_keys" then some (.list ((keysIn design).map .str))
      else if key = "envelopes" ∧ design.envelopes ≠ [] then
        some (.list (design.envelopes.map grantToDict)) else none := by
  rw [metaOf,Json.dict.injEq] at h
  rw [← h,lookup_append]
  by_cases henvelopes : design.envelopes = []
  · simp [Dict.lookup,henvelopes,@eq_comm _ _ key,keysIn]
  · simp [Dict.lookup,henvelopes,@eq_comm _ _ key,keysIn]
    grind

theorem designOf_metaOf {design imported : Design} {network : Graph} {cbp : List (String × Json)}
    {components envelopes : List Json} {metadata : List (String × Json)}
    (hcbp : metaOf design = .dict cbp)
    (hcomponents : (Dict.lookup cbp "components").getD (.list []) = .list components)
    (hmetadata : (Dict.lookup cbp "metadata").getD (.dict []) = .dict metadata)
    (henvelopes : (Dict.lookup cbp "envelopes").getD (.list []) = .list envelopes)
    (h : designOf cbp network components metadata envelopes = .ok imported) :
    imported = { design with network := network } := by
  have hlookup := lookup_metaOf hcbp
  simp only [hlookup] at hcomponents hmetadata henvelopes
  have hcomponents : design.components.map requestedToDict = components := by
    simpa using hcomponents
  have hmetadata : design.metadata.entries = metadata := by
    simpa using hmetadata
  have henvelopes : design.envelopes.map grantToDict = envelopes := by
    by_cases hnil : design.envelopes = []
    · simpa [hnil] using henvelopes
    · simpa [hnil] using henvelopes
  subst hcomponents hmetadata henvelopes
  have hrequested (c : RequestedComponent) : readRequested (requestedToDict c) = .ok c :=
    requestedFromDict_toDict c
  have hgrant (e : EnvelopeGrant) : readGrant (grantToDict e) = .ok e := grantFromDict_toDict e
  rw [designOf,mapM_written hrequested,mapM_written hgrant] at h
  simp only [bind,Except.bind,hlookup] at h
  rw [Design.new] at h
  simp [Dict.update_empty,design.named,design.requestedOnce,design.grantedOnce] at h
  exact h.symm

def carried (design : Design) (parts : List Part) (wires : List Wire) (packets : List Packet) :
    Graph :=
  networkOf (parts.map Part.named) wires
    ((packets.filter fun p => p.component.text ∈ names parts).map Packet.placed) (keysIn design)

theorem fromN8n_workflowOf {design imported : Design} {parts : List Part} {wires : List Wire}
    {packets : List Packet} (h : fromN8n (workflowOf design parts wires packets) = .ok imported) :
    imported = { design with network := carried design parts wires packets } := by
  obtain ⟨r⟩ := fromN8n_ok h
  obtain ⟨items,nodes,connections,metaItems,cbp,keys,reads,edges,iips,components,metadata,
    envelopes,hitems,hnodes,hconnections,hmeta,hcbp,hkeys,hreads,hedges,hiips,hconnected,
    hcomponents,hmetadata,henvelopes,hmade⟩ := r
  cases hitems
  cases hnodes
  cases hmeta
  cases hconnections
  have hcbp : metaOf design = .dict cbp := hcbp
  have hkeys : keys = keysIn design := by
    have hlookup := lookup_metaOf hcbp
    simp only [keysOf,bind_ok,asList_ok,pure,Except.pure,Except.ok.injEq] at hkeys
    obtain ⟨keys',hkeys',-,-,-,-,-,-,rfl⟩ := hkeys
    rw [field,hlookup] at hkeys'
    simp at hkeys'
    rw [← hkeys',List.map_map]
    exact List.map_id _
  rw [nodesOf] at hreads
  simp only [Dict.get_group] at hreads
  obtain ⟨rfl,hnodup,-⟩ := readNodes_nodes
    (fun name => (enumerate 0 wires).filter fun e => e.2.target = name)
    (fun name => (enumerate 0 packets).filter fun e => e.2.component.text = name) hreads
  rw [List.flatMap_map] at hedges hiips
  have hedges : edges = wires.filter fun w => w.target ∈ names parts := by
    have hcollected := collected Wire.target Wire.at hnodup (by
      rw [names,List.flatMap_map]
      exact hedges)
    rw [hcollected]
    exact List.map_id _
  have hiips : iips = (packets.filter fun p => p.component.text ∈ names parts).map
      Packet.placed :=
    collected (fun p => p.component.text) Packet.at hnodup (by
      rw [names,List.flatMap_map]
      exact hiips)
  have hall : edges = wires := by
    rw [hedges,List.filter_eq_self]
    intro w hw
    obtain ⟨e,he,htarget⟩ := target_of_connect hconnected hw
    rw [hedges] at he
    rw [← htarget]
    exact (List.mem_filter.1 he).2
  have himported := designOf_metaOf hcbp hcomponents hmetadata henvelopes hmade
  rw [himported,carried,hall,hiips,hkeys,List.map_map]
  rfl

end AgentCentric.N8n

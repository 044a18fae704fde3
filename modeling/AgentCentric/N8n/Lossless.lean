import AgentCentric.N8n.RoundTrip

namespace AgentCentric.N8n

/-- The components are named by texts, and every packet goes to one of them. -/
structure Plain (design : Design) : Prop where
  named : ∀ items, .dict items ∈ design.network.rows "components" →
    ∃ id, Dict.lookup items "id" = some (.str id)
  placed : ∀ items, .dict items ∈ design.network.rows "iips" →
    ∃ name, Dict.lookup items "component" = some (.str name) ∧
      ∃ part, .dict part ∈ design.network.rows "components" ∧
        Dict.lookup part "id" = some (.str name)

/-- What `to_n8n` read of a design. -/
structure Projected (design : Design) (workflow : Json) where
  components : List Json
  edges : List Json
  iips : List Json
  parts : List Part
  wires : List Wire
  packets : List Packet
  supported : ∀ key ∈ design.network.entries.keys, key ∈ networkKeys
  components_eq : design.network.entries.get "components" = some (.list components)
  edges_eq : (design.network.entries.get "edges").getD (.list []) = .list edges
  iips_eq : (design.network.entries.get "iips").getD (.list []) = .list iips
  parts_ok : components.mapM Part.read = .ok parts
  wires_ok : edges.mapM Wire.read = .ok wires
  packets_ok : iips.mapM Packet.read = .ok packets
  workflow_eq : workflow = workflowOf design parts wires packets

theorem toN8n_ok {design : Design} {workflow : Json} (h : toN8n design = .ok workflow) :
    Nonempty (Projected design workflow) := by
  simp only [toN8n,bind_ok,asList_ok,require_ok,decide_eq_true_eq,unsupported_nil,pure,Except.pure,
    Except.ok.injEq] at h
  obtain ⟨-,hsupported,components,hcomponents,edges,hedges,iips,hiips,parts,hparts,wires,hwires,
    packets,hpackets,rfl⟩ := h
  have hcomponents : design.network.entries.get "components" = some (.list components) := by
    cases hget : design.network.entries.get "components" with
    | none =>
      rw [hget] at hcomponents
      cases hcomponents
    | some value =>
      rw [hget,Option.getD_some] at hcomponents
      rw [hcomponents]
  exact ⟨⟨components,edges,iips,parts,wires,packets,hsupported,hcomponents,hedges,hiips,hparts,
    hwires,hpackets,rfl⟩⟩

theorem rows_canonical {ε α : Type} {read : Json → Except ε α} {items : α → List (String × Json)}
    {rows : List Json} {values : List α} (h : rows.mapM read = .ok values)
    (hread : ∀ row ∈ rows, ∀ value, read row = .ok value →
      row.canonical = (Json.dict (items value)).canonical) :
    rows.map Json.canonical = values.map fun value => (Json.dict (items value)).canonical := by
  induction rows generalizing values with
  | nil =>
    cases h
    rfl
  | cons row rows ih =>
    rw [List.mapM_cons] at h
    obtain ⟨value,hvalue,h⟩ := bind_ok.1 h
    obtain ⟨rest,hrest,h⟩ := bind_ok.1 h
    cases h
    rw [List.map_cons,List.map_cons,hread row List.mem_cons_self value hvalue,
      ih hrest fun row hrow => hread row (List.mem_cons_of_mem _ hrow)]

theorem canonical_of_lookup {es fs : List (String × Json)} (hes : (es.map Prod.fst).Nodup)
    (hfs : (fs.map Prod.fst).Nodup) (h : ∀ key, Dict.lookup es key = Dict.lookup fs key) :
    (Json.dict es).canonical = (Json.dict fs).canonical :=
  (Json.canonical_dict_iff hes hfs).2 fun key => by rw [h key]

theorem canonical_text {value : Json} : (Json.str value.text).canonical = value.canonical ↔
    ∃ s, value = .str s := by
  constructor
  · intro h
    cases value <;> simp [Json.canonical] at h
    exact ⟨_,rfl⟩
  · rintro ⟨s,rfl⟩
    rfl

theorem Part.named_canonical {p : Part} : (Json.dict p.named.items).canonical =
    (Json.dict p.items).canonical ↔ ∃ id, p.id = .str id := by
  constructor
  · intro h
    have hid := (Json.canonical_dict_iff p.named.items_nodup p.items_nodup).1 h "id"
    exact canonical_text.1 (Option.some.inj hid)
  · rintro ⟨id,hid⟩
    have hsame : p.named = p := by
      obtain ⟨_,task,options,known⟩ := p
      cases hid
      rfl
    rw [hsame]

theorem Packet.placed_canonical {p : Packet} : (Json.dict p.placed.items).canonical =
    (Json.dict p.items).canonical ↔ ∃ name, p.component = .str name := by
  constructor
  · intro h
    have hcomponent :=
      (Json.canonical_dict_iff p.placed.items_nodup p.items_nodup).1 h "component"
    exact canonical_text.1 (Option.some.inj hcomponent)
  · rintro ⟨name,hname⟩
    have hsame : p.placed = p := by
      obtain ⟨_,port,value⟩ := p
      cases hname
      rfl
    rw [hsame]

theorem placed_canonical {packets : List Packet} {keys : List String} :
    (((packets.filter fun p => p.component.text ∈ keys).map Packet.placed).map
      fun p => (Json.dict p.items).canonical) =
      packets.map (fun p => (Json.dict p.items).canonical) ↔
    ∀ p ∈ packets, p.component.text ∈ keys ∧ ∃ name, p.component = .str name := by
  constructor
  · intro h
    have hlength := congrArg List.length h
    rw [List.length_map,List.length_map,List.length_map] at hlength
    have hall : (packets.filter fun p => p.component.text ∈ keys) = packets :=
      List.filter_sublist.eq_of_length hlength
    rw [hall,List.map_map,List.map_inj_left] at h
    intro p hp
    exact ⟨of_decide_eq_true (List.filter_eq_self.1 hall p hp),Packet.placed_canonical.1 (h p hp)⟩
  · intro h
    rw [List.filter_eq_self.2 fun p hp => decide_eq_true (h p hp).1,List.map_map,
      List.map_inj_left]
    exact fun p hp => Packet.placed_canonical.2 (h p hp).2

theorem parts_canonical {parts : List Part} : ((parts.map Part.named).map
      fun p => (Json.dict p.items).canonical) = parts.map (fun p => (Json.dict p.items).canonical) ↔
    ∀ p ∈ parts, ∃ id, p.id = .str id := by
  rw [List.map_map,List.map_inj_left]
  exact forall₂_congr fun p _ => Part.named_canonical

theorem lookup_networkItems (parts : List Part) (edges : List Wire) (iips : List Packet)
    (keys : List String) (key : String) : Dict.lookup (networkItems parts edges iips keys) key =
      if key = "components" then some (.list (parts.map fun p => .dict p.items))
      else if key = "edges" ∧ "edges" ∈ keys then some (.list (edges.map fun w => .dict w.items))
      else if key = "iips" ∧ "iips" ∈ keys then some (.list (iips.map fun p => .dict p.items))
      else none := by
  rw [networkItems,lookup_append,lookup_append]
  by_cases hedges : "edges" ∈ keys
  · by_cases hiips : "iips" ∈ keys
    · simp only [hedges,hiips,if_true,and_true,Dict.lookup,@eq_comm _ _ key]
      split <;> simp
      split <;> simp
    · simp only [hedges,hiips,if_true,if_false,and_true,and_false,Dict.lookup,@eq_comm _ _ key]
      split <;> simp
  · by_cases hiips : "iips" ∈ keys
    · simp only [hedges,hiips,if_true,if_false,and_true,and_false,Dict.lookup,@eq_comm _ _ key]
      split <;> simp
    · simp only [hedges,hiips,if_false,and_false,Dict.lookup,@eq_comm _ _ key]
      split <;> simp

theorem mem_keysIn {design : Design} {key : String} (hkey : key ∈ networkKeys) :
    key ∈ keysIn design ↔ ∃ value, design.network.entries.get key = some value := by
  rw [keysIn,List.mem_filter,decide_eq_true_eq,Dict.get,← Option.isSome_iff_exists,
    Dict.lookup_isSome]
  exact ⟨fun h => h.2,fun h => ⟨hkey,h⟩⟩

variable {design : Design} {workflow : Json}

theorem Projected.keyed {key : String} {rows : List Json}
    (h : (design.network.entries.get key).getD (.list []) = .list rows) :
    ∀ items, .dict items ∈ rows → (items.map Prod.fst).Nodup := by
  intro items hitems
  cases hget : design.network.entries.get key with
  | none =>
    rw [hget,Option.getD_none,Json.list.injEq] at h
    rw [← h] at hitems
    cases hitems
  | some value =>
    rw [hget,Option.getD_some] at h
    subst h
    exact design.network.keyed key rows hget items hitems

theorem Projected.parts_canonical (r : Projected design workflow) :
    r.components.map Json.canonical = r.parts.map fun p => (Json.dict p.items).canonical := by
  refine rows_canonical r.parts_ok fun row hrow p hp => ?_
  obtain ⟨items,rfl,hlookup⟩ := Part.read_ok hp
  exact canonical_of_lookup (design.network.keyed _ _ r.components_eq items hrow) p.items_nodup
    hlookup

theorem Projected.wires_canonical (r : Projected design workflow) :
    r.edges.map Json.canonical = r.wires.map fun w => (Json.dict w.items).canonical := by
  refine rows_canonical r.wires_ok fun row hrow w hw => ?_
  obtain ⟨items,rfl,hlookup⟩ := Wire.read_ok hw
  exact canonical_of_lookup (keyed r.edges_eq items hrow) w.items_nodup hlookup

theorem Projected.packets_canonical (r : Projected design workflow) :
    r.iips.map Json.canonical = r.packets.map fun p => (Json.dict p.items).canonical := by
  refine rows_canonical r.packets_ok fun row hrow p hp => ?_
  obtain ⟨items,rfl,hlookup⟩ := Packet.read_ok hp
  exact canonical_of_lookup (keyed r.iips_eq items hrow) p.items_nodup hlookup

/-- The condition, on what was read. -/
def Projected.Kept (r : Projected design workflow) : Prop :=
  (∀ p ∈ r.parts, ∃ id, p.id = .str id) ∧
  ∀ p ∈ r.packets, p.component.text ∈ names r.parts ∧ ∃ name, p.component = .str name

theorem list_canonical {α : Type} {rows : List Json} {values back : List α}
    {items : α → List (String × Json)}
    (h : rows.map Json.canonical = values.map fun value => (Json.dict (items value)).canonical) :
    (Json.list (back.map fun value => .dict (items value))).canonical = (Json.list rows).canonical ↔
      (back.map fun value => (Json.dict (items value)).canonical) =
        values.map fun value => (Json.dict (items value)).canonical := by
  rw [Json.canonical_list,Json.canonical_list,Json.list.injEq,h,List.map_map]
  rfl

theorem Projected.get_rows {key : String} (hkey : key ∈ networkKeys) {rows : List Json}
    (h : (design.network.entries.get key).getD (.list []) = .list rows) :
    (key ∈ keysIn design ∧ design.network.entries.get key = some (.list rows)) ∨
      (key ∉ keysIn design ∧ design.network.entries.get key = none ∧ rows = []) := by
  rw [mem_keysIn hkey]
  cases hget : design.network.entries.get key with
  | none =>
    rw [hget] at h
    cases h
    exact .inr ⟨fun ⟨_,h⟩ => (Option.some_ne_none _ h.symm).elim,rfl,rfl⟩
  | some value =>
    rw [hget] at h
    cases h
    exact .inl ⟨⟨_,rfl⟩,rfl⟩

theorem Projected.edges_canonical (r : Projected design workflow) : (if "edges" ∈ keysIn design then
        some (Json.list (r.wires.map fun w => .dict w.items)) else none).map Json.canonical =
      (design.network.entries.get "edges").map Json.canonical := by
  rcases get_rows (by decide) r.edges_eq with ⟨hmem,hget⟩ | ⟨hmem,hget,-⟩
  · rw [if_pos hmem,hget,Option.map_some,Option.map_some,Option.some.injEq,
      list_canonical r.wires_canonical]
  · rw [if_neg hmem,hget]

theorem Projected.iips_canonical (r : Projected design workflow) : (if "iips" ∈ keysIn design then
        some (Json.list (((r.packets.filter fun p => p.component.text ∈ names r.parts).map
          Packet.placed).map fun p => .dict p.items)) else none).map Json.canonical =
      (design.network.entries.get "iips").map Json.canonical ↔
    ∀ p ∈ r.packets, p.component.text ∈ names r.parts ∧ ∃ name, p.component = .str name := by
  rcases get_rows (by decide) r.iips_eq with ⟨hmem,hget⟩ | ⟨hmem,hget,hrows⟩
  · rw [if_pos hmem,hget,Option.map_some,Option.map_some,Option.some.injEq,
      list_canonical r.packets_canonical,placed_canonical]
  · have hpackets : r.packets = [] := by
      have hok := r.packets_ok
      rw [hrows] at hok
      exact (Except.ok.inj hok).symm
    rw [if_neg hmem,hget,hpackets]
    simp

theorem Projected.network_canonical (r : Projected design workflow) :
    (Json.dict (carried design r.parts r.wires r.packets).entries.entries).canonical =
      (Json.dict design.network.entries.entries).canonical ↔ r.Kept := by
  rw [Json.canonical_dict_iff (Dict.nodup _) (Dict.nodup _)]
  simp only [carried,networkOf,lookup_networkItems]
  have hcomponents : (some (Json.list ((r.parts.map Part.named).map fun p => .dict p.items))).map
      Json.canonical = (design.network.entries.get "components").map Json.canonical ↔
      ∀ p ∈ r.parts, ∃ id, p.id = .str id := by
    rw [r.components_eq,Option.map_some,Option.map_some,Option.some.injEq,
      list_canonical r.parts_canonical,N8n.parts_canonical]
  constructor
  · intro h
    have hfirst := h "components"
    have hlast := h "iips"
    rw [if_pos rfl] at hfirst
    rw [if_neg (by decide),if_neg fun h => absurd h.1 (by decide)] at hlast
    simp only [true_and] at hlast
    exact ⟨hcomponents.1 hfirst,r.iips_canonical.1 hlast⟩
  · rintro ⟨hparts,hpackets⟩ key
    by_cases hcomponent : key = "components"
    · subst hcomponent
      rw [if_pos rfl]
      exact hcomponents.2 hparts
    by_cases hedge : key = "edges"
    · subst hedge
      simp only [hcomponent,if_false,true_and,show ¬"edges" = "iips" by decide,false_and]
      exact r.edges_canonical
    by_cases hiip : key = "iips"
    · subst hiip
      simp only [hcomponent,hedge,if_false,true_and,false_and]
      exact r.iips_canonical.2 hpackets
    simp only [hcomponent,hedge,hiip,if_false,false_and]
    have hnone : Dict.lookup design.network.entries.entries key = none := by
      refine lookup_none fun hmem => ?_
      have hknown := r.supported key hmem
      simp only [networkKeys,List.mem_cons,List.not_mem_nil,or_false] at hknown
      rcases hknown with h | h | h
      · exact hcomponent h
      · exact hedge h
      · exact hiip h
    rw [hnone]

theorem Projected.kept_iff (r : Projected design workflow) : r.Kept ↔ Plain design := by
  have hcomponents : design.network.rows "components" = r.components := by
    rw [Graph.rows,r.components_eq]
  have hiips : design.network.rows "iips" = r.iips := by
    rw [Graph.rows]
    rcases get_rows (by decide) r.iips_eq with ⟨-,hget⟩ | ⟨-,hget,hrows⟩
    · rw [hget]
    · rw [hget,hrows]
  have hread {items : List (String × Json)} (h : .dict items ∈ r.components) :
      ∃ p ∈ r.parts, Dict.lookup items "id" = some p.id := by
    obtain ⟨p,hp⟩ := mapM_returns.1 ⟨_,r.parts_ok⟩ _ h
    obtain ⟨_,heq,hlookup⟩ := Part.read_ok hp
    cases heq
    exact ⟨p,(mem_mapM r.parts_ok).2 ⟨_,h,hp⟩,hlookup "id"⟩
  have hwritten {p : Part} (h : p ∈ r.parts) :
      ∃ items, .dict items ∈ r.components ∧ Dict.lookup items "id" = some p.id := by
    obtain ⟨row,hrow,hp⟩ := (mem_mapM r.parts_ok).1 h
    obtain ⟨items,rfl,hlookup⟩ := Part.read_ok hp
    exact ⟨items,hrow,hlookup "id"⟩
  have hpacket {items : List (String × Json)} (h : .dict items ∈ r.iips) :
      ∃ p ∈ r.packets, Dict.lookup items "component" = some p.component := by
    obtain ⟨p,hp⟩ := mapM_returns.1 ⟨_,r.packets_ok⟩ _ h
    obtain ⟨_,heq,hlookup⟩ := Packet.read_ok hp
    cases heq
    exact ⟨p,(mem_mapM r.packets_ok).2 ⟨_,h,hp⟩,hlookup "component"⟩
  have hsent {p : Packet} (h : p ∈ r.packets) :
      ∃ items, .dict items ∈ r.iips ∧ Dict.lookup items "component" = some p.component := by
    obtain ⟨row,hrow,hp⟩ := (mem_mapM r.packets_ok).1 h
    obtain ⟨items,rfl,hlookup⟩ := Packet.read_ok hp
    exact ⟨items,hrow,hlookup "component"⟩
  constructor
  · rintro ⟨hparts,hpackets⟩
    constructor
    · intro items hitems
      rw [hcomponents] at hitems
      obtain ⟨p,hp,hid⟩ := hread hitems
      obtain ⟨id,heq⟩ := hparts p hp
      exact ⟨id,by rw [hid,heq]⟩
    · intro items hitems
      rw [hiips] at hitems
      obtain ⟨p,hp,hcomponent⟩ := hpacket hitems
      obtain ⟨hmem,name,hname⟩ := hpackets p hp
      obtain ⟨part,hpart,htext⟩ := List.mem_map.1 hmem
      obtain ⟨id,hid⟩ := hparts part hpart
      obtain ⟨items',hitems',hid'⟩ := hwritten hpart
      rw [hname,hid] at htext
      refine ⟨name,by rw [hcomponent,hname],items',by rw [hcomponents]; exact hitems',?_⟩
      rw [hid',hid]
      exact congrArg (fun s => some (Json.str s)) htext
  · rintro ⟨hnamed,hplaced⟩
    have hparts : ∀ p ∈ r.parts, ∃ id, p.id = .str id := by
      intro p hp
      obtain ⟨items,hitems,hid⟩ := hwritten hp
      obtain ⟨id,hid'⟩ := hnamed items (by rw [hcomponents]; exact hitems)
      rw [hid,Option.some.injEq] at hid'
      exact ⟨id,hid'⟩
    refine ⟨hparts,fun p hp => ?_⟩
    obtain ⟨items,hitems,hcomponent⟩ := hsent hp
    obtain ⟨name,hname,part,hpart,hid⟩ := hplaced items (by rw [hiips]; exact hitems)
    rw [hcomponents] at hpart
    obtain ⟨q,hq,hid'⟩ := hread hpart
    rw [hcomponent,Option.some.injEq] at hname
    rw [hid',Option.some.injEq] at hid
    refine ⟨List.mem_map.2 ⟨q,hq,?_⟩,name,hname⟩
    rw [hid,hname]

theorem toDict_network {network : Graph} :
    ({ design with network := network } : Design).toDict.canonical = design.toDict.canonical ↔
      (Json.dict network.entries.entries).canonical =
        (Json.dict design.network.entries.entries).canonical := by
  rw [Design.toDict,Design.toDict]
  by_cases henvelopes : design.envelopes = []
  · rw [Json.canonical_dict_inj (by simp [henvelopes]) (by simp [henvelopes])]
    simp [henvelopes]
  · rw [Json.canonical_dict_inj (by simp [henvelopes]) (by simp [henvelopes])]
    simp [henvelopes]

theorem hash_kept {imported : Design} (hto : toN8n design = .ok workflow)
    (hfrom : fromN8n workflow = .ok imported) :
    (∀ sha256, imported.designHash sha256 = design.designHash sha256) ↔ Plain design := by
  obtain ⟨r⟩ := toN8n_ok hto
  rw [r.workflow_eq] at hfrom
  rw [Design.hash_iff,← r.kept_iff,← r.network_canonical,fromN8n_workflowOf hfrom,toDict_network]

def itemsOf : Json → List (String × Json)
  | .dict items => items
  | _ => []

def nodesIn (workflow : Json) : List Json :=
  match field (itemsOf workflow) "nodes" with
  | .list nodes => nodes
  | _ => []

/-- What stands at a node under `inputs` or `iips`, with the name of the node. -/
def nodeEntries (key : String) (node : Json) : List (String × List (String × Json)) :=
  let items := itemsOf node
  let body := itemsOf (field (itemsOf (field items "parameters")) "cbp")
  let entries := (((Dict.lookup body key).getD (.list [])).iterate).getD []
  entries.map fun entry => ((field items "name").text,itemsOf entry)

def entriesIn (workflow : Json) (key : String) : List (String × List (String × Json)) :=
  (nodesIn workflow).flatMap (nodeEntries key)

/-- `meta.cbp.network_keys` names a key. -/
def Names (workflow : Json) (key : String) : Prop :=
  ∃ keys, field (itemsOf (field (itemsOf (field (itemsOf workflow) "meta")) "cbp"))
    "network_keys" = .list keys ∧ ∃ k ∈ keys, isText k key = true

structure Complete (workflow : Json) (imported : Design) : Prop where
  edges : ∀ entry ∈ entriesIn workflow "inputs",
    .dict (wireAt entry.1 entry.2).items ∈ imported.network.rows "edges"
  iips : ∀ entry ∈ entriesIn workflow "iips",
    .dict (packetAt entry.1 entry.2).items ∈ imported.network.rows "iips"

/-- The network has the keys for what stands at the nodes. -/
structure Gated (workflow : Json) : Prop where
  edges : entriesIn workflow "inputs" ≠ [] → Names workflow "edges"
  iips : entriesIn workflow "iips" ≠ [] → Names workflow "iips"

theorem readEntries_snd {α : Type} {what : String} {required optional : List String}
    {read : List (String × Json) → α} {index : Nat} {entries : List Json} {rows : List (Nat × α)}
    (h : readEntries what required optional read index entries = .ok rows) :
    rows.map Prod.snd = entries.map fun entry => read (itemsOf entry) := by
  induction entries generalizing index rows with
  | nil =>
    cases h
    rfl
  | cons entry entries ih =>
    simp only [readEntries,bind_ok,asDict_ok,pure,Except.pure,Except.ok.injEq] at h
    obtain ⟨items,rfl,-,-,order,-,rest,hrest,rfl⟩ := h
    rw [List.map_cons,List.map_cons,ih hrest,itemsOf]

theorem readNode_entries {seen : List String} {value : Json} {read : NodeRead}
    (h : readNode seen value = .ok read) :
    read.inputs.map Prod.snd = (nodeEntries "inputs" value).map (fun e => wireAt e.1 e.2) ∧
    read.iips.map Prod.snd = (nodeEntries "iips" value).map fun e => packetAt e.1 e.2 := by
  obtain ⟨items,params,body,inputs,iips,rfl,hname,hparams,hbody,-,-,-,-,hinputs,hinputRows,hiips,
    hiipRows⟩ := readNode_ok h
  have hfield : (field items "name").text = read.name := by
    rw [field,hname]
    rfl
  rw [readEntries_snd hinputRows,readEntries_snd hiipRows]
  simp only [nodeEntries,itemsOf,hparams,hbody,hinputs,hiips,hfield,Option.getD_some,List.map_map]
  exact ⟨rfl,rfl⟩

theorem readNodes_entries {seen : List String} {values : List Json} {reads : List NodeRead}
    (h : readNodes seen values = .ok reads) : (reads.flatMap NodeRead.inputs).map Prod.snd =
      (values.flatMap (nodeEntries "inputs")).map (fun e => wireAt e.1 e.2) ∧
    (reads.flatMap NodeRead.iips).map Prod.snd =
      (values.flatMap (nodeEntries "iips")).map fun e => packetAt e.1 e.2 := by
  induction values generalizing seen reads with
  | nil =>
    cases h
    exact ⟨rfl,rfl⟩
  | cons value values ih =>
    simp only [readNodes,bind_ok,pure,Except.pure,Except.ok.injEq] at h
    obtain ⟨read,hread,rest,hrest,rfl⟩ := h
    obtain ⟨hinputs,hiips⟩ := readNode_entries hread
    obtain ⟨hinputs',hiips'⟩ := ih hrest
    simp only [List.flatMap_cons,List.map_append,hinputs,hiips,hinputs',hiips']
    exact ⟨trivial,trivial⟩

theorem inOrder_perm {α : Type} {rows : List (Nat × α)} {message : String} {values : List α}
    (h : inOrder rows message = .ok values) : values.Perm (rows.map Prod.snd) := by
  simp only [inOrder,bind_ok,pure,Except.pure,Except.ok.injEq] at h
  obtain ⟨-,-,rfl⟩ := h
  exact (List.perm_insertionSort _ rows).map Prod.snd

theorem designOf_network {cbp : List (String × Json)} {network : Graph} {imported : Design}
    {components envelopes : List Json} {metadata : List (String × Json)}
    (h : designOf cbp network components metadata envelopes = .ok imported) :
    imported.network = network := by
  simp only [designOf,bind_ok] at h
  obtain ⟨components',-,envelopes',-,h⟩ := h
  unfold Design.new at h
  split at h
  · cases h
  · split at h
    · cases h
    · split at h
      · split at h
        · cases h
          rfl
        · cases h
      · cases h

theorem keysOf_ok {cbp : List (String × Json)} {keys : List String} (h : keysOf cbp = .ok keys)
    (key : String) : key ∈ keys ↔
      ∃ values, field cbp "network_keys" = .list values ∧ ∃ k ∈ values, isText k key = true := by
  simp only [keysOf,bind_ok,asList_ok,require_ok,pure,Except.pure,Except.ok.injEq] at h
  obtain ⟨values,hvalues,-,-,-,hstr,-,-,rfl⟩ := h
  simp only [hvalues,Json.list.injEq,exists_eq_left',List.mem_map]
  refine exists_congr fun k => and_congr_right fun hk => ?_
  have hk := List.all_eq_true.1 hstr k hk
  cases k <;> simp [Json.isStr,isText] at hk ⊢

variable {imported : Design}

theorem Accepted.rows (r : Accepted workflow imported) : imported.network.rows "edges" =
      (if "edges" ∈ r.keys then r.edges.map fun w => .dict w.items else []) ∧
    imported.network.rows "iips" =
      if "iips" ∈ r.keys then r.iips.map fun p => .dict p.items else [] := by
  rw [designOf_network r.design_ok]
  simp only [Graph.rows,networkOf,Dict.get,lookup_networkItems]
  constructor
  · by_cases hkey : "edges" ∈ r.keys <;> simp [hkey]
  · by_cases hkey : "iips" ∈ r.keys <;> simp [hkey]

theorem Accepted.items_of (r : Accepted workflow imported) : itemsOf workflow = r.items :=
  congrArg itemsOf r.workflow_eq

theorem Accepted.nodes_in (r : Accepted workflow imported) : nodesIn workflow = r.nodes := by
  rw [nodesIn,r.items_of,r.nodes_eq]

theorem Accepted.names (r : Accepted workflow imported) (key : String) :
    key ∈ r.keys ↔ Names workflow key := by
  rw [keysOf_ok r.keys_ok,Names,r.items_of,r.meta_eq,itemsOf,r.cbp_eq,itemsOf]

theorem Accepted.edges_perm (r : Accepted workflow imported) :
    r.edges.Perm ((entriesIn workflow "inputs").map fun e => wireAt e.1 e.2) := by
  have hread := (readNodes_entries r.reads_ok).1
  have hperm := inOrder_perm r.edges_ok
  rw [hread] at hperm
  rw [entriesIn,r.nodes_in]
  exact hperm

theorem Accepted.iips_perm (r : Accepted workflow imported) :
    r.iips.Perm ((entriesIn workflow "iips").map fun e => packetAt e.1 e.2) := by
  have hread := (readNodes_entries r.reads_ok).2
  have hperm := inOrder_perm r.iips_ok
  rw [hread] at hperm
  rw [entriesIn,r.nodes_in]
  exact hperm

/-- A list under a key that may be missing holds all that it should exactly if the key is there or
nothing should be held. -/
theorem held_iff {α β : Type} {p : Prop} [Decidable p] {entries : List α} {values : List β}
    {make : α → β} (write : β → Json) (hperm : values.Perm (entries.map make)) :
    (∀ e ∈ entries, write (make e) ∈ if p then values.map write else []) ↔ (entries ≠ [] → p) := by
  by_cases hp : p
  · rw [if_pos hp]
    refine iff_of_true (fun e he => ?_) fun _ => hp
    exact List.mem_map_of_mem (hperm.mem_iff.2 (List.mem_map_of_mem he))
  · rw [if_neg hp]
    constructor
    · intro h hne
      obtain ⟨e,he⟩ := List.exists_mem_of_ne_nil entries hne
      exact absurd (h e he) List.not_mem_nil
    · intro h e he
      exact absurd (h (List.ne_nil_of_mem he)) hp

theorem complete_iff (hfrom : fromN8n workflow = .ok imported) :
    Complete workflow imported ↔ Gated workflow := by
  obtain ⟨r⟩ := fromN8n_ok hfrom
  have hedges := held_iff (p := "edges" ∈ r.keys) (fun w : Wire => .dict w.items) r.edges_perm
  have hiips := held_iff (p := "iips" ∈ r.keys) (fun p : Packet => .dict p.items) r.iips_perm
  rw [← r.rows.1,r.names] at hedges
  rw [← r.rows.2,r.names] at hiips
  exact ⟨fun h => ⟨hedges.1 h.edges,hiips.1 h.iips⟩,
    fun h => ⟨hedges.2 h.edges,hiips.2 h.iips⟩⟩

/-- A design comes back with its hash exactly if it is plain, and a workflow comes in as a whole
exactly if it names the keys that it needs. -/
theorem lossless_iff (hfrom : fromN8n workflow = .ok imported) :
    (∀ design, toN8n design = .ok workflow →
      ((∀ sha256, imported.designHash sha256 = design.designHash sha256) ↔ Plain design)) ∧
    (Complete workflow imported ↔ Gated workflow) :=
  ⟨fun _ hto => hash_kept hto hfrom,complete_iff hfrom⟩

def counting (component : String) : Design where
  id := "d1"
  network := networkOf [⟨.str "a",.str "double",[],List.nil_sublist _⟩] []
    [⟨.str component,.str "n",.int 7⟩] ["iips"]
  title := ""
  components := []
  metadata := .empty
  envelopes := []
  named := by decide
  requestedOnce := List.nodup_nil
  grantedOnce := List.nodup_nil

theorem counting_accepted {component : String}
    (h : (toN8n (counting component) >>= fromN8n).toOption.isSome = true) :
    ∃ workflow imported, toN8n (counting component) = .ok workflow ∧
      fromN8n workflow = .ok imported := by
  cases hboth : toN8n (counting component) >>= fromN8n with
  | error e =>
    rw [hboth] at h
    cases h
  | ok imported =>
    obtain ⟨workflow,hto,hfrom⟩ := bind_ok.1 hboth
    exact ⟨workflow,imported,hto,hfrom⟩

theorem lossless_counting : ∃ workflow imported, toN8n (counting "a") = .ok workflow ∧
    fromN8n workflow = .ok imported ∧
    ∀ sha256, imported.designHash sha256 = (counting "a").designHash sha256 := by
  obtain ⟨workflow,imported,hto,hfrom⟩ :=
    @counting_accepted "a" (by decide +kernel)
  refine ⟨workflow,imported,hto,hfrom,((lossless_iff hfrom).1 _ hto).2 ⟨?_,?_⟩⟩
  · intro items hitems
    cases List.mem_singleton.1 hitems
    exact ⟨"a",rfl⟩
  · intro items hitems
    cases List.mem_singleton.1 hitems
    exact ⟨"a",rfl,_,List.mem_singleton_self _,rfl⟩

/-- The packet for a component that the network does not have is dropped. -/
theorem packet_lost : ¬((∀ design workflow imported, toN8n design = .ok workflow →
      fromN8n workflow = .ok imported →
        ∀ sha256, imported.designHash sha256 = design.designHash sha256) ∧
    ∀ workflow imported, fromN8n workflow = .ok imported → Complete workflow imported) := by
  rintro ⟨hkept,-⟩
  obtain ⟨workflow,imported,hto,hfrom⟩ :=
    @counting_accepted "ghost" (by decide +kernel)
  have hplain := (hash_kept hto hfrom).1 (hkept _ _ _ hto hfrom)
  obtain ⟨name,hname,part,hpart,hid⟩ := hplain.placed _ (List.mem_singleton_self _)
  cases List.mem_singleton.1 hpart
  cases hname
  have htext : "a" = "ghost" := Json.str.inj (Option.some.inj hid)
  exact absurd htext (by decide)

end AgentCentric.N8n

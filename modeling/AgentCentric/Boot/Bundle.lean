import AgentCentric.Boot.Recipe
import Mathlib.Logic.Equiv.List

namespace AgentCentric.Boot
open Codec

structure Tar (codec : Codec) where
  write : List Member → Bytes
  reads : ∀ members, codec.members (write members) = .ok members

def checkName (name : String) : Except Raise Unit :=
  require (safeName name) (.bundle ("unsafe bundle member name: " ++ pyRepr name))

/-- Text in ASCII, so its bytes are its characters. -/
def componentJson (manifest : ComponentManifest) : Bytes := encode manifest.toDict.compact

/-- `files`, once the loop over the payload is done. -/
def bundleFiles (manifest : ComponentManifest) (payload : Dict String Bytes) :
    Except Raise (Dict String Bytes) :=
  payload.entries.foldlM (fun files file => do
    checkName file.1
    pure (files.set file.1 file.2)) (Dict.empty.set "component.json" (componentJson manifest))

def membersOf (files : Dict String Bytes) : List Member :=
  (files.entries.insertionSort fun a b => a.1 ≤ b.1).map fun file => ⟨file.1,true,file.2⟩

def buildBundle {codec : Codec} (tar : Tar codec) (manifest : ComponentManifest)
    (payload : Dict String Bytes) : Except Raise Bytes := do
  let files ← bundleFiles manifest payload
  pure (tar.write (membersOf files))

/-- Python's `==`: the order of the ports does not matter. -/
structure ComponentManifest.Same (m m' : ComponentManifest) : Prop where
  rest : m' = { m with ports := m'.ports }
  ports : ∀ port, m'.ports.get port = m.ports.get port

namespace ComponentManifest

theorem item_canonical {data value : Json} {key : String} (h : item data key = .ok value) :
    item data.canonical key = .ok value.canonical := by
  cases data with
  | dict items =>
    rw [item,expect_ok] at h
    rw [Json.canonical_dict,item,Json.lookup_sorted,h]
    rfl
  | _ => cases h

theorem getOr_canonical {data value default : Json} {key : String}
    (h : getOr data key default = .ok value) (hdefault : default.canonical = default) :
    getOr data.canonical key default = .ok value.canonical := by
  cases data with
  | dict items =>
    rw [getOr,Except.ok.injEq] at h
    subst h
    rw [Json.canonical_dict,getOr,Json.lookup_sorted]
    cases Dict.lookup items key with
    | none => exact congrArg Except.ok hdefault.symm
    | some value => rfl
  | _ => cases h

theorem itemText_canonical {data : Json} {key text : String} (h : item data key = .ok (.str text)) :
    itemText data.canonical key = .ok text := by
  rw [itemText,item_canonical h]
  rfl

theorem textOr_canonical {data : Json} {key text default : String}
    (h : getOr data key (.str default) = .ok (.str text)) :
    textOr data.canonical key default = .ok text := by
  rw [textOr,getOr_canonical h rfl]
  rfl

theorem itemsOf_canonical {data : Json} {key : String} {values : List Json}
    (h : getOr data key (.list []) = .ok (.list values)) :
    itemsOf data.canonical key = .ok (values.map Json.canonical) := by
  rw [itemsOf,getOr_canonical h rfl,Json.canonical_list]
  rfl

theorem entryOf_written (entry : EntryDescriptor) :
    entryOf (entryDict entry).canonical = .ok entry :=
  bind_ok.2 ⟨_,itemText_canonical rfl,bind_ok.2 ⟨_,itemText_canonical rfl,
    EntryDescriptor.new_name entry.runtime entry.given⟩⟩

theorem stateOf_written (state : StateDescriptor) : stateOf state.toDict.canonical = .ok state := by
  refine bind_ok.2 ⟨"sqlite",itemText_canonical rfl,bind_ok.2 ⟨_,itemText_canonical rfl,
    bind_ok.2 ⟨_,getOr_canonical rfl rfl,?_⟩⟩⟩
  change (if hpath : state.path = "" then _ else _) = _
  rw [dif_neg state.given]
  rfl

theorem provenanceOf_written (p : Provenance) : provenanceOf p.toDict.canonical = .ok p := by
  refine bind_ok.2 ⟨_,itemText_canonical rfl,bind_ok.2 ⟨_,itemText_canonical rfl,
    bind_ok.2 ⟨_,itemText_canonical rfl,bind_ok.2 ⟨_,textOr_canonical rfl,?_⟩⟩⟩⟩
  rw [Provenance.new,dif_neg p.given,dif_pos p.commit,dif_pos p.hash]

theorem childOf_written (child : ChildRef) : childOf (childDict child).canonical = .ok child := by
  obtain ⟨mode,target,hgiven⟩ := child
  cases mode with
  | embed =>
    refine bind_ok.2 ⟨target,textOr_canonical rfl,bind_ok.2 ⟨"",textOr_canonical rfl,?_⟩⟩
    rw [ChildRef.new,dif_neg hgiven]
    rfl
  | ref =>
    refine bind_ok.2 ⟨"",textOr_canonical rfl,bind_ok.2 ⟨target,textOr_canonical rfl,?_⟩⟩
    change (if href : target = "" then _ else _) = _
    rw [dif_neg hgiven]

theorem capabilityOf_written (grant : Capability) :
    capabilityOf (WorkRecipe.grantDict grant).canonical = .ok grant := by
  refine bind_ok.2 ⟨_,itemText_canonical rfl,bind_ok.2 ⟨_,textOr_canonical rfl,?_⟩⟩
  rw [Capability.new,dif_neg grant.named,dif_neg grant.versioned]

theorem truthy_canonical {items : List (String × Json)} (h : items ≠ []) :
    (Json.dict items).canonical.truthy = true := by
  rw [Json.canonical_dict,Json.truthy,decide_eq_true_eq,← List.length_pos_iff_ne_nil,Json.sorted,
    List.length_insertionSort,Json.canonicalItems_eq,List.length_map]
  exact List.length_pos_iff_ne_nil.2 h

theorem optional_canonical {α : Type} {read : Json → Except Raise α} {toDict : α → Json}
    (hread : ∀ a, read (toDict a).canonical = .ok a)
    (htruthy : ∀ a, (toDict a).canonical.truthy = true) (part : Option α) :
    optional read (WorkRecipe.optionDict toDict part).canonical = .ok part := by
  cases part with
  | none => rfl
  | some a =>
    rw [WorkRecipe.optionDict,Option.map_some,Option.getD_some,optional,if_pos (htruthy a),hread]
    rfl

theorem portOf_written (port : String × List String) :
    portOf (port.1,.list (port.2.map Json.str)) = .ok port := by
  rw [portOf]
  exact bind_ok.2 ⟨_,rfl,congrArg (fun names => Except.ok (port.1,names)) (map_text_str port.2)⟩

theorem portsOf_written (ports : Dict String (List String)) : ∃ read,
    portsOf (Json.dict (ports.entries.map fun port =>
      (port.1,.list (port.2.map Json.str)))).canonical = .ok read ∧
      ∀ port, read.get port = ports.get port := by
  let write : String × List String → String × Json := fun port =>
    (port.1,.list (port.2.map Json.str))
  have hcanonical : Json.canonicalItems (ports.entries.map write) = ports.entries.map write := by
    rw [Json.canonicalItems_eq,List.map_map]
    refine List.map_congr_left fun port _ => ?_
    simp only [Function.comp_apply,write,Json.canonical_list,List.map_map]
    rfl
  have hsorted : Json.sorted (ports.entries.map write) =
      (ports.entries.insertionSort fun a b => a.1 ≤ b.1).map write := by
    rw [Json.sorted,hcanonical]
    refine (List.map_insertionSort _ _ _ _ fun a _ b _ => ?_).symm
    simp [Json.byKey,write]
  have hperm := List.perm_insertionSort (fun a b : String × List String => a.1 ≤ b.1) ports.entries
  have hnodup := (hperm.map Prod.fst).nodup_iff.2 ports.nodup
  refine ⟨Dict.empty.update (ports.entries.insertionSort fun a b => a.1 ≤ b.1),?_,fun port => ?_⟩
  · rw [Json.canonical_dict]
    change portsOf (.dict (Json.sorted (ports.entries.map write))) = _
    rw [hsorted,portsOf,mapM_written portOf_written]
    rfl
  · exact (congrArg (Dict.get · port) (Dict.update_fresh Dict.empty _ hnodup)).trans
      (Dict.lookup_perm hperm hnodup port)

theorem fromDict_written (m : ComponentManifest) :
    ∃ m', fromDict m.toDict.canonical = .ok m' ∧ m.Same m' := by
  obtain ⟨ports,hports,hget⟩ := portsOf_written m.ports
  refine ⟨{ m with ports },?_,rfl,hget⟩
  have hstate : getOr m.toDict "state" .null =
      .ok (WorkRecipe.optionDict StateDescriptor.toDict m.state) := rfl
  have hprovenance : getOr m.toDict "provenance" .null =
      .ok (WorkRecipe.optionDict Provenance.toDict m.provenance) := rfl
  have hentry : item m.toDict "entry" = .ok (entryDict m.entry) := rfl
  have himplements : getOr m.toDict "implements" (.list []) =
      .ok (.list (m.implements.map .str)) := rfl
  have hchildren : getOr m.toDict "children" (.list []) =
      .ok (.list (m.children.map childDict)) := rfl
  have hcapabilities : getOr m.toDict "capabilities" (.list []) =
      .ok (.list (m.capabilities.map WorkRecipe.grantDict)) := rfl
  have hportsRaw : getOr m.toDict "ports" (.dict []) = .ok (.dict (m.ports.entries.map fun port =>
      (port.1,.list (port.2.map Json.str)))) := rfl
  have hchildrenRead : ((m.children.map childDict).map Json.canonical).mapM childOf =
      .ok m.children := by
    rw [List.map_map]
    exact mapM_written childOf_written m.children
  have hcapabilitiesRead : ((m.capabilities.map WorkRecipe.grantDict).map
      Json.canonical).mapM capabilityOf = .ok m.capabilities := by
    rw [List.map_map]
    exact mapM_written capabilityOf_written m.capabilities
  have hstateTruthy : ∀ state : StateDescriptor, state.toDict.canonical.truthy = true :=
    fun state => truthy_canonical (List.cons_ne_nil _ _)
  have hprovenanceTruthy : ∀ p : Provenance, p.toDict.canonical.truthy = true :=
    fun p => truthy_canonical (List.cons_ne_nil _ _)
  have hkind : ComponentKind.ofName m.kind.name = .ok m.kind := by
    cases m.kind <;> rfl
  have hnew : new "component.v1" m.name m.kind.name m.entry
      (((m.implements.map Json.str).map Json.canonical).map Json.text) m.state m.children
      m.directive m.capabilities m.provenance ports = .ok { m with ports } := by
    have hnames : ((m.implements.map Json.str).map Json.canonical).map Json.text =
        m.implements := by
      simp [Function.comp_def,Json.canonical]
    rw [hnames,new]
    refine bind_ok.2 ⟨(),rfl,?_⟩
    rw [dif_neg m.named]
    refine bind_ok.2 ⟨m.kind,hkind,?_⟩
    rw [dif_pos m.parent,dif_neg m.conforming]
  have hsmuggled : ∀ items, m.toDict = .dict items → smuggled (Json.sorted items) = [] := by
    rintro items ⟨⟩
    simp [smuggled,Json.lookup_sorted,Dict.lookup]
  obtain ⟨items,hitems⟩ : ∃ items, m.toDict = .dict items := ⟨_,rfl⟩
  rw [hitems,Json.canonical_dict,fromDict,fromFields]
  refine bind_ok.2 ⟨(),require_ok.2 (decide_eq_true (hsmuggled items hitems)),?_⟩
  dsimp only
  rw [← Json.canonical_dict,← hitems]
  exact bind_ok.2 ⟨_,getOr_canonical hstate rfl,bind_ok.2 ⟨_,getOr_canonical hprovenance rfl,
    bind_ok.2 ⟨"component.v1",itemText_canonical rfl,bind_ok.2 ⟨_,itemText_canonical rfl,
    bind_ok.2 ⟨_,itemText_canonical rfl,bind_ok.2 ⟨_,item_canonical hentry,
    bind_ok.2 ⟨_,entryOf_written m.entry,bind_ok.2 ⟨_,itemsOf_canonical himplements,
    bind_ok.2 ⟨_,optional_canonical stateOf_written hstateTruthy m.state,
    bind_ok.2 ⟨_,itemsOf_canonical hchildren,bind_ok.2 ⟨_,hchildrenRead,
    bind_ok.2 ⟨_,textOr_canonical rfl,bind_ok.2 ⟨_,itemsOf_canonical hcapabilities,
    bind_ok.2 ⟨_,hcapabilitiesRead,
    bind_ok.2 ⟨_,optional_canonical provenanceOf_written hprovenanceTruthy m.provenance,
    bind_ok.2 ⟨_,getOr_canonical hportsRaw rfl,bind_ok.2 ⟨_,hports,hnew⟩⟩⟩⟩⟩⟩⟩⟩⟩⟩⟩⟩⟩⟩⟩⟩⟩

end ComponentManifest

section
variable {codec : Codec}

/-- A manifest is read back from the file it was written to. -/
theorem manifestOf_componentJson
    (hdecode : ∀ j : Json, codec.decode (encode j.compact) = some j.compact.toList)
    (m : ComponentManifest) : ∃ m', codec.manifestOf (componentJson m) = .ok m' ∧ m.Same m' := by
  obtain ⟨m',hread,hsame⟩ := ComponentManifest.fromDict_written m
  have hloads : Json.loadsChars m.toDict.compact.toList = some m.toDict.canonical := by
    rw [← Json.loads_eq_loadsChars,Json.loads_compact]
  refine ⟨m',?_,hsame⟩
  rw [manifestOf,componentJson,hdecode]
  exact bind_ok.2 ⟨_,expect_ok.2 rfl,bind_ok.2 ⟨_,expect_ok.2 hloads,hread⟩⟩

theorem foldlM_checkName {items : List (String × Bytes)} {files files' : Dict String Bytes}
    (h : items.foldlM (fun files file => do
      checkName file.1
      pure (files.set file.1 file.2)) files = .ok files') :
    files' = files.update items ∧ ∀ file ∈ items, safeName file.1 = true := by
  induction items generalizing files with
  | nil => exact ⟨(Except.ok.inj h).symm,by simp⟩
  | cons file items ih =>
    rw [List.foldlM_cons] at h
    obtain ⟨next,hfirst,hrest⟩ := bind_ok.1 h
    obtain ⟨_,hsafe,hnext⟩ := bind_ok.1 hfirst
    obtain rfl := Except.ok.inj hnext
    obtain ⟨hfiles,hall⟩ := ih hrest
    exact ⟨by rw [hfiles,Dict.update_cons],List.forall_mem_cons.2 ⟨require_ok.1 hsafe,hall⟩⟩

theorem get_bundleFiles {m : ComponentManifest} {payload files : Dict String Bytes}
    (h : bundleFiles m payload = .ok files) (name : String) : files.get name =
      (payload.get name).or (if name = "component.json" then some (componentJson m) else none) := by
  rw [(foldlM_checkName h).1]
  cases hname : payload.get name with
  | none =>
    have hout : name ∉ payload.entries.map Prod.fst := by
      intro hin
      have hsome := (Dict.lookup_isSome payload.entries name).2 hin
      rw [Dict.get] at hname
      rw [hname] at hsome
      cases hsome
    rw [Dict.get_update_of_notMem _ _ _ hout,Dict.get_set]
    simp [eq_comm]
  | some data =>
    exact Dict.get_update_of_agree _ ((Dict.lookup_eq_some_iff payload.nodup).1 hname)
      fun w hw => Option.some.inj (((Dict.lookup_eq_some_iff payload.nodup).2 hw).symm.trans hname)

theorem find_membersOf {files : Dict String Bytes} {name : String} {data : Bytes}
    (h : files.get name = some data) :
    (membersOf files).reverse.find? (fun m => m.name = name) = some ⟨name,true,data⟩ := by
  have hmem {k : String} {v : Bytes} :
      (⟨k,true,v⟩ : Member) ∈ (membersOf files).reverse ↔ files.get k = some v := by
    rw [Dict.get,Dict.lookup_eq_some_iff files.nodup]
    simp [membersOf,List.mem_insertionSort]
  cases hfind : (membersOf files).reverse.find? (fun m => m.name = name) with
  | none =>
    have hnone := List.find?_eq_none.1 hfind _ (hmem.2 h)
    simp at hnone
  | some member =>
    have hin := List.mem_of_find?_eq_some hfind
    have hname : member.name = name := by simpa using List.find?_some hfind
    obtain ⟨k,regular,v⟩ := member
    obtain rfl : k = name := hname
    obtain ⟨file,_,hfile⟩ := List.mem_map.1 (List.mem_reverse.1 hin)
    cases hfile
    rw [hmem.1 hin] at h
    rw [Option.some.inj h]

theorem readMember_write {tar : Tar codec} {files : Dict String Bytes} {name : String}
    {data : Bytes} (hname : safeName name = true) (hdata : files.get name = some data) :
    codec.readMember (tar.write (membersOf files)) name = .ok data :=
  bind_ok.2 ⟨(),require_ok.2 hname,bind_ok.2 ⟨_,tar.reads _,
    bind_ok.2 ⟨_,expect_ok.2 (find_membersOf hdata),bind_ok.2 ⟨(),rfl,rfl⟩⟩⟩⟩

theorem loadManifest_write {tar : Tar codec} {files : Dict String Bytes} {data : Bytes}
    (h : files.get "component.json" = some data) :
    codec.loadManifest (tar.write (membersOf files)) = codec.manifestOf data := by
  rw [loadManifest,readMember_write (by decide) h]
  rfl

/-- What a payload holds under the manifest's name takes the manifest's place. -/
theorem bundle_faithful_iff (tar : Tar codec)
    (hdecode : ∀ j : Json, codec.decode (encode j.compact) = some j.compact.toList)
    {m : ComponentManifest} {payload : Dict String Bytes} {bundle : Bytes}
    (h : buildBundle tar m payload = .ok bundle) :
    ((∃ m', codec.loadManifest bundle = .ok m' ∧ m.Same m') ∧
      ∀ name data, payload.get name = some data → codec.readMember bundle name = .ok data) ↔
    ∀ data, payload.get "component.json" = some data →
      ∃ m', codec.manifestOf data = .ok m' ∧ m.Same m' := by
  obtain ⟨files,hfiles,hbundle⟩ := bind_ok.1 h
  obtain rfl := Except.ok.inj hbundle
  have hget := get_bundleFiles hfiles
  have hpayload : ∀ name data, payload.get name = some data →
      codec.readMember (tar.write (membersOf files)) name = .ok data := by
    intro name data hdata
    have hsafe := (foldlM_checkName hfiles).2 (name,data)
      ((Dict.lookup_eq_some_iff payload.nodup).1 hdata)
    exact readMember_write hsafe (by rw [hget,hdata,Option.some_or])
  cases hmanifest : payload.get "component.json" with
  | none =>
    have hdata : files.get "component.json" = some (componentJson m) := by
      rw [hget,hmanifest,if_pos rfl,Option.none_or]
    rw [loadManifest_write hdata]
    exact iff_of_true ⟨manifestOf_componentJson hdecode m,hpayload⟩ fun data hnone => by
      cases hnone
  | some data =>
    rw [loadManifest_write (by rw [hget,hmanifest,Option.some_or])]
    constructor
    · rintro ⟨hread,-⟩ data' hdata
      rwa [← Option.some.inj hdata]
    · intro hread
      exact ⟨hread data rfl,hpayload⟩

end

namespace Sample

def numbersOf (m : Member) : List Nat × Bool × List Nat :=
  (m.name.toList.map Char.toNat,m.regular,m.data.map UInt8.toNat)

def memberOf (numbers : List Nat × Bool × List Nat) : Member :=
  ⟨String.ofList (numbers.1.map Char.ofNat),numbers.2.1,numbers.2.2.map UInt8.ofNat⟩

theorem memberOf_numbersOf (m : Member) : memberOf (numbersOf m) = m := by
  simp [memberOf,numbersOf,Function.comp_def]

def archive : Codec where
  sha256 _ := .zeros
  members bytes :=
    match (Encodable.decode bytes.length : Option (List (List Nat × Bool × List Nat))) with
    | some members => .ok (members.map memberOf)
    | none => .error (.other "not a tar file")
  decode bytes := (String.fromUTF8? ⟨bytes.toArray⟩).map String.toList

def tar : Tar archive where
  write members := List.replicate (Encodable.encode (members.map numbersOf)) 0
  reads members := by
    simp [archive,Encodable.encodek,Function.comp_def,memberOf_numbersOf]

theorem decode_encode (text : String) : archive.decode (encode text) = some text.toList := by
  simp [archive,encode,String.fromUTF8?,text.isValidUTF8,String.fromUTF8]

def part (name : String) (h : name ≠ "") : ComponentManifest where
  name := name
  kind := .atomic
  entry := ⟨.python,"tools:run",by decide⟩
  implements := ["component.v1"]
  state := none
  children := []
  directive := ""
  capabilities := []
  provenance := none
  ports := .empty
  named := h
  parent hchildren := absurd rfl hchildren
  conforming := by decide

end Sample

theorem bundle_faithful_iff_plain :
    let shell := Sample.part "shell" (by decide)
    let files := Dict.empty.set "component.json" (componentJson shell)
    ∃ m', Sample.archive.loadManifest (Sample.tar.write (membersOf files)) = .ok m' ∧
      shell.Same m' :=
  ((bundle_faithful_iff Sample.tar (fun j => Sample.decode_encode j.compact)
    (rfl : buildBundle Sample.tar (Sample.part "shell" (by decide)) .empty = .ok _)).2
    fun _ h => by cases h).1

/-- A payload of one file. -/
theorem buildBundle_single {codec : Codec} (tar : Tar codec) (m : ComponentManifest) {name : String}
    (h : safeName name = true) (data : Bytes) :
    buildBundle tar m (Dict.empty.set name data) = .ok (tar.write (membersOf
      ((Dict.empty.set "component.json" (componentJson m)).set name data))) := by
  have hentries : (Dict.empty.set name data).entries = [(name,data)] := rfl
  have hcheck : checkName name = .ok () := require_ok.2 h
  rw [buildBundle,bundleFiles,hentries,List.foldlM_cons,hcheck]
  rfl

theorem bundle_replaced : ¬ ∀ (codec : Codec) (tar : Tar codec),
    (∀ j : Json, codec.decode (encode j.compact) = some j.compact.toList) →
    ∀ (m : ComponentManifest) (payload : Dict String Bytes) (bundle : Bytes),
      buildBundle tar m payload = .ok bundle →
      (∃ m', codec.loadManifest bundle = .ok m' ∧ m.Same m') ∧
        ∀ name data, payload.get name = some data → codec.readMember bundle name = .ok data := by
  intro h
  have hdecode : ∀ j : Json, Sample.archive.decode (encode j.compact) = some j.compact.toList :=
    fun j => Sample.decode_encode j.compact
  obtain ⟨m'',hother,hsame'⟩ := manifestOf_componentJson hdecode
    (Sample.part "other" (by decide))
  have hname : safeName "component.json" = true := by decide
  obtain ⟨⟨m',hread,hsame⟩,-⟩ := h Sample.archive Sample.tar hdecode
    (Sample.part "shell" (by decide)) _ _ (buildBundle_single _ _ hname _)
  rw [loadManifest_write (Dict.get_set_self _ _ _),hother] at hread
  obtain rfl := Except.ok.inj hread
  have hshell : m''.name = "shell" := congrArg ComponentManifest.name hsame.rest
  have hswapped : m''.name = "other" := congrArg ComponentManifest.name hsame'.rest
  rw [hshell] at hswapped
  exact absurd hswapped (by decide)

end AgentCentric.Boot

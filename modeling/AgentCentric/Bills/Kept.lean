import AgentCentric.Bills.Ops

namespace AgentCentric.Bills
open Files

def registryIn (workspace : Workspace) (tree : Tree) : Except Raised BillsRegistry :=
  readRegistry workspace tree >>= loadRegistry

theorem decode_encode {text : String} (h : '\r' ∉ text.toList) :
    utf8.decode text.toUTF8.data.toList = some text := by
  have hbytes : (⟨text.toUTF8.data.toList.toArray⟩ : ByteArray) = text.toUTF8 := by
    rw [Array.toArray_toList]
  have hread : String.fromUTF8? text.toUTF8 = some text := by
    have hvalid : text.toUTF8.IsValidUTF8 := text.isValidUTF8
    rw [String.fromUTF8?,dif_pos hvalid]
    rfl
  simp only [utf8,hbytes,hread,Option.map_some]
  rw [Holdout.universal_plain h,String.ofList_toList]

theorem dumps_plain (j : Json) : '\r' ∉ j.dumps.toList := by
  intro h
  have hline := List.all_eq_true.mp (JsonLines.dumps_unbroken j) _ h
  revert hline
  decide

section
variable {workspace : Workspace} {tree : Tree}

theorem readText_ok {rel content : String} :
    readText workspace rel tree = .ok content ↔ ∃ path bytes,
      workspace.locateFile rel = .ok path ∧ tree.content path = some bytes ∧
        utf8.decode bytes = some content ∧ requireRelativePath rel "relative_path" = .ok () := by
  constructor
  · intro h
    obtain ⟨value,hvalue,h⟩ := bind_ok.mp h
    rw [mapError_ok,Workspace.readWorkspaceFile,readAt.eq_def] at hvalue
    split at hvalue
    · cases hvalue
    · rename_i path hlocate
      split at hvalue
      · cases hvalue
      · rename_i bytes hbytes
        obtain ⟨text,htext,hentry⟩ := bind_ok.mp hvalue
        obtain ⟨_,hchecked,hentry⟩ := bind_ok.mp hentry
        obtain rfl := Except.ok.inj hentry
        obtain rfl := Except.ok.inj h
        exact ⟨path,bytes,hlocate,hbytes,expect_ok.mp htext,hchecked⟩
  · rintro ⟨path,bytes,hlocate,hbytes,htext,hchecked⟩
    rw [readText,Workspace.readWorkspaceFile,readAt.eq_def,hlocate]
    simp only [hbytes,entryOf,htext,hchecked,expect,bind,Except.bind,pure,Except.pure,
      Except.mapError]

theorem write_read {rel content text : String} (hread : readText workspace rel tree = .ok content)
    (htext : '\r' ∉ text.toList) : ∃ written value,
      (workspace.writeWorkspaceFile utf8 rel text tree).tree = written ∧
      (workspace.writeWorkspaceFile utf8 rel text tree).result = .ok value ∧
        readText workspace rel written = .ok text := by
  obtain ⟨path,bytes,hlocate,hbytes,-,hchecked⟩ := readText_ok.mp hread
  have hnode : tree.get path = some (.file bytes) := by
    rw [Tree.content] at hbytes
    split at hbytes
    · rename_i found hfound
      obtain rfl := Option.some.inj hbytes
      exact hfound
    · cases hbytes
  have hne : path ≠ [] := by
    rintro rfl
    have hroot := tree.rooted
    rw [Files.Tree.get] at hnode
    rw [hnode] at hroot
    cases hroot
  have hparent : tree.get path.dropLast = some .directory := by
    apply tree.nested path.dropLast (path.getLast hne)
    rw [List.dropLast_append_getLast,← Files.Tree.get,hnode]
    rfl
  have hfree : tree.get path ≠ some .directory := by
    rw [hnode]
    intro h
    cases h
  have hwritten : tree.write path text.toUTF8.data.toList =
      .ok (tree.put path (.file text.toUTF8.data.toList) hne hparent hfree) := by
    rw [Tree.write,dif_pos hfree,dif_pos hparent]
  have hdir : tree.isDir path.dropLast = true := decide_eq_true hparent
  have hencode : utf8.encode text = some text.toUTF8.data.toList := rfl
  rw [Workspace.writeWorkspaceFile,writeAt.eq_def,hlocate]
  simp only [hdir,if_true,hencode,Option.getD_some,hwritten,hchecked]
  refine ⟨_,_,rfl,rfl,?_⟩
  refine readText_ok.mpr ⟨path,_,hlocate,?_,decode_encode htext,hchecked⟩
  rw [Tree.content,Tree.get_put,if_pos rfl]

theorem persist_kept {before : BillsRegistry} (hbefore : registryIn workspace tree = .ok before)
    (made : Except Raised (BillsRegistry × Json)) :
    (∃ e, made = .error e ∧ persist workspace tree made = ⟨tree,.error e⟩) ∨
      ∃ merged value, made = .ok (merged,value) ∧ (persist workspace tree made).result = .ok value ∧
          registryIn workspace (persist workspace tree made).tree = .ok merged := by
  cases made with
  | error e => exact .inl ⟨e,rfl,rfl⟩
  | ok made =>
    obtain ⟨merged,value⟩ := made
    obtain ⟨content,hcontent,-⟩ := bind_ok.mp hbefore
    obtain ⟨written,entry,htree,hresult,hread⟩ := write_read hcontent
      (dumps_plain merged.asMapping)
    refine .inr ⟨merged,value,rfl,?_,?_⟩
    · simp only [persist,hresult]
      rfl
    · simp only [persist,htree]
      exact bind_ok.mpr ⟨_,hread,loadRegistry_dumps merged⟩

end

def others (id : Text) (bills : List RegistryBill) : List RegistryBill :=
  bills.filter fun bill => bill.id ≠ id

def StatusSet (billId : Json) (status : BillStatus) (before after : BillsRegistry) : Prop :=
  ∃ bill ∈ before.bills, billId = .str bill.id.1 ∧
    { bill with status := status } ∈ after.bills ∧
      others bill.id after.bills = others bill.id before.bills

/-- Each of the drafts that were asked for is appended once, under some id. -/
def Accepted (draftsMapping : List (String × Json)) (acceptIds : List Json)
    (before after : BillsRegistry) : Prop :=
  ∃ drafts accepted added, draftsOf draftsMapping = .ok drafts ∧
    after.bills = before.bills ++ added ∧ accepted.Nodup ∧
      (∀ draft, draft ∈ accepted ↔ draft ∈ drafts ∧ .str draft.draftId.1 ∈ acceptIds) ∧
      List.Forall₂ (fun draft bill => ∃ billId, bill = draft.toRegistryBill billId) accepted added

def Changes : Call → BillsRegistry → BillsRegistry → Prop
  | .upsert data, before, after => ∃ bill, RegistryBill.fromMapping data = .ok bill ∧
      bill ∈ after.bills ∧ others bill.id after.bills = others bill.id before.bills
  | .markPaid billId, before, after => StatusSet billId .paid before after
  | .markStatus billId given, before, after => ∃ status, BillStatus.ofValue given = some status ∧
      StatusSet billId status before after
  | .accept drafts acceptIds, before, after => ∃ draftsMapping ids, drafts = .dict draftsMapping ∧
      acceptIds = .list ids ∧ Accepted draftsMapping ids before after
  | _, before, after => after = before

theorem others_map {id : Text} {f : RegistryBill → RegistryBill}
    (hother : ∀ bill, bill.id ≠ id → f bill = bill) (hid : ∀ bill, bill.id = id → (f bill).id = id)
    (bills : List RegistryBill) : others id (bills.map f) = others id bills := by
  induction bills with
  | nil => rfl
  | cons bill bills ih =>
    rw [List.map_cons,others,others,List.filter_cons,List.filter_cons,← others,← others,ih]
    by_cases hbill : bill.id = id
    · simp [hbill,hid bill hbill]
    · simp [hbill,hother bill hbill]

variable {draftsMapping : List (String × Json)} {ids : List Json}

section
variable {registry merged : BillsRegistry}

theorem upsertBill_ok {bill : RegistryBill} {result : MaintainResult}
    (h : upsertBill registry bill = .ok (merged,result)) :
    merged.description = registry.description ∧ bill ∈ merged.bills ∧
      others bill.id merged.bills = others bill.id registry.bills := by
  obtain ⟨found,hnew,h⟩ := bind_ok.mp h
  obtain ⟨rfl,-⟩ := Prod.mk.inj (Except.ok.inj h)
  obtain ⟨hbills,hdescription⟩ := BillsRegistry.new_ok hnew
  refine ⟨(Json.str.inj hdescription).symm,?_⟩
  rw [hbills]
  split
  · rw [others,List.filter_append]
    simp [others]
  · rename_i hpresent
    have hmem : bill.id ∈ registry.bills.map RegistryBill.id := by
      simpa using hpresent
    obtain ⟨old,hold,hid⟩ := List.mem_map.mp hmem
    refine ⟨List.mem_map.mpr ⟨old,hold,if_pos hid⟩,others_map ?_ ?_ _⟩
    · exact fun b hb => if_neg hb
    · intro b hb
      rw [if_pos hb]

theorem setStatus_ok {billId : Json} {status : BillStatus} {result : MaintainResult}
    (h : setStatus registry billId status = .ok (merged,result)) :
    merged.description = registry.description ∧ StatusSet billId status registry merged := by
  obtain ⟨matched,hmatched,h⟩ := bind_ok.mp h
  obtain ⟨found,hnew,h⟩ := bind_ok.mp h
  obtain ⟨rfl,-⟩ := Prod.mk.inj (Except.ok.inj h)
  obtain ⟨hbills,hdescription⟩ := BillsRegistry.new_ok hnew
  refine ⟨(Json.str.inj hdescription).symm,?_⟩
  have hfind := expect_ok.mp hmatched
  have hnamed := List.find?_some hfind
  have hmem := List.mem_reverse.mp (List.mem_of_find?_eq_some hfind)
  obtain ⟨bill,hbill,hset⟩ := List.mem_map.mp hmem
  cases billId with
  | str s =>
    have hid : bill.id.1 = s := by
      rw [← hset] at hnamed
      split at hnamed
      · rename_i hthis
        exact of_decide_eq_true hthis
      · exact of_decide_eq_true hnamed
    refine ⟨bill,hbill,by rw [hid],?_,?_⟩
    · rw [hbills]
      refine List.mem_map.mpr ⟨bill,hbill,if_pos ?_⟩
      exact decide_eq_true hid
    · rw [hbills]
      refine others_map ?_ ?_ _
      · intro b hb
        refine if_neg fun hthis => hb (Subtype.ext ?_)
        rw [hid]
        exact of_decide_eq_true hthis
      · intro b hb
        rw [← hb]
        split <;> rfl
  | _ => cases hnamed

theorem draftOf_ok {drafts : List BillDraft} {draftId : Json} {draft : BillDraft}
    (h : draftOf drafts draftId = .ok draft) : draft ∈ drafts ∧ draftId = .str draft.draftId.1 := by
  rw [draftOf.eq_def] at h
  split at h
  · cases h
  · cases h
  · rename_i s
    have hfind := expect_ok.mp h
    have hid := List.find?_some hfind
    exact ⟨List.mem_of_find?_eq_some hfind,by rw [of_decide_eq_true hid]⟩
  · cases h

theorem acceptEach_ok {drafts : List BillDraft} {existing : List Text}
    {accepted : List (BillDraft × RegistryBill)}
    (h : acceptEach drafts existing ids = .ok accepted) :
    ids = accepted.map (fun pair => .str pair.1.draftId.1) ∧ ∀ pair ∈ accepted, pair.1 ∈ drafts ∧
      ∃ billId, pair.2 = pair.1.toRegistryBill billId := by
  induction ids generalizing existing accepted with
  | nil =>
    obtain rfl := Except.ok.inj h
    exact ⟨rfl,fun _ hpair => by cases hpair⟩
  | cons draftId ids ih =>
    obtain ⟨draft,hdraft,h⟩ := bind_ok.mp h
    obtain ⟨rest,hrest,h⟩ := bind_ok.mp h
    obtain rfl := Except.ok.inj h
    obtain ⟨hmem,hid⟩ := draftOf_ok hdraft
    obtain ⟨hids,hrest⟩ := ih hrest
    refine ⟨by rw [hid,hids,List.map_cons],?_⟩
    intro pair hpair
    rcases List.mem_cons.mp hpair with rfl | hpair
    · exact ⟨hmem,_,rfl⟩
    · exact hrest pair hpair

theorem draftsOf_nodup {drafts : List BillDraft}
    (h : draftsOf draftsMapping = .ok drafts) : (drafts.map BillDraft.draftId).Nodup := by
  obtain ⟨raw,-,h⟩ := bind_ok.mp h
  obtain ⟨found,-,h⟩ := bind_ok.mp h
  obtain ⟨_,hunique,h⟩ := bind_ok.mp h
  obtain rfl := Except.ok.inj h
  exact of_decide_eq_true (require_ok.mp hunique)

def Known (drafts : List BillDraft) (ids : List Json) : Prop :=
  ∀ id ∈ ids, ∃ draft ∈ drafts, id = .str draft.draftId.1

theorem acceptDrafts_ok {content : String}
    {result : AcceptResult} (hload : loadRegistry content = .ok registry)
    (honce : ∀ drafts, draftsOf draftsMapping = .ok drafts → Known drafts ids → ids.Nodup)
    (h : acceptDrafts content draftsMapping ids = .ok (merged,result)) :
    merged.description = registry.description ∧ Accepted draftsMapping ids registry merged := by
  obtain ⟨loaded,hloaded,h⟩ := bind_ok.mp h
  obtain rfl := Except.ok.inj (hload.symm.trans hloaded)
  obtain ⟨_,-,h⟩ := bind_ok.mp h
  obtain ⟨drafts,hdrafts,h⟩ := bind_ok.mp h
  obtain ⟨accepted,haccepted,h⟩ := bind_ok.mp h
  obtain ⟨found,hnew,h⟩ := bind_ok.mp h
  obtain ⟨rfl,-⟩ := Prod.mk.inj (Except.ok.inj h)
  obtain ⟨hbills,hdescription⟩ := BillsRegistry.new_ok hnew
  obtain ⟨hgiven,heach⟩ := acceptEach_ok haccepted
  have hids : ids.Nodup := by
    refine honce drafts hdrafts fun id hid => ?_
    rw [hgiven] at hid
    obtain ⟨pair,hpair,rfl⟩ := List.mem_map.mp hid
    exact ⟨pair.1,(heach pair hpair).1,rfl⟩
  refine ⟨(Json.str.inj hdescription).symm,drafts,accepted.map Prod.fst,accepted.map Prod.snd,
    hdrafts,hbills,?_,?_,?_⟩
  · have hmap : ids = (accepted.map Prod.fst).map fun draft => Json.str draft.draftId.1 := by
      rw [hgiven,List.map_map]
      rfl
    rw [hmap] at hids
    exact hids.of_map
  · intro draft
    constructor
    · intro hdraft
      obtain ⟨pair,hpair,rfl⟩ := List.mem_map.mp hdraft
      refine ⟨(heach pair hpair).1,?_⟩
      rw [hgiven]
      exact List.mem_map_of_mem hpair
    · rintro ⟨hdraft,hid⟩
      rw [hgiven] at hid
      obtain ⟨pair,hpair,hsame⟩ := List.mem_map.mp hid
      -- drafts with one id are one draft
      have heq : pair.1 = draft := List.inj_on_of_nodup_map (draftsOf_nodup hdrafts)
        (heach pair hpair).1 hdraft (Subtype.ext (Json.str.inj hsame))
      rw [← heq]
      exact List.mem_map_of_mem hpair
  · rw [List.forall₂_map_left_iff,List.forall₂_map_right_iff,List.forall₂_same]
    exact fun pair hpair => (heach pair hpair).2

theorem draftOf_returns {drafts : List BillDraft} {draft : BillDraft} (h : draft ∈ drafts) :
    ∃ found, draftOf drafts (.str draft.draftId.1) = .ok found := by
  have hfound : (drafts.find? fun d => d.draftId.1 = draft.draftId.1).isSome :=
    List.find?_isSome.mpr ⟨draft,h,decide_eq_true rfl⟩
  obtain ⟨found,hfind⟩ := Option.isSome_iff_exists.mp hfound
  exact ⟨found,expect_ok.mpr hfind⟩

theorem acceptEach_returns {drafts : List BillDraft} (h : Known drafts ids)
    (existing : List Text) : ∃ accepted, acceptEach drafts existing ids = .ok accepted ∧
      (accepted.map fun pair => pair.2.id).Nodup ∧ ∀ pair ∈ accepted, pair.2.id ∉ existing := by
  induction ids generalizing existing with
  | nil => exact ⟨[],rfl,List.nodup_nil,fun _ hpair => by cases hpair⟩
  | cons id ids ih =>
    obtain ⟨draft,hdraft,rfl⟩ := h id List.mem_cons_self
    obtain ⟨found,hfound⟩ := draftOf_returns hdraft
    have hfresh := freshId_notMem existing found.draftId
    have hrest : Known drafts ids := fun other hother => h other (List.mem_cons_of_mem _ hother)
    obtain ⟨rest,hrest,hnodup,hfree⟩ := ih hrest (freshId existing found.draftId :: existing)
    refine ⟨(found,found.toRegistryBill (freshId existing found.draftId)) :: rest,?_,?_,?_⟩
    · exact bind_ok.mpr ⟨found,hfound,bind_ok.mpr ⟨rest,hrest,rfl⟩⟩
    · rw [List.map_cons,List.nodup_cons]
      refine ⟨fun hmem => ?_,hnodup⟩
      obtain ⟨pair,hpair,hid⟩ := List.mem_map.mp hmem
      exact hfree pair hpair (hid ▸ List.mem_cons_self)
    · intro pair hpair
      rcases List.mem_cons.mp hpair with rfl | hpair
      · exact hfresh
      · exact fun hmem => hfree pair hpair (List.mem_cons_of_mem _ hmem)

theorem acceptDrafts_returns {content : String}
    {drafts : List BillDraft} (hload : loadRegistry content = .ok registry)
    (hdrafts : draftsOf draftsMapping = .ok drafts) (hknown : Known drafts ids) (hne : ids ≠ []) :
    ∃ accepted result, acceptDrafts content draftsMapping ids = .ok (accepted,result) ∧
      ∃ added, accepted.bills = registry.bills ++ added ∧ added.length = ids.length := by
  obtain ⟨accepted,haccepted,hnodup,hfree⟩ :=
    acceptEach_returns hknown (registry.bills.map RegistryBill.id)
  have hunique : ((registry.bills ++ accepted.map Prod.snd).map RegistryBill.id).Nodup := by
    rw [List.map_append,List.map_map]
    refine List.nodup_append.mpr ⟨registry.unique,hnodup,?_⟩
    intro id hid other hother heq
    obtain ⟨pair,hpair,rfl⟩ := List.mem_map.mp hother
    rw [heq] at hid
    exact hfree pair hpair hid
  have hnonempty : registry.bills ++ accepted.map Prod.snd ≠ [] :=
    fun h => registry.nonempty (List.append_eq_nil_iff.mp h).1
  have hnew : BillsRegistry.new (registry.bills ++ accepted.map Prod.snd)
      (.str registry.description) = .ok ⟨_,registry.description,hnonempty,hunique⟩ := by
    rw [BillsRegistry.new,dif_neg hnonempty,dif_pos hunique]
  have hlength : accepted.length = ids.length := by
    rw [(acceptEach_ok haccepted).1,List.length_map]
  have hsome : (!ids.isEmpty) = true := by
    cases ids with
    | nil => exact absurd rfl hne
    | cons => rfl
  refine ⟨_,_,bind_ok.mpr ⟨registry,hload,bind_ok.mpr ⟨(),require_ok.mpr hsome,bind_ok.mpr
    ⟨drafts,hdrafts,bind_ok.mpr ⟨accepted,haccepted,bind_ok.mpr ⟨_,hnew,rfl⟩⟩⟩⟩⟩,
    accepted.map Prod.snd,rfl,?_⟩
  rw [List.length_map,hlength]

theorem Accepted.nodup {drafts : List BillDraft}
    {before after : BillsRegistry} (h : Accepted draftsMapping ids before after)
    (hdrafts : draftsOf draftsMapping = .ok drafts) {added : List RegistryBill}
    (hadded : after.bills = before.bills ++ added)
    (hlength : added.length = ids.length) : ids.Nodup := by
  obtain ⟨found,accepted,appended,hfound,hbills,hnodup,hmem,hpairs⟩ := h
  obtain rfl := Except.ok.inj (hdrafts.symm.trans hfound)
  obtain rfl := List.append_cancel_left (hadded.symm.trans hbills)
  let named := accepted.map fun draft => Json.str draft.draftId.1
  have hnamed : named.Nodup := by
    refine hnodup.map_on fun d hd e he hde => ?_
    exact List.inj_on_of_nodup_map (draftsOf_nodup hdrafts) ((hmem d).mp hd).1 ((hmem e).mp he).1
      (Subtype.ext (Json.str.inj hde))
  have hsubset : named ⊆ ids := by
    intro id hid
    obtain ⟨draft,hdraft,rfl⟩ := List.mem_map.mp hid
    exact ((hmem draft).mp hdraft).2
  have hsame : named.length = ids.length := by
    rw [List.length_map,hpairs.length_eq,hlength]
  have hperm := (List.subperm_of_subset hnamed hsubset).perm_of_length_le hsame.ge
  exact hperm.nodup_iff.mp hnamed

end

/-- The file holds a registry with ids of its own, a call that raises has changed nothing, and one
that returns what it is there for. -/
structure Kept (workspace : Workspace) (c : Call) (tree : Tree) (outcome : Outcome) : Prop where
  parses : ∃ registry, registryIn workspace outcome.tree = .ok registry ∧
    (registry.bills.map RegistryBill.id).Nodup
  raised : ∀ e, outcome.result = .error e → outcome.tree = tree
  changed : ∀ value before after, outcome.result = .ok value →
    registryIn workspace tree = .ok before → registryIn workspace outcome.tree = .ok after →
      after.description = before.description ∧ Changes c before after

/-- Every call of a run keeps the registry. -/
def Always (readers : Readers) (workspace : Workspace) : List Call → Tree → Prop
  | [], _ => True
  | c :: calls, tree => Kept workspace c tree (call readers workspace c tree) ∧
      Always readers workspace calls (call readers workspace c tree).tree

/-- An accept that names drafts of the collection only names none twice. -/
def Call.Once : Call → Prop
  | accept (.dict draftsMapping) (.list ids) =>
    ∀ drafts, draftsOf draftsMapping = .ok drafts → Known drafts ids → ids.Nodup
  | _ => True

section
variable {workspace : Workspace} {tree : Tree} {before : BillsRegistry} {c : Call}

theorem kept_look (h : registryIn workspace tree = .ok before) {outcome : Outcome}
    (htree : outcome.tree = tree) (hc : ∀ registry, Changes c registry registry) :
    Kept workspace c tree outcome where
  parses := ⟨before,by rw [htree]; exact h,before.unique⟩
  raised _ _ := htree
  changed value first last _ hfirst hlast := by
    rw [htree,hfirst] at hlast
    obtain rfl := Except.ok.inj hlast
    exact ⟨rfl,hc _⟩

theorem Kept.mapError {outcome : Outcome} (h : Kept workspace c tree outcome)
    (f : Raised → Raised) :
    Kept workspace c tree { outcome with result := outcome.result.mapError f } where
  parses := h.parses
  raised e he := by
    cases hresult : outcome.result with
    | error e' => exact h.raised e' hresult
    | ok value =>
      simp only [hresult] at he
      cases he
  changed value first last hvalue := h.changed value first last (mapError_ok.mp hvalue)

theorem kept_persist (h : registryIn workspace tree = .ok before)
    {made : Except Raised (BillsRegistry × Json)}
    (hmade : ∀ merged value, made = .ok (merged,value) →
      merged.description = before.description ∧ Changes c before merged) :
    Kept workspace c tree (persist workspace tree made) := by
  rcases persist_kept h made with ⟨e,-,hpersist⟩ | ⟨merged,value,hok,hresult,hafter⟩
  · rw [hpersist]
    exact ⟨⟨before,h,before.unique⟩,fun _ _ => rfl,fun _ _ _ hvalue => by cases hvalue⟩
  · refine ⟨⟨merged,hafter,merged.unique⟩,?_,?_⟩
    · intro e he
      rw [hresult] at he
      cases he
    · intro value' first last _ hfirst hlast
      obtain rfl := Except.ok.inj (h.symm.trans hfirst)
      obtain rfl := Except.ok.inj (hafter.symm.trans hlast)
      exact hmade _ _ hok

theorem kept_maintain (h : registryIn workspace tree = .ok before)
    {change : BillsRegistry → Except Raised (BillsRegistry × MaintainResult)}
    (hchange : ∀ merged result, change before = .ok (merged,result) →
      merged.description = before.description ∧ Changes c before merged) :
    Kept workspace c tree (BillsOps.maintain workspace tree change) := by
  refine (kept_persist h fun merged value hmade => ?_).mapError toolError
  obtain ⟨content,hcontent,hmade⟩ := bind_ok.mp hmade
  obtain ⟨loaded,hloaded,hmade⟩ := bind_ok.mp hmade
  obtain ⟨pair,hpair,hmade⟩ := bind_ok.mp hmade
  obtain ⟨rfl,-⟩ := Prod.mk.inj (Except.ok.inj hmade)
  have hbefore : registryIn workspace tree = .ok loaded := bind_ok.mpr ⟨content,hcontent,hloaded⟩
  obtain rfl := Except.ok.inj (h.symm.trans hbefore)
  exact hchange pair.1 pair.2 hpair

theorem kept_call (readers : Readers) (h : registryIn workspace tree = .ok before)
    (honce : c.Once) : Kept workspace c tree (call readers workspace c tree) := by
  cases c with
  | load => exact kept_look h rfl fun _ => rfl
  | calendar => exact kept_look h rfl fun _ => rfl
  | inventory => exact kept_look h rfl fun _ => rfl
  | drafts => exact kept_look h rfl fun _ => rfl
  | emailDraft => exact kept_look h rfl fun _ => rfl
  | upsert data =>
    refine kept_maintain h fun merged result hchange => ?_
    obtain ⟨bill,hbill,hupsert⟩ := bind_ok.mp hchange
    obtain ⟨hdescription,hchanges⟩ := upsertBill_ok hupsert
    exact ⟨hdescription,bill,hbill,hchanges⟩
  | markPaid billId => exact kept_maintain h fun merged result hchange => setStatus_ok hchange
  | markStatus billId given =>
    refine kept_maintain h fun merged result hchange => ?_
    obtain ⟨status,hstatus,hset⟩ := bind_ok.mp hchange
    obtain ⟨hdescription,hchanges⟩ := setStatus_ok hset
    exact ⟨hdescription,status,expect_ok.mp hstatus,hchanges⟩
  | accept drafts acceptIds =>
    refine kept_persist h fun merged value hmade => ?_
    obtain ⟨draftsMapping,hmapping,hmade⟩ := bind_ok.mp hmade
    obtain ⟨ids,hids,hmade⟩ := bind_ok.mp hmade
    obtain ⟨_,-,hmade⟩ := bind_ok.mp hmade
    obtain ⟨content,hcontent,hmade⟩ := bind_ok.mp hmade
    obtain ⟨pair,hpair,hmade⟩ := bind_ok.mp hmade
    obtain ⟨rfl,-⟩ := Prod.mk.inj (Except.ok.inj hmade)
    have hdict : drafts = .dict draftsMapping := by
      cases drafts <;> simp_all
    have hlist : acceptIds = .list ids := by
      cases acceptIds <;> simp_all
    obtain ⟨content',hcontent',hload⟩ := bind_ok.mp h
    obtain rfl := Except.ok.inj (hcontent.symm.trans hcontent')
    rw [hdict,hlist] at honce
    obtain ⟨hdescription,haccepted⟩ := acceptDrafts_ok hload honce (mapError_ok.mp hpair)
    exact ⟨hdescription,draftsMapping,ids,hdict,hlist,haccepted⟩

theorem once_of_kept {readers : Readers} (h : registryIn workspace tree = .ok before)
    (hkept : Kept workspace c tree (call readers workspace c tree)) : c.Once := by
  cases c with
  | accept drafts acceptIds =>
    cases drafts with
    | dict draftsMapping =>
      cases acceptIds with
      | list ids =>
        intro drafts hdrafts hknown
        by_cases hne : ids = []
        · rw [hne]
          exact List.nodup_nil
        obtain ⟨content,hcontent,hload⟩ := bind_ok.mp h
        obtain ⟨merged,result,haccept,added,hadded,hlength⟩ :=
          acceptDrafts_returns hload hdrafts hknown hne
        have hsome : (!ids.isEmpty) = true := by
          cases ids with
          | nil => exact absurd rfl hne
          | cons => rfl
        have hcall : IntakeOps.accept workspace tree (.dict draftsMapping) (.list ids) =
            persist workspace tree (.ok (merged,result.asMapping)) := by
          rw [IntakeOps.accept]
          congr 1
          exact bind_ok.mpr ⟨draftsMapping,rfl,bind_ok.mpr ⟨ids,rfl,bind_ok.mpr ⟨(),
            require_ok.mpr hsome,bind_ok.mpr ⟨content,hcontent,bind_ok.mpr ⟨_,
              mapError_ok.mpr haccept,rfl⟩⟩⟩⟩⟩
        rcases persist_kept h (.ok (merged,result.asMapping)) with
          ⟨e,he,-⟩ | ⟨_,value,hmade,hresult,hafter⟩
        · cases he
        · obtain ⟨rfl,rfl⟩ := Prod.mk.inj (Except.ok.inj hmade)
          rw [← hcall] at hresult hafter
          obtain ⟨-,_,_,hmapping,hlist,haccepted⟩ := hkept.changed _ _ _ hresult h hafter
          obtain rfl := Json.dict.inj hmapping
          obtain rfl := Json.list.inj hlist
          exact haccepted.nodup hdrafts hadded hlength
      | _ => trivial
    | _ => trivial
  | _ => trivial

end

namespace Sample

def day : IsoDate := ⟨"2026-09-01",by decide +kernel⟩

theorem b1_ne : "b1" ≠ "" := by decide
theorem water_ne : "WaterCo" ≠ "" := by decide
theorem d1_ne : "d1" ≠ "" := by decide
theorem power_ne : "PowerCo" ≠ "" := by decide

def registry : BillsRegistry where
  bills := [⟨⟨"b1",b1_ne⟩,⟨"WaterCo",water_ne⟩,2000,day,.due,""⟩]
  description := ""
  nonempty := by decide
  unique := by decide

def folder : PathWalk.Name := ['b','i','l','l','s']
def file : PathWalk.Name := ['r','e','g','i','s','t','r','y','.','j','s','o','n']

def workspace : Workspace where
  root := [['w']]
  layout := ⟨[registryPath],[],[],by decide +kernel,by decide,by decide,by decide⟩

def tree : Tree :=
  (Tree.empty.put [folder] .directory (by decide) (by decide) (by decide)).put [folder,file]
    (.file registry.asMapping.dumps.toUTF8.data.toList) (by decide) (by decide) (by decide)

def refuse (message : String) : Raised := .valueError message

def readers : Readers :=
  ⟨fun _ _ => .error (refuse "csv"),fun _ _ => .error (refuse "txt"),
    fun _ _ => .error (refuse "pdf"),fun _ => .ok []⟩

def draft : BillDraft :=
  ⟨⟨"d1",d1_ne⟩,⟨"PowerCo",power_ne⟩,5000,day,⟨"inbox/a.json",by decide⟩,"",""⟩

def drafts : List (String × Json) := [("drafts",.list [draft.asMapping])]

theorem registry_in : registryIn workspace tree = .ok registry := by
  have hlocate : workspace.locateFile registryPath = .ok [folder,file] := by decide +kernel
  refine bind_ok.mpr ⟨registry.asMapping.dumps,?_,loadRegistry_dumps registry⟩
  refine readText_ok.mpr ⟨_,_,hlocate,?_,decode_encode (dumps_plain _),?_⟩
  · rw [Tree.content,tree,Tree.get_put,if_pos rfl]
  · exact requireRelativePath_ok.mpr (by decide +kernel)

theorem drafts_read : draftsOf drafts = .ok [draft] := by
  refine bind_ok.mpr ⟨[draft.asMapping],rfl,bind_ok.mpr ⟨[draft],?_,rfl⟩⟩
  exact mapM_written BillDraft.fromMapping_asMapping [draft]

theorem known (ids : List Json) (h : ∀ id ∈ ids, id = .str "d1") : Known [draft] ids :=
  fun id hid => ⟨draft,List.mem_singleton_self _,h id hid⟩

end Sample

end AgentCentric.Bills

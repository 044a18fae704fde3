import AgentCentric.Boot.Runtime
import AgentCentric.Library.Base64
import Mathlib.Data.List.Permutation

namespace AgentCentric.Boot

def thresholdSchema : String := "threshold.sig/v1"

def decode (data : Bytes) : Option String := String.fromUTF8? ⟨data.toArray⟩

@[ext]
structure SignaturePart where
  keyId : String
  signature : Bytes
  keyed : keyId ≠ ""
  signed : signature ≠ []

instance : DecidableEq SignaturePart := fun _ _ => decidable_of_iff _ SignaturePart.ext_iff.symm

namespace SignaturePart

def new (keyId : String) (signature : Bytes) : Except Raise SignaturePart :=
  if hkey : keyId = "" then .error (.signature "signature part key_id must be non-empty")
  else if hsigned : signature = [] then
    .error (.signature "signature part signature must be non-empty")
  else .ok ⟨keyId,signature,hkey,hsigned⟩

def toDict (part : SignaturePart) : Json :=
  .dict [("key_id",.str part.keyId),
    ("signature",.str (String.ofList (Base64.encode part.signature)))]

def fromDict (data : Json) : Except Raise SignaturePart :=
  match data with
  | .dict items =>
    match (Dict.lookup items "signature").getD (.str "") with
    | .str raw => do
      let signature ← expect (Base64.decode raw.toList)
        (.signature "signature part is not valid base64: ")
      let keyId ← ComponentManifest.itemText data "key_id"
      new keyId signature
    | _ => .error (.signature "signature part signature must be a string")
  | _ => .error (.signature "a signature part must be an object")

end SignaturePart

structure ThresholdSignature where
  parts : List SignaturePart
  parts_ne : parts ≠ []
  sorted : (parts.map SignaturePart.keyId).Pairwise (· < ·)

namespace ThresholdSignature

def byKey (a b : SignaturePart) : Prop := a.keyId ≤ b.keyId

instance : DecidableRel byKey := fun a b => inferInstanceAs (Decidable (a.keyId ≤ b.keyId))

def new (parts : List SignaturePart) (schema : String := thresholdSchema) :
    Except Raise ThresholdSignature := do
  require (schema = thresholdSchema)
    (.signature ("Unsupported threshold schema: " ++ pyRepr schema))
  let ordered := parts.insertionSort byKey
  if hne : ordered = [] then .error (.signature "a threshold signature needs at least one part")
  else if hsorted : (ordered.map SignaturePart.keyId).Pairwise (· < ·) then
    .ok ⟨ordered,hne,hsorted⟩
  else .error (.signature "threshold signature parts must have unique key ids")

def toDict (s : ThresholdSignature) : Json :=
  .dict [("schema",.str thresholdSchema),("signatures",.list (s.parts.map SignaturePart.toDict))]

def toBytes (s : ThresholdSignature) : Bytes := encode s.toDict.compact

/-- `json.loads(data.decode("utf-8"))`. -/
def document (data : Bytes) : Option Json := do
  let text ← decode data
  let parsed ← Json.loadsChars text.toList
  pure parsed.keepLast

def fromBinary (data : Bytes) : Except Raise ThresholdSignature := do
  let parsed ← expect (document data) (.signature "threshold signature is not JSON: ")
  require (encode parsed.compact = data) (.signature "threshold signature is not canonical JSON")
  match parsed with
  | .dict items =>
    match (Dict.lookup items "signatures").getD (.list []) with
    | .list raw => do
      let parts ← raw.mapM SignaturePart.fromDict
      new parts ((Dict.lookup items "schema").getD (.str thresholdSchema)).text
    | _ => .error (.signature "threshold signature 'signatures' must be a list")
  | _ => .error (.signature "threshold signature must be an object")

end ThresholdSignature

theorem decode_encode (s : String) : decode (encode s) = some s := by
  rw [decode,encode,Array.toArray_toList,String.fromUTF8?,dif_pos s.isValidUTF8]
  rfl

namespace SignaturePart

theorem new_fields (part : SignaturePart) : new part.keyId part.signature = .ok part := by
  rw [new,dif_neg part.keyed,dif_neg part.signed]

theorem new_ok {keyId : String} {signature : Bytes} {part : SignaturePart}
    (h : new keyId signature = .ok part) : part.keyId = keyId ∧ part.signature = signature := by
  unfold new at h
  split at h
  · cases h
  · split at h
    · cases h
    · cases h
      exact ⟨rfl,rfl⟩

theorem canonical_toDict (part : SignaturePart) : part.toDict.canonical = part.toDict := by
  simp [toDict,Json.canonical,Json.canonicalItems,Json.byKey]

theorem keepLast_toDict (part : SignaturePart) : part.toDict.keepLast = part.toDict := by
  simp [toDict,Json.keepLast,Json.keepLastItems,Dict.insert]

theorem fromDict_toDict (part : SignaturePart) : fromDict part.toDict = .ok part := by
  simp [toDict,fromDict,Dict.lookup,Base64.decode_encode,ComponentManifest.itemText,
    ComponentManifest.item,expect,bind,Except.bind,pure,Except.pure,new_fields]

end SignaturePart

namespace ThresholdSignature

@[ext] theorem ext {s t : ThresholdSignature} (h : s.parts = t.parts) : s = t := by
  cases s
  cases t
  cases h
  rfl

theorem new_ok {parts : List SignaturePart} {schema : String} {s : ThresholdSignature} :
    new parts schema = .ok s ↔ schema = thresholdSchema ∧ s.parts = parts.insertionSort byKey := by
  rw [new,bind_ok]
  simp only [require_ok,decide_eq_true_eq]
  constructor
  · rintro ⟨_,hschema,h⟩
    split at h
    · cases h
    · split at h
      · cases h
        exact ⟨hschema,rfl⟩
      · cases h
  · rintro ⟨hschema,hparts⟩
    refine ⟨(),hschema,?_⟩
    rw [dif_neg (hparts ▸ s.parts_ne),dif_pos (hparts ▸ s.sorted)]
    exact congrArg Except.ok (ext hparts.symm)

theorem insertionSort_parts (s : ThresholdSignature) : s.parts.insertionSort byKey = s.parts := by
  have hle : s.parts.Pairwise byKey := (List.pairwise_map.1 s.sorted).imp fun h => le_of_lt h
  exact hle.insertionSort_eq

theorem canonical_parts (s : ThresholdSignature) :
    (Json.list (s.parts.map SignaturePart.toDict)).canonical =
      .list (s.parts.map SignaturePart.toDict) := by
  rw [Json.canonical_list,List.map_map]
  exact congrArg Json.list (List.map_congr_left fun part _ => part.canonical_toDict)

theorem keepLast_parts (s : ThresholdSignature) :
    (Json.list (s.parts.map SignaturePart.toDict)).keepLast =
      .list (s.parts.map SignaturePart.toDict) := by
  rw [Json.keepLast_list,List.map_map]
  exact congrArg Json.list (List.map_congr_left fun part _ => part.keepLast_toDict)

theorem canonical_two {items : List (String × Json)} {k l : String} {v w : Json} (hlt : k < l)
    (hmembers : (items.map Prod.fst).Perm [k,l]) (hk : Dict.lookup items k = some v)
    (hl : Dict.lookup items l = some w) :
    (Json.dict items).canonical = .dict [(k,v.canonical),(l,w.canonical)] := by
  obtain ⟨⟨a,x⟩,⟨b,y⟩,rfl⟩ : ∃ d e, items = [d,e] := by
    rw [← List.length_eq_two]
    simpa using hmembers.length_eq
  have hle : k ≤ l := le_of_lt hlt
  have hnot : ¬l ≤ k := not_le.2 hlt
  have hne : k ≠ l := ne_of_lt hlt
  rcases List.perm_pair.1 hmembers with hkeys | hkeys
  · obtain ⟨rfl,rfl⟩ : a = k ∧ b = l := by simpa using hkeys
    simp only [Dict.lookup,if_true,if_neg hne,Option.some.injEq] at hk hl
    rw [hk,hl]
    simp [Json.canonical,Json.canonicalItems,Json.byKey,hle]
  · obtain ⟨rfl,rfl⟩ : a = l ∧ b = k := by simpa using hkeys
    simp only [Dict.lookup,if_true,if_neg hne.symm,Option.some.injEq] at hk hl
    rw [hk,hl]
    simp [Json.canonical,Json.canonicalItems,Json.byKey,hnot]

theorem canonical_toDict (s : ThresholdSignature) : s.toDict.canonical = s.toDict := by
  rw [toDict,canonical_two (show "schema" < "signatures" by decide) (List.Perm.refl _) rfl rfl,
    canonical_parts]
  rfl

theorem keepLast_toDict (s : ThresholdSignature) : s.toDict.keepLast = s.toDict := by
  simp only [toDict,Json.keepLast,Json.keepLastItems]
  rw [← Json.keepLast,keepLast_parts]
  rfl

theorem document_toBytes (s : ThresholdSignature) : document s.toBytes = some s.toDict := by
  have hread := Json.loadsChars_bytes s.toDict
  rw [canonical_toDict] at hread
  rw [document,toBytes,decode_encode]
  simp [Json.compact,hread,keepLast_toDict]

theorem mapM_fromDict (parts : List SignaturePart) :
    parts.mapM (SignaturePart.fromDict ∘ SignaturePart.toDict) = .ok parts := by
  have hread : ∀ part ∈ parts,
      (SignaturePart.fromDict ∘ SignaturePart.toDict) part = .ok (id part) :=
    fun part _ => part.fromDict_toDict
  rw [mapM_ok hread,List.map_id]

/-- A bundle that was written is read again. -/
theorem fromBinary_toBytes (s : ThresholdSignature) : fromBinary s.toBytes = .ok s := by
  have hnew : new s.parts = .ok s := new_ok.2 ⟨rfl,s.insertionSort_parts.symm⟩
  rw [fromBinary,document_toBytes]
  simp [expect,require,toBytes,toDict,Dict.lookup,mapM_fromDict,bind,Except.bind,hnew]

/-- A part with nothing else in it, its key a text and no bit left over in its signature. -/
structure PlainPart (items : List (String × Json)) : Prop where
  members : (items.map Prod.fst).Perm ["key_id","signature"]
  named : ∃ keyId, Dict.lookup items "key_id" = some (.str keyId)
  unpadded : ∀ raw, Dict.lookup items "signature" = some (.str raw) →
    Base64.canonical raw.toList = true

/-- `part.get(key)`. -/
def member (part : Json) (key : String) : Json :=
  match part with
  | .dict items => (Dict.lookup items key).getD .null
  | _ => .null

/-- A document with nothing else in it, its parts plain and in the order of their keys. -/
structure Plain (items : List (String × Json)) : Prop where
  members : (items.map Prod.fst).Perm ["schema","signatures"]
  schema : Dict.lookup items "schema" = some (.str thresholdSchema)
  parts : ∀ raw, Dict.lookup items "signatures" = some (.list raw) →
    ∀ part ∈ raw, ∃ members, part = .dict members ∧ PlainPart members
  sorted : ∀ raw, Dict.lookup items "signatures" = some (.list raw) →
    (raw.map fun part => (member part "key_id").text).Pairwise (· < ·)

theorem plainPart_canonical {items : List (String × Json)} {part : SignaturePart}
    (h : PlainPart items) (hread : SignaturePart.fromDict (.dict items) = .ok part) :
    (Json.dict items).canonical = part.toDict ∧
      (member (.dict items) "key_id").text = part.keyId := by
  obtain ⟨keyId,hkey⟩ := h.named
  unfold SignaturePart.fromDict at hread
  cases hsig : Dict.lookup items "signature" with
  | none =>
    have hmem : "signature" ∈ items.map Prod.fst := h.members.mem_iff.2 (by decide)
    rw [← Dict.lookup_isSome,hsig] at hmem
    cases hmem
  | some value =>
    simp only [hsig,Option.getD_some] at hread
    split at hread
    · rename_i raw
      obtain ⟨signature,hdecode,hread⟩ := bind_ok.1 hread
      obtain ⟨keyText,hitem,hread⟩ := bind_ok.1 hread
      rw [expect_ok] at hdecode
      have htext : keyText = keyId := by
        simp [ComponentManifest.itemText,ComponentManifest.item,hkey,expect,bind,Except.bind,pure,
          Except.pure] at hitem
        exact hitem.symm
      obtain ⟨hkeyId,hsignature⟩ := SignaturePart.new_ok hread
      have hraw := (Base64.encode_decode hdecode).2 (h.unpadded raw hsig)
      constructor
      · rw [canonical_two (by decide) h.members hkey hsig,SignaturePart.toDict,hkeyId,hsignature,
          hraw,htext,String.ofList_toList]
        rfl
      · rw [member,hkey,hkeyId,htext]
        rfl
    · cases hread

theorem mapM_plain {raw : List Json} {parts : List SignaturePart}
    (hplain : ∀ part ∈ raw, ∃ members, part = .dict members ∧ PlainPart members)
    (hread : raw.mapM SignaturePart.fromDict = .ok parts) :
    raw.map Json.canonical = parts.map SignaturePart.toDict ∧
      (raw.map fun part => (member part "key_id").text) = parts.map SignaturePart.keyId := by
  induction raw generalizing parts with
  | nil =>
    cases hread
    exact ⟨rfl,rfl⟩
  | cons j raw ih =>
    rw [List.mapM_cons] at hread
    obtain ⟨part,hpart,hread⟩ := bind_ok.1 hread
    obtain ⟨rest,hrest,hread⟩ := bind_ok.1 hread
    cases hread
    obtain ⟨members,rfl,hmembers⟩ := hplain j List.mem_cons_self
    obtain ⟨hcanonical,hkey⟩ := plainPart_canonical hmembers hpart
    obtain ⟨hmap,hkeys⟩ := ih (fun p hp => hplain p (List.mem_cons_of_mem _ hp)) hrest
    simp only [List.map_cons,hcanonical,hkey,hmap,hkeys,and_self]

theorem plain_toDict (s : ThresholdSignature) : Plain [("schema",.str thresholdSchema),
      ("signatures",.list (s.parts.map SignaturePart.toDict))] := by
  have hraw : ∀ raw, Dict.lookup [("schema",Json.str thresholdSchema),
      ("signatures",.list (s.parts.map SignaturePart.toDict))] "signatures" = some (.list raw) →
      raw = s.parts.map SignaturePart.toDict := by
    intro raw h
    simpa [Dict.lookup,eq_comm] using h
  refine ⟨List.Perm.refl _,rfl,?_,?_⟩
  · intro raw h part hpart
    rw [hraw raw h] at hpart
    obtain ⟨p,-,rfl⟩ := List.mem_map.1 hpart
    refine ⟨_,rfl,List.Perm.refl _,⟨p.keyId,rfl⟩,?_⟩
    intro encoded hencoded
    have heq : encoded.toList = Base64.encode p.signature := by
      simp [Dict.lookup] at hencoded
      rw [← hencoded,String.toList_ofList]
    rw [heq]
    exact (Base64.encode_decode (Base64.decode_encode p.signature)).1 rfl
  · intro raw h
    rw [hraw raw h,List.map_map]
    exact s.sorted

theorem fromBinary_ok {data : Bytes} {s : ThresholdSignature} (h : fromBinary data = .ok s) :
    ∃ items raw parts, document data = some (.dict items) ∧
      encode (Json.dict items).compact = data ∧
      (Dict.lookup items "signatures").getD (.list []) = .list raw ∧
      raw.mapM SignaturePart.fromDict = .ok parts ∧ s.parts = parts.insertionSort byKey := by
  obtain ⟨parsed,hparsed,h⟩ := bind_ok.1 h
  obtain ⟨_,hcanonical,h⟩ := bind_ok.1 h
  rw [expect_ok] at hparsed
  rw [require_ok,decide_eq_true_eq] at hcanonical
  cases parsed with
  | dict items =>
    simp only at h
    split at h
    · rename_i raw hraw
      obtain ⟨parts,hparts,h⟩ := bind_ok.1 h
      exact ⟨items,raw,parts,hparsed,hcanonical,hraw,hparts,(new_ok.1 h).2⟩
    · cases h
  | _ => cases h

/-- Every bundle is read again from what is written for it; a document that is accepted is what
is written for its bundle exactly if it is plain. -/
theorem bundle_canonical_iff (s : ThresholdSignature) : fromBinary s.toBytes = .ok s ∧
    ∀ data : Bytes, fromBinary data = .ok s →
      (s.toBytes = data ↔ ∃ items, document data = some (.dict items) ∧ Plain items) := by
  refine ⟨fromBinary_toBytes s,fun data h => ⟨?_,?_⟩⟩
  · rintro rfl
    exact ⟨_,document_toBytes s,plain_toDict s⟩
  · rintro ⟨items,hdocument,hplain⟩
    obtain ⟨items',raw,parts,hdocument',hwritten,hraw,hparts,hsorted⟩ := fromBinary_ok h
    rw [hdocument,Option.some.injEq,Json.dict.injEq] at hdocument'
    subst hdocument'
    have hlookup : Dict.lookup items "signatures" = some (.list raw) := by
      cases hsigs : Dict.lookup items "signatures" with
      | none =>
        have hmem : "signatures" ∈ items.map Prod.fst := hplain.members.mem_iff.2 (by decide)
        rw [← Dict.lookup_isSome,hsigs] at hmem
        cases hmem
      | some value =>
        rw [hsigs,Option.getD_some] at hraw
        rw [hraw]
    obtain ⟨hmap,hkeys⟩ := mapM_plain (hplain.parts raw hlookup) hparts
    have hordered : parts.Pairwise byKey := by
      have hlt := hplain.sorted raw hlookup
      rw [hkeys,List.pairwise_map] at hlt
      exact hlt.imp fun h => le_of_lt h
    rw [hordered.insertionSort_eq] at hsorted
    have hcanonical : (Json.dict items).canonical = s.toDict := by
      rw [canonical_two (by decide) hplain.members hplain.schema hlookup,toDict,hsorted,
        Json.canonical_list,hmap]
      rfl
    rw [toBytes,← hwritten,Json.compact,Json.compact,← hcanonical,Json.bytes_canonical]

namespace Sample

def signature (encoded : String) : Json :=
  .dict [("schema",.str thresholdSchema),
    ("signatures",.list [.dict [("key_id",.str "release"),("signature",.str encoded)]])]

def padded : Bytes := encode (signature "QR==").compact

def read : ThresholdSignature :=
  ⟨[⟨"release",[65],by decide,by decide⟩],by decide,by simp⟩

theorem document_padded : document padded = some (signature "QR==") := by
  have hread := Json.loadsChars_bytes (signature "QR==")
  rw [document,padded,decode_encode]
  simp only [Json.compact,Option.bind_eq_bind,Option.bind_some,String.toList_ofList,hread]
  simp [signature,Json.canonical,Json.canonicalItems,Json.canonicalList,Json.byKey,Json.keepLast,
    Json.keepLastItems,Json.keepLastList,Dict.insert]

theorem fromBinary_padded : fromBinary padded = .ok read := by
  have hpart : [Json.dict [("key_id",.str "release"),("signature",.str "QR==")]].mapM
      SignaturePart.fromDict = .ok read.parts := by rfl
  have hnew : new read.parts = .ok read := new_ok.2 ⟨rfl,read.insertionSort_parts.symm⟩
  rw [fromBinary,document_padded]
  simp only [expect,padded,require,bind,Except.bind,signature,Dict.lookup]
  simp [hpart,hnew]

/-- A bundle is accepted, and another one is written for it. -/
theorem padding_bits_accepted : ¬∀ (data : Bytes) (s : ThresholdSignature),
    fromBinary data = .ok s → s.toBytes = data := by
  intro h
  have heq := h padded read fromBinary_padded
  have hdocument := document_toBytes read
  rw [heq,document_padded,Option.some.injEq] at hdocument
  have htext := congrArg Json.compact hdocument
  revert htext
  decide +kernel

end Sample
end ThresholdSignature
end AgentCentric.Boot

import AgentCentric.Agent.Delegation

namespace AgentCentric.Security

def integrityTag : String := "cbp-integrity-v1"
def integrityKey : String := "_integrity"
def digestKey : String := "_digest"

variable (hmac : List UInt8 → List Char → HexDigest) (secret : List UInt8)

/-- `_canonical_payload`: the keys of every object are sorted. -/
def canonicalPayload (value : Json) : Json := value.canonical

def canonicalJson (correlationId directiveKind : String) (payload : Dict String Json) :
    List Char :=
  (Json.dict [("correlation_id",.str correlationId),("directive_kind",.str directiveKind),
    ("payload",canonicalPayload (.dict payload.entries))]).bytes

def signPayload (correlationId directiveKind : String) (payload : Dict String Json) : String :=
  (hmac secret (canonicalJson correlationId directiveKind payload)).text

/-- `text.encode("ascii", errors="ignore")`. -/
def ascii (text : String) : List Char := text.toList.filter fun c => c.toNat < 128

def verifyPayload (expected correlationId directiveKind : String)
    (payload : Dict String Json) : Bool :=
  expected ≠ "" && ascii expected = ascii (signPayload hmac secret correlationId directiveKind
    payload)

def integrityHeaders (correlationId directiveKind : String) (payload : Dict String Json) :
    List (String × Json) :=
  [(integrityKey,.str integrityTag),
    (digestKey,.str (signPayload hmac secret correlationId directiveKind payload))]

def attachIntegrity (secret : Option (List UInt8)) (correlationId directiveKind : String)
    (payload : Dict String Json) : Dict String Json :=
  match secret with
  | none => payload
  | some secret => payload.update (integrityHeaders hmac secret correlationId directiveKind payload)

def clean (payload : Dict String Json) : Dict String Json :=
  (payload.erase integrityKey).erase digestKey

def verifyAndStripIntegrity (secret : Option (List UInt8)) (correlationId directiveKind : String)
    (payload : Dict String Json) : Dict String Json × Bool :=
  match secret with
  | none => (payload,true)
  | some secret =>
    match payload.get integrityKey,payload.get digestKey with
    | some (.str tag),some (.str digest) =>
      if tag = integrityTag then (clean payload,
        verifyPayload hmac secret digest correlationId directiveKind (clean payload))
      else (clean payload,false)
    | _,_ => (clean payload,false)

/-- What is left of an object that is written and read again: its keys may be in another order, at
any depth. -/
def SameJson (a b : Dict String Json) : Prop :=
  (Json.dict a.entries).canonical = (Json.dict b.entries).canonical

theorem sameJson_iff {a b : Dict String Json} :
    SameJson a b ↔ ∀ k, (a.get k).map Json.canonical = (b.get k).map Json.canonical :=
  Json.canonical_dict_iff a.nodup b.nodup

theorem eq_str_of_canonical {value : Json} {s : String} (h : value.canonical = .str s) :
    value = .str s := by
  cases value <;> simp_all [Json.canonical]

theorem SameJson.get_str {a b : Dict String Json} (h : SameJson a b) {k s : String}
    (hget : b.get k = some (.str s)) : a.get k = some (.str s) := by
  have hstr : (Json.str s).canonical = .str s := by simp [Json.canonical]
  have hsame := sameJson_iff.mp h k
  rw [hget,Option.map_some,hstr,Option.map_eq_some_iff] at hsame
  obtain ⟨value,hvalue,hcanonical⟩ := hsame
  rw [hvalue,eq_str_of_canonical hcanonical]

theorem get_clean (payload : Dict String Json) (k : String) : (clean payload).get k =
      if digestKey = k then none else if integrityKey = k then none else payload.get k := by
  rw [clean,Dict.get_erase,Dict.get_erase]

theorem SameJson.clean {a b : Dict String Json} (h : SameJson a b) :
    SameJson (clean a) (clean b) := by
  rw [sameJson_iff]
  intro k
  rw [get_clean,get_clean]
  split
  · rfl
  · split
    · rfl
    · exact sameJson_iff.mp h k

theorem canonicalJson_inj {cid cid' kind kind' : String} {payload payload' : Dict String Json} :
    canonicalJson cid kind payload = canonicalJson cid' kind' payload' ↔
      cid = cid' ∧ kind = kind' ∧ SameJson payload payload' := by
  rw [canonicalJson,canonicalJson,Json.bytes_inj]
  refine (Json.canonical_dict_inj (by simp) (by simp)).trans ?_
  have hstr (s : String) : (Json.str s).canonical = .str s := by simp [Json.canonical]
  simp only [List.map_cons,List.map_nil,List.cons.injEq,Prod.mk.injEq,true_and,and_true,hstr,
    Json.str.injEq,canonicalPayload,Json.canonical_canonical,SameJson]

theorem ascii_hex (digest : HexDigest) : ascii digest.text = digest.text.toList := by
  have hhex := digest.hex
  rw [isHex64,Bool.and_eq_true] at hhex
  rw [ascii,List.filter_eq_self]
  intro c hc
  have hdigit := List.all_eq_true.mp hhex.2 c hc
  simp only [Bool.or_eq_true,Bool.and_eq_true,decide_eq_true_eq,Char.le_def] at hdigit ⊢
  have hnine : '9'.val.toNat = 57 := by decide
  have hlast : 'f'.val.toNat = 102 := by decide
  rcases hdigit with ⟨-,hdigit⟩ | ⟨-,hdigit⟩
  · have hle : c.val.toNat ≤ 57 := hnine ▸ UInt32.le_iff_toNat_le.mp hdigit
    exact lt_of_le_of_lt hle (by omega)
  · have hle : c.val.toNat ≤ 102 := hlast ▸ UInt32.le_iff_toNat_le.mp hdigit
    exact lt_of_le_of_lt hle (by omega)

theorem HexDigest.eq_of_ascii {a b : HexDigest} (h : ascii a.text = ascii b.text) : a = b := by
  rw [ascii_hex,ascii_hex,String.toList_inj] at h
  cases a
  cases b
  simp_all

variable {hmac : List UInt8 → List Char → HexDigest} {secret : List UInt8}
  {cid cid' kind kind' : String} {payload received : Dict String Json}

theorem attachIntegrity_get (k : String) :
    (attachIntegrity hmac (some secret) cid kind payload).get k =
      if digestKey = k then some (.str (signPayload hmac secret cid kind payload))
      else if integrityKey = k then some (.str integrityTag) else payload.get k := by
  rw [attachIntegrity,integrityHeaders,Dict.update_cons,Dict.update_cons,Dict.update_nil,
    Dict.get_set,Dict.get_set]

theorem notMem_keys {k : String} (h : payload.get k = none) : k ∉ payload.entries.map Prod.fst := by
  intro hmem
  have hsome := (Dict.lookup_isSome payload.entries k).mpr hmem
  rw [Dict.get] at h
  rw [h] at hsome
  cases hsome

theorem attach_entries (htag : payload.get integrityKey = none)
    (hdigest : payload.get digestKey = none) :
    (attachIntegrity hmac (some secret) cid kind payload).entries =
      payload.entries ++ integrityHeaders hmac secret cid kind payload := by
  have hnodup : ((payload.entries ++ integrityHeaders hmac secret cid kind payload).map
      Prod.fst).Nodup := by
    rw [List.map_append,List.nodup_append']
    refine ⟨payload.nodup,by simp [integrityHeaders,integrityKey,digestKey],?_⟩
    intro k hk hheader
    simp only [integrityHeaders,List.map_cons,List.map_nil,List.mem_cons,List.not_mem_nil,
      or_false] at hheader
    rcases hheader with rfl | rfl
    · exact notMem_keys htag hk
    · exact notMem_keys hdigest hk
  rw [attachIntegrity,Dict.update_fresh _ _ hnodup]

theorem clean_attach (htag : payload.get integrityKey = none)
    (hdigest : payload.get digestKey = none) :
    clean (attachIntegrity hmac (some secret) cid kind payload) = payload := by
  have hkept : ∀ e ∈ payload.entries, e.1 ≠ integrityKey ∧ e.1 ≠ digestKey := fun e he =>
    ⟨fun h => notMem_keys htag (h ▸ List.mem_map_of_mem he),
      fun h => notMem_keys hdigest (h ▸ List.mem_map_of_mem he)⟩
  apply Dict.ext
  change ((attachIntegrity hmac (some secret) cid kind payload).entries.filter
    fun e => e.1 ≠ integrityKey).filter (fun e => e.1 ≠ digestKey) = _
  rw [attach_entries htag hdigest,List.filter_append,
    List.filter_append,List.filter_eq_self.mpr fun e he => decide_eq_true (hkept e he).1,
    List.filter_eq_self.mpr fun e he => decide_eq_true (hkept e he).2]
  exact List.append_nil _

theorem verifyPayload_signed {signed : Dict String Json} (h : SameJson signed payload) :
    verifyPayload hmac secret (signPayload hmac secret cid kind payload) cid kind signed =
      true := by
  have hmessage : canonicalJson cid kind signed = canonicalJson cid kind payload :=
    canonicalJson_inj.mpr ⟨rfl,rfl,h⟩
  have hgiven : signPayload hmac secret cid kind payload ≠ "" := by
    intro hempty
    have hhex := (hmac secret (canonicalJson cid kind payload)).hex
    rw [signPayload] at hempty
    rw [hempty] at hhex
    exact absurd hhex (by decide)
  rw [verifyPayload,Bool.and_eq_true,signPayload,signPayload,hmessage]
  exact ⟨decide_eq_true hgiven,decide_eq_true rfl⟩

theorem verify_attached (htag : payload.get integrityKey = none)
    (hdigest : payload.get digestKey = none)
    (h : SameJson received (attachIntegrity hmac (some secret) cid kind payload)) :
    verifyAndStripIntegrity hmac (some secret) cid kind received = (clean received,true) ∧
      SameJson (clean received) payload := by
  have hpayload : clean (attachIntegrity hmac (some secret) cid kind payload) = payload :=
    clean_attach htag hdigest
  have hclean : SameJson (clean received) payload := hpayload ▸ h.clean
  have hreceivedTag : received.get integrityKey = some (.str integrityTag) := by
    apply h.get_str
    rw [attachIntegrity_get]
    rfl
  have hreceivedDigest : received.get digestKey =
      some (.str (signPayload hmac secret cid kind payload)) := by
    apply h.get_str
    rw [attachIntegrity_get,if_pos rfl]
  refine ⟨?_,hclean⟩
  rw [verifyAndStripIntegrity,hreceivedTag,hreceivedDigest]
  simp only [if_true,verifyPayload_signed hclean]

theorem digest_of_verified {rest : Dict String Json} {digest : String}
    (hdigest : received.get digestKey = some (.str digest))
    (h : verifyAndStripIntegrity hmac (some secret) cid kind received = (rest,true)) :
    rest = clean received ∧ ascii digest = ascii (signPayload hmac secret cid kind rest) := by
  rw [verifyAndStripIntegrity,hdigest] at h
  split at h
  · rename_i hget
    obtain rfl := Json.str.inj (Option.some.inj hget)
    split at h
    · obtain ⟨rfl,hverified⟩ := Prod.mk.inj h
      rw [verifyPayload,Bool.and_eq_true] at hverified
      exact ⟨rfl,of_decide_eq_true hverified.2⟩
    · cases (Prod.mk.inj h).2
  · cases (Prod.mk.inj h).2

/-- With a secret whose hash takes no message for another one: what was attached is verified and
leaves the payload, however the object was written in between, and a digest is good only for the
id, the kind and the payload that it was made for. -/
theorem integrity_exact (hmac : List UInt8 → List Char → HexDigest) (secret : List UInt8) :
    (∀ (cid kind : String) (payload received : Dict String Json),
      payload.get integrityKey = none → payload.get digestKey = none →
        SameJson received (attachIntegrity hmac (some secret) cid kind payload) →
          ∃ rest, verifyAndStripIntegrity hmac (some secret) cid kind received = (rest,true) ∧
            SameJson rest payload) ∧
    ∀ (cid kind cid' kind' : String) (payload' received rest : Dict String Json),
      (hmac secret (canonicalJson cid' kind' payload') =
          hmac secret (canonicalJson cid kind rest) →
        canonicalJson cid' kind' payload' = canonicalJson cid kind rest) →
      received.get digestKey = some (.str (signPayload hmac secret cid' kind' payload')) →
        verifyAndStripIntegrity hmac (some secret) cid kind received = (rest,true) →
          cid' = cid ∧ kind' = kind ∧ SameJson payload' rest := by
  constructor
  · intro cid kind payload received htag hdigest hsame
    exact ⟨clean received,verify_attached htag hdigest hsame⟩
  · intro cid kind cid' kind' payload' received rest hinj hdigest hverified
    obtain ⟨-,hascii⟩ := digest_of_verified hdigest hverified
    exact canonicalJson_inj.mp (hinj (HexDigest.eq_of_ascii hascii))

namespace Sample

def order : Dict String Json := ⟨[("task",.str "double"),("value",.int 2)],by decide⟩

def telling (message : List Char) (_ : List UInt8) (text : List Char) : HexDigest :=
  if text = message then .zeros else .ones

def hash : List UInt8 → List Char → HexDigest := telling (canonicalJson "1" "run" order)

def sent : Dict String Json := attachIntegrity hash (some []) "1" "run" order

end Sample

theorem integrity_order :
    (∃ rest, verifyAndStripIntegrity Sample.hash (some []) "1" "run" Sample.sent = (rest,true) ∧
      SameJson rest Sample.order) ∧
    ("1" = "1" ∧ "run" = "run" ∧ SameJson Sample.order Sample.order) := by
  have hsent : verifyAndStripIntegrity Sample.hash (some []) "1" "run" Sample.sent =
      (Sample.order,true) := by
    have hsame : SameJson Sample.sent Sample.sent := rfl
    have hverified := (verify_attached rfl rfl hsame).1
    exact hverified.trans (by rw [Sample.sent,clean_attach rfl rfl])
  exact ⟨(integrity_exact Sample.hash []).1 "1" "run" Sample.order Sample.sent rfl rfl rfl,
    (integrity_exact Sample.hash []).2 "1" "run" "1" "run" Sample.order Sample.sent Sample.order
      (fun _ => rfl) rfl hsent⟩

end AgentCentric.Security

import AgentCentric.Boot.Threshold

namespace AgentCentric.Boot

/-- `threshold` of the keys have to sign. -/
structure ThresholdPolicy where
  threshold : Nat
  keyIds : List String
  keyed : "" ∉ keyIds
  sorted : keyIds.Pairwise (· < ·)
  positive : 1 ≤ threshold
  reachable : threshold ≤ keyIds.length

namespace ThresholdPolicy

def new (threshold : Int) (keyIds : List String) (schema : String := thresholdSchema) :
    Except Raise ThresholdPolicy := do
  require (schema = thresholdSchema)
    (.signature ("Unsupported threshold schema: " ++ pyRepr schema))
  let ordered := keyIds.insertionSort (· ≤ ·)
  require (ordered ≠ []) (.signature "a threshold policy needs at least one key")
  if hkeyed : "" ∈ ordered then .error (.signature "threshold key ids must be non-empty")
  else if hsorted : ordered.Pairwise (· < ·) then
    if hpositive : threshold < 1 then .error (.signature "threshold must be at least 1")
    else if hreachable : threshold ≤ ordered.length then
      .ok ⟨threshold.toNat,ordered,hkeyed,hsorted,by omega,by omega⟩
    else .error (.signature ("threshold " ++ toString threshold ++ " exceeds the " ++
      toString ordered.length ++ " eligible keys"))
  else .error (.signature "threshold key ids must be unique")

def accepts (policy : ThresholdPolicy) (verified : List String) : Bool :=
  policy.threshold ≤ ((verified.filter (· ∈ policy.keyIds)).dedup).length

end ThresholdPolicy

structure ThresholdVerifier where
  policy : ThresholdPolicy
  verifiers : List (String × SignatureVerifier)
  complete : ∀ key ∈ policy.keyIds, (Dict.lookup verifiers key).isSome = true

namespace ThresholdVerifier

def new (policy : ThresholdPolicy) (verifiers : List (String × SignatureVerifier)) :
    Except Raise ThresholdVerifier :=
  if h : ∀ key ∈ policy.keyIds, (Dict.lookup verifiers key).isSome = true then
    .ok ⟨policy,verifiers,h⟩
  else .error (.signature ("no verifier configured for policy keys: " ++ (Json.list
    ((policy.keyIds.filter fun key => (Dict.lookup verifiers key).isNone).map Json.str)).repr))

def failed (keyId : String) : Raise → Raise
  | .signature m => .signature ("threshold signature part for " ++ pyRepr keyId ++ " failed: " ++ m)
  | e => e

def verifyParts (v : ThresholdVerifier) (payload : Bytes) :
    List SignaturePart → List String → Except Raise (List String)
  | [], verified => .ok verified
  | part :: rest, verified => do
    require (part.keyId ∈ v.policy.keyIds)
      (.signature ("threshold signature carries ineligible key " ++ pyRepr part.keyId))
    let verifier ← expect (Dict.lookup v.verifiers part.keyId) (.keyError part.keyId)
    (verifier payload part.signature).mapError (failed part.keyId)
    verifyParts v payload rest (verified.insert part.keyId)

def verify (v : ThresholdVerifier) (payload signature : Bytes) : Except Raise Unit := do
  let bundle ← ThresholdSignature.fromBinary signature
  let verified ← v.verifyParts payload bundle.parts []
  require (v.policy.accepts verified) (.signature ("threshold not met: " ++
    toString verified.length ++ " of " ++ toString v.policy.threshold ++ " required"))

end ThresholdVerifier

structure Signer where
  keyId : String
  sign : Bytes → Except Raise Bytes

def signThreshold (payload : Bytes) (signers : List Signer) :
    Except Raise ThresholdSignature := do
  require (signers ≠ []) (.signature "threshold signing needs at least one signer")
  let parts ← signers.mapM fun signer => do
    let signature ← signer.sign payload
    SignaturePart.new signer.keyId signature
  ThresholdSignature.new parts

namespace ThresholdVerifier
variable {v : ThresholdVerifier} {payload : Bytes}

structure Valid (v : ThresholdVerifier) (payload : Bytes) (part : SignaturePart) : Prop where
  eligible : part.keyId ∈ v.policy.keyIds
  accepted : ∃ verifier, Dict.lookup v.verifiers part.keyId = some verifier ∧
    verifier payload part.signature = .ok ()

theorem verifyParts_ok {parts : List SignaturePart} {verified after : List String} :
    v.verifyParts payload parts verified = .ok after ↔ (∀ part ∈ parts, Valid v payload part) ∧
      after = (parts.map SignaturePart.keyId).foldl (fun keys key => keys.insert key) verified := by
  induction parts generalizing verified with
  | nil => simp [verifyParts,eq_comm]
  | cons part parts ih =>
    simp only [verifyParts,bind_ok,require_ok,decide_eq_true_eq,expect_ok,mapError_ok,ih,
      List.forall_mem_cons,List.map_cons,List.foldl_cons]
    constructor
    · rintro ⟨_,heligible,verifier,hverifier,_,haccepted,hparts,hafter⟩
      exact ⟨⟨⟨heligible,verifier,hverifier,haccepted⟩,hparts⟩,hafter⟩
    · rintro ⟨⟨⟨heligible,verifier,hverifier,haccepted⟩,hparts⟩,hafter⟩
      exact ⟨(),heligible,verifier,hverifier,(),haccepted,hparts,hafter⟩

theorem foldl_insert_perm {keys verified : List String} (hnodup : keys.Nodup)
    (hdisjoint : ∀ key ∈ keys, key ∉ verified) :
    (keys.foldl (fun keys key => keys.insert key) verified).Perm (keys ++ verified) := by
  induction keys generalizing verified with
  | nil => exact List.Perm.refl _
  | cons key keys ih =>
    obtain ⟨hkey,hkeys⟩ := List.nodup_cons.1 hnodup
    have hnew : verified.insert key = key :: verified :=
      List.insert_of_not_mem (hdisjoint key List.mem_cons_self)
    rw [List.foldl_cons,hnew]
    refine (ih hkeys ?_).trans List.perm_middle
    intro k hk hmem
    rcases List.mem_cons.1 hmem with rfl | hmem
    · exact hkey hk
    · exact hdisjoint k (List.mem_cons_of_mem _ hk) hmem

theorem accepts_iff {policy : ThresholdPolicy} {keys verified : List String}
    (hperm : verified.Perm keys) (hnodup : keys.Nodup)
    (heligible : ∀ key ∈ keys, key ∈ policy.keyIds) :
    policy.accepts verified = true ↔ policy.threshold ≤ keys.length := by
  have hfilter : verified.filter (· ∈ policy.keyIds) = verified := by
    rw [List.filter_eq_self]
    intro key hkey
    exact decide_eq_true (heligible key (hperm.mem_iff.1 hkey))
  rw [ThresholdPolicy.accepts,hfilter,(hperm.nodup_iff.2 hnodup).dedup,hperm.length_eq,
    decide_eq_true_eq]

theorem keyIds_nodup (s : ThresholdSignature) : (s.parts.map SignaturePart.keyId).Nodup :=
  s.sorted.imp fun h => ne_of_lt h

theorem verify_ok {signature : Bytes} : v.verify payload signature = .ok () ↔
    ∃ bundle, ThresholdSignature.fromBinary signature = .ok bundle ∧
      (∀ part ∈ bundle.parts, Valid v payload part) ∧ v.policy.threshold ≤ bundle.parts.length := by
  simp only [verify,bind_ok,require_ok,verifyParts_ok]
  apply exists_congr
  intro bundle
  have hperm : ((bundle.parts.map SignaturePart.keyId).foldl
      (fun keys key => keys.insert key) []).Perm (bundle.parts.map SignaturePart.keyId ++ []) :=
    foldl_insert_perm (keyIds_nodup bundle) (by simp)
  rw [List.append_nil] at hperm
  have hcount : (∀ part ∈ bundle.parts, Valid v payload part) →
      (v.policy.accepts ((bundle.parts.map SignaturePart.keyId).foldl
        (fun keys key => keys.insert key) []) = true ↔
          v.policy.threshold ≤ bundle.parts.length) := by
    intro hvalid
    rw [accepts_iff hperm (keyIds_nodup bundle),List.length_map]
    intro key hkey
    obtain ⟨part,hpart,rfl⟩ := List.mem_map.1 hkey
    exact (hvalid part hpart).eligible
  constructor
  · rintro ⟨hread,_,⟨hvalid,rfl⟩,haccepts⟩
    exact ⟨hread,hvalid,(hcount hvalid).1 haccepts⟩
  · rintro ⟨hread,hvalid,hle⟩
    exact ⟨hread,_,⟨hvalid,rfl⟩,(hcount hvalid).2 hle⟩

end ThresholdVerifier

theorem signThreshold_ok {payload : Bytes} {signers : List Signer} {bundle : ThresholdSignature}
    (h : signThreshold payload signers = .ok bundle) :
    bundle.parts.length = signers.length ∧ ∀ part ∈ bundle.parts, ∃ signer ∈ signers,
      signer.keyId = part.keyId ∧ signer.sign payload = .ok part.signature := by
  simp only [signThreshold,bind_ok] at h
  obtain ⟨_,_,parts,hparts,hnew⟩ := h
  obtain ⟨-,hsorted⟩ := ThresholdSignature.new_ok.1 hnew
  have hperm : bundle.parts.Perm parts := hsorted ▸ List.perm_insertionSort _ _
  refine ⟨?_,?_⟩
  · rw [hperm.length_eq]
    exact (forall₂_of_mapM hparts).length_eq.symm
  · intro part hpart
    obtain ⟨signer,hsigner,hsign⟩ := (mem_mapM hparts).1 (hperm.mem_iff.1 hpart)
    obtain ⟨signature,hsignature,hpart'⟩ := bind_ok.1 hsign
    obtain ⟨hkey,hsig⟩ := SignaturePart.new_ok hpart'
    exact ⟨signer,hsigner,hkey.symm,hsig ▸ hsignature⟩

/-- A threshold of keys has signed whatever is accepted, and what enough of them sign is
accepted. -/
theorem threshold_verified (v : ThresholdVerifier) (payload : Bytes) :
    (∀ signature, v.verify payload signature = .ok () →
      ∃ bundle, ThresholdSignature.fromBinary signature = .ok bundle ∧
        (∀ part ∈ bundle.parts, part.keyId ∈ v.policy.keyIds ∧
          ∃ verifier, Dict.lookup v.verifiers part.keyId = some verifier ∧
            verifier payload part.signature = .ok ()) ∧
        ∃ keys : Finset String, v.policy.threshold ≤ keys.card ∧
          ∀ key ∈ keys, key ∈ v.policy.keyIds ∧ ∃ part ∈ bundle.parts, part.keyId = key) ∧
    ∀ (signers : List Signer) (bundle : ThresholdSignature),
      signThreshold payload signers = .ok bundle → v.policy.threshold ≤ signers.length →
      (∀ signer ∈ signers, signer.keyId ∈ v.policy.keyIds ∧
        ∀ signature verifier, signer.sign payload = .ok signature →
          Dict.lookup v.verifiers signer.keyId = some verifier →
          verifier payload signature = .ok ()) →
      v.verify payload bundle.toBytes = .ok () := by
  constructor
  · intro signature h
    obtain ⟨bundle,hread,hvalid,hle⟩ := ThresholdVerifier.verify_ok.1 h
    refine ⟨bundle,hread,fun part hpart => ⟨(hvalid part hpart).eligible,
      (hvalid part hpart).accepted⟩,(bundle.parts.map SignaturePart.keyId).toFinset,?_,?_⟩
    · rw [List.toFinset_card_of_nodup (ThresholdVerifier.keyIds_nodup bundle),List.length_map]
      exact hle
    · intro key hkey
      obtain ⟨part,hpart,rfl⟩ := List.mem_map.1 (List.mem_toFinset.1 hkey)
      exact ⟨(hvalid part hpart).eligible,part,hpart,rfl⟩
  · intro signers bundle hsign hle hsigners
    obtain ⟨hlength,hparts⟩ := signThreshold_ok hsign
    refine ThresholdVerifier.verify_ok.2 ⟨bundle,ThresholdSignature.fromBinary_toBytes bundle,?_,
      by omega⟩
    intro part hpart
    obtain ⟨signer,hsigner,hkey,hsignature⟩ := hparts part hpart
    obtain ⟨heligible,haccepts⟩ := hsigners signer hsigner
    rw [hkey] at heligible haccepts
    obtain ⟨verifier,hverifier⟩ := Option.isSome_iff_exists.1 (v.complete _ heligible)
    exact ⟨heligible,verifier,hverifier,haccepts _ _ hsignature hverifier⟩

end AgentCentric.Boot

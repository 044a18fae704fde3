import AgentCentric.Boot.Work

namespace AgentCentric.Boot
open ComponentManifest
variable {sha256 : List Char → HexDigest} {numerals : Numerals}

theorem SourceRef.fromDict_toDict (source : SourceRef) : fromDict source.toDict = .ok source := by
  obtain ⟨repoUrl,commit,digest,kind,hgiven,hpinned,hhashed⟩ := source
  have hkind : WorkSourceKind.ofName kind.name = .ok kind := by cases kind <;> decide
  have hread : fromDict (toDict ⟨repoUrl,commit,digest,kind,hgiven,hpinned,hhashed⟩) =
      new repoUrl commit digest kind.name := rfl
  rw [hread,new,dif_neg hgiven,dif_pos hpinned,dif_pos hhashed,hkind]
  rfl

theorem GeneratorRef.fromDict_toDict (generator : GeneratorRef) :
    fromDict generator.toDict = .ok generator := by
  obtain ⟨ref,digest,prompt,seed,model,hgiven,hhashed,hasked⟩ := generator
  have hread : fromDict (toDict ⟨ref,digest,prompt,seed,model,hgiven,hhashed,hasked⟩) =
      new ref digest prompt (.int seed) model := rfl
  rw [hread,new,dif_neg hgiven,dif_pos hhashed,dif_neg hasked]

theorem map_text_str (xs : List String) : (xs.map Json.str).map Json.text = xs := by
  rw [List.map_map]
  exact List.map_id xs

theorem BuildRecipe.fromDict_toDict (build : BuildRecipe) : fromDict build.toDict = .ok build := by
  obtain ⟨language,runtime,toolchain,hgiven,hstated,honce⟩ := build
  have hread : fromDict (toDict ⟨language,runtime,toolchain,hgiven,hstated,honce⟩) =
      new language runtime.name ((toolchain.map Json.str).map Json.text) := rfl
  rw [hread,map_text_str,new,dif_neg hgiven]
  cases runtime with
  | python =>
    change (if hstated : "" ∉ toolchain then _ else _) = _
    rw [dif_pos hstated,dif_pos honce]
  | process =>
    change (if hstated : "" ∉ toolchain then _ else _) = _
    rw [dif_pos hstated,dif_pos honce]

theorem VerifierSpec.fromDict_toDict (verifier : VerifierSpec) :
    fromDict verifier.toDict = .ok verifier := by
  obtain ⟨ref,digest,conformance,hgiven,hhashed⟩ := verifier
  have hread : fromDict (toDict ⟨ref,digest,conformance,hgiven,hhashed⟩) =
      new ref digest (Json.bool conformance).truthy := rfl
  rw [hread,new,dif_neg hgiven,dif_pos hhashed]
  cases conformance <;> rfl

theorem capabilityOf_grantDict (grant : Capability) :
    capabilityOf (WorkRecipe.grantDict grant) = .ok grant := by
  obtain ⟨name,version,hnamed,hversioned⟩ := grant
  have hread : capabilityOf (WorkRecipe.grantDict ⟨name,version,hnamed,hversioned⟩) =
      Capability.new name version := rfl
  rw [hread,Capability.new,dif_neg hnamed,dif_neg hversioned]

theorem capabilities_read (grants : List Capability) :
    (grants.map WorkRecipe.grantDict).mapM capabilityOf = .ok grants :=
  mapM_written capabilityOf_grantDict grants

theorem metadataOf_entries (metadata : Dict String Json) :
    WorkRecipe.metadataOf (.dict metadata.entries) = .ok metadata := by
  rw [WorkRecipe.metadataOf]
  split
  · rw [Dict.update_empty]
  · rename_i hempty
    have hnil : metadata.entries = [] := by simpa [Json.truthy] using hempty
    exact congrArg Except.ok (Dict.ext hnil.symm)

theorem optional_written {α : Type} {read : Json → Except Raise α} {toDict : α → Json}
    (hread : ∀ a, read (toDict a) = .ok a) (htruthy : ∀ a, (toDict a).truthy = true)
    (part : Option α) : optional read (WorkRecipe.optionDict toDict part) = .ok part := by
  cases part with
  | none => rfl
  | some a =>
    rw [WorkRecipe.optionDict,Option.map_some,Option.getD_some,ComponentManifest.optional,
      if_pos (htruthy a),hread]
    rfl

theorem WorkEnvelope.new_self (envelope : WorkEnvelope) :
    new envelope.timeoutSeconds envelope.maxSteps envelope.maxStepSeconds = .ok envelope := by
  rw [new,dif_pos envelope.timed,dif_pos envelope.stepped,dif_pos envelope.started,
    dif_pos envelope.within]

theorem WorkEnvelope.fromDict_toDict {envelope : WorkEnvelope}
    (htimeout : envelope.timeoutSeconds.isFloat = true)
    (hstep : envelope.maxStepSeconds.isFloat = true) :
    fromDict numerals envelope.toDict = .ok envelope := by
  have hnew := envelope.new_self
  obtain ⟨timeout,steps,stepSeconds,htimed,hstepped,hstarted,hwithin⟩ := envelope
  cases timeout with
  | float x =>
    cases stepSeconds with
    | float y =>
      have hread : fromDict numerals
          (toDict ⟨.float x,steps,.float y,htimed,hstepped,hstarted,hwithin⟩) = (do
            let timeoutSeconds ← (numerals.floatOf x.json).mapError Raise.ofNumber
            let maxStepSeconds ← (numerals.floatOf y.json).mapError Raise.ofNumber
            new (.float timeoutSeconds) steps (.float maxStepSeconds)) := rfl
      rw [hread,Numerals.floatOf_json,Numerals.floatOf_json]
      exact hnew
    | int n => cases hstep
    | bool b => cases hstep
  | int n => cases htimeout
  | bool b => cases htimeout

theorem WorkEnvelope.floats_of_fromDict {data : Json} {envelope : WorkEnvelope}
    (h : fromDict numerals data = .ok envelope) :
    envelope.timeoutSeconds.isFloat = true ∧ envelope.maxStepSeconds.isFloat = true := by
  obtain ⟨_,_,h⟩ := bind_ok.mp h
  obtain ⟨x,_,h⟩ := bind_ok.mp h
  obtain ⟨_,_,h⟩ := bind_ok.mp h
  obtain ⟨n,_,h⟩ := bind_ok.mp h
  obtain ⟨_,_,h⟩ := bind_ok.mp h
  obtain ⟨y,_,h⟩ := bind_ok.mp h
  rw [new] at h
  split at h
  · split at h
    · split at h
      · split at h
        · obtain rfl := Except.ok.inj h
          exact ⟨rfl,rfl⟩
        · cases h
      · cases h
    · cases h
  · cases h

theorem Number.canonical_json (a : Number) : a.json.canonical = a.json := by
  rcases a with n | b | (d | _ | _ | _) <;> rfl

theorem Number.isFloat_of_json {a b : Number} (h : a.json = b.json) (hb : b.isFloat = true) :
    a.isFloat = true := by
  cases a with
  | float x => rfl
  | int n => cases b with
    | float y => cases y <;> cases h
    | int m => cases hb
    | bool m => cases hb
  | bool n => cases b with
    | float y => cases y <;> cases h
    | int m => cases hb
    | bool m => cases hb

theorem WorkEnvelope.floats_of_canonical {a b : WorkEnvelope}
    (h : a.toDict.canonical = b.toDict.canonical) (htimeout : b.timeoutSeconds.isFloat = true)
    (hstep : b.maxStepSeconds.isFloat = true) :
    a.timeoutSeconds.isFloat = true ∧ a.maxStepSeconds.isFloat = true := by
  rw [toDict,toDict] at h
  have hfields := (Json.canonical_dict_inj (by simp) (by simp)).mp h
  simp only [List.map_cons,List.map_nil,List.cons.injEq,Prod.mk.injEq,true_and,and_true,
    Number.canonical_json] at hfields
  exact ⟨Number.isFloat_of_json hfields.1 htimeout,Number.isFloat_of_json hfields.2.2 hstep⟩

theorem WorkRecipe.fromDict_toDict (recipe : WorkRecipe) : fromDict numerals recipe.toDict =
      (WorkEnvelope.fromDict numerals recipe.envelope.toDict).map fun envelope =>
        { recipe with envelope := envelope } := by
  have hsource := optional_written SourceRef.fromDict_toDict (fun _ => rfl) recipe.source
  have hgenerator :=
    optional_written GeneratorRef.fromDict_toDict (fun _ => rfl) recipe.generator
  have hsorted : recipe.grants.insertionSort byName = recipe.grants :=
    List.Pairwise.insertionSort_eq recipe.sorted
  have hgrants := capabilities_read (recipe.grants.insertionSort byName)
  have hread : fromDict numerals recipe.toDict = (do
      let metadata ← metadataOf (.dict recipe.metadata.entries)
      let build ← BuildRecipe.fromDict recipe.build.toDict
      let verifier ← VerifierSpec.fromDict recipe.verifier.toDict
      let envelope ← WorkEnvelope.fromDict numerals recipe.envelope.toDict
      let source ← optional SourceRef.fromDict (optionDict SourceRef.toDict recipe.source)
      let generator ←
        optional GeneratorRef.fromDict (optionDict GeneratorRef.toDict recipe.generator)
      let grants ← ((recipe.grants.insertionSort byName).map grantDict).mapM capabilityOf
      new recipe.id build verifier envelope source generator grants metadata workSchema) := rfl
  rw [hread,metadataOf_entries,BuildRecipe.fromDict_toDict,VerifierSpec.fromDict_toDict,hsource,
    hgenerator,hgrants,hsorted]
  cases WorkEnvelope.fromDict numerals recipe.envelope.toDict with
  | error e => rfl
  | ok envelope =>
    change new recipe.id recipe.build recipe.verifier envelope recipe.source recipe.generator
      recipe.grants recipe.metadata workSchema = .ok { recipe with envelope := envelope }
    rw [new,dif_neg recipe.named,dif_pos recipe.single,dif_pos recipe.granted]
    simp only [hsorted]
    rfl

theorem EntryDescriptor.new_name (runtime : RuntimeKind) {entrypoint : String}
    (h : entrypoint ≠ "") : new runtime.name entrypoint = .ok ⟨runtime,entrypoint,h⟩ := by
  cases runtime with
  | python =>
    change (if _ : entrypoint = "" then _ else _) = _
    rw [dif_neg h]
  | process =>
    change (if _ : entrypoint = "" then _ else _) = _
    rw [dif_neg h]

theorem compileWork_returns (sha256 : List Char → HexDigest) (recipe : WorkRecipe) :
    ∃ compilation, compileWork sha256 recipe = .ok compilation := by
  have hpoint : "work:" ++ recipe.id ≠ "" := fun h => by
    have hlength := congrArg String.length h
    rw [String.length_append] at hlength
    have hwork : "work:".length = 5 := by decide
    have hempty : "".length = 0 := by decide
    omega
  have hprovenance : ∃ provenance, sourceProvenance recipe = .ok provenance := by
    rw [sourceProvenance]
    cases recipe.source with
    | none => exact ⟨none,rfl⟩
    | some source =>
      simp only [Provenance.new,dif_neg source.given,dif_pos source.pinned,dif_pos source.hashed]
      exact ⟨_,rfl⟩
  obtain ⟨provenance,hprovenance⟩ := hprovenance
  have hcomponent : ∃ component, ComponentManifest.new "component.v1" recipe.id "atomic"
      ⟨recipe.build.runtime,_,hpoint⟩ ["component.v1"] none [] "" recipe.grants provenance
      Dict.empty = .ok component := by
    rw [ComponentManifest.new,dif_neg recipe.named]
    exact ⟨_,rfl⟩
  obtain ⟨component,hcomponent⟩ := hcomponent
  have hhash : isSha256 (recipe.recipeHash sha256).text = true := by
    simp [isSha256,(recipe.recipeHash sha256).hex]
  rw [compileWork,EntryDescriptor.new_name _ hpoint,hprovenance]
  change ∃ compilation, (ComponentManifest.new _ _ _ _ _ _ _ _ _ _ _ >>= fun component =>
    WorkCompilation.new _ component _) = .ok compilation
  rw [hcomponent]
  exact ⟨_,dif_pos hhash⟩

def WorkRecipe.Survives (sha256 : List Char → HexDigest) (numerals : Numerals)
    (recipe : WorkRecipe) : Prop :=
  ∃ read, fromDict numerals recipe.toDict = .ok read ∧
    read.recipeHash sha256 = recipe.recipeHash sha256 ∧
    ∃ first second, compileWork sha256 recipe = .ok first ∧ compileWork sha256 read = .ok second ∧
      second.artifactHash sha256 = first.artifactHash sha256

/-- No other document that is read back has the address of this one. -/
def WorkRecipe.Told (sha256 : List Char → HexDigest) (numerals : Numerals)
    (recipe : WorkRecipe) : Prop :=
  ∀ read, fromDict numerals recipe.toDict = .ok read →
    read.recipeHash sha256 = recipe.recipeHash sha256 → read.toDict.bytes = recipe.toDict.bytes

theorem WorkRecipe.floats_of_survives {recipe : WorkRecipe} (htold : recipe.Told sha256 numerals)
    (h : recipe.Survives sha256 numerals) : recipe.envelope.timeoutSeconds.isFloat = true ∧
      recipe.envelope.maxStepSeconds.isFloat = true := by
  obtain ⟨read,hread,hhash,-⟩ := h
  have hcanonical := Json.bytes_inj.mp (htold read hread hhash)
  rw [fromDict_toDict] at hread
  cases henvelope : WorkEnvelope.fromDict numerals recipe.envelope.toDict with
  | error e => rw [henvelope] at hread; cases hread
  | ok envelope =>
    rw [henvelope] at hread
    obtain rfl := Except.ok.inj hread
    have hfloats := WorkEnvelope.floats_of_fromDict henvelope
    rw [toDict,toDict] at hcanonical
    have hfields := (Json.canonical_dict_inj (by simp) (by simp)).mp hcanonical
    simp only [List.map_cons,List.map_nil,List.cons.injEq,Prod.mk.injEq,true_and,and_true]
      at hfields
    exact WorkEnvelope.floats_of_canonical hfields.symm hfloats.1 hfloats.2

theorem WorkRecipe.fromDict_of_floats {recipe : WorkRecipe}
    (htimeout : recipe.envelope.timeoutSeconds.isFloat = true)
    (hstep : recipe.envelope.maxStepSeconds.isFloat = true) :
    fromDict numerals recipe.toDict = .ok recipe := by
  rw [fromDict_toDict,WorkEnvelope.fromDict_toDict htimeout hstep]
  rfl

/-- The content address survives just where both bounds of time were given as floats. -/
theorem WorkRecipe.survives_iff {recipe : WorkRecipe} (htold : recipe.Told sha256 numerals) :
    recipe.Survives sha256 numerals ↔ recipe.envelope.timeoutSeconds.isFloat = true ∧
      recipe.envelope.maxStepSeconds.isFloat = true := by
  constructor
  · exact floats_of_survives htold
  · rintro ⟨htimeout,hstep⟩
    obtain ⟨compilation,hcompile⟩ := compileWork_returns sha256 recipe
    exact ⟨recipe,fromDict_of_floats htimeout hstep,rfl,compilation,compilation,hcompile,hcompile,
      rfl⟩

namespace Sample

def tenths (text : List Char) (h : text.all numberChar = true)
    (h' : text.any fractionChar = true) : Number := .float (.decimal ⟨text,h,h'⟩)

/-- An obtained directory, with ten steps and the time that is given. -/
def timed (timeout : Number) (h : timeout.le (.int 0) = false) : WorkRecipe where
  id := "demo"
  build := ⟨"python",.python,[],by decide,by decide,by decide⟩
  verifier := ⟨"check",String.ofList (List.replicate 64 'c'),false,by decide,by decide +kernel⟩
  envelope := ⟨timeout,10,.float (.decimal zeroSeconds),h,by decide,by decide +kernel,
    fun htrue => absurd htrue (by decide +kernel)⟩
  source := some ⟨"repo",String.ofList (List.replicate 40 'a'),
    String.ofList (List.replicate 64 'b'),.directory,by decide,by decide +kernel,
    by decide +kernel⟩
  generator := none
  grants := []
  metadata := Dict.empty
  named := by decide
  single := by decide
  granted := by decide
  sorted := by decide

def thirty : WorkRecipe := timed (.int 30) (by decide +kernel)

def thirtyFloat : WorkRecipe :=
  timed (tenths ['3','0','.','0'] (by decide) (by decide)) (by decide +kernel)

/-- `float` of thirty, which is the one that is needed, and of no text. -/
def someNumerals : Numerals where
  floatOfInt n := if n = 30 then some ⟨['3','0','.','0'],by decide,by decide⟩ else none
  floatOfText _ := none
  intOfText _ := none

def telling (recipe : WorkRecipe) (text : List Char) : HexDigest :=
  if text = recipe.toDict.bytes then .zeros else .ones

theorem told (recipe : WorkRecipe) : recipe.Told (telling recipe) someNumerals := by
  intro read _ hhash
  by_contra hbytes
  simp only [WorkRecipe.recipeHash,telling,if_true,if_neg hbytes] at hhash
  have hdigits : String.ofList (List.replicate 64 '1') ≠ String.ofList (List.replicate 64 '0') :=
    by decide +kernel
  exact hdigits (congrArg HexDigest.text hhash)

end Sample

theorem survives_thirtyFloat :
    Sample.thirtyFloat.Survives (Sample.telling Sample.thirtyFloat) Sample.someNumerals :=
  (WorkRecipe.survives_iff (Sample.told Sample.thirtyFloat)).mpr ⟨rfl,rfl⟩

/-- Thirty seconds that are given as an integer are read as a float, with another address. -/
theorem thirty_lost : ¬∀ (sha256 : List Char → HexDigest) (numerals : Numerals)
    (recipe : WorkRecipe), recipe.Told sha256 numerals → recipe.Survives sha256 numerals := by
  intro h
  have hfloats := WorkRecipe.floats_of_survives (Sample.told Sample.thirty)
    (h (Sample.telling Sample.thirty) Sample.someNumerals Sample.thirty (Sample.told Sample.thirty))
  cases hfloats.1

end AgentCentric.Boot

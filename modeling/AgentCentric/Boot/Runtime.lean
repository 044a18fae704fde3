import AgentCentric.Boot.Component

namespace AgentCentric.Boot

structure ContentAddressedCache where
  files : Dict String Bytes

namespace ContentAddressedCache
variable (codec : Codec)

def get (cache : ContentAddressedCache) (digest : String) : Except Raise (Option Bytes) := do
  require (isSha256 digest) (.cache ("Not a sha256 digest: " ++ pyRepr digest))
  match cache.files.get digest with
  | none => pure none
  | some data => do
      require (codec.bundleSha256 data = digest) (.cache ("Cache corruption: " ++ digest))
      pure (some data)

def put (cache : ContentAddressedCache) (data : Bytes) : ContentAddressedCache :=
  let digest := codec.bundleSha256 data
  if (cache.files.get digest).any fun old => codec.bundleSha256 old = digest then cache
  else ⟨cache.files.set digest data⟩

variable {codec} {cache : ContentAddressedCache} {digest : String} {data : Bytes}

theorem get_some (h : cache.get codec digest = .ok (some data)) :
    cache.files.get digest = some data ∧ codec.bundleSha256 data = digest := by
  unfold get at h
  obtain ⟨_,_,h⟩ := bind_ok.mp h
  split at h
  · cases h
  · rename_i found hfound
    obtain ⟨_,hhash,h⟩ := bind_ok.mp h
    cases h
    exact ⟨hfound,by simpa using hhash⟩

/-- After `put` the file of the digest is sound: it has the bytes, or others of the same hash that
were there before. -/
theorem put_get (codec : Codec) (cache : ContentAddressedCache) (data : Bytes) :
    ∃ found, (cache.put codec data).files.get (codec.bundleSha256 data) = some found ∧
      codec.bundleSha256 found = codec.bundleSha256 data ∧
      (found = data ∨ cache.files.get (codec.bundleSha256 data) = some found) := by
  unfold put
  simp only
  split
  · rename_i hany
    obtain ⟨old,hold,hhash⟩ := Option.any_eq_true _ _ |>.mp hany
    exact ⟨old,hold,by simpa using hhash,.inr hold⟩
  · exact ⟨data,Dict.get_set_self _ _ _,rfl,.inl rfl⟩

theorem put_get_ne (cache : ContentAddressedCache) (data : Bytes)
    (h : codec.bundleSha256 data ≠ digest) :
    (cache.put codec data).files.get digest = cache.files.get digest := by
  unfold put
  simp only
  split
  · rfl
  · exact Dict.get_set_ne _ _ h

theorem isSha256_bundle (codec : Codec) (data : Bytes) :
    isSha256 (codec.bundleSha256 data) = true := by
  simp [isSha256,Codec.bundleSha256,(codec.sha256 data).hex]

theorem get_of_file (hfile : cache.files.get digest = some data)
    (hhash : codec.bundleSha256 data = digest) : cache.get codec digest = .ok (some data) := by
  have hdigest : isSha256 digest = true := hhash ▸ isSha256_bundle codec data
  simp [get,hdigest,hfile,hhash,require,bind,Except.bind,pure,Except.pure]

end ContentAddressedCache

/-- Raises unless the signature over the payload is valid. -/
abbrev SignatureVerifier := Bytes → Bytes → Except Raise Unit

/-- What following an entrypoint through the installed modules comes to. -/
inductive Found where
  | absent
  | object (callable : Bool)

/-- A callable of the harness, or the entry of a bundle in a process of its own. -/
inductive Entry where
  | installed (entrypoint : String)
  | isolated (bundle : Bytes) (entry : EntryDescriptor)
  deriving DecidableEq

/-- The installed code, and the entrypoints of it that may run. -/
structure Harness where
  allowed : List String
  find : String → String → Except Raise Found

namespace Harness
variable (harness : Harness)

/-- `entrypoint.partition(":")`, when all three parts are there. -/
def partition (entrypoint : String) : Option (String × String) :=
  let (name,rest) := entrypoint.toList.span fun c => c ≠ ':'
  match rest with
  | [] => none
  | _ :: qualname =>
    if name = [] ∨ qualname = [] then none
    else some (String.ofList name,String.ofList qualname)

def resolve (entry : EntryDescriptor) : Except Raise Entry := do
  require (entry.runtime = .python)
    (.entryNotAllowed ("runtime " ++ pyRepr entry.runtime.name ++ " is not allowed (Phase 1a)"))
  require (entry.entrypoint ∈ harness.allowed)
    (.entryNotAllowed ("entrypoint " ++ pyRepr entry.entrypoint ++ " is not allowlisted"))
  let (name,qualname) ← expect (partition entry.entrypoint)
    (.entryNotAllowed ("malformed entrypoint " ++ pyRepr entry.entrypoint))
  let found ← harness.find name qualname
  match found with
  | .absent => .error (.entryNotAllowed ("cannot resolve " ++ pyRepr entry.entrypoint))
  | .object callable => do
      require callable (.entryNotAllowed (pyRepr entry.entrypoint ++ " is not callable"))
      pure (.installed entry.entrypoint)

theorem resolve_ok {entry : EntryDescriptor} {e : Entry} (h : harness.resolve entry = .ok e) :
    e = .installed entry.entrypoint ∧ entry.entrypoint ∈ harness.allowed := by
  unfold resolve at h
  obtain ⟨_,_,h⟩ := bind_ok.mp h
  obtain ⟨_,hallowed,h⟩ := bind_ok.mp h
  obtain ⟨_,_,h⟩ := bind_ok.mp h
  obtain ⟨found,_,h⟩ := bind_ok.mp h
  cases found with
  | absent => cases h
  | object callable =>
    obtain ⟨_,_,h⟩ := bind_ok.mp h
    cases h
    exact ⟨rfl,by simpa using hallowed⟩

def entryOf (allowSubprocess : Bool) (refusal : String → Raise) (bundle : Except Raise Bytes)
    (entry : EntryDescriptor) : Except Raise Entry :=
  match harness.resolve entry with
  | .ok e => .ok e
  | .error (.entryNotAllowed m) =>
    if allowSubprocess then do
      let bundle ← bundle
      pure (.isolated bundle entry)
    else .error (refusal m)
  | .error e => .error e

inductive Runs (entry : EntryDescriptor) (bundle : Bytes) : Entry → Prop where
  | installed : entry.entrypoint ∈ harness.allowed → Runs entry bundle (.installed entry.entrypoint)
  | isolated : Runs entry bundle (.isolated bundle entry)

theorem entryOf_ok {allowSubprocess : Bool} {refusal : String → Raise}
    {bundle : Except Raise Bytes} {entry : EntryDescriptor} {e : Entry}
    (h : harness.entryOf allowSubprocess refusal bundle entry = .ok e) :
    (e = .installed entry.entrypoint ∧ entry.entrypoint ∈ harness.allowed) ∨
      ∃ b, bundle = .ok b ∧ allowSubprocess = true ∧ e = .isolated b entry := by
  unfold entryOf at h
  split at h
  · rename_i hresolve
    cases h
    exact .inl (harness.resolve_ok hresolve)
  · split at h
    · rename_i hallow
      obtain ⟨b,hb,h⟩ := bind_ok.mp h
      cases h
      exact .inr ⟨b,hb,hallow,rfl⟩
    · cases h
  · cases h

end Harness

inductive Channel where
  | control | data
  deriving DecidableEq

/-- A dynamically loaded task, content-addressed before it may bind or run. -/
structure TaskLoad where
  task : String
  contentHash : String
  channel : Channel
  signature : String
  named : task ≠ ""
  hash : isSha256 contentHash = true

structure WorkTaskSpec where
  load : TaskLoad
  expectedHash : String

structure TaskAnnouncement where
  task : String
  contentHash : String
  signature : String

structure BoundTask where
  task : String
  contentHash : String
  announcement : TaskAnnouncement
  entry : Entry

structure Registration where
  name : String
  entry : Entry
  sourceUrl : String

/-- A driver, by the registrations that it has taken, the last one at the end. -/
structure Driver where
  registrations : List Registration

namespace Driver

def register (driver : Driver) (name : String) (entry : Entry) (sourceUrl : String) : Driver :=
  ⟨driver.registrations ++ [⟨name,entry,sourceUrl⟩]⟩

def resolve (driver : Driver) (name : String) : Option Entry :=
  (driver.registrations.reverse.find? fun r => r.name = name).map Registration.entry

end Driver

def admitTaskLoad (load : TaskLoad) (declaredTasks : List String) (expectedHash : String) :
    Except Raise TaskAnnouncement := do
  require (load.task ∈ declaredTasks) (.valueError ("task " ++ pyRepr load.task ++
    " was not announced/declared; refusing before any bind."))
  require (isSha256 expectedHash ∧ load.contentHash = expectedHash) (.valueError ("task " ++
    pyRepr load.task ++ " is not pinned to the verified content hash; refusing before any bind."))
  require (load.channel = .control) (.valueError
    "tasks are announced only over the initial hard-coded control channel: 'data'")
  pure ⟨load.task,load.contentHash,load.signature⟩

structure Bench where
  codec : Codec
  harness : Harness
  artifacts : ContentAddressedCache
  verifier : Option SignatureVerifier
  allowSubprocess : Bool
  declaredTasks : List String

namespace Bench
variable (bench : Bench)

def invalidManifest (task : String) : Raise → Raise
  | .valueError m => .work ("task " ++ pyRepr task ++ " bundle manifest is invalid: " ++ m)
  | .bundle m => .work ("task " ++ pyRepr task ++ " bundle manifest is invalid: " ++ m)
  | e => e

def bundleEntry (task : String) (bundle : Bytes) : Except Raise Entry := do
  let manifest ← (bench.codec.loadManifest bundle).mapError (invalidManifest task)
  require (manifest.name = task) (.work ("task " ++ pyRepr task ++
    " does not match the bundle component " ++ pyRepr manifest.name ++ " (fail-closed)."))
  bench.harness.entryOf bench.allowSubprocess
    (fun m => .work ("task " ++ pyRepr task ++ " entry is not executable: " ++ m)) (.ok bundle)
    manifest.entry

def checkSignature (load : TaskLoad) (artifact : Bytes) : Except Raise Unit :=
  match bench.verifier with
  | none => .ok ()
  | some verify => do
      require (load.signature ≠ "") (.work
        ("a verifier is configured but the task load carries no signature; refusing before bind."))
      verify artifact (encode load.signature)

/-- What `WorkBinder.bind` does before it registers. -/
def verifyLoad (spec : WorkTaskSpec) : Except Raise BoundTask := do
  let load := spec.load
  let announcement ← (admitTaskLoad load bench.declaredTasks spec.expectedHash).mapError
    fun e => .work e.text
  let cached ← bench.artifacts.get bench.codec load.contentHash
  let artifact ← expect cached (.work ("task " ++ pyRepr load.task ++
    " artifact is not content-addressed; refusing before bind."))
  bench.checkSignature load artifact
  let entry ← bench.bundleEntry load.task artifact
  pure ⟨load.task,load.contentHash,announcement,entry⟩

def register (driver : Driver) (bound : BoundTask) : Driver :=
  driver.register bound.task bound.entry ("work://" ++ bound.contentHash)

/-- The loop of `bind_work_tasks`: each load is registered before the next one is looked at. -/
def bindAll : Driver → Dict String BoundTask → List WorkTaskSpec →
    Driver × Except Raise (Dict String BoundTask)
  | driver, bound, [] => (driver,.ok bound)
  | driver, bound, spec :: specs =>
    match bench.verifyLoad spec with
    | .error e => (driver,.error e)
    | .ok t => bindAll (register driver t) (bound.set t.task t) specs

def bindWorkTasks (driver : Driver) (specs : List WorkTaskSpec) :
    Driver × Except Raise (Dict String BoundTask) :=
  if bench.declaredTasks.Nodup then bench.bindAll driver .empty specs
  else (driver,.error (.work "declared tasks must be unique."))

structure Verified (spec : WorkTaskSpec) (bound : BoundTask) (artifact : Bytes)
    (manifest : ComponentManifest) : Prop where
  task : bound.task = spec.load.task
  declared : spec.load.task ∈ bench.declaredTasks
  cached : bench.artifacts.files.get spec.expectedHash = some artifact
  hash : bench.codec.bundleSha256 artifact = spec.expectedHash
  accepted : ∀ verify ∈ bench.verifier,
    spec.load.signature ≠ "" ∧ verify artifact (encode spec.load.signature) = .ok ()
  loads : bench.codec.loadManifest artifact = .ok manifest
  named : manifest.name = spec.load.task
  runs : bench.harness.Runs manifest.entry artifact bound.entry

variable {bench} {spec : WorkTaskSpec} {bound : BoundTask}

theorem bundleEntry_ok {task : String} {bundle : Bytes} {entry : Entry}
    (h : bench.bundleEntry task bundle = .ok entry) :
    ∃ manifest, bench.codec.loadManifest bundle = .ok manifest ∧ manifest.name = task ∧
      bench.harness.Runs manifest.entry bundle entry := by
  unfold bundleEntry at h
  obtain ⟨manifest,hmanifest,h⟩ := bind_ok.mp h
  obtain ⟨_,hname,h⟩ := bind_ok.mp h
  refine ⟨manifest,mapError_ok.mp hmanifest,by simpa using hname,?_⟩
  rcases bench.harness.entryOf_ok h with ⟨rfl,hallowed⟩ | ⟨b,hb,_,rfl⟩
  · exact .installed hallowed
  · cases hb
    exact .isolated

theorem admitTaskLoad_ok {load : TaskLoad} {declared : List String} {expected : String}
    {a : TaskAnnouncement} (h : admitTaskLoad load declared expected = .ok a) :
    load.task ∈ declared ∧ load.contentHash = expected := by
  unfold admitTaskLoad at h
  obtain ⟨_,hdeclared,h⟩ := bind_ok.mp h
  obtain ⟨_,hpinned,_⟩ := bind_ok.mp h
  simp only [require_ok,decide_eq_true_eq] at hdeclared hpinned
  exact ⟨hdeclared,hpinned.2⟩

theorem checkSignature_ok {load : TaskLoad} {artifact : Bytes} {u : Unit}
    (h : bench.checkSignature load artifact = .ok u) :
    ∀ verify ∈ bench.verifier, load.signature ≠ "" ∧
      verify artifact (encode load.signature) = .ok () := by
  intro verify hverify
  rw [Option.mem_def] at hverify
  unfold checkSignature at h
  rw [hverify] at h
  obtain ⟨_,hsigned,h⟩ := bind_ok.mp h
  exact ⟨by simpa using hsigned,h⟩

theorem verifyLoad_verified (h : bench.verifyLoad spec = .ok bound) :
    ∃ artifact manifest, bench.Verified spec bound artifact manifest := by
  simp only [verifyLoad] at h
  obtain ⟨a,hann,h⟩ := bind_ok.mp h
  obtain ⟨cached,hcached,h⟩ := bind_ok.mp h
  obtain ⟨artifact,hartifact,h⟩ := bind_ok.mp h
  obtain ⟨_,hsigned,h⟩ := bind_ok.mp h
  obtain ⟨entry,hentry,h⟩ := bind_ok.mp h
  cases h
  obtain ⟨hdeclared,hpinned⟩ := admitTaskLoad_ok (mapError_ok.mp hann)
  rw [expect_ok.mp hartifact,hpinned] at hcached
  obtain ⟨hfile,hhash⟩ := ContentAddressedCache.get_some hcached
  obtain ⟨manifest,hloads,hname,hruns⟩ := bundleEntry_ok hentry
  exact ⟨artifact,manifest,rfl,hdeclared,hfile,hhash,checkSignature_ok hsigned,hloads,hname,
    hruns⟩

end Bench
end AgentCentric.Boot

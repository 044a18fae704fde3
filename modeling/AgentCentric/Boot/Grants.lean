import AgentCentric.Boot.Design
import AgentCentric.Boot.Runtime

namespace AgentCentric.Boot

/-- The signed content of the lock has the grant: the entry of the component it bounds carries
the same bounds. -/
def ComponentsLock.Carries (lock : ComponentsLock) (grant : EnvelopeGrant) : Prop :=
  ∃ e ∈ lock.entries, e.name = grant.component ∧
    Dict.lookup e.fields "envelope" = some (.dict grant.bounds.entries)

section
variable {shop : Workshop} {design : Design} {sources : Dict String PinSource} {root : String}
  {contracts : List String} {lock : ComponentsLock}

theorem PinnedLock.envelope_of_grant (h : PinnedLock shop design sources root contracts lock)
    {grant : EnvelopeGrant} (hgrant : grant ∈ design.envelopes) {e : LockEntry}
    (he : e ∈ lock.entries) (hname : e.name = grant.component) : e.envelope = grant.bounds := by
  obtain ⟨_,_,_,_,hpinned⟩ := h.pinned he
  rw [hpinned.envelope,hname,envelopesByComponent_get hgrant]
  rfl

theorem PinnedLock.carries_iff (h : PinnedLock shop design sources root contracts lock)
    {grant : EnvelopeGrant} (hgrant : grant ∈ design.envelopes) :
    lock.Carries grant ↔ ∃ c ∈ design.components, c.name = grant.component := by
  rw [← h.mem_names]
  constructor
  · rintro ⟨e,he,hname,_⟩
    exact ⟨e,he,hname⟩
  · rintro ⟨e,he,hname⟩
    have henvelope := h.envelope_of_grant hgrant he hname
    obtain ⟨report,hvalid,hok⟩ := h.valid
    obtain ⟨_,_,hgrants⟩ := validateDesign_grants hvalid hok
    have hnonempty : e.envelope.entries ≠ [] := henvelope ▸ (hgrants grant hgrant).2
    exact ⟨e,he,hname,henvelope ▸ LockEntry.lookup_envelope hnonempty⟩

/-- No grant is lost exactly when each is for a component that the design requests. Valid are
the grants for components of the network, whose names need not be among the requested. -/
theorem pinDesign_carries_iff (h : shop.pinDesign design sources root contracts = .ok lock) :
    (∀ grant ∈ design.envelopes, lock.Carries grant) ↔
      ∀ grant ∈ design.envelopes, ∃ c ∈ design.components, c.name = grant.component :=
  forall₂_congr fun _ hgrant => (pinDesign_pinned h).carries_iff hgrant

end

namespace Scene
open Network

def hexOf (n : Nat) : List Char :=
  hexDigit (n / 4096 % 16) :: hexDigit (n / 256 % 16) :: hexDigit (n / 16 % 16) ::
    hexDigit (n % 16) :: List.replicate 60 '0'

def checksum (bytes : Bytes) : HexDigest where
  text := String.ofList (hexOf (bytes.foldl (fun n b => (n * 31 + b.toNat) % 65521) 7))
  hex := by
    have hzeros : (List.replicate 60 '0').all (fun c =>
        (decide ('0' ≤ c) && decide (c ≤ '9')) ||
          (decide ('a' ≤ c) && decide (c ≤ 'f'))) = true := by decide
    simp only [String.toList_ofList,hexOf,isHex64,List.length_cons,List.length_replicate,
      List.all_cons,hexDigit_lower,hzeros]
    rfl

/-- A tar file of one member: the block of its name, then what it contains. -/
def tarOf (name : String) (data : Bytes) : Bytes :=
  encode name ++ List.replicate (512 - (encode name).length) 0 ++ data ++ List.replicate 512 0

def untar (bundle : Bytes) : List Member :=
  [⟨String.ofList ((bundle.takeWhile (· ≠ 0)).map fun b => Char.ofNat b.toNat),true,
    (bundle.drop 512).takeWhile (· ≠ 0)⟩]

def codec : Codec where
  sha256 := checksum
  members := fun bundle => .ok (untar bundle)
  decode := fun data => some (data.map fun b => Char.ofNat b.toNat)

def componentOf (name : String) : Json :=
  .dict [("version",.str "component.v1"),("name",.str name),("kind",.str "atomic"),
    ("entry",.dict [("runtime",.str "python"),("entrypoint",.str "tools:run")]),
    ("implements",.list [.str "component.v1"])]

def bundleOf (name : String) : Bytes := tarOf "component.json" (encode (componentOf name).compact)

def harness : Harness where
  allowed := ["tools:run"]
  find := fun _ _ => .ok (.object true)

def verifier : SignatureVerifier := fun _ signature =>
  if signature = encode "good" then .ok () else .error (.signature "bad signature")

def shop : Workshop where
  codec := codec
  isDir := fun _ => true
  bundleDir := fun name => .ok (bundleOf name)
  git := fun _ _ => .error (.git "no repository")

def sources : Dict String PinSource :=
  Dict.empty.update [("shell",⟨.directory,"shell","dir://shell","good",by decide⟩),
    ("worker",⟨.directory,"worker","dir://worker","good",by decide⟩)]

theorem shell_ne : "shell" ≠ "" := by decide
theorem worker_ne : "worker" ≠ "" := by decide

def requested (name : String) (h : name ≠ "") : RequestedComponent := ⟨name,"main",h,by decide⟩

def network : List (String × Value) :=
  [("components",.list [.dict [("id",.str "shell"),("task",.str "echo")],
    .dict [("id",.str "worker"),("task",.str "echo")]])]

def design : Design where
  network := network
  components := [requested "shell" shell_ne]
  envelopes := [⟨"worker",Dict.empty.update [("step_limit",.int 3)],worker_ne⟩]
  requestedOnce := by decide
  grantedOnce := by decide

theorem pins : ∃ lock, shop.pinDesign design sources "shell" ["component.v1"] = .ok lock := by
  have hpin : ((shop.pinDesign design sources "shell" ["component.v1"]).toOption.any
      fun _ => true) = true := by decide +kernel
  obtain ⟨lock,hlock,_⟩ := ok_of_any hpin
  exact ⟨lock,hlock⟩

theorem design_unrequested : ¬ ∀ grant ∈ design.envelopes,
    ∃ c ∈ design.components, c.name = grant.component := by
  simp [design,requested]

end Scene

theorem pinDesign_carries_worker : ∃ lock,
    Scene.shop.pinDesign Scene.design Scene.sources "shell" ["component.v1"] = .ok lock ∧
      ¬ ∀ grant ∈ Scene.design.envelopes, lock.Carries grant := by
  obtain ⟨lock,hlock⟩ := Scene.pins
  exact ⟨lock,hlock,fun h => Scene.design_unrequested ((pinDesign_carries_iff hlock).mp h)⟩

/-- The bounds of a node that is not among the requested components are lost. -/
theorem unrequested_grant_lost : ¬ ∀ (shop : Workshop) (design : Design)
    (sources : Dict String PinSource) (root : String) (contracts : List String)
    (lock : ComponentsLock), shop.pinDesign design sources root contracts = .ok lock →
      ∀ grant ∈ design.envelopes, lock.Carries grant := by
  intro h
  obtain ⟨lock,hlock⟩ := Scene.pins
  apply Scene.design_unrequested
  intro grant hgrant
  exact ((pinDesign_pinned hlock).carries_iff hgrant).mp (h _ _ _ _ _ _ hlock grant hgrant)

namespace Bench

section
variable {bench : Bench} {driver : Driver} {specs : List WorkTaskSpec}

def Verifies (bench : Bench) (spec : WorkTaskSpec) : Prop :=
  ∃ t, bench.verifyLoad spec = .ok t

structure AllOrNothing (bench : Bench) (driver : Driver) (specs : List WorkTaskSpec) : Prop where
  bound : ∀ driver' tasks, bench.bindWorkTasks driver specs = (driver',.ok tasks) →
    ∃ ts, List.Forall₂ (fun spec t => ∃ artifact manifest,
      bench.Verified spec t artifact manifest) specs ts ∧ driver' = ts.foldl register driver ∧
        tasks = Dict.empty.update (ts.map fun t => (t.task,t))
  refused : ∀ driver' e, bench.bindWorkTasks driver specs = (driver',.error e) → driver' = driver

theorem bindAll_append {ts : List BoundTask}
    (h : List.Forall₂ (fun spec t => bench.verifyLoad spec = .ok t) specs ts)
    (driver : Driver) (tasks : Dict String BoundTask) (rest : List WorkTaskSpec) :
    bench.bindAll driver tasks (specs ++ rest) = bench.bindAll (ts.foldl register driver)
      (tasks.update (ts.map fun t => (t.task,t))) rest := by
  induction h generalizing driver tasks with
  | nil => rfl
  | cons hspec _ ih =>
    simp only [List.cons_append,bindAll,hspec,List.foldl_cons,List.map_cons,Dict.update_cons]
    exact ih _ _

theorem register_registrations (ts : List BoundTask) (driver : Driver) :
    (ts.foldl register driver).registrations = driver.registrations ++
      ts.map fun t => ⟨t.task,t.entry,"work://" ++ t.contentHash⟩ := by
  induction ts generalizing driver with
  | nil => exact (List.append_nil _).symm
  | cons t ts ih =>
    rw [List.foldl_cons,ih]
    simp [register,Driver.register]

theorem bound_of_verifies (h : ∀ spec ∈ specs, bench.Verifies spec) :
    ∃ ts, List.Forall₂ (fun spec t => bench.verifyLoad spec = .ok t) specs ts := by
  induction specs with
  | nil => exact ⟨[],.nil⟩
  | cons spec specs ih =>
    obtain ⟨t,ht⟩ := h spec List.mem_cons_self
    obtain ⟨ts,hts⟩ := ih fun s hs => h s (List.mem_cons_of_mem _ hs)
    exact ⟨t :: ts,.cons ht hts⟩

theorem stops (h : ¬ ∀ spec ∈ specs, bench.Verifies spec) (driver : Driver)
    (tasks : Dict String BoundTask) : ∃ pre spec post ts e, specs = pre ++ spec :: post ∧
      List.Forall₂ (fun spec t => bench.verifyLoad spec = .ok t) pre ts ∧ ¬ bench.Verifies spec ∧
      bench.bindAll driver tasks specs = (ts.foldl register driver,.error e) := by
  induction specs generalizing driver tasks with
  | nil => simp at h
  | cons spec specs ih =>
    cases hspec : bench.verifyLoad spec with
    | error e =>
      refine ⟨[],spec,specs,[],e,rfl,.nil,?_,by simp [bindAll,hspec]⟩
      rintro ⟨t,ht⟩
      rw [hspec] at ht
      cases ht
    | ok t =>
      have hrest : ¬ ∀ s ∈ specs, bench.Verifies s := by
        intro hall
        apply h
        intro s hs
        rcases List.mem_cons.mp hs with rfl | hs
        · exact ⟨t,hspec⟩
        · exact hall s hs
      obtain ⟨pre,bad,post,ts,e,heq,hpre,hbad,hrun⟩ :=
        ih hrest (register driver t) (tasks.set t.task t)
      refine ⟨spec :: pre,bad,post,t :: ts,e,by rw [heq]; rfl,.cons hspec hpre,hbad,?_⟩
      simp only [bindAll,hspec,List.foldl_cons]
      exact hrun

/-- A batch holds together exactly when all of its loads verify or none before the first failure
is registered: the loads are registered one by one, each before the next is verified. -/
theorem bindWorkTasks_atomic_iff (bench : Bench) (driver : Driver) (specs : List WorkTaskSpec) :
    bench.AllOrNothing driver specs ↔ ¬ bench.declaredTasks.Nodup ∨
      (∀ spec ∈ specs, bench.Verifies spec) ∨ ∀ spec ∈ specs.head?, ¬ bench.Verifies spec := by
  by_cases hnodup : bench.declaredTasks.Nodup
  case neg =>
    refine ⟨fun _ => .inl hnodup,fun _ => ⟨?_,?_⟩⟩
    · intro driver' tasks h
      simp [bindWorkTasks,hnodup] at h
    · intro driver' e h
      simp only [bindWorkTasks,hnodup,if_false,Prod.mk.injEq] at h
      exact h.1.symm
  by_cases hall : ∀ spec ∈ specs, bench.Verifies spec
  · refine ⟨fun _ => .inr (.inl hall),fun _ => ?_⟩
    obtain ⟨ts,hts⟩ := bound_of_verifies hall
    have hrun : bench.bindWorkTasks driver specs = (ts.foldl register driver,
        .ok (Dict.empty.update (ts.map fun t => (t.task,t)))) := by
      have happend := bindAll_append hts driver Dict.empty []
      simpa [bindWorkTasks,hnodup,bindAll] using happend
    constructor
    · intro driver' tasks h
      rw [hrun] at h
      cases h
      exact ⟨ts,hts.imp fun _ _ ht => verifyLoad_verified ht,rfl,rfl⟩
    · intro driver' e h
      rw [hrun] at h
      cases h
  · obtain ⟨pre,spec,post,ts,e,rfl,hpre,hbad,hrun⟩ := stops hall driver Dict.empty
    have hresult : bench.bindWorkTasks driver (pre ++ spec :: post) =
        (ts.foldl register driver,.error e) := by
      simpa [bindWorkTasks,hnodup] using hrun
    constructor
    · intro h
      have hsame := congrArg (fun d => d.registrations.length) (h.refused _ _ hresult)
      simp only [register_registrations,List.length_append,List.length_map] at hsame
      have hempty : ts = [] := List.eq_nil_of_length_eq_zero (by omega)
      subst hempty
      cases hpre
      refine .inr (.inr ?_)
      simpa using hbad
    · intro h
      rcases h with h | h | h
      · exact absurd hnodup h
      · exact absurd h hall
      · cases hpre with
        | nil =>
          constructor
          · intro driver' tasks hok
            rw [hresult] at hok
            cases hok
          · intro driver' e' herr
            rw [hresult] at herr
            cases herr
            rfl
        | cons hspec _ => exact absurd ⟨_,hspec⟩ (h _ rfl)

end
end Bench

namespace Scene

def loadOf (name : String) (h : name ≠ "") : WorkTaskSpec where
  load := ⟨name,codec.bundleSha256 (bundleOf name),.control,"",h,
    ContentAddressedCache.isSha256_bundle codec (bundleOf name)⟩
  expectedHash := codec.bundleSha256 (bundleOf name)

def bench : Bench where
  codec := codec
  harness := harness
  artifacts := ⟨Dict.empty.set (codec.bundleSha256 (bundleOf "shell")) (bundleOf "shell")⟩
  verifier := none
  allowSubprocess := false
  declaredTasks := ["shell","worker"]

def specs : List WorkTaskSpec := [loadOf "shell" (by decide),loadOf "worker" (by decide)]

def refusedWith (count : Nat) (result : Driver × Except Raise (Dict String BoundTask)) : Bool :=
  result.1.registrations.length = count && (match result.2 with
    | .ok _ => false
    | .error _ => true)

end Scene

/-- The task of the first load stays registered when the second one is refused. -/
theorem bound_before_refused : ¬ ∀ (bench : Bench) (driver : Driver) (specs : List WorkTaskSpec),
    bench.AllOrNothing driver specs := by
  intro h
  have hrun : Scene.refusedWith 1 (Scene.bench.bindWorkTasks ⟨[]⟩ Scene.specs) = true := by
    decide +kernel
  generalize hresult : Scene.bench.bindWorkTasks ⟨[]⟩ Scene.specs = result at hrun
  obtain ⟨driver,outcome⟩ := result
  cases outcome with
  | ok tasks => simp [Scene.refusedWith] at hrun
  | error e =>
    rw [(h _ _ _).refused _ _ hresult] at hrun
    simp [Scene.refusedWith] at hrun

end AgentCentric.Boot

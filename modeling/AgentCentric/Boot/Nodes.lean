import AgentCentric.Boot.Tree
import AgentCentric.Flow.Dataflow

namespace AgentCentric.Boot
open Network

/-- What comes of a call: the callable of a task does it, or a child that is named. -/
structure Runner where
  execute : Entry → Flow.Driver
  unregistered : Flow.Driver
  delegate : Flow.Driver

def childless (c : Component) : Bool := (ComponentNetwork.nonEmpty c.child).isNone

def Runner.driver (runner : Runner) (driver : Driver) : Flow.Driver := fun log request =>
  match ComponentNetwork.nonEmpty request.child with
  | some _ => runner.delegate log request
  | none =>
    match driver.resolve request.task with
    | some entry => runner.execute entry log request
    | none => runner.unregistered log request

def registerNodes (tree : BootedTree) : Driver → List Component → Driver × Option String
  | driver, [] => (driver,none)
  | driver, c :: rest =>
    if childless c then
      match tree.byName c.id with
      | none => (driver,some ("network component " ++ pyRepr c.id ++
          " is not in the booted lock " ++ String.ofList (tree.lockHash.toList.take 12) ++
          " (fail-closed)"))
      | some booted =>
        registerNodes tree (driver.register c.task booted.entry
          ("lock://" ++ tree.lockHash ++ "/" ++ c.id)) rest
    else registerNodes tree driver rest

def bootedDriver (tree : BootedTree) (net : ComponentNetwork) (driver : Driver) :
    Driver × Option String :=
  registerNodes tree driver (Flow.nodes net)

def runBootedNetwork (runner : Runner) (tree : BootedTree) (net : ComponentNetwork)
    (driver : Driver) (stepLimit : Option Int) : Flow.RunResult :=
  match bootedDriver tree net driver with
  | (_,some message) => Flow.refused message
  | (driver,none) => Flow.runNetwork (runner.driver driver) net stepLimit

def bootedLog (runner : Runner) (tree : BootedTree) (net : ComponentNetwork) (driver : Driver)
    (stepLimit : Option Int) : List Flow.Activation :=
  match bootedDriver tree net driver with
  | (_,some _) => []
  | (driver,none) => Flow.networkLog (runner.driver driver) net stepLimit

def lastFor (cs : List Component) (task : String) : Option Component :=
  (cs.filter childless).reverse.find? fun c => c.task = task

section
variable {tree : BootedTree} {net : ComponentNetwork} {driver driver' : Driver}
  {runner : Runner} {stepLimit : Option Int}

theorem resolve_register (driver : Driver) (name task url : String) (entry : Entry) :
    (driver.register name entry url).resolve task =
      if name = task then some entry else driver.resolve task := by
  unfold Driver.resolve Driver.register
  rw [List.reverse_append,List.reverse_singleton,List.singleton_append,List.find?_cons]
  by_cases h : name = task <;> simp [h]

theorem lastFor_cons (c : Component) (cs : List Component) (task : String) :
    lastFor (c :: cs) task = (lastFor cs task).or
      (if childless c = true ∧ c.task = task then some c else none) := by
  unfold lastFor
  by_cases hc : childless c = true
  · rw [List.filter_cons_of_pos hc,List.reverse_cons,List.find?_append]
    by_cases ht : c.task = task <;> simp [hc,ht]
  · rw [List.filter_cons_of_neg hc]
    simp [hc]

/-- After the loop a task is bound to the entry of its last component, and each component is in
the booted lock. -/
theorem registerNodes_resolve {cs : List Component}
    (h : registerNodes tree driver cs = (driver',none)) :
    (∀ c ∈ cs, childless c = true → ∃ b, tree.byName c.id = some b) ∧
      ∀ task, driver'.resolve task = match lastFor cs task with
        | some l => (tree.byName l.id).map BootedComponent.entry
        | none => driver.resolve task := by
  induction cs generalizing driver with
  | nil =>
    cases h
    exact ⟨by simp,fun _ => rfl⟩
  | cons c cs ih =>
    unfold registerNodes at h
    split at h
    · rename_i hc
      split at h
      · cases h
      · rename_i booted hbooted
        obtain ⟨hall,hresolve⟩ := ih h
        refine ⟨fun c' hc' hchild => ?_,fun task => ?_⟩
        · rcases List.mem_cons.mp hc' with rfl | hc'
          · exact ⟨booted,hbooted⟩
          · exact hall c' hc' hchild
        · rw [hresolve task,lastFor_cons,resolve_register]
          cases hlast : lastFor cs task with
          | some l => rfl
          | none => by_cases ht : c.task = task <;> simp [hc,ht,hbooted]
    · rename_i hc
      obtain ⟨hall,hresolve⟩ := ih h
      refine ⟨fun c' hc' hchild => ?_,fun task => ?_⟩
      · rcases List.mem_cons.mp hc' with rfl | hc'
        · exact absurd hchild hc
        · exact hall c' hc' hchild
      · rw [hresolve task,lastFor_cons]
        simp [hc]

/-- Every component without a child was executed, and by its own entry alone. -/
def OwnEntries (runner : Runner) (tree : BootedTree) (net : ComponentNetwork) (driver : Driver)
    (stepLimit : Option Int) : Prop :=
  ∀ c ∈ Flow.nodes net, childless c = true →
    (∃ a ∈ bootedLog runner tree net driver stepLimit, a.id = c.id) ∧
    ∀ a ∈ bootedLog runner tree net driver stepLimit, a.id = c.id → ∃ b,
      tree.byName c.id = some b ∧
        (bootedDriver tree net driver).1.resolve a.request.task = some b.entry

def SharesTasks (tree : BootedTree) (net : ComponentNetwork) : Prop :=
  ∀ c ∈ Flow.nodes net, childless c = true → ∀ l ∈ lastFor (Flow.nodes net) c.task,
    (tree.byName l.id).map BootedComponent.entry = (tree.byName c.id).map BootedComponent.entry

instance (tree : BootedTree) (net : ComponentNetwork) : Decidable (SharesTasks tree net) :=
  inferInstanceAs (Decidable (∀ c ∈ Flow.nodes net, childless c = true →
    ∀ l ∈ lastFor (Flow.nodes net) c.task, (tree.byName l.id).map BootedComponent.entry =
      (tree.byName c.id).map BootedComponent.entry))

def Executed (runner : Runner) (tree : BootedTree) (net : ComponentNetwork) (driver : Driver)
    (stepLimit : Option Int) : Prop :=
  ∀ c ∈ Flow.nodes net, childless c = true →
    ∃ a ∈ bootedLog runner tree net driver stepLimit, a.id = c.id

theorem lastFor_some {cs : List Component} {c : Component} (hc : c ∈ cs)
    (hchild : childless c = true) : ∃ l, lastFor cs c.task = some l := by
  apply Option.isSome_iff_exists.mp
  rw [lastFor,List.find?_isSome]
  exact ⟨c,by simp [hc,hchild],by simp⟩

end

namespace Scene

def manifestOf (name entrypoint : String) (hname : name ≠ "") (hentry : entrypoint ≠ "") :
    ComponentManifest where
  name := name
  kind := .atomic
  entry := ⟨.python,entrypoint,hentry⟩
  implements := ["component.v1"]
  state := none
  children := []
  directive := ""
  capabilities := []
  provenance := none
  ports := .empty
  named := hname
  parent := by simp
  conforming := lock.contracted

theorem a_ne : "a" ≠ "" := by decide
theorem b_ne : "b" ≠ "" := by decide

/-- Components `a` and `b`, with entries of their own. -/
def tree : BootedTree where
  lockHash := "0ca1"
  root := "a"
  components := [
    ⟨"a","0a",manifestOf "a" "tools:a" a_ne (by decide),.installed "tools:a",none⟩,
    ⟨"b","0b",manifestOf "b" "tools:b" b_ne (by decide),.installed "tools:b",none⟩]
  lockVerified := true

def runner : Runner where
  execute := fun entry _ _ => .ok ⟨true,match entry with
    | .installed point => .str point
    | .isolated _ _ => .null,none⟩
  unregistered := fun _ _ => .error "no such task"
  delegate := fun _ _ => .error "no such child"

def nodeOf (id task : String) : Component :=
  ⟨id,task,.empty,.null,.null,.empty,.empty,[],.empty,none⟩

def twoNodes (task task' : String) : ComponentNetwork := .mk [nodeOf "a" task,nodeOf "b" task'] [] []

end Scene

end AgentCentric.Boot

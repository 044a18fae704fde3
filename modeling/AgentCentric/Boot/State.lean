import AgentCentric.Boot.Tree
import AgentCentric.Library.Act
import AgentCentric.Workspace.Files

namespace AgentCentric.Boot
open Files PathWalk

/-- The root of the states, and SQLite: the first row of an integrity check, and the file of a new
database. -/
structure StateRoot where
  path : Path
  integrity : Bytes → Except String (Option String)
  fresh : Bytes
  pid : Nat

/-- A component's own directory below the root. -/
structure StateScope where
  root : Path
  owner : String
  named : owner ≠ ""
  proper : owner ≠ "." ∧ owner ≠ ".."
  single : '/' ∉ owner.toList ∧ '\\' ∉ owner.toList

def StateScope.new (root : Path) (owner : String) : Except Raise StateScope :=
  if h : owner ≠ "" ∧ (owner ≠ "." ∧ owner ≠ "..") ∧ '/' ∉ owner.toList ∧ '\\' ∉ owner.toList then
    .ok ⟨root,owner,h.1,h.2.1,h.2.2⟩
  else .error (.state ("unsafe component owner " ++ pyRepr owner ++ " for a state scope"))

def StateScope.directory (scope : StateScope) : Path := scope.root ++ [scope.owner.toList]

def pathText (path : Path) : String := "/" ++ String.intercalate "/" (path.map String.ofList)

/-- `state_path`, where there are no links. -/
def statePath (descriptor : StateDescriptor) (root : Path) : Except Raise Path := do
  let raw := descriptor.path.toList
  require (raw.head? ≠ some '/' ∧ dotdot ∉ parts raw)
    (.state ("unsafe state path " ++ pyRepr descriptor.path))
  require ((root ++ parts raw).all fun name => Char.ofNat 0 ∉ name)
    (.valueError "embedded null byte")
  let target := walk root (parts raw)
  require (root.isPrefixOf target)
    (.state ("state path " ++ pyRepr descriptor.path ++ " escapes the state root"))
  pure target

def onDisk {α : Type} (f : Tree → Except OsError (α × Tree)) : Act Raise Tree α := fun tree =>
  match f tree with
  | .ok (a,tree') => (.ok a,tree')
  | .error e => (.error (.other e.text),tree)

namespace StateRoot
variable (state : StateRoot)

def checkIntegrity (target : Path) (file : Option Bytes) : Except Raise Unit := do
  let name := "state database " ++ pathText target
  let bytes ← expect file (.state (name ++ " does not exist"))
  let row ← (state.integrity bytes).mapError fun m => .state (name ++ " is corrupt: " ++ m)
  require (row = some "ok")
    (.state (name ++ " failed integrity check: " ++ row.getD "no result"))

def temporary (target : Path) : Path :=
  target.dropLast ++ [('.' :: target.getLastD []) ++ (".tmp." ++ toString state.pid).toList]

def makeParents (target : Path) : Act Raise Tree Unit := onDisk fun tree => do
  let (made,_) ← tree.makeDirs [] tree.rooted target.dropLast
  pure ((),made)

/-- The temporary file is gone behind it, whether it took the place of the target or not. -/
def publish (target : Path) : Act Raise Tree Unit := onDisk fun tree => do
  let tree' ← tree.write target state.fresh
  pure ((),tree')

def materializeState (descriptor : StateDescriptor) (root : Path) : Act Raise Tree Path := do
  let target ← Act.lift (statePath descriptor root)
  let tree ← Act.read
  if (tree.get target).isSome then do
    Act.lift (state.checkIntegrity target (tree.content target))
    pure target
  else do
    makeParents target
    Act.lift (state.checkIntegrity (state.temporary target) (some state.fresh))
    state.publish target
    pure target

def stateOf (name : String) : Option StateDescriptor → Act Raise Tree (Option String)
  | none => pure none
  | some descriptor => do
      let scope ← Act.lift (StateScope.new state.path name)
      let target ← state.materializeState descriptor scope.directory
      pure (some (pathText target))

end StateRoot

namespace BootCall
variable (b : BootCall) (state : StateRoot)

/-- What comes before the loop over the nodes: whether the lock is verified, and the nodes. -/
def verifiedNodes : Except Raise (Bool × List ResolvedNode × ContentAddressedCache) := do
  let lock := b.resolver.lock
  let lockHash := lock.lockHash b.resolver.codec
  let signed ← b.checkSigned lockHash
  let verified ← b.checkPublished lockHash signed
  checkExpected lockHash b.expectedLockHash
  let (nodes,cache) ← b.resolver.resolveGraph b.cache lock.root
  require (¬ nodes.isEmpty) (.boot "resolved component graph is empty")
  require (nodes.getLast?.any fun node => node.name = lock.root)
    (.boot ("resolved graph does not end at the lock root " ++ pyRepr lock.root))
  pure (verified,nodes,cache)

def bootNodeOn (cache : ContentAddressedCache) (node : ResolvedNode) :
    Act Raise Tree BootedComponent := do
  Act.lift (checkConformance node b.resolver.lock.harnessContracts)
  let statePath ← state.stateOf node.name node.manifest.state
  let entry ← Act.lift (b.resolveEntry cache node)
  pure ⟨node.name,node.digest,node.manifest,entry,statePath⟩

def bootNodesOn (cache : ContentAddressedCache) :
    List ResolvedNode → Act Raise Tree (List BootedComponent)
  | [] => pure []
  | node :: nodes => do
      let component ← b.bootNodeOn state cache node
      let components ← bootNodesOn cache nodes
      pure (component :: components)

/-- `boot_from_lock` on a disk. -/
def bootOn : Act Raise Tree BootedTree := do
  let (verified,nodes,cache) ← Act.lift b.verifiedNodes
  let components ← b.bootNodesOn state cache nodes
  pure ⟨b.resolver.lock.lockHash b.resolver.codec,b.resolver.lock.root,components,verified⟩

end BootCall

/-- No file below the root of the states is made, changed or taken away. -/
def StateRoot.Untouched (state : StateRoot) (tree tree' : Tree) : Prop :=
  ∀ path, state.path <+: path → tree'.content path = tree.content path

/-- What the node asks for: the place of its database. -/
def StateRoot.Asks (state : StateRoot) (node : ResolvedNode) (target : Path) : Prop :=
  ∃ descriptor scope, node.manifest.state = some descriptor ∧
    StateScope.new state.path node.name = .ok scope ∧
    statePath descriptor scope.directory = .ok target

/-- The database is there, and SQLite finds nothing wrong with it. -/
def StateRoot.Sound (state : StateRoot) (tree : Tree) (target : Path) : Prop :=
  (tree.get target).isSome ∧ state.checkIntegrity target (tree.content target) = .ok ()

/-- The database is missing, and can be made. -/
def StateRoot.Open (state : StateRoot) (tree : Tree) (target : Path) : Prop :=
  tree.get target = none ∧ ∃ made created tree',
    tree.makeDirs [] tree.rooted target.dropLast = .ok (made,created) ∧
    state.checkIntegrity (state.temporary target) (some state.fresh) = .ok () ∧
    made.write target state.fresh = .ok tree'

/-- Nothing has to be made for the node. -/
def StateRoot.Present (state : StateRoot) (tree : Tree) (node : ResolvedNode) : Prop :=
  node.manifest.state = none ∨ ∃ target, state.Asks node target ∧ state.Sound tree target

def StateRoot.Missing (state : StateRoot) (tree : Tree) (node : ResolvedNode) : Prop :=
  ∃ target, state.Asks node target ∧ state.Open tree target

namespace BootCall
variable (b : BootCall) (state : StateRoot) (cache : ContentAddressedCache) (tree : Tree)

def Conforms (node : ResolvedNode) : Prop :=
  checkConformance node b.resolver.lock.harnessContracts = .ok ()

/-- The boot gets past the node with nothing to make. -/
def Ready (node : ResolvedNode) : Prop :=
  b.Conforms node ∧ state.Present tree node ∧ ∃ entry, b.resolveEntry cache node = .ok entry

/-- No node that the boot comes to past those that are ready has a database to be made. -/
def Established (nodes : List ResolvedNode) : Prop :=
  ∀ before node after, nodes = before ++ node :: after →
    (∀ n ∈ before, b.Ready state cache tree n) → b.Conforms node → ¬state.Missing tree node

end BootCall

namespace StateRoot
variable {state : StateRoot} {tree tree' : Tree} {node : ResolvedNode} {target : Path}

theorem Asks.below (h : state.Asks node target) : state.path <+: target := by
  obtain ⟨descriptor,scope,_,hscope,hpath⟩ := h
  have hroot : scope.root = state.path := by
    rw [StateScope.new] at hscope
    split at hscope
    · cases hscope
      rfl
    · cases hscope
  simp only [statePath,bind_ok,require_ok,pure,Except.pure,Except.ok.injEq] at hpath
  obtain ⟨_,_,_,_,_,hbelow,rfl⟩ := hpath
  simp only [StateScope.directory,hroot] at hbelow ⊢
  exact (List.prefix_append _ _).trans (List.isPrefixOf_iff_prefix.1 hbelow)

theorem Asks.unique {target' : Path} (h : state.Asks node target) (h' : state.Asks node target') :
    target' = target := by
  obtain ⟨descriptor,scope,hstate,hscope,hpath⟩ := h
  obtain ⟨descriptor',scope',hstate',hscope',hpath'⟩ := h'
  obtain rfl := Option.some.inj (hstate.symm.trans hstate')
  obtain rfl := Except.ok.inj (hscope.symm.trans hscope')
  exact Except.ok.inj (hpath'.symm.trans hpath)

/-- One database was made, and no other file. -/
structure Made (state : StateRoot) (tree tree' : Tree) (target : Path) : Prop where
  below : state.path <+: target
  missing : tree.get target = none
  present : (tree'.content target).isSome
  others : ∀ q, target ≠ q → tree'.content q = tree.content q

/-- What comes back, and the disk: as it was if nothing had to be made, with one database more if it
could be made, and with the same files where it was refused. -/
inductive Passes (state : StateRoot) (tree : Tree) (P M : Prop) {α : Type} :
    Except Raise α × Tree → Prop
  | quiet (a : α) (h : P) : Passes state tree P M (.ok a,tree)
  | made {r : Except Raise α} {tree' : Tree} {target : Path} (h : M)
      (hmade : state.Made tree tree' target) : Passes state tree P M (r,tree')
  | refused {e : Raise} {tree' : Tree} (hP : ¬P) (hM : ¬M)
      (hsame : ∀ q, tree'.content q = tree.content q) : Passes state tree P M (.error e,tree')

section
variable {α β : Type} {P M : Prop} {r : Except Raise α}

theorem Passes.congr {P' M' : Prop} {x : Except Raise α × Tree} (h : state.Passes tree P M x)
    (hP : P ↔ P') (hM : M ↔ M') : state.Passes tree P' M' x := propext hP ▸ propext hM ▸ h

theorem Passes.map {m : Act Raise Tree α} {f : α → β} (h : state.Passes tree P M (m tree)) :
    state.Passes tree P M ((m >>= fun a => pure (f a)) tree) := by
  rw [Act.bind_apply]
  generalize m tree = result at h
  cases h with
  | quiet a h => exact .quiet (f a) h
  | @made result _ _ h hmade =>
    cases result with
    | ok a => exact .made h hmade
    | error e => exact .made h hmade
  | refused hP hM hsame => exact .refused hP hM hsame

/-- A check before it, which both outcomes need. -/
theorem Passes.checked {f : α → Act Raise Tree β} (hP : P → ∃ a, r = .ok a)
    (hM : M → ∃ a, r = .ok a) (h : ∀ a, r = .ok a → state.Passes tree P M (f a tree)) :
    state.Passes tree P M ((Act.lift r >>= f) tree) := by
  cases r with
  | ok a => exact h a rfl
  | error e => exact .refused (fun h => nomatch hP h) (fun h => nomatch hM h) fun _ => rfl

/-- A check behind it, for which nothing is made. -/
theorem Passes.checks {m : Act Raise Tree β} {γ : Type} {f : β → α → γ} (hnot : P → ¬M)
    (h : state.Passes tree P M (m tree)) : state.Passes tree (P ∧ ∃ a, r = .ok a) M
      ((m >>= fun b => Act.lift r >>= fun a => pure (f b a)) tree) := by
  rw [Act.bind_apply]
  generalize m tree = result at h
  cases h with
  | quiet b h =>
    cases r with
    | ok a => exact .quiet (f b a) ⟨h,a,rfl⟩
    | error e => exact .refused (fun h => nomatch h.2) (hnot h) fun _ => rfl
  | @made result _ _ h hmade =>
    cases result with
    | ok b =>
      cases r with
      | ok a => exact .made h hmade
      | error e => exact .made h hmade
    | error e => exact .made h hmade
  | refused hP hM hsame => exact .refused (fun h => hP h.1) hM hsame

end

theorem materializeState_passes {descriptor : StateDescriptor} {root : Path}
    (hbelow : state.path <+: target) (hpath : statePath descriptor root = .ok target) :
    state.Passes tree (state.Sound tree target) (state.Open tree target)
      (state.materializeState descriptor root tree) := by
  rw [materializeState,hpath]
  show state.Passes tree _ _ ((if (tree.get target).isSome then _ else _ : Act Raise Tree Path) tree)
  cases hget : tree.get target with
  | some found =>
    refine Passes.checked (fun h => ⟨(),h.2⟩) (fun h => nomatch hget.symm.trans h.1) fun _ h => ?_
    exact .quiet target ⟨by simp [hget],h⟩
  | none =>
    have hsound : ¬state.Sound tree target := fun h => by simp [Sound,hget] at h
    simp only [Option.isSome_none,Bool.false_eq_true,if_false]
    cases hmake : tree.makeDirs [] tree.rooted target.dropLast with
    | error e =>
      have hparents : makeParents target tree = (.error (.other e.text),tree) := by
        simp only [makeParents,onDisk,hmake,bind,Except.bind]
      rw [Act.bind_error hparents]
      refine .refused hsound ?_ fun _ => rfl
      rintro ⟨_,made,created,_,hmade,_⟩
      cases hmake.symm.trans hmade
    | ok result =>
      obtain ⟨made,created⟩ := result
      have hparents : makeParents target tree = (.ok (),made) := by
        simp only [makeParents,onDisk,hmake,bind,Except.bind,pure,Except.pure]
      have hkept := fun q => Tree.makeDirs_content hmake q
      rw [Act.bind_ok hparents]
      cases hcheck : state.checkIntegrity (state.temporary target) (some state.fresh) with
      | error e =>
        refine .refused hsound ?_ hkept
        rintro ⟨_,_,_,_,_,hfresh,_⟩
        cases hcheck.symm.trans hfresh
      | ok =>
        rw [Act.bind_ok (show Act.lift (.ok ()) made = (.ok (),made) from rfl)]
        cases hwrite : made.write target state.fresh with
        | error e =>
          have hpublish : state.publish target made = (.error (.other e.text),made) := by
            simp only [publish,onDisk,hwrite,bind,Except.bind]
          rw [Act.bind_error hpublish]
          refine .refused hsound ?_ hkept
          rintro ⟨_,made',_,_,hmade,_,hwritten⟩
          obtain ⟨rfl,-⟩ := Prod.mk.inj (Except.ok.inj (hmake.symm.trans hmade))
          cases hwrite.symm.trans hwritten
        | ok tree' =>
          have hpublish : state.publish target made = (.ok (),tree') := by
            simp only [publish,onDisk,hwrite,bind,Except.bind,pure,Except.pure]
          rw [Act.bind_ok hpublish]
          refine .made ⟨hget,made,created,tree',hmake,hcheck,hwrite⟩ ⟨hbelow,hget,?_,fun q hq => ?_⟩
          · simp [Tree.write_content hwrite]
          · rw [← hkept q,Tree.content,Tree.content,Tree.write_frame hwrite q hq]

theorem Present.not_missing (h : state.Present tree node) : ¬state.Missing tree node := by
  rintro ⟨target,hasks,hopen⟩
  rcases h with hnone | ⟨target',hasks',hsound⟩
  · obtain ⟨descriptor,_,hstate,_⟩ := hasks
    cases hnone.symm.trans hstate
  · obtain rfl := hasks.unique hasks'
    simp [Sound,hopen.1] at hsound

theorem stateOf_passes (state : StateRoot) (tree : Tree) (node : ResolvedNode) :
    state.Passes tree (state.Present tree node) (state.Missing tree node)
      (state.stateOf node.name node.manifest.state tree) := by
  cases hstate : node.manifest.state with
  | none => exact .quiet none (.inl hstate)
  | some descriptor =>
    have hplace {P : Path → Prop} (h : ∃ target, state.Asks node target ∧ P target) :
        ∃ scope, StateScope.new state.path node.name = .ok scope ∧
          ∃ target, statePath descriptor scope.directory = .ok target ∧ P target := by
      obtain ⟨target,⟨descriptor',scope,hstate',hscope,hpath⟩,h⟩ := h
      obtain rfl := Option.some.inj (hstate.symm.trans hstate')
      exact ⟨scope,hscope,target,hpath,h⟩
    have hpresent (h : state.Present tree node) : ∃ target, state.Asks node target ∧
        state.Sound tree target := h.resolve_left fun hnone => nomatch hstate.symm.trans hnone
    rw [stateOf]
    refine Passes.checked (fun h => ?_) (fun h => ?_) fun scope hscope => ?_
    · obtain ⟨scope,hscope,_⟩ := hplace (hpresent h)
      exact ⟨scope,hscope⟩
    · obtain ⟨scope,hscope,_⟩ := hplace h
      exact ⟨scope,hscope⟩
    cases hpath : statePath descriptor scope.directory with
    | error e =>
      have hnone {P : Path → Prop} (h : ∃ target, state.Asks node target ∧ P target) : False := by
        obtain ⟨scope',hscope',target,hpath',_⟩ := hplace h
        obtain rfl := Except.ok.inj (hscope.symm.trans hscope')
        cases hpath.symm.trans hpath'
      have hrefused : state.materializeState descriptor scope.directory tree = (.error e,tree) := by
        rw [materializeState,hpath]
        rfl
      rw [Act.bind_error hrefused]
      exact .refused (fun h => hnone (hpresent h)) (fun h => hnone h) fun _ => rfl
    | ok target =>
      have hasks : state.Asks node target := ⟨descriptor,scope,hstate,hscope,hpath⟩
      refine (materializeState_passes hasks.below hpath).map.congr
        ⟨fun h => .inr ⟨target,hasks,h⟩,fun h => ?_⟩ ⟨fun h => ⟨target,hasks,h⟩,fun h => ?_⟩
      · obtain ⟨target',hasks',h⟩ := hpresent h
        exact hasks.unique hasks' ▸ h
      · obtain ⟨target',hasks',h⟩ := h
        exact hasks.unique hasks' ▸ h

end StateRoot

namespace BootCall
variable {b : BootCall} {state : StateRoot} {cache : ContentAddressedCache} {tree tree' : Tree}

theorem bootNodeOn_passes (b : BootCall) (state : StateRoot) (cache : ContentAddressedCache)
    (tree : Tree) (node : ResolvedNode) : state.Passes tree (b.Ready state cache tree node)
      (b.Conforms node ∧ state.Missing tree node) (b.bootNodeOn state cache node tree) := by
  refine StateRoot.Passes.checked (fun h => ⟨(),h.1⟩) (fun h => ⟨(),h.1⟩) fun _ hconforms => ?_
  refine StateRoot.Passes.congr (StateRoot.Passes.checks (fun h => h.not_missing)
    (state.stateOf_passes tree node)) ?_ ?_
  · exact ⟨fun h => ⟨hconforms,h⟩,fun h => h.2⟩
  · exact ⟨fun h => ⟨hconforms,h⟩,fun h => h.2⟩

def Grows (tree tree' : Tree) : Prop :=
  ∀ q, (tree.content q).isSome → tree'.content q = tree.content q

theorem grows_of_made {target : Path} (h : state.Made tree tree' target) : Grows tree tree' := by
  intro q hq
  refine h.others q ?_
  rintro rfl
  simp [Tree.content,h.missing] at hq

theorem bootNodesOn_grows (nodes : List ResolvedNode) (tree : Tree) :
    Grows tree (b.bootNodesOn state cache nodes tree).2 := by
  have : IsTrans Tree Grows := ⟨fun s t u hst htu q hq => by
    rw [htu q (hst q hq ▸ hq),hst q hq]⟩
  induction nodes generalizing tree with
  | nil => exact fun _ _ => rfl
  | cons node nodes ih =>
    rw [bootNodesOn]
    refine Act.moves_bind ?_ fun c t _ => Act.moves_bind (ih t) fun _ _ _ => fun _ _ => rfl
    have hpasses := bootNodeOn_passes b state cache tree node
    generalize b.bootNodeOn state cache node tree = result at hpasses ⊢
    cases hpasses with
    | quiet => exact fun _ _ => rfl
    | made _ hmade => exact grows_of_made hmade
    | refused _ _ hsame => exact fun q _ => hsame q

theorem established_cons {node : ResolvedNode} {nodes : List ResolvedNode}
    (h : b.Ready state cache tree node) :
    b.Established state cache tree (node :: nodes) ↔ b.Established state cache tree nodes := by
  constructor
  · intro hestablished before m after heq hbefore
    refine hestablished (node :: before) m after (by rw [heq]; rfl) fun n hn => ?_
    rcases List.mem_cons.1 hn with rfl | hn
    · exact h
    · exact hbefore n hn
  · intro hestablished before m after heq hbefore
    cases before with
    | nil =>
      obtain ⟨rfl,-⟩ := List.cons.inj heq
      exact fun _ => h.2.1.not_missing
    | cons n before =>
      obtain ⟨-,hrest⟩ := List.cons.inj heq
      exact hestablished before m after hrest fun k hk => hbefore k (List.mem_cons_of_mem n hk)

/-- The loop, up to the node that is refused. -/
theorem bootNodesOn_untouched {nodes : List ResolvedNode} {e : Raise}
    (h : b.bootNodesOn state cache nodes tree = (.error e,tree')) :
    state.Untouched tree tree' ↔ b.Established state cache tree nodes := by
  induction nodes with
  | nil => cases h
  | cons node nodes ih =>
    have hpasses := bootNodeOn_passes b state cache tree node
    generalize hdone : b.bootNodeOn state cache node tree = result at hpasses
    rw [bootNodesOn] at h
    cases hpasses with
    | quiet c hready =>
      rw [established_cons hready]
      rw [Act.bind_ok hdone] at h
      rcases Act.bind_error_iff.1 h with h | ⟨_,_,_,h⟩
      · exact ih h
      · cases h
    | @made result t target hnode hmade =>
      refine iff_of_false (fun huntouched => ?_) fun hestablished =>
        hestablished [] node nodes rfl nofun hnode.1 hnode.2
      have hgrows : Grows t tree' := by
        rcases Act.bind_error_iff.1 h with h | ⟨c,u,hnode,h⟩
        · obtain ⟨-,rfl⟩ := Prod.mk.inj (hdone.symm.trans h)
          exact fun _ _ => rfl
        · obtain ⟨-,rfl⟩ := Prod.mk.inj (hdone.symm.trans hnode)
          rcases Act.bind_error_iff.1 h with h | ⟨_,_,_,h⟩
          · have hgrown := @bootNodesOn_grows b state cache nodes t
            rw [h] at hgrown
            exact hgrown
          · cases h
      have hthere := hgrows target hmade.present
      rw [huntouched target hmade.below,Tree.content,hmade.missing] at hthere
      exact absurd hmade.present (by simp [← hthere])
    | refused hready hmissing hsame =>
      rw [Act.bind_error hdone] at h
      obtain ⟨-,rfl⟩ := Prod.mk.inj h
      refine iff_of_true (fun q _ => hsame q) ?_
      intro before m after heq hbefore hconforms hm
      cases before with
      | nil =>
        obtain ⟨rfl,-⟩ := List.cons.inj heq
        exact hmissing ⟨hconforms,hm⟩
      | cons n before =>
        obtain ⟨rfl,-⟩ := List.cons.inj heq
        exact hready (hbefore node List.mem_cons_self)

/-- What a refused boot leaves of the databases: all is as it was exactly if the boot did not come
to a node whose database had to be made. -/
theorem bootOn_untouched_iff {e : Raise} (h : b.bootOn state tree = (.error e,tree')) :
    state.Untouched tree tree' ↔ ∀ verified nodes cache,
      b.verifiedNodes = .ok (verified,nodes,cache) → b.Established state cache tree nodes := by
  rcases Act.bind_error_iff.1 h with hnodes | ⟨⟨verified,nodes,cache⟩,t,hnodes,hrest⟩
  · obtain ⟨hfailed,rfl⟩ := Prod.mk.inj hnodes
    refine iff_of_true (fun _ _ => rfl) fun verified nodes cache h => ?_
    cases hfailed.symm.trans h
  · obtain ⟨hfound,rfl⟩ := Act.lift_ok_iff.1 hnodes
    rcases Act.bind_error_iff.1 hrest with hloop | ⟨_,_,_,hloop⟩
    · rw [bootNodesOn_untouched hloop]
      refine ⟨fun hestablished verified' nodes' cache' h' => ?_,fun h' => h' _ _ _ hfound⟩
      obtain ⟨-,rfl,rfl⟩ := Except.ok.inj (hfound.symm.trans h')
      exact hestablished
    · cases hloop

end BootCall

namespace Scene

/-- A worker with a database, whose entry is not allowed. -/
def keeper : Bytes := tarOf "component.json" (encode (Json.compact
  (.dict [("version",.str "component.v1"),("name",.str "worker"),("kind",.str "atomic"),
    ("entry",.dict [("runtime",.str "python"),("entrypoint",.str "tools:run")]),
    ("implements",.list [.str "component.v1"]),
    ("state",.dict [("kind",.str "sqlite"),("path",.str "state.db")])])))

def keeperCall : BootCall where
  resolver := ⟨codec,{ lock with
    root := "worker"
    entries := [pinOf "worker" worker_ne keeper]
    unique := by simp [pinOf]
    rooted := by simp [pinOf] },fun _ => .ok keeper,some verifier⟩
  cache := ⟨.empty⟩
  harness := { harness with allowed := [] }
  materialize := fun name _ => .ok name
  expectedLockHash := none
  allowSubprocess := false
  lockSignature := some "good"
  lockVerifier := some verifier
  transparency := none
  expectedTransparencyHead := none

/-- No component has a state, and no entry is allowed. -/
def barredCall : BootCall := { call with harness := { harness with allowed := [] } }

def states : StateRoot := ⟨[['s','r','v']],fun _ => .ok (some "ok"),[83],1⟩

def database : Path := [['s','r','v'],"worker".toList,"state.db".toList]

end Scene

theorem BootCall.bootOn_untouched_iff_barred : ∃ e tree',
    Scene.barredCall.bootOn Scene.states .empty = (.error e,tree') ∧
      Scene.states.Untouched .empty tree' := by
  have hrefused : (Scene.barredCall.bootOn Scene.states .empty).1.toOption.isNone = true := by
    decide +kernel
  have hstateless : (Scene.barredCall.verifiedNodes.toOption.all fun found =>
      found.2.1.all fun node => node.manifest.state.isNone) = true := by decide +kernel
  cases hrun : Scene.barredCall.bootOn Scene.states .empty with
  | mk result tree' =>
    cases result with
    | ok booted => simp [hrun,Except.toOption] at hrefused
    | error e =>
      refine ⟨e,tree',rfl,(bootOn_untouched_iff hrun).2 ?_⟩
      rintro verified nodes cache hnodes before node after rfl - - ⟨target,hasks,-⟩
      obtain ⟨descriptor,_,hstate,_⟩ := hasks
      simp [hnodes,Except.toOption,hstate] at hstateless

/-- The database is made before the entry of the same component is looked for. -/
theorem bootOn_leaves_database : ¬∀ (b : BootCall) (state : StateRoot) (tree tree' : Tree)
    (e : Raise), b.bootOn state tree = (.error e,tree') → state.Untouched tree tree' := by
  intro h
  have hleft : ((Scene.keeperCall.bootOn Scene.states .empty).1.toOption.isNone &&
      ((Scene.keeperCall.bootOn Scene.states .empty).2.content Scene.database).isSome) = true := by
    decide +kernel
  cases hrun : Scene.keeperCall.bootOn Scene.states .empty with
  | mk result tree' =>
    rw [hrun] at hleft
    cases result with
    | ok booted => simp [Except.toOption] at hleft
    | error e =>
      have hsame := h _ _ _ _ _ hrun Scene.database (by decide)
      have hnone : Tree.empty.content Scene.database = none := by decide
      simp [hsame,hnone] at hleft

end AgentCentric.Boot

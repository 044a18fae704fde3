import AgentCentric.Library.Checked
import AgentCentric.Library.Dict
import AgentCentric.Library.PathWalk

namespace AgentCentric.Files
open PathWalk

inductive Node where
  | file (content : List UInt8)
  | directory
  deriving DecidableEq

structure Tree where
  nodes : Dict Path Node
  rooted : nodes.get [] = some .directory
  nested : ∀ path name, (nodes.get (path ++ [name])).isSome →
    nodes.get path = some .directory

/-- What the system refuses. -/
inductive OsError where
  | isADirectory
  | notADirectory
  | fileExists
  deriving DecidableEq

def OsError.text : OsError → String
  | isADirectory => "[Errno 21] Is a directory"
  | notADirectory => "[Errno 20] Not a directory"
  | fileExists => "[Errno 17] File exists"

namespace Tree
variable {tree : Tree} {path : Path}

def get (tree : Tree) (path : Path) : Option Node := tree.nodes.get path

def isDir (tree : Tree) (path : Path) : Bool := tree.get path = some .directory

def content (tree : Tree) (path : Path) : Option (List UInt8) :=
  match tree.get path with
  | some (.file bytes) => some bytes
  | _ => none

def empty : Tree where
  nodes := ⟨[([],.directory)],by decide⟩
  rooted := rfl
  nested := by
    intro path name h
    have hne : ([] : Path) ≠ path ++ [name] := fun heq => by cases path <;> cases heq
    rw [Dict.get,Dict.lookup,if_neg hne] at h
    cases h

def put (tree : Tree) (path : Path) (node : Node) (hne : path ≠ [])
    (hparent : tree.get path.dropLast = some .directory)
    (hfree : tree.get path ≠ some .directory) : Tree where
  nodes := tree.nodes.set path node
  rooted := by
    rw [Dict.get_set_ne _ _ hne]
    exact tree.rooted
  nested := by
    intro above name h
    -- nothing is in a node that is not a directory
    have hplace : path ≠ above := by
      rintro rfl
      rw [Dict.get_set_ne _ _ (by simp)] at h
      exact hfree (tree.nested path name h)
    rw [Dict.get_set_ne _ _ hplace]
    by_cases heq : path = above ++ [name]
    · rw [heq,List.dropLast_concat] at hparent
      exact hparent
    · rw [Dict.get_set_ne _ _ heq] at h
      exact tree.nested above name h

theorem get_put {node : Node} {hne : path ≠ []} {hparent : tree.get path.dropLast = some .directory}
    {hfree : tree.get path ≠ some .directory} (q : Path) :
    (tree.put path node hne hparent hfree).get q = if path = q then some node else tree.get q :=
  Dict.get_set _ _ _ _

def write (tree : Tree) (path : Path) (bytes : List UInt8) : Except OsError Tree :=
  if hfree : tree.get path ≠ some .directory then
    if hparent : tree.get path.dropLast = some .directory then
      .ok (tree.put path (.file bytes) (fun hne => hfree (hne ▸ tree.rooted)) hparent hfree)
    else .error .notADirectory
  else .error .isADirectory

theorem write_frame {bytes : List UInt8} {tree' : Tree} (h : tree.write path bytes = .ok tree')
    (q : Path) (hq : path ≠ q) : tree'.get q = tree.get q := by
  rw [write] at h
  split at h
  · split at h
    · obtain rfl := Except.ok.inj h
      rw [get_put,if_neg hq]
    · cases h
  · cases h

theorem write_content {bytes : List UInt8} {tree' : Tree} (h : tree.write path bytes = .ok tree') :
    tree'.content path = some bytes := by
  rw [write] at h
  split at h
  · split at h
    · obtain rfl := Except.ok.inj h
      rw [content,get_put,if_pos rfl]
    · cases h
  · cases h

/-- `mkdir(parents=True, exist_ok=True)`, from a directory down, with what it creates. Below a
name that is missing all are, so that nothing is refused once something is created. -/
def makeDirs (tree : Tree) (here : Path) (hhere : tree.get here = some .directory) :
    Path → Except OsError (Tree × List Path)
  | [] => .ok (tree,[])
  | name :: rest =>
    match hnode : tree.get (here ++ [name]) with
    | some .directory => makeDirs tree (here ++ [name]) hnode rest
    | some (.file _) => .error (if rest = [] then .fileExists else .notADirectory)
    | none => do
        let grown := tree.put (here ++ [name]) .directory (by simp)
          (by rw [List.dropLast_concat]; exact hhere) (by simp [hnode])
        let (made,created) ← makeDirs grown (here ++ [name]) (by simp [grown,get_put]) rest
        pure (made,(here ++ [name]) :: created)

/-- Only what was missing on the way is created, and nothing else changes. -/
theorem makeDirs_frame {here names : Path} {hhere : tree.get here = some .directory}
    {made : Tree} {created : List Path} (h : tree.makeDirs here hhere names = .ok (made,created)) :
    (∀ q, q ∉ created → made.get q = tree.get q) ∧
      ∀ q ∈ created, tree.get q = none ∧ ∃ front back, front ≠ [] ∧ names = front ++ back ∧
        q = here ++ front := by
  induction names generalizing tree here created with
  | nil =>
    obtain ⟨rfl,rfl⟩ := Prod.mk.inj (Except.ok.inj h)
    exact ⟨fun _ _ => rfl,fun _ hq => by cases hq⟩
  | cons name rest ih =>
    have hfront {q : Path} (hq : ∃ front back, front ≠ [] ∧ rest = front ++ back ∧
        q = here ++ [name] ++ front) : ∃ front back, front ≠ [] ∧ name :: rest = front ++ back ∧
          q = here ++ front := by
      obtain ⟨front,back,-,rfl,rfl⟩ := hq
      exact ⟨name :: front,back,by simp,rfl,by simp⟩
    rw [makeDirs] at h
    split at h
    · obtain ⟨hkept,hmade⟩ := ih h
      exact ⟨hkept,fun q hq => ⟨(hmade q hq).1,hfront (hmade q hq).2⟩⟩
    · cases h
    · rename_i hnode
      obtain ⟨⟨made',created'⟩,hrest,h⟩ := bind_ok.mp h
      obtain ⟨rfl,rfl⟩ := Prod.mk.inj (Except.ok.inj h)
      obtain ⟨hkept,hmade⟩ := ih hrest
      constructor
      · intro q hq
        rw [List.mem_cons,not_or] at hq
        rw [hkept q hq.2,get_put,if_neg fun heq => hq.1 heq.symm]
      · intro q hq
        rcases List.mem_cons.mp hq with rfl | hq
        · exact ⟨hnode,[name],rest,by simp,rfl,rfl⟩
        · obtain ⟨hmissing,hplace⟩ := hmade q hq
          rw [get_put] at hmissing
          split at hmissing
          · cases hmissing
          · exact ⟨hmissing,hfront hplace⟩

theorem makeDirs_content {here names : Path} {hhere : tree.get here = some .directory}
    {made : Tree} {created : List Path} (h : tree.makeDirs here hhere names = .ok (made,created))
    (q : Path) : made.content q = tree.content q := by
  induction names generalizing tree here created with
  | nil =>
    obtain ⟨rfl,rfl⟩ := Prod.mk.inj (Except.ok.inj h)
    rfl
  | cons name rest ih =>
    rw [makeDirs] at h
    split at h
    · exact ih h
    · cases h
    · rename_i hnode
      obtain ⟨⟨made',created'⟩,hrest,h⟩ := bind_ok.mp h
      obtain ⟨rfl,rfl⟩ := Prod.mk.inj (Except.ok.inj h)
      rw [ih hrest,content,content,get_put]
      by_cases hq : here ++ [name] = q
      · rw [if_pos hq,← hq,hnode]
      · rw [if_neg hq]

def filesIn (tree : Tree) (path : Path) : List Name :=
  tree.nodes.entries.filterMap fun entry =>
    match entry.2 with
    | .file _ => if entry.1.dropLast = path then entry.1.getLast? else none
    | .directory => none

end Tree
end AgentCentric.Files

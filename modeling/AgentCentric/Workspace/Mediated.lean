import AgentCentric.Library.Text
import AgentCentric.Workspace.Files

namespace AgentCentric.Files
open PathWalk

inductive Error where
  | workspaceError (message : String)
  | valueError (message : String)
  deriving DecidableEq

/-- How texts are written to files. What is written may hold lone surrogates, which are refused. -/
structure Encoding (Text : Type) where
  encode : Text → Option (List UInt8)
  decode : List UInt8 → Option Text

/-- What is done to the file at a path. -/
inductive Effect where
  | read (path : Path)
  | write (path : Path)
  | create (path : Path)
  deriving DecidableEq

inductive Value (Text : Type) where
  | bytes (content : List UInt8)
  | listing (kinds : List (String × String))
  | entry (relativePath kind : String) (content : Option Text)

/-- What a call leaves behind and comes back with. -/
structure Turn (Text : Type) where
  tree : Tree
  effects : List Effect
  result : Except Error (Value Text)

def Turn.raise {Text : Type} (tree : Tree) (e : Error) : Turn Text := ⟨tree,[],.error e⟩

/-- `(root / text).resolve()`, where there are no links. -/
def place (root : Path) (text : List Char) : Path :=
  if text.head? = some '/' then walk [] (parts text) else walk root (parts text)

/-- `_resolve`, with the path from the root. -/
def resolve (root : Path) (rel : String) : Except Error Path := do
  require (rel ≠ "") (.workspaceError "A relative path is required.")
  require (Char.ofNat 0 ∉ rel.toList) (.valueError "embedded null byte")
  let candidate := place root rel.toList
  require (root.isPrefixOf candidate)
    (.workspaceError ("Path " ++ pyRepr rel ++ " escapes the workspace root."))
  pure (candidate.drop root.length)

def startsWith (rel pre : String) : Bool := pre.toList.isPrefixOf rel.toList

section
variable {Text : Type} (encoding : Encoding Text) (tree : Tree)

def existing (root : Path) (present : Path → Bool) (kind : String) (rels : List String) :
    Except Error (List (String × String)) := do
  let found ← rels.mapM fun rel => do
    let path ← resolve root rel
    pure (if present path then some (rel,kind) else none)
  pure found.reduceOption

def listEntries (root : Path) (files directories : List String) : Turn Text where
  tree := tree
  effects := []
  result := do
    let files ← existing root (fun path => (tree.content path).isSome) "file" files
    let directories ← existing root tree.isDir "directory" directories
    pure (.listing (Dict.empty.update (files ++ directories)).entries)

def listUnder (root : Path) (prefixes : List String) (pre : String) : Turn Text where
  tree := tree
  effects := []
  result := do
    require (pre ∈ prefixes)
      (.workspaceError ("Prefix " ++ pyRepr pre ++ " is not on the workspace allowlist."))
    let base ← resolve root pre
    if tree.isDir base then
      pure (.listing (Dict.empty.update ((tree.filesIn base).map fun name =>
        (pre ++ String.ofList name,"file"))).entries)
    else pure (.listing [])

def readAt (located : Except Error Path) (rel : String)
    (value : List UInt8 → Except Error (Value Text)) : Turn Text :=
  match located with
  | .error e => .raise tree e
  | .ok path =>
    match tree.content path with
    | none => .raise tree
        (.workspaceError ("Workspace file " ++ pyRepr rel ++ " does not exist."))
    | some content => ⟨tree,[.read path],value content⟩

/-- `read_text`, and the entry. -/
def entryOf (rel : String) (checked : Except Error Unit) (content : List UInt8) :
    Except Error (Value Text) := do
  let text ← expect (encoding.decode content) (.valueError "invalid start byte")
  checked
  pure (.entry rel "file" (some text))

/-- `write_text` to the file that was located, and the entry. The file is opened, and so emptied,
before the text is encoded. -/
def writeAt (located : Except Error Path) (rel : String) (missing : String)
    (checked : Except Error Unit) (content : Text) : Turn Text :=
  match located with
  | .error e => .raise tree e
  | .ok path =>
    if tree.isDir path.dropLast then
      match tree.write path ((encoding.encode content).getD []) with
      | .error e => .raise tree (.workspaceError
          ("Could not write workspace file " ++ pyRepr rel ++ ": " ++ e.text))
      | .ok written => ⟨written,[.write path],do
          require (encoding.encode content).isSome (.valueError "surrogates not allowed")
          checked
          pure (.entry rel "file" (some content))⟩
    else .raise tree (.workspaceError
      ("Parent directory of " ++ pyRepr rel ++ " does not exist; " ++ missing))

/-- `mkdir` at the path that was located, and the entry. -/
def createAt (located : Except Error Path) (rel : String) (checked : Except Error Unit) :
    Turn Text :=
  match located with
  | .error e => .raise tree e
  | .ok path =>
    match tree.makeDirs [] tree.rooted path with
    | .error e => .raise tree (.workspaceError
        ("Could not create workspace dir " ++ pyRepr rel ++ ": " ++ e.text))
    | .ok (made,created) => ⟨made,created.map .create,do
        checked
        pure (.entry rel "directory" none)⟩

end

/-- The calls of the file operations. -/
inductive Call (Text : Type) where
  | listWorkspace
  | readBytes (rel : String)
  | readText (rel : String)
  | listPrefix (pre : String)
  | writeText (rel : String) (content : Text)
  | createDir (rel : String)

def unslash (c : Char) : Char := if c = '\\' then '/' else c

/-- A text that names something below, also where backslashes separate names. -/
def isRelative (value : String) : Bool :=
  value ≠ "" && value.toList.head? ≠ some '/' && value.toList.head? ≠ some '\\' &&
    dotdot ∉ parts (value.toList.map unslash)

def requireRelativePath (value name : String) : Except Error Unit := do
  require (value ≠ "")
    (.valueError (name ++ " must be a non-empty string, got " ++ pyRepr value ++ "."))
  require (value.toList.head? ≠ some '/' && value.toList.head? ≠ some '\\')
    (.valueError (name ++ " must be relative, got " ++ pyRepr value ++ "."))
  require (dotdot ∉ parts (value.toList.map unslash))
    (.valueError (name ++ " must not contain '..' traversal, got " ++ pyRepr value ++ "."))

structure WorkspaceLayout where
  files : List String
  directories : List String
  prefixes : List String
  filesBelow : ∀ name ∈ files, isRelative name = true
  directoriesBelow : ∀ name ∈ directories, isRelative name = true
  prefixesBelow : ∀ pre ∈ prefixes, isRelative pre = true
  slashed : ∀ pre ∈ prefixes, pre.toList.getLast? = some '/'

theorem requireRelativePath_ok {value name : String} :
    requireRelativePath value name = .ok () ↔ isRelative value = true := by
  simp only [requireRelativePath,bind_ok,require_ok,exists_const,isRelative,Bool.and_eq_true,
    decide_eq_true_eq,and_assoc]

namespace WorkspaceLayout

def check (files directories prefixes : List String) : Except Error Unit := do
  forEach (fun name => requireRelativePath name "file path") files
  forEach (fun name => requireRelativePath name "directory path") directories
  forEach checkPrefix prefixes
where
  checkPrefix (pre : String) : Except Error Unit := do
    requireRelativePath pre "directory prefix"
    require (pre.toList.getLast? = some '/')
      (.valueError ("Directory prefix must end with '/', got " ++ pyRepr pre ++ "."))

theorem check_ok {files directories prefixes : List String}
    (h : check files directories prefixes = .ok ()) :
    (∀ name ∈ files, isRelative name = true) ∧ (∀ name ∈ directories, isRelative name = true) ∧
      ∀ pre ∈ prefixes, isRelative pre = true ∧ pre.toList.getLast? = some '/' := by
  obtain ⟨_,hfiles,h⟩ := bind_ok.mp h
  obtain ⟨_,hdirectories,h⟩ := bind_ok.mp h
  refine ⟨fun name hname => requireRelativePath_ok.mp (forEach_ok.mp hfiles name hname),
    fun name hname => requireRelativePath_ok.mp (forEach_ok.mp hdirectories name hname),?_⟩
  intro pre hpre
  obtain ⟨_,hrelative,hslash⟩ := bind_ok.mp (forEach_ok.mp h pre hpre)
  exact ⟨requireRelativePath_ok.mp hrelative,of_decide_eq_true (require_ok.mp hslash)⟩

def new (files directories prefixes : List String) : Except Error WorkspaceLayout :=
  match h : check files directories prefixes with
  | .error e => .error e
  | .ok () =>
    have hchecked := check_ok h
    .ok ⟨files,directories,prefixes,hchecked.1,hchecked.2.1,
      fun pre hpre => (hchecked.2.2 pre hpre).1,fun pre hpre => (hchecked.2.2 pre hpre).2⟩

def allowsFile (layout : WorkspaceLayout) (rel : String) : Bool := rel ∈ layout.files

def allowsDirectory (layout : WorkspaceLayout) (rel : String) : Bool := rel ∈ layout.directories

def allowsPath (layout : WorkspaceLayout) (rel : String) : Bool :=
  layout.allowsFile rel || layout.prefixes.any fun pre => startsWith rel pre

end WorkspaceLayout

/-- A root, by the names of its resolved path, and what is allowed under it. -/
structure Workspace where
  root : Path
  layout : WorkspaceLayout

namespace Workspace
variable {Text : Type} (encoding : Encoding Text) (workspace : Workspace)

def locateFile (rel : String) : Except Error Path := do
  require (workspace.layout.allowsPath rel)
    (.workspaceError ("Path " ++ pyRepr rel ++ " is not on the workspace allowlist."))
  resolve workspace.root rel

def locateDirectory (rel : String) : Except Error Path := do
  require (workspace.layout.allowsDirectory rel) (.workspaceError
    ("Path " ++ pyRepr rel ++ " is not on the workspace directory allowlist."))
  resolve workspace.root rel

def listWorkspace (tree : Tree) : Turn Text :=
  listEntries tree workspace.root workspace.layout.files workspace.layout.directories

def readBytes (rel : String) (tree : Tree) : Turn Text :=
  readAt tree (workspace.locateFile rel) rel fun content => .ok (.bytes content)

def readWorkspaceFile (rel : String) (tree : Tree) : Turn Text :=
  readAt tree (workspace.locateFile rel) rel
    (entryOf encoding rel (requireRelativePath rel "relative_path"))

def listPrefix (pre : String) (tree : Tree) : Turn Text :=
  listUnder tree workspace.root workspace.layout.prefixes pre

def writeWorkspaceFile (rel : String) (content : Text) (tree : Tree) : Turn Text :=
  writeAt encoding tree (workspace.locateFile rel) rel "create it with create_workspace_dir first."
    (requireRelativePath rel "relative_path") content

def createWorkspaceDir (rel : String) (tree : Tree) : Turn Text :=
  createAt tree (workspace.locateDirectory rel) rel (requireRelativePath rel "relative_path")

def call : Call Text → Tree → Turn Text
  | .listWorkspace => workspace.listWorkspace
  | .readBytes rel => workspace.readBytes rel
  | .readText rel => workspace.readWorkspaceFile encoding rel
  | .listPrefix pre => workspace.listPrefix pre
  | .writeText rel content => workspace.writeWorkspaceFile encoding rel content
  | .createDir rel => workspace.createWorkspaceDir rel

end Workspace

namespace Cbp

structure WorkspaceLayout where
  files : List String
  directories : List String
  prefixes : List String

def slashed (pre : String) : String := if pre.toList.getLast? = some '/' then pre else pre ++ "/"

namespace WorkspaceLayout

def allows (layout : WorkspaceLayout) (rel : String) : Bool :=
  decide (rel ∈ layout.files) || decide (rel ∈ layout.directories) ||
    layout.prefixes.any fun pre => startsWith rel (slashed pre)

def allowsDirectory (layout : WorkspaceLayout) (rel : String) : Bool := rel ∈ layout.directories

end WorkspaceLayout

structure WorkspaceFS where
  root : Path
  layout : WorkspaceLayout

namespace WorkspaceFS
variable {Text : Type} (encoding : Encoding Text) (workspace : WorkspaceFS)

def locateFile (rel : String) : Except Error Path := do
  let path ← resolve workspace.root rel
  require (workspace.layout.allows rel)
    (.workspaceError ("Path " ++ pyRepr rel ++ " is not on the workspace allowlist."))
  pure path

def locateDirectory (rel : String) : Except Error Path := do
  require (workspace.layout.allowsDirectory rel) (.workspaceError
    ("Path " ++ pyRepr rel ++ " is not on the workspace directory allowlist."))
  resolve workspace.root rel

def listWorkspace (tree : Tree) : Turn Text :=
  listEntries tree workspace.root workspace.layout.files workspace.layout.directories

def readBytes (rel : String) (tree : Tree) : Turn Text :=
  readAt tree (workspace.locateFile rel) rel fun content => .ok (.bytes content)

def readText (rel : String) (tree : Tree) : Turn Text :=
  readAt tree (workspace.locateFile rel) rel (entryOf encoding rel (.ok ()))

def listPrefix (pre : String) (tree : Tree) : Turn Text :=
  listUnder tree workspace.root workspace.layout.prefixes pre

def writeText (rel : String) (content : Text) (tree : Tree) : Turn Text :=
  writeAt encoding tree (workspace.locateFile rel) rel "create it first." (.ok ()) content

def createDir (rel : String) (tree : Tree) : Turn Text :=
  createAt tree (workspace.locateDirectory rel) rel (.ok ())

def call : Call Text → Tree → Turn Text
  | .listWorkspace => workspace.listWorkspace
  | .readBytes rel => workspace.readBytes rel
  | .readText rel => workspace.readText encoding rel
  | .listPrefix pre => workspace.listPrefix pre
  | .writeText rel content => workspace.writeText encoding rel content
  | .createDir rel => workspace.createDir rel

end WorkspaceFS
end Cbp
end AgentCentric.Files

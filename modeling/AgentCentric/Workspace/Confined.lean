import AgentCentric.Workspace.Mediated

namespace AgentCentric.Files
open PathWalk

structure Allowlist where
  root : Path
  entries : List String
  prefixes : List String

def Allowlist.Covers (list : Allowlist) (path : Path) : Prop :=
  (∃ entry ∈ list.entries, place list.root entry.toList = list.root ++ path) ∨
    ∃ pre ∈ list.prefixes, ∃ rest, rest ≠ [] ∧
      list.root ++ path = place list.root pre.toList ++ rest

def Workspace.allowlist (workspace : Workspace) : Allowlist :=
  ⟨workspace.root,workspace.layout.files ++ workspace.layout.directories,
    workspace.layout.prefixes⟩

def Cbp.WorkspaceFS.allowlist (workspace : Cbp.WorkspaceFS) : Allowlist :=
  ⟨workspace.root,workspace.layout.files ++ workspace.layout.directories,
    workspace.layout.prefixes.map Cbp.slashed⟩

def Effect.path : Effect → Path
  | read path => path
  | write path => path
  | create path => path

def Effect.changes : Effect → Bool
  | read _ => false
  | _ => true

/-- Only what is covered is touched, only what is touched changes, and a call that raises has
written nothing. -/
structure Turn.Confined {Text : Type} (list : Allowlist) (tree : Tree) (turn : Turn Text) :
    Prop where
  covered : ∀ effect ∈ turn.effects, list.Covers effect.path
  framed : ∀ path, turn.tree.get path ≠ tree.get path →
    ∃ effect ∈ turn.effects, effect.changes = true ∧ effect.path = path
  raised : ∀ e, turn.result = .error e →
    turn.tree = tree ∧ ∀ effect ∈ turn.effects, effect.changes = false

/-- `P` of every call of a run, and the tree that it finds. -/
def Along {Text : Type} (call : Call Text → Tree → Turn Text) (P : Call Text → Tree → Prop) :
    List (Call Text) → Tree → Prop
  | [], _ => True
  | c :: calls, tree => P c tree ∧ Along call P calls (call c tree).tree

theorem Along.mono {Text : Type} {call : Call Text → Tree → Turn Text}
    {P Q : Call Text → Tree → Prop} (h : ∀ c tree, P c tree → Q c tree) {calls : List (Call Text)}
    {tree : Tree} (hrun : Along call P calls tree) : Along call Q calls tree := by
  induction calls generalizing tree with
  | nil => trivial
  | cons c calls ih => exact ⟨h c tree hrun.1,ih hrun.2⟩

/-- An entry, or a prefix with names that never lead out of it. -/
def Allowlist.Straight (list : Allowlist) (rel : String) : Prop :=
  rel ∈ list.entries ∨ ∃ pre ∈ list.prefixes, ∃ rest, rel.toList = pre.toList ++ rest ∧
    staysBelow 0 (parts rest) = true

theorem resolve_ok {root path : Path} {rel : String} (h : resolve root rel = .ok path) :
    place root rel.toList = root ++ path := by
  obtain ⟨_,-,h⟩ := bind_ok.mp h
  obtain ⟨_,-,h⟩ := bind_ok.mp h
  obtain ⟨_,hroot,h⟩ := bind_ok.mp h
  obtain rfl := Except.ok.inj h
  obtain ⟨rest,hrest⟩ := List.isPrefixOf_iff_prefix.mp (require_ok.mp hroot)
  rw [← hrest,List.drop_left]

theorem place_append (root : Path) {pre rest : List Char} (h : pre.getLast? = some '/') :
    place root (pre ++ rest) = walk (place root pre) (parts rest) := by
  obtain ⟨front,rfl⟩ := List.getLast?_eq_some_iff.mp h
  have hparts : parts (front ++ ['/'] ++ rest) = parts (front ++ ['/']) ++ parts rest := by
    have hfront := parts_append front []
    rw [List.append_assoc,List.cons_append,List.nil_append,parts_append,hfront]
    have hnil : parts [] = [] := rfl
    rw [hnil,List.append_nil]
  have hhead : (front ++ ['/'] ++ rest).head? = (front ++ ['/']).head? := by
    cases front <;> rfl
  rw [place,place,hhead,hparts]
  split
  · exact walk_append _ _ _
  · exact walk_append _ _ _

theorem covers_of_straight {list : Allowlist} (hslash : ∀ pre ∈ list.prefixes,
      pre.toList.getLast? = some '/') {rel : String} {path : Path}
    (hresolve : resolve list.root rel = .ok path) (h : list.Straight rel) : list.Covers path := by
  have hplace := resolve_ok hresolve
  rcases h with hentry | ⟨pre,hpre,rest,heq,hbelow⟩
  · exact .inl ⟨rel,hentry,hplace⟩
  · rw [heq,place_append _ (hslash pre hpre)] at hplace
    have hstart : staysBelow ([] : Path).length (parts rest) = true := hbelow
    obtain ⟨below,hne,hwalk⟩ := walk_staysBelow hstart
    rw [List.append_nil] at hwalk
    exact .inr ⟨pre,hpre,below,hne,hplace.symm.trans hwalk⟩

section
variable {Text : Type} {encoding : Encoding Text} {list : Allowlist} {tree : Tree}
  {located : Except Error Path} {rel missing : String} {checked : Except Error Unit}

theorem confined_raise (e : Error) : (Turn.raise tree e : Turn Text).Confined list tree :=
  ⟨fun _ h => (by cases h),fun _ h => absurd rfl h,fun _ _ => ⟨rfl,fun _ h => by cases h⟩⟩

theorem confined_look (result : Except Error (Value Text)) :
    (⟨tree,[],result⟩ : Turn Text).Confined list tree :=
  ⟨fun _ h => (by cases h),fun _ h => absurd rfl h,fun _ _ => ⟨rfl,fun _ h => by cases h⟩⟩

theorem readAt_confined {value : List UInt8 → Except Error (Value Text)}
    (h : ∀ path, located = .ok path → (tree.content path).isSome → list.Covers path) :
    (readAt tree located rel value).Confined list tree := by
  rw [readAt.eq_def]
  split
  · exact confined_raise _
  · rename_i path
    split
    · exact confined_raise _
    · rename_i content hcontent
      refine ⟨?_,fun _ hne => absurd rfl hne,fun _ _ => ⟨rfl,?_⟩⟩
      · intro effect heffect
        obtain rfl := List.mem_singleton.mp heffect
        exact h path rfl (hcontent ▸ rfl)
      · intro effect heffect
        obtain rfl := List.mem_singleton.mp heffect
        rfl

def Writable (tree : Tree) (path : Path) : Prop :=
  tree.isDir path.dropLast = true ∧ tree.isDir path = false

theorem writeAt_confined {content : Text} (h : ∀ path, located = .ok path → Writable tree path →
      list.Covers path ∧ checked = .ok () ∧ (encoding.encode content).isSome) :
    (writeAt encoding tree located rel missing checked content).Confined list tree := by
  rw [writeAt.eq_def]
  split
  · exact confined_raise _
  · rename_i path
    split
    · rename_i hparent
      split
      · exact confined_raise _
      · rename_i written hwritten
        have hfree : tree.isDir path = false := by
          rw [Tree.write] at hwritten
          split at hwritten
          · rename_i hfree
            exact decide_eq_false hfree
          · cases hwritten
        obtain ⟨hcovers,hchecked,hencoded⟩ := h path rfl ⟨hparent,hfree⟩
        refine ⟨?_,?_,?_⟩
        · intro effect heffect
          obtain rfl := List.mem_singleton.mp heffect
          exact hcovers
        · intro q hq
          by_cases hpath : path = q
          · exact ⟨.write path,List.mem_singleton_self _,rfl,hpath⟩
          · exact absurd (Tree.write_frame hwritten q hpath) hq
        · intro e he
          rw [hencoded,hchecked] at he
          cases he
    · exact confined_raise _

/-- If a directory can be made, what is missing above it is covered. -/
def Ancestry (list : Allowlist) (tree : Tree) (path : Path) : Prop :=
  (∃ made, tree.makeDirs [] tree.rooted path = .ok made) →
    ∀ front back, front ≠ [] → back ≠ [] → path = front ++ back → tree.get front = none →
      list.Covers front

theorem createAt_confined (h : ∀ path, located = .ok path → list.Covers path ∧
      Ancestry list tree path ∧ checked = .ok ()) :
    (createAt tree located rel checked : Turn Text).Confined list tree := by
  rw [createAt.eq_def]
  split
  · exact confined_raise _
  · rename_i path
    split
    · exact confined_raise _
    · rename_i made created hmade
      obtain ⟨hcovers,hancestry,hchecked⟩ := h path rfl
      obtain ⟨hkept,hcreated⟩ := Tree.makeDirs_frame hmade
      refine ⟨?_,?_,?_⟩
      · intro effect heffect
        obtain ⟨q,hq,rfl⟩ := List.mem_map.mp heffect
        obtain ⟨hmissing,front,back,hne,hpath,rfl⟩ := hcreated q hq
        by_cases hback : back = []
        · rw [hback,List.append_nil] at hpath
          exact hpath ▸ hcovers
        · exact hancestry ⟨_,hmade⟩ q back hne hback hpath hmissing
      · intro q hq
        by_cases hin : q ∈ created
        · exact ⟨.create q,List.mem_map_of_mem hin,rfl,rfl⟩
        · exact absurd (hkept q hin) hq
      · intro e he
        rw [hchecked] at he
        cases he

/-- What a call must not meet: a path that a dotted name leads out of its prefix, with a file to
read or write there; a text that cannot be written, or an entry that cannot be told; a directory
with a missing one above it that is not allowed. -/
def Allowlist.Sound (list : Allowlist) (encoding : Encoding Text)
    (locateFile locateDirectory : String → Except Error Path) (told : String → Prop) :
    Call Text → Tree → Prop
  | .readBytes rel, tree | .readText rel, tree =>
    ∀ path, locateFile rel = .ok path → (tree.content path).isSome → list.Straight rel
  | .writeText rel content, tree =>
    ∀ path, locateFile rel = .ok path → Writable tree path →
      list.Straight rel ∧ told rel ∧ (encoding.encode content).isSome
  | .createDir rel, tree => ∀ path, locateDirectory rel = .ok path → Ancestry list tree path
  | _, _ => True

end

namespace Workspace
variable {Text : Type} (encoding : Encoding Text) (workspace : Workspace)

def Sound : Call Text → Tree → Prop :=
  workspace.allowlist.Sound encoding workspace.locateFile workspace.locateDirectory
    fun rel => isRelative rel = true

theorem locateFile_ok {rel : String} {path : Path} (h : workspace.locateFile rel = .ok path) :
    resolve workspace.root rel = .ok path := by
  obtain ⟨_,-,h⟩ := bind_ok.mp h
  exact h

theorem locateDirectory_ok {rel : String} {path : Path}
    (h : workspace.locateDirectory rel = .ok path) :
    rel ∈ workspace.layout.directories ∧ resolve workspace.root rel = .ok path := by
  obtain ⟨_,hallowed,h⟩ := bind_ok.mp h
  exact ⟨of_decide_eq_true (require_ok.mp hallowed),h⟩

theorem call_confined {call : Call Text} {tree : Tree} (h : workspace.Sound encoding call tree) :
    (workspace.call encoding call tree).Confined workspace.allowlist tree := by
  have hcovers {rel : String} {path : Path} (hlocate : workspace.locateFile rel = .ok path)
      (hstraight : workspace.allowlist.Straight rel) : workspace.allowlist.Covers path :=
    covers_of_straight workspace.layout.slashed (workspace.locateFile_ok hlocate) hstraight
  cases call with
  | listWorkspace => exact confined_look _
  | listPrefix pre => exact confined_look _
  | readBytes rel =>
    exact readAt_confined fun path hlocate hfile => hcovers hlocate (h path hlocate hfile)
  | readText rel =>
    exact readAt_confined fun path hlocate hfile => hcovers hlocate (h path hlocate hfile)
  | writeText rel content =>
    apply writeAt_confined
    intro path hlocate hwritable
    obtain ⟨hstraight,htold,hencoded⟩ := h path hlocate hwritable
    exact ⟨hcovers hlocate hstraight,requireRelativePath_ok.mpr htold,hencoded⟩
  | createDir rel =>
    apply createAt_confined
    intro path hlocate
    obtain ⟨hrel,hresolve⟩ := workspace.locateDirectory_ok hlocate
    refine ⟨.inl ⟨rel,List.mem_append_right _ hrel,resolve_ok hresolve⟩,h path hlocate,?_⟩
    exact requireRelativePath_ok.mpr (workspace.layout.directoriesBelow rel hrel)

end Workspace

namespace Cbp.WorkspaceFS
variable {Text : Type} (encoding : Encoding Text) (workspace : WorkspaceFS)

def Sound : Call Text → Tree → Prop :=
  workspace.allowlist.Sound encoding workspace.locateFile workspace.locateDirectory fun _ => True

theorem slashed_slash (pre : String) : (slashed pre).toList.getLast? = some '/' := by
  rw [slashed]
  split
  · assumption
  · rw [String.toList_append]
    exact List.getLast?_concat

theorem locateFile_ok {rel : String} {path : Path} (h : workspace.locateFile rel = .ok path) :
    resolve workspace.root rel = .ok path := by
  obtain ⟨found,hfound,h⟩ := bind_ok.mp h
  obtain ⟨_,-,h⟩ := bind_ok.mp h
  obtain rfl := Except.ok.inj h
  exact hfound

theorem locateDirectory_ok {rel : String} {path : Path}
    (h : workspace.locateDirectory rel = .ok path) :
    rel ∈ workspace.layout.directories ∧ resolve workspace.root rel = .ok path := by
  obtain ⟨_,hallowed,h⟩ := bind_ok.mp h
  exact ⟨of_decide_eq_true (require_ok.mp hallowed),h⟩

theorem call_confined {call : Call Text} {tree : Tree} (h : workspace.Sound encoding call tree) :
    (workspace.call encoding call tree).Confined workspace.allowlist tree := by
  have hslash : ∀ pre ∈ workspace.allowlist.prefixes, pre.toList.getLast? = some '/' := by
    intro pre hpre
    obtain ⟨given,-,rfl⟩ := List.mem_map.mp hpre
    exact slashed_slash given
  have hcovers {rel : String} {path : Path} (hlocate : workspace.locateFile rel = .ok path)
      (hstraight : workspace.allowlist.Straight rel) : workspace.allowlist.Covers path :=
    covers_of_straight hslash (workspace.locateFile_ok hlocate) hstraight
  cases call with
  | listWorkspace => exact confined_look _
  | listPrefix pre => exact confined_look _
  | readBytes rel =>
    exact readAt_confined fun path hlocate hfile => hcovers hlocate (h path hlocate hfile)
  | readText rel =>
    exact readAt_confined fun path hlocate hfile => hcovers hlocate (h path hlocate hfile)
  | writeText rel content =>
    apply writeAt_confined
    intro path hlocate hwritable
    obtain ⟨hstraight,-,hencoded⟩ := h path hlocate hwritable
    exact ⟨hcovers hlocate hstraight,rfl,hencoded⟩
  | createDir rel =>
    apply createAt_confined
    intro path hlocate
    obtain ⟨hrel,hresolve⟩ := workspace.locateDirectory_ok hlocate
    exact ⟨.inl ⟨rel,List.mem_append_right _ hrel,resolve_ok hresolve⟩,h path hlocate,rfl⟩

end Cbp.WorkspaceFS

/-- In a run of either class whose calls are all sound, every call is confined. -/
theorem runs_confined {Text : Type} (encoding : Encoding Text) (calls : List (Call Text))
    (tree : Tree) :
    (∀ workspace : Workspace,
      Along (workspace.call encoding) (workspace.Sound encoding) calls tree →
        Along (workspace.call encoding) (fun call tree =>
          (workspace.call encoding call tree).Confined workspace.allowlist tree) calls tree) ∧
    ∀ workspace : Cbp.WorkspaceFS,
      Along (workspace.call encoding) (workspace.Sound encoding) calls tree →
        Along (workspace.call encoding) (fun call tree =>
          (workspace.call encoding call tree).Confined workspace.allowlist tree) calls tree :=
  ⟨fun workspace h => h.mono fun _ _ => workspace.call_confined encoding,
    fun workspace h => h.mono fun _ _ => workspace.call_confined encoding⟩

namespace Sample

def verbatim : Encoding (List UInt8) := ⟨some,some⟩

def inbox : Name := ['i','n','b','o','x']
def secret : Name := ['s','e','c','r','e','t']

theorem no_files : ∀ name ∈ ([] : List String), isRelative name = true := by decide

def workspace : Workspace where
  root := [['w']]
  layout := ⟨[],["inbox"],["inbox/"],no_files,by decide +kernel,by decide +kernel,by decide⟩

def beside : Tree :=
  (Tree.empty.put [inbox] .directory (by decide) (by decide) (by decide)).put [secret] (.file [42])
    (by decide) (by decide) (by decide)

def calls : List (Call (List UInt8)) :=
  [.createDir "inbox",.writeText "inbox/a" [1],.readBytes "inbox/a"]

theorem calls_sound :
    Along (workspace.call verbatim) (workspace.Sound verbatim) calls Tree.empty := by
  have hstraight : workspace.allowlist.Straight "inbox/a" :=
    .inr ⟨"inbox/",by decide,['a'],by decide,by decide +kernel⟩
  refine ⟨?_,fun _ _ _ => ⟨hstraight,by decide +kernel,rfl⟩,fun _ _ _ => hstraight,trivial⟩
  intro path hlocate _ front back hfront hback hpath
  have hinbox : workspace.locateDirectory "inbox" = .ok [inbox] := by decide +kernel
  obtain rfl := Except.ok.inj (hinbox.symm.trans hlocate)
  have hlength := congrArg List.length hpath
  rw [List.length_append,List.length_singleton] at hlength
  have hfront' := List.length_pos_iff.mpr hfront
  have hback' := List.length_pos_iff.mpr hback
  omega

end Sample

theorem runs_confined_inbox : Along (Sample.workspace.call Sample.verbatim) (fun call tree =>
    (Sample.workspace.call Sample.verbatim call tree).Confined Sample.workspace.allowlist tree)
      Sample.calls Tree.empty :=
  (runs_confined Sample.verbatim Sample.calls Tree.empty).1 Sample.workspace Sample.calls_sound

/-- Dotted names lead a read out of its prefix. -/
theorem prefix_left : ¬∀ (Text : Type) (encoding : Encoding Text) (workspace : Workspace)
    (calls : List (Call Text)) (tree : Tree), Along (workspace.call encoding) (fun call tree =>
      (workspace.call encoding call tree).Confined workspace.allowlist tree) calls tree := by
  intro h
  have hrun := (h _ Sample.verbatim Sample.workspace [.readBytes "inbox/../secret"]
    Sample.beside).1
  have hread : (Sample.workspace.call Sample.verbatim (.readBytes "inbox/../secret")
      Sample.beside).effects = [.read [Sample.secret]] := by decide +kernel
  have hplaces : ∀ text ∈ ["inbox","inbox/"], place Sample.workspace.root text.toList =
      [['w'],Sample.inbox] := by decide +kernel
  rcases hrun.covered (.read [Sample.secret]) (hread ▸ List.mem_singleton_self _) with
    ⟨entry,hentry,hplace⟩ | ⟨pre,hpre,rest,-,hplace⟩
  · obtain rfl := List.mem_singleton.mp hentry
    rw [show Sample.workspace.allowlist.root = Sample.workspace.root from rfl,
      hplaces _ (by simp)] at hplace
    exact absurd hplace (by decide)
  · obtain rfl := List.mem_singleton.mp hpre
    rw [show Sample.workspace.allowlist.root = Sample.workspace.root from rfl,
      hplaces _ (by simp)] at hplace
    have hsecond : some Sample.secret = some Sample.inbox :=
      congrArg (fun path : Path => path[1]?) hplace
    exact absurd hsecond (by decide)

end AgentCentric.Files

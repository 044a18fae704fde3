import Mathlib.Data.Rat.Floor
import AgentCentric.Library.JsonLines
import AgentCentric.Library.JsonAccess

namespace AgentCentric.Ui
open Json

/-- An exception: a `UIError`, `SandboxError` with it, or any other. -/
inductive Raised where
  | refused : String → Raised
  | escaped : String → Raised
  deriving DecidableEq

/-- The nodes of a tree. -/
inductive NodeKind where
  | view | heading | text | field | list | table
  deriving DecidableEq

def NodeKind.ofJson : Json → Option NodeKind
  | .str "view" => some .view
  | .str "heading" => some .heading
  | .str "text" => some .text
  | .str "field" => some .field
  | .str "list" => some .list
  | .str "table" => some .table
  | _ => none

def get (node : List (String × Json)) (key : String) (default : Json) : Json :=
  (Dict.lookup node key).getD default

def kindOf (node : List (String × Json)) : Option NodeKind :=
  NodeKind.ofJson (get node "node" .null)

/-- `str(value)`. -/
def pyStr : Json → String
  | .str s => s
  | other => other.repr

def textAt (node : List (String × Json)) (key : String) : String := pyStr (get node key (.str ""))

/-- `for item in value`. -/
def iterate : Json → Except Raised (List Json)
  | .list xs => .ok xs
  | .str s => .ok (s.toList.map fun c => .str (String.ofList [c]))
  | .dict items => .ok (items.map fun item => .str item.1)
  | other => .error (.escaped ("'" ++ other.typeName ++ "' object is not iterable"))

def notMapping (value : Json) : Raised :=
  .escaped ("'" ++ value.typeName ++ "' object has no attribute 'get'")

/-- How a medium writes a tree: a view around what its children came to, and the other nodes. -/
structure Medium (α : Type) where
  view : List (String × Json) → List α → α
  leaf : NodeKind → List (String × Json) → Except Raised α

mutual

def draw {α : Type} (M : Medium α) : Json → Except Raised α
  | .dict node =>
    match kindOf node with
    | some .view => (drawField M node).map (M.view node)
    | some kind => M.leaf kind node
    | none => .error (.refused ("unsupported UI tree node: " ++ (get node "node" .null).repr))
  | other => .error (notMapping other)

def drawField {α : Type} (M : Medium α) : List (String × Json) → Except Raised (List α)
  | [] => .ok []
  | (key,value) :: rest => if key = "children" then drawEach M value else drawField M rest

/-- What is iterated over: the characters of a text and the keys of a mapping are no nodes. -/
def drawEach {α : Type} (M : Medium α) : Json → Except Raised (List α)
  | .list children => drawAll M children
  | .str s => if s = "" then .ok [] else .error (notMapping (.str s))
  | .dict items => if items.isEmpty then .ok [] else .error (notMapping (.str ""))
  | other => .error (.escaped ("'" ++ other.typeName ++ "' object is not iterable"))

def drawAll {α : Type} (M : Medium α) : List Json → Except Raised (List α)
  | [] => .ok []
  | child :: rest => do
    let first ← draw M child
    let others ← drawAll M rest
    pure (first :: others)

end

/-- `int(value)`. The integer that a text stands for is Python's. -/
def pyInt (intOf : String → Option Int) : Json → Except Raised Int
  | .int n => .ok n
  | .bool b => .ok b.toNat
  | .decimal d => .ok (if 0 ≤ d.value then ⌊d.value⌋ else ⌈d.value⌉)
  | .nan => .error (.escaped "cannot convert float NaN to integer")
  | .infinity | .negInfinity => .error (.escaped "cannot convert float infinity to integer")
  | .str s =>
    match intOf s with
    | some n => .ok n
    | none => .error (.escaped ("invalid literal for int() with base 10: " ++ pyRepr s))
  | other => .error (.escaped ("int() argument must be a string, a bytes-like object or a real " ++
      "number, not '" ++ other.typeName ++ "'"))

def header (node : List (String × Json)) : String :=
  "[" ++ textAt node "assurance" ++ " / " ++ textAt node "provenance" ++ "] schema=" ++
    textAt node "schema"

def joined (separator : String) (texts : List String) : String :=
  String.intercalate separator texts

def ljust (width : Nat) (text : String) : String :=
  text ++ String.ofList (List.replicate (width - text.length) ' ')

def rstrip (text : String) : String :=
  String.ofList (text.toList.reverse.dropWhile JsonLines.isSpace).reverse

def tableLines (columns : List String) (rows : List (List String)) :
    Except Raised (List String) :=
  if rows.any (fun row => row.length < columns.length) then
    .error (.escaped "list index out of range")
  else
    let widths := columns.mapIdx fun i column =>
      (column.length :: rows.map fun row => (row.getD i "").length).foldl max 0
    let rowText (cells : List String) := rstrip (joined " | " (List.zipWith ljust widths cells))
    .ok (rowText columns ::
      joined "-+-" (widths.map fun width => String.ofList (List.replicate width '-')) ::
      rows.map rowText)

def cliLeaf (intOf : String → Option Int) (kind : NodeKind) (node : List (String × Json)) :
    Except Raised (List String) :=
  match kind with
  | .view => .ok []
  | .heading => do
    let level ← pyInt intOf (get node "level" (.int 1))
    require (-2 ^ 63 ≤ level ∧ level < 2 ^ 63)
      (.escaped "cannot fit 'int' into an index-sized integer")
    pure [String.ofList (List.replicate level.toNat '#') ++ " " ++ textAt node "text"]
  | .text => .ok [textAt node "text"]
  | .field => .ok [textAt node "label" ++ ": " ++ textAt node "value"]
  | .list => do
    let items ← iterate (get node "items" (.list []))
    pure (items.mapIdx fun i item =>
      (if (get node "ordered" .null).truthy then toString (i + 1) ++ ". " else "- ") ++ pyStr item)
  | .table => do
    let columns ← iterate (get node "columns" (.list []))
    let rows ← iterate (get node "rows" (.list []))
    let cells ← rows.mapM iterate
    tableLines (columns.map pyStr) (cells.map fun row => row.map pyStr)

def cli (intOf : String → Option Int) : Medium (List String) where
  view node children := ("# " ++ textAt node "title") :: header node :: children.flatten
  leaf := cliLeaf intOf

def cliLines (intOf : String → Option Int) : Json → Except Raised (List String) :=
  draw (cli intOf)

def escapeChar (c : Char) : String :=
  if c = '&' then "&amp;"
  else if c = '<' then "&lt;"
  else if c = '>' then "&gt;"
  else if c = Char.ofNat 34 then "&quot;"
  else if c = Char.ofNat 39 then "&#x27;"
  else String.ofList [c]

def escape (text : String) : String := String.join (text.toList.map escapeChar)

def escapedAt (node : List (String × Json)) (key : String) : String := escape (textAt node key)

def tag (name content : String) : String := "<" ++ name ++ ">" ++ content ++ "</" ++ name ++ ">"

def webView (accent : String) (node : List (String × Json)) (children : List String) : String :=
  "<section class=\"cbp-view\" data-schema=\"" ++ escapedAt node "schema" ++
    "\" data-assurance=\"" ++ escapedAt node "assurance" ++
    "\" data-provenance=\"" ++ escapedAt node "provenance" ++
    "\" style=\"--cbp-accent:" ++ escape accent ++ "\">" ++
    tag "h1" (escapedAt node "title") ++
    "<p class=\"cbp-assurance\">assurance: " ++ escapedAt node "assurance" ++
    " &middot; provenance: " ++ escapedAt node "provenance" ++ "</p>" ++
    String.join children ++ "</section>"

def webLeaf (intOf : String → Option Int) (kind : NodeKind) (node : List (String × Json)) :
    Except Raised String :=
  match kind with
  | .view => .ok ""
  | .heading => do
    let level ← pyInt intOf (get node "level" (.int 1))
    pure (tag ("h" ++ toString (min (max level 1) 6)) (escapedAt node "text"))
  | .text => .ok (tag "p" (escapedAt node "text"))
  | .field => .ok ("<p class=\"cbp-field\"><span class=\"cbp-label\">" ++
      escapedAt node "label" ++ "</span>: <span class=\"cbp-value\">" ++ escapedAt node "value" ++
      "</span></p>")
  | .list => do
    let items ← iterate (get node "items" (.list []))
    pure (tag (if (get node "ordered" .null).truthy then "ol" else "ul")
      (String.join (items.map fun item => tag "li" (escape (pyStr item)))))
  | .table => do
    let columns ← iterate (get node "columns" (.list []))
    let rows ← iterate (get node "rows" (.list []))
    let cells ← rows.mapM iterate
    let head := tag "thead" (tag "tr"
      (String.join (columns.map fun column => tag "th" (escape (pyStr column)))))
    let body := tag "tbody" (String.join (cells.map fun row =>
      tag "tr" (String.join (row.map fun cell => tag "td" (escape (pyStr cell))))))
    pure (tag "table" (head ++ body))

def web (intOf : String → Option Int) (accent : String) : Medium String where
  view := webView accent
  leaf := webLeaf intOf

def webFragment (intOf : String → Option Int) (accent : String) : Json → Except Raised String :=
  draw (web intOf accent)

end AgentCentric.Ui

import AgentCentric.Library.Dict
import Mathlib.Data.List.Forall2

namespace AgentCentric.Html

inductive Tag where
  | opening (name : List Char) (keys : List (List Char))
  | closing (name : List Char)
  | declaration
  deriving DecidableEq

/-- Where a reader stands: in text, after `<`, in a declaration, in the name of a closing or of an
opening tag, between attributes, in the name of one, after its `=` and in its value. -/
inductive Place where
  | text
  | opened
  | declared
  | closing (name : List Char)
  | naming (name : List Char)
  | inside (name : List Char) (keys : List (List Char))
  | key (name : List Char) (keys : List (List Char)) (letters : List Char)
  | equals (name : List Char) (keys : List (List Char))
  | quoted (quote : Char) (name : List Char) (keys : List (List Char))
  deriving DecidableEq

def nameChar (c : Char) : Bool := c.isAlphanum || c == '-'

/-- One character, and the tag that ends with it. A strict reader stops at what is no markup. -/
def step : Place → Char → Option (Place × List Tag)
  | .text, c => some (if c = '<' then .opened else .text,[])
  | .opened, c =>
    if c = '!' then some (.declared,[])
    else if c = '/' then some (.closing [],[])
    else if c.isAlpha then some (.naming [c],[])
    else none
  | .declared, c => if c = '>' then some (.text,[.declaration]) else some (.declared,[])
  | .closing name, c =>
    if c = '>' ∧ name ≠ [] then some (.text,[.closing name])
    else if nameChar c then some (.closing (name ++ [c]),[])
    else none
  | .naming name, c =>
    if c = '>' then some (.text,[.opening name []])
    else if c = ' ' then some (.inside name [],[])
    else if nameChar c then some (.naming (name ++ [c]),[])
    else none
  | .inside name keys, c =>
    if c = '>' then some (.text,[.opening name keys])
    else if c = ' ' then some (.inside name keys,[])
    else if nameChar c then some (.key name keys [c],[])
    else none
  | .key name keys letters, c =>
    if c = '>' then some (.text,[.opening name (keys ++ [letters])])
    else if c = ' ' then some (.inside name (keys ++ [letters]),[])
    else if c = '=' then some (.equals name (keys ++ [letters]),[])
    else if nameChar c then some (.key name keys (letters ++ [c]),[])
    else none
  | .equals name keys, c =>
    if c = Char.ofNat 34 ∨ c = Char.ofNat 39 then some (.quoted c name keys,[]) else none
  | .quoted quote name keys, c =>
    some (if c = quote then .inside name keys else .quoted quote name keys,[])

def run : Place → List Char → Option (Place × List Tag)
  | p, [] => some (p,[])
  | p, c :: cs => (step p c).bind fun first =>
    (run first.1 cs).map fun rest => (rest.1,first.2 ++ rest.2)

def tags (text : String) : Option (List Tag) :=
  match run .text text.toList with
  | some (.text,found) => some found
  | _ => none

def Reads (p : Place) (cs : List Char) (q : Place) (found : List Tag) : Prop :=
  run p cs = some (q,found)

instance (p : Place) (cs : List Char) (q : Place) (found : List Tag) :
    Decidable (Reads p cs q found) := inferInstanceAs (Decidable (_ = _))

theorem Reads.append {p q r : Place} {cs ds : List Char} {found more : List Tag}
    (h : Reads p cs q found) (hmore : Reads q ds r more) :
    Reads p (cs ++ ds) r (found ++ more) := by
  induction cs generalizing p found with
  | nil =>
    cases h
    exact hmore
  | cons c cs ih =>
    rw [Reads,run,Option.bind_eq_some_iff] at h
    obtain ⟨first,hfirst,h⟩ := h
    obtain ⟨rest,hrest,heq⟩ := Option.map_eq_some_iff.1 h
    cases heq
    rw [Reads,List.cons_append,run,hfirst,Option.bind_some,ih hrest,Option.map_some,
      List.append_assoc]

/-- What opens no tag is text. -/
theorem reads_text {cs : List Char} (h : '<' ∉ cs) : Reads .text cs .text [] := by
  induction cs with
  | nil => rfl
  | cons c cs ih =>
    rw [List.mem_cons,not_or] at h
    obtain ⟨hc,hcs⟩ := h
    rw [Reads,run,step,if_neg (Ne.symm hc),Option.bind_some,ih hcs]
    rfl

/-- What does not close a value is part of it. -/
theorem reads_quoted {quote : Char} {name : List Char} {keys : List (List Char)} {cs : List Char}
    (h : quote ∉ cs) : Reads (.quoted quote name keys) cs (.quoted quote name keys) [] := by
  induction cs with
  | nil => rfl
  | cons c cs ih =>
    rw [List.mem_cons,not_or] at h
    obtain ⟨hc,hcs⟩ := h
    rw [Reads,run,step,if_neg (Ne.symm hc),Option.bind_some,ih hcs]
    rfl

/-- The elements that have no closing tag. -/
def voids : List (List Char) :=
  ["area","base","br","col","embed","hr","img","input","link","meta","source","track","wbr"].map
    String.toList

def nested : List (List Char) → List Tag → Bool
  | stack, [] => stack.isEmpty
  | stack, .declaration :: rest => nested stack rest
  | stack, .opening name _ :: rest => nested (if name ∈ voids then stack else name :: stack) rest
  | [], .closing _ :: _ => false
  | top :: stack, .closing name :: rest => top == name && nested stack rest

/-- Tags that leave the open elements as they are. -/
def Balanced (found : List Tag) : Prop :=
  ∀ stack rest, nested stack (found ++ rest) = nested stack rest

theorem balanced_nil : Balanced [] := fun _ _ => rfl

theorem Balanced.append {xs ys : List Tag} (hx : Balanced xs) (hy : Balanced ys) :
    Balanced (xs ++ ys) := by
  intro stack rest
  rw [List.append_assoc,hx,hy]

theorem balanced_declaration : Balanced [.declaration] := fun _ _ => rfl

theorem balanced_void {name : List Char} {keys : List (List Char)} (h : name ∈ voids) :
    Balanced [.opening name keys] := by
  intro stack rest
  rw [List.cons_append,nested,if_pos h,List.nil_append]

def element (name : List Char) (keys : List (List Char)) (content : List Tag) : List Tag :=
  .opening name keys :: (content ++ [.closing name])

theorem balanced_element {name : List Char} {keys : List (List Char)} {content : List Tag}
    (hname : name ∉ voids) (h : Balanced content) : Balanced (element name keys content) := by
  intro stack rest
  rw [element,List.cons_append,List.append_assoc,nested,if_neg hname,h]
  simp [nested]

structure Fragment (text : String) (found : List Tag) : Prop where
  reads : Reads .text text.toList .text found
  balanced : Balanced found

theorem Fragment.append {s t : String} {xs ys : List Tag} (hs : Fragment s xs)
    (ht : Fragment t ys) : Fragment (s ++ t) (xs ++ ys) := by
  refine ⟨?_,hs.balanced.append ht.balanced⟩
  rw [String.toList_append]
  exact hs.reads.append ht.reads

/-- A text without `<` has no tags. -/
theorem Fragment.plain {text : String} (h : '<' ∉ text.toList) : Fragment text [] :=
  ⟨reads_text h,balanced_nil⟩

theorem Fragment.element {name : List Char} {keys : List (List Char)} {first content last : String}
    {found : List Tag} (hfirst : Reads .text first.toList .text [.opening name keys])
    (hlast : Reads .text last.toList .text [.closing name]) (hname : name ∉ voids)
    (h : Fragment content found) :
    Fragment (first ++ content ++ last) (Html.element name keys found) := by
  refine ⟨?_,balanced_element hname h.balanced⟩
  rw [String.toList_append,String.toList_append]
  exact (hfirst.append h.reads).append hlast

theorem Fragment.join {texts : List String} {found : List (List Tag)}
    (h : List.Forall₂ Fragment texts found) : Fragment (String.join texts) found.flatten := by
  induction h with
  | nil => exact ⟨rfl,balanced_nil⟩
  | cons hhead _ ih =>
    rw [String.join_cons]
    exact hhead.append ih

/-- A document of such pieces has their tags, properly nested. -/
theorem Fragment.tags {text : String} {found : List Tag} (h : Fragment text found) :
    Html.tags text = some found ∧ nested [] found = true := by
  constructor
  · rw [Html.tags,h.reads]
  · simpa [nested] using h.balanced [] []

end AgentCentric.Html

import AgentCentric.Library.Html
import AgentCentric.Ui.Tolerance

namespace AgentCentric.Ui
open Json Html

/-- What `WebTarget.render` writes before the tree. -/
def webStart : String :=
  "<!doctype html>\n<html lang=\"en\"><head><meta charset=\"utf-8\"><title>CBP UI</title>\n" ++
  "<style>body\x7bfont-family:sans-serif;background:#ffffff;color:#0f172a;margin:2rem\x7d" ++
  ".cbp-view\x7bborder-left:4px solid var(--cbp-accent,#38bdf8);padding-left:1rem;" ++
  "margin-bottom:2rem\x7d" ++
  "table\x7bborder-collapse:collapse\x7d" ++
  "th,td\x7bborder:1px solid #cbd5e1;padding:2px 8px\x7d" ++
  ".cbp-assurance\x7bcolor:#64748b;font-size:.85rem\x7d</style></head>\n<body>\n"

/-- `WebTarget.render`. -/
def webRender (intOf : String → Option Int) (tokens : List (String × Json)) (tree : Json) :
    Except Raised String :=
  (webFragment intOf (pyStr (get tokens "accent" (.str "#38bdf8"))) tree).map fun fragment =>
    webStart ++ fragment ++ "\n</body></html>\n"

/-- What a tree is without its texts. -/
inductive Shape where
  | view (children : List Shape)
  | heading (level : Int)
  | text
  | field
  | list (ordered : Bool) (size : Nat)
  | table (columns : Nat) (rows : List Nat)

def shapeLeaf (intOf : String → Option Int) (kind : NodeKind) (node : List (String × Json)) :
    Except Raised Shape :=
  match kind with
  | .view => .ok (.view [])
  | .heading => (pyInt intOf (get node "level" (.int 1))).map .heading
  | .text => .ok .text
  | .field => .ok .field
  | .list => (iterate (get node "items" (.list []))).map fun items =>
      .list (get node "ordered" .null).truthy items.length
  | .table => do
    let columns ← iterate (get node "columns" (.list []))
    let rows ← iterate (get node "rows" (.list []))
    let cells ← rows.mapM iterate
    pure (.table columns.length (cells.map List.length))

def shapes (intOf : String → Option Int) : Medium Shape where
  view _ children := .view children
  leaf := shapeLeaf intOf

def shapeOf (intOf : String → Option Int) : Json → Except Raised Shape := draw (shapes intOf)

def headingName (level : Int) : String := "h" ++ toString (min (max level 1) 6)

mutual

def Shape.markup : Shape → List Tag
  | .view children =>
    element "section".toList (["class","data-schema","data-assurance","data-provenance",
      "style"].map String.toList) (element "h1".toList [] [] ++
      element "p".toList ["class".toList] [] ++ markupAll children)
  | .heading level => element (headingName level).toList [] []
  | .text => element "p".toList [] []
  | .field => element "p".toList ["class".toList] (element "span".toList ["class".toList] [] ++
      element "span".toList ["class".toList] [])
  | .list ordered size => element (if ordered then "ol".toList else "ul".toList) []
      (List.replicate size (element "li".toList [] [])).flatten
  | .table columns rows => element "table".toList [] (
      element "thead".toList [] (element "tr".toList []
        (List.replicate columns (element "th".toList [] [])).flatten) ++
      element "tbody".toList [] (rows.map fun size => element "tr".toList []
        (List.replicate size (element "td".toList [] [])).flatten).flatten)

def Shape.markupAll : List Shape → List Tag
  | [] => []
  | child :: rest => child.markup ++ markupAll rest

end

theorem Shape.markupAll_eq (children : List Shape) :
    markupAll children = (children.map markup).flatten := by
  induction children with
  | nil => rfl
  | cons child rest ih => rw [markupAll,ih,List.map_cons,List.flatten_cons]

theorem escapeChar_safe (c : Char) :
    '<' ∉ (escapeChar c).toList ∧ Char.ofNat 34 ∉ (escapeChar c).toList := by
  unfold escapeChar
  split_ifs with hamp hlt hgt hquote happos
  · decide +kernel
  · decide +kernel
  · decide +kernel
  · decide +kernel
  · decide +kernel
  · rw [String.toList_ofList,List.mem_singleton,List.mem_singleton]
    exact ⟨Ne.symm hlt,Ne.symm hquote⟩

theorem escape_safe (text : String) :
    '<' ∉ (escape text).toList ∧ Char.ofNat 34 ∉ (escape text).toList := by
  rw [escape]
  induction text.toList with
  | nil => decide +kernel
  | cons c cs ih =>
    have hc := escapeChar_safe c
    rw [List.map_cons,String.join_cons,String.toList_append,List.mem_append,List.mem_append,not_or,
      not_or]
    exact ⟨⟨hc.1,ih.1⟩,hc.2,ih.2⟩

theorem fragment_escaped (text : String) : Fragment (escape text) [] :=
  Fragment.plain (escape_safe text).1

theorem reads_escaped (text : String) (name : List Char) (keys : List (List Char)) :
    Reads (.quoted (Char.ofNat 34) name keys) (escape text).toList
      (.quoted (Char.ofNat 34) name keys) [] := reads_quoted (escape_safe text).2

section
variable {α β : Type} {M : Medium α} {N : Medium β} {R : α → β → Prop}
variable (hview : ∀ node as bs, List.Forall₂ R as bs → R (M.view node as) (N.view node bs))
variable (hleaf : ∀ kind node b, kind ≠ .view → N.leaf kind node = .ok b →
  ∃ a, M.leaf kind node = .ok a ∧ R a b)
include hview hleaf

mutual

theorem draw_related : ∀ (tree : Json) (b : β), draw N tree = .ok b →
    ∃ a, draw M tree = .ok a ∧ R a b
  | .dict node, b => by
    intro h
    rw [draw] at h ⊢
    cases hkind : kindOf node with
    | none => rw [hkind] at h; cases h
    | some kind =>
      rw [hkind] at h
      cases kind with
      | view =>
        cases hbs : drawField N node with
        | error e => rw [hbs] at h; cases h
        | ok bs =>
          rw [hbs] at h
          cases h
          obtain ⟨as,has,hrelated⟩ := drawField_related node bs hbs
          exact ⟨_,by rw [has]; rfl,hview node as bs hrelated⟩
      | _ => exact hleaf _ node b nofun h
  | .null, _ | .bool _, _ | .int _, _ | .decimal _, _ | .nan, _ | .infinity, _ | .negInfinity, _
  | .str _, _ | .list _, _ => by simp [draw]

theorem drawField_related : ∀ (node : List (String × Json)) (bs : List β),
    drawField N node = .ok bs → ∃ as, drawField M node = .ok as ∧ List.Forall₂ R as bs
  | [], bs => by
    intro h
    cases h
    exact ⟨[],rfl,.nil⟩
  | (key,value) :: rest, bs => by
    rw [drawField,drawField]
    split
    · exact drawEach_related value bs
    · exact drawField_related rest bs

theorem drawEach_related : ∀ (value : Json) (bs : List β), drawEach N value = .ok bs →
    ∃ as, drawEach M value = .ok as ∧ List.Forall₂ R as bs
  | .list children, bs => by
    rw [drawEach,drawEach]
    exact drawAll_related children bs
  | .str s, bs => by
    rw [drawEach,drawEach]
    split <;> simp
  | .dict items, bs => by
    rw [drawEach,drawEach]
    split <;> simp
  | .null, _ | .bool _, _ | .int _, _ | .decimal _, _ | .nan, _ | .infinity, _
  | .negInfinity, _ => by simp [drawEach]

theorem drawAll_related : ∀ (children : List Json) (bs : List β), drawAll N children = .ok bs →
    ∃ as, drawAll M children = .ok as ∧ List.Forall₂ R as bs
  | [], bs => by
    intro h
    cases h
    exact ⟨[],rfl,.nil⟩
  | child :: rest, bs => by
    intro h
    rw [drawAll] at h ⊢
    obtain ⟨b,hb,h⟩ := bind_ok.1 h
    obtain ⟨bs',hbs,h⟩ := bind_ok.1 h
    cases h
    obtain ⟨a,ha,hab⟩ := draw_related child b hb
    obtain ⟨as,has,hrest⟩ := drawAll_related rest bs' hbs
    exact ⟨a :: as,by rw [ha,has]; rfl,.cons hab hrest⟩

end

end

def Named (name : String) : Prop :=
  Reads .text ("<" ++ name ++ ">").toList .text [.opening name.toList []] ∧
    Reads .text ("</" ++ name ++ ">").toList .text [.closing name.toList] ∧ name.toList ∉ voids

instance (name : String) : Decidable (Named name) := inferInstanceAs (Decidable (_ ∧ _ ∧ _))

theorem fragment_tag {name content : String} {found : List Tag} (hname : Named name)
    (h : Fragment content found) : Fragment (tag name content) (element name.toList [] found) := by
  have htag : tag name content = "<" ++ name ++ ">" ++ content ++ ("</" ++ name ++ ">") := by
    simp only [tag,String.append_assoc]
  rw [htag]
  exact Fragment.element hname.1 hname.2.1 hname.2.2 h

theorem named_heading (level : Int) : Named (headingName level) := by
  have hlevel : min (max level 1) 6 = 1 ∨ min (max level 1) 6 = 2 ∨ min (max level 1) 6 = 3 ∨
      min (max level 1) 6 = 4 ∨ min (max level 1) 6 = 5 ∨ min (max level 1) 6 = 6 := by omega
  rw [headingName]
  rcases hlevel with h | h | h | h | h | h <;> rw [h] <;> decide +kernel

theorem fragment_items {α : Type} {name : String} {write : α → String} {found : List Tag}
    (hname : Named name) (h : ∀ item, Fragment (write item) found) (items : List α) :
    Fragment (String.join (items.map fun item => tag name (write item)))
      (List.replicate items.length (element name.toList [] found)).flatten := by
  refine Fragment.join ?_
  induction items with
  | nil => exact .nil
  | cons item items ih => exact .cons (fragment_tag hname (h item)) ih

def sectionKeys : List (List Char) :=
  ["class","data-schema","data-assurance","data-provenance","style"].map String.toList

theorem reads_section (accent : String) (node : List (String × Json)) :
    Reads .text ("<section class=\"cbp-view\" data-schema=\"" ++ escapedAt node "schema" ++
        "\" data-assurance=\"" ++ escapedAt node "assurance" ++
        "\" data-provenance=\"" ++ escapedAt node "provenance" ++
        "\" style=\"--cbp-accent:" ++ escape accent ++ "\">").toList .text
      [.opening "section".toList sectionKeys] := by
  have hschema : Reads .text "<section class=\"cbp-view\" data-schema=\"".toList
      (.quoted (Char.ofNat 34) "section".toList (sectionKeys.take 2)) [] := by decide +kernel
  have hassurance : Reads (.quoted (Char.ofNat 34) "section".toList (sectionKeys.take 2))
      "\" data-assurance=\"".toList
      (.quoted (Char.ofNat 34) "section".toList (sectionKeys.take 3)) [] := by decide +kernel
  have hprovenance : Reads (.quoted (Char.ofNat 34) "section".toList (sectionKeys.take 3))
      "\" data-provenance=\"".toList
      (.quoted (Char.ofNat 34) "section".toList (sectionKeys.take 4)) [] := by decide +kernel
  have hstyle : Reads (.quoted (Char.ofNat 34) "section".toList (sectionKeys.take 4))
      "\" style=\"--cbp-accent:".toList
      (.quoted (Char.ofNat 34) "section".toList sectionKeys) [] := by decide +kernel
  have hlast : Reads (.quoted (Char.ofNat 34) "section".toList sectionKeys) "\">".toList .text
      [.opening "section".toList sectionKeys] := by decide +kernel
  simp only [String.toList_append]
  exact (((((((hschema.append (reads_escaped _ _ _)).append hassurance).append
    (reads_escaped _ _ _)).append hprovenance).append (reads_escaped _ _ _)).append
    hstyle).append (reads_escaped _ _ _)).append hlast

theorem fragment_view (accent : String) (node : List (String × Json)) (children : List String)
    (shapes : List Shape)
    (h : List.Forall₂ (fun text shape => Fragment text (Shape.markup shape)) children shapes) :
    Fragment (webView accent node children) (Shape.markup (.view shapes)) := by
  have htitle := @fragment_tag "h1" _ _ (by decide +kernel) (fragment_escaped (textAt node "title"))
  have hchildren := Fragment.join (List.forall₂_map_right_iff.2 h)
  have hlabel : Reads .text "<p class=\"cbp-assurance\">assurance: ".toList .text
      [.opening "p".toList ["class".toList]] := by decide +kernel
  have hmiddle : Reads .text " &middot; provenance: ".toList .text [] := by decide +kernel
  have hparagraph : Reads .text "</p>".toList .text [.closing "p".toList] := by decide +kernel
  have hlast : Reads .text "</section>".toList .text [.closing "section".toList] := by
    decide +kernel
  rw [Shape.markup,Shape.markupAll_eq]
  constructor
  · have hreads := (((((((reads_section accent node).append htitle.reads).append hlabel).append
      (fragment_escaped (textAt node "assurance")).reads).append hmiddle).append
      (fragment_escaped (textAt node "provenance")).reads).append hparagraph).append
      hchildren.reads |>.append hlast
    unfold webView
    simpa only [element,sectionKeys,escapedAt,String.toList_append,List.append_assoc,
      List.nil_append,List.append_nil,List.cons_append] using hreads
  · refine balanced_element (by decide +kernel) (Balanced.append (Balanced.append ?_ ?_) ?_)
    · exact htitle.balanced
    · exact balanced_element (by decide +kernel) balanced_nil
    · exact hchildren.balanced

theorem webField_eq (intOf : String → Option Int) (node : List (String × Json)) :
    webLeaf intOf .field node = .ok ("<p class=\"cbp-field\">" ++
      (("<span class=\"cbp-label\">" ++ escapedAt node "label" ++ "</span>") ++ ": " ++
        ("<span class=\"cbp-value\">" ++ escapedAt node "value" ++ "</span>")) ++ "</p>") := by
  have hfirst : "<p class=\"cbp-field\"><span class=\"cbp-label\">" =
      "<p class=\"cbp-field\">" ++ "<span class=\"cbp-label\">" := by
    simp only [String.reduceAppend]
  have hmiddle : "</span>: <span class=\"cbp-value\">" =
      "</span>" ++ (": " ++ "<span class=\"cbp-value\">") := by simp only [String.reduceAppend]
  have hlast : "</span></p>" = "</span>" ++ "</p>" := by simp only [String.reduceAppend]
  simp only [webLeaf,hfirst,hmiddle,hlast,String.append_assoc]

theorem fragment_leaf (intOf : String → Option Int) (kind : NodeKind)
    (node : List (String × Json)) (shape : Shape) (hkind : kind ≠ .view)
    (h : shapeLeaf intOf kind node = .ok shape) :
    ∃ text, webLeaf intOf kind node = .ok text ∧ Fragment text shape.markup := by
  cases kind with
  | view => exact absurd rfl hkind
  | heading =>
    simp only [shapeLeaf] at h
    cases hlevel : pyInt intOf (get node "level" (.int 1)) with
    | error e => rw [hlevel] at h; cases h
    | ok level =>
      rw [hlevel] at h
      cases h
      refine ⟨tag (headingName level) (escapedAt node "text"),?_,?_⟩
      · rw [webLeaf,hlevel]
        rfl
      · rw [Shape.markup]
        exact fragment_tag (named_heading level) (fragment_escaped _)
  | text =>
    cases h
    refine ⟨_,rfl,?_⟩
    rw [Shape.markup]
    exact fragment_tag (by decide +kernel) (fragment_escaped _)
  | field =>
    cases h
    refine ⟨_,webField_eq intOf node,?_⟩
    rw [Shape.markup]
    refine Fragment.element (by decide +kernel) (by decide +kernel) (by decide +kernel) ?_
    have hcolon : Fragment ": " [] := Fragment.plain (by decide +kernel)
    have hspan : ∀ (key : String) (first : String), Reads .text first.toList .text
        [.opening "span".toList ["class".toList]] →
        Fragment (first ++ escapedAt node key ++ "</span>")
          (element "span".toList ["class".toList] []) := fun key first hfirst =>
      Fragment.element hfirst (by decide +kernel) (by decide +kernel) (fragment_escaped _)
    exact ((hspan "label" _ (by decide +kernel)).append hcolon).append
      (hspan "value" _ (by decide +kernel))
  | list =>
    simp only [shapeLeaf] at h
    cases hitems : iterate (get node "items" (.list [])) with
    | error e => rw [hitems] at h; cases h
    | ok items =>
      rw [hitems] at h
      cases h
      refine ⟨_,by rw [webLeaf,hitems]; rfl,?_⟩
      have hli := @fragment_items Json "li" _ [] (by decide +kernel)
        (fun item => fragment_escaped (pyStr item)) items
      rw [Shape.markup]
      split
      · exact fragment_tag (by decide +kernel) hli
      · exact fragment_tag (by decide +kernel) hli
  | table =>
    obtain ⟨columns,hcolumns,h⟩ := bind_ok.1 h
    obtain ⟨rows,hrows,h⟩ := bind_ok.1 h
    obtain ⟨cells,hcells,h⟩ := bind_ok.1 h
    cases h
    refine ⟨_,by rw [webLeaf,hcolumns,hrows]; simp only [bind,Except.bind,hcells]; rfl,?_⟩
    rw [Shape.markup]
    have hcells : ∀ row : List Json, Fragment
        (tag "tr" (String.join (row.map fun cell => tag "td" (escape (pyStr cell)))))
        (element "tr".toList [] (List.replicate row.length (element "td".toList [] [])).flatten) :=
      fun row => fragment_tag (by decide +kernel)
        (fragment_items (by decide +kernel) (fun cell => fragment_escaped (pyStr cell)) row)
    refine fragment_tag (by decide +kernel) (Fragment.append ?_ ?_)
    · have hcolumns := @fragment_items Json "th" _ [] (by decide +kernel)
        (fun column => fragment_escaped (pyStr column)) columns
      exact fragment_tag (by decide +kernel) (fragment_tag (by decide +kernel) hcolumns)
    · refine fragment_tag (by decide +kernel) (Fragment.join ?_)
      rw [List.map_map,List.forall₂_map_left_iff,List.forall₂_map_right_iff,List.forall₂_same]
      exact fun row _ => hcells row

theorem webFragment_shape {intOf : String → Option Int} {accent : String} {tree : Json}
    {shape : Shape} (h : shapeOf intOf tree = .ok shape) :
    ∃ text, webFragment intOf accent tree = .ok text ∧ Fragment text shape.markup :=
  @draw_related String Shape (web intOf accent) (shapes intOf)
    (fun text shape => Fragment text shape.markup) (fragment_view accent) (fragment_leaf intOf)
    tree shape h

def documentTags (found : List Tag) : List Tag :=
  .declaration :: element "html".toList ["lang".toList] (element "head".toList [] (
    .opening "meta".toList ["charset".toList] ::
      (element "title".toList [] [] ++ element "style".toList [] [])) ++
    element "body".toList [] found)

theorem balanced_document {found : List Tag} (h : Balanced found) :
    Balanced (documentTags found) := by
  have hmeta : Balanced [.opening "meta".toList ["charset".toList]] :=
    balanced_void (by decide +kernel)
  have htitle : Balanced (element "title".toList [] []) :=
    balanced_element (by decide +kernel) balanced_nil
  have hstyle : Balanced (element "style".toList [] []) :=
    balanced_element (by decide +kernel) balanced_nil
  have hhead := @balanced_element "head".toList [] _ (by decide +kernel)
    (hmeta.append (htitle.append hstyle))
  have hbody := @balanced_element "body".toList [] _ (by decide +kernel) h
  exact balanced_declaration.append
    (@balanced_element "html".toList _ _ (by decide +kernel) (hhead.append hbody))

theorem webRender_shape {intOf : String → Option Int} (tokens : List (String × Json)) {tree : Json}
    {shape : Shape} (h : shapeOf intOf tree = .ok shape) :
    ∃ document, webRender intOf tokens tree = .ok document ∧
      Fragment document (documentTags shape.markup) := by
  obtain ⟨text,htext,hfragment⟩ :=
    @webFragment_shape intOf (pyStr (get tokens "accent" (.str "#38bdf8"))) tree shape h
  refine ⟨webStart ++ text ++ "\n</body></html>\n",?_,?_,balanced_document hfragment.balanced⟩
  · unfold webRender
    rw [htext]
    rfl
  · have hstart : Reads .text webStart.toList .text
        [.declaration,.opening "html".toList ["lang".toList],.opening "head".toList [],
          .opening "meta".toList ["charset".toList],.opening "title".toList [],
          .closing "title".toList,.opening "style".toList [],.closing "style".toList,
          .closing "head".toList,.opening "body".toList []] := by
      unfold webStart
      simp only [String.toList_append,String.reduceToList]
      decide +kernel
    have hlast : Reads .text "\n</body></html>\n".toList .text
        [.closing "body".toList,.closing "html".toList] := by decide +kernel
    simpa only [documentTags,element,String.toList_append,List.append_assoc,List.nil_append,
      List.append_nil,List.cons_append] using (hstart.append hfragment.reads).append hlast

/-- Trees of one shape are rendered to documents with the same tags and attributes, and every tag
of them is properly nested: no text of a tree is read as markup. -/
theorem tags_of_shape {intOf : String → Option Int} {tokens tokens' : List (String × Json)}
    {tree tree' : Json} {shape : Shape} (h : shapeOf intOf tree = .ok shape)
    (h' : shapeOf intOf tree' = .ok shape) :
    ∃ document document' found, webRender intOf tokens tree = .ok document ∧
      webRender intOf tokens' tree' = .ok document' ∧ Html.tags document = some found ∧
      Html.tags document' = some found ∧ nested [] found = true := by
  obtain ⟨document,hdocument,hfragment⟩ := webRender_shape tokens h
  obtain ⟨document',hdocument',hfragment'⟩ := webRender_shape tokens' h'
  exact ⟨document,document',_,hdocument,hdocument',hfragment.tags.1,hfragment'.tags.1,
    hfragment.tags.2⟩

/-- A bill, and one whose texts look like markup. -/
def billTree (title label value : String) : Json :=
  .dict (treeView title "bills.v1" .unverified .trusted [treeField label (.str value)])

theorem tags_of_injected : ∃ document document' found,
    webRender (fun _ => none) [] (billTree "Bills" "due" "12.50") = .ok document ∧
      webRender (fun _ => none) [] (billTree "</h1><script>" "\"><img src=x>" "&lt;") =
        .ok document' ∧ Html.tags document = some found ∧ Html.tags document' = some found ∧
      nested [] found = true := by
  have hshape : ∀ title label value,
      shapeOf (fun _ => none) (billTree title label value) = .ok (.view [.field]) :=
    fun _ _ _ => rfl
  exact tags_of_shape (hshape _ _ _) (hshape _ _ _)

end AgentCentric.Ui

import AgentCentric.Library.JsonLines
import AgentCentric.Ontology.Matching

namespace AgentCentric.RdfExport
open JsonLines
open Network (ValueType)

def xsd : String := "http://www.w3.org/2001/XMLSchema#"

def cbpJson : String := "urn:cbp:json"

inductive Datatype where
  | string | integer | boolean | json
  deriving DecidableEq

def Datatype.token (turtle : Bool) : Datatype → List Char
  | .string => (if turtle then "xsd:string" else "<" ++ xsd ++ "string>").toList
  | .integer => (if turtle then "xsd:integer" else "<" ++ xsd ++ "integer>").toList
  | .boolean => (if turtle then "xsd:boolean" else "<" ++ xsd ++ "boolean>").toList
  | .json => (if turtle then "cbpj:" else "<" ++ cbpJson ++ ">").toList

def stringToken (value : String) : List Char := (Json.str value).bytes

/-- `_iri`: the name is written as it is. -/
def iri (name : String) : List Char := '<' :: name.toList ++ ['>']

def lexical (l : Literal) : Except OntologyError (String × Datatype) :=
  match l.type with
  | .str => .ok (l.value.text,.string)
  | .int =>
    match l.value with
    | .int n => .ok (String.ofList (Json.renderInt n),.integer)
    | _ => .error (malformed "an 'int' literal must hold an integer (fail-closed)")
  | .bool =>
    match l.value with
    | .bool b => .ok (if b then "true" else "false",.boolean)
    | _ => .error (malformed "a 'bool' literal must hold a boolean (fail-closed)")
  | .float => .error (malformed
      "float literals are not exportable (canonical JSON is integers-only)")
  | .dict | .list | .null | .any => .ok (l.value.compact,.json)

def literalToken (turtle : Bool) (l : Literal) : Except OntologyError (List Char) := do
  let written ← lexical l
  pure (stringToken written.1 ++ ['^','^'] ++ written.2.token turtle)

def objectToken (turtle : Bool) : Obj → Except OntologyError (List Char)
  | .term t => .ok (iri t.name)
  | .literal l => literalToken turtle l

def triple (turtle : Bool) (a : Assertion) : Except OntologyError (List Char) := do
  let o ← objectToken turtle a.o
  pure (iri a.s ++ ' ' :: iri a.p ++ ' ' :: o ++ [' ','.'])

def sorted (source : List Assertion) : List Assertion :=
  (source.foldl Collection.put .empty).ordered

def toNtriples (source : List Assertion) : Except OntologyError (List Char) := do
  let lines ← (sorted source).mapM (triple false)
  pure (lines.flatMap (· ++ ['\n']))

def header : List (List Char) :=
  [("@prefix xsd: <" ++ xsd ++ "> .").toList,("@prefix cbpj: <" ++ cbpJson ++ "> .").toList,[]]

def toTurtle (source : List Assertion) : Except OntologyError (List Char) := do
  let lines ← (sorted source).mapM (triple true)
  pure ((header ++ lines).flatMap (· ++ ['\n']))

def datatypeOf : ValueType → Option Datatype
  | .str => some .string
  | .int => some .integer
  | .bool => some .boolean
  | .float => none
  | .dict | .list | .null | .any => some .json

/-- Of a literal its datatype is written, and its value, of a `str` literal the text of it. -/
def Literal.Alike (l m : Literal) : Prop :=
  datatypeOf l.type = datatypeOf m.type ∧
    if l.type = .str then l.value.text = m.value.text else l.value.bytes = m.value.bytes

def Obj.Alike : Obj → Obj → Prop
  | .term t, .term u => t.name = u.name
  | .literal l, .literal m => Literal.Alike l m
  | _, _ => False

theorem lexical_eq {l : Literal} {w : String × Datatype} (h : lexical l = .ok w) :
    datatypeOf l.type = some w.2 ∧
      w.1 = if l.type = .str then l.value.text else l.value.compact := by
  obtain ⟨type,value⟩ := l
  cases type with
  | str | dict | list | null | any =>
    cases h
    exact ⟨rfl,rfl⟩
  | float => cases h
  | int =>
    cases value with
    | int n =>
      cases h
      exact ⟨rfl,rfl⟩
    | _ => cases h
  | bool =>
    cases value with
    | bool b =>
      cases h
      cases b <;> exact ⟨rfl,rfl⟩
    | _ => cases h

theorem type_str_iff {t : ValueType} : datatypeOf t = some .string ↔ t = .str := by
  cases t <;> simp [datatypeOf]

theorem literal_alike_iff {l m : Literal} {v w : String × Datatype} (hl : lexical l = .ok v)
    (hm : lexical m = .ok w) : Literal.Alike l m ↔ v = w := by
  obtain ⟨hl,hv⟩ := lexical_eq hl
  obtain ⟨hm,hw⟩ := lexical_eq hm
  rw [Literal.Alike,hl,hm,Option.some.injEq,Prod.ext_iff,and_comm]
  apply and_congr_left
  intro hdatatype
  have hstr : l.type = .str ↔ m.type = .str := by
    rw [← type_str_iff,← type_str_iff,hl,hm,hdatatype]
  by_cases hl' : l.type = .str
  · rw [if_pos hl'] at hv ⊢
    rw [if_pos (hstr.1 hl')] at hw
    rw [hv,hw]
  · rw [if_neg hl'] at hv ⊢
    rw [if_neg (mt hstr.2 hl')] at hw
    rw [hv,hw,Json.compact,Json.compact,String.ofList_inj]

theorem cons_inj_of_notMem {α : Type} {c : α} {xs ys ds es : List α} (hx : c ∉ xs) (hy : c ∉ ys)
    (h : xs ++ c :: ds = ys ++ c :: es) : xs = ys ∧ ds = es := by
  induction xs generalizing ys with
  | nil =>
    cases ys with
    | nil => exact ⟨rfl,List.tail_eq_of_cons_eq h⟩
    | cons y ys => exact absurd (by simp [List.head_eq_of_cons_eq h]) hy
  | cons x xs ih =>
    cases ys with
    | nil => exact absurd (by simp [List.head_eq_of_cons_eq h]) hx
    | cons y ys =>
      obtain ⟨rfl,hrest⟩ := List.cons.inj h
      obtain ⟨rfl,hds⟩ := ih (mt (List.mem_cons_of_mem x) hx) (mt (List.mem_cons_of_mem x) hy) hrest
      exact ⟨rfl,hds⟩

theorem stringToken_inj {v w : String} {rest rest' : List Char}
    (h : stringToken v ++ rest = stringToken w ++ rest') : v = w ∧ rest = rest' := by
  have hparsed := Json.parseValue_str 0 w rest'
  change Json.renderString v ++ rest = Json.renderString w ++ rest' at h
  rw [← h,Json.parseValue_str,Option.some.injEq,Prod.mk.injEq,Json.str.injEq] at hparsed
  exact hparsed

theorem datatype_token_inj {d e : Datatype}
    (h : d.token false ++ [' ','.'] = e.token false ++ [' ','.']) : d = e := by
  revert h
  cases d <;> cases e <;> decide

theorem object_alike_iff {o u : Obj} {x y : List Char} (ho : objectToken false o = .ok x)
    (hu : objectToken false u = .ok y) : Obj.Alike o u ↔ x ++ [' ','.'] = y ++ [' ','.'] := by
  cases o with
  | term t =>
    cases ho
    cases u with
    | term n =>
      cases hu
      simp [Obj.Alike,iri,String.toList_inj]
    | literal m =>
      obtain ⟨w,hw,hy⟩ := bind_ok.1 hu
      cases hy
      simp [Obj.Alike,iri,stringToken,Json.bytes,Json.canonical,Json.render,Json.renderString]
  | literal l =>
    obtain ⟨v,hv,hx⟩ := bind_ok.1 ho
    cases hx
    cases u with
    | term n =>
      cases hu
      simp [Obj.Alike,iri,stringToken,Json.bytes,Json.canonical,Json.render,Json.renderString]
    | literal m =>
      obtain ⟨w,hw,hy⟩ := bind_ok.1 hu
      cases hy
      rw [Obj.Alike,literal_alike_iff hv hw]
      constructor
      · rintro rfl
        rfl
      · intro h
        simp only [List.append_assoc] at h
        obtain ⟨hvalue,hrest⟩ := stringToken_inj h
        exact Prod.ext hvalue (datatype_token_inj (List.append_cancel_left hrest))

/-- Nothing in the subject or in the predicate closes their brackets. -/
def Closed (a : Assertion) : Prop := '>' ∉ a.s.toList ∧ '>' ∉ a.p.toList

instance : DecidablePred Closed := fun a =>
  inferInstanceAs (Decidable ('>' ∉ a.s.toList ∧ '>' ∉ a.p.toList))

/-- Assertions that are written alike. Where a bracket is closed early, only the characters
count. -/
def Alike (a b : Assertion) : Prop :=
  if Closed a ∧ Closed b then a.s = b.s ∧ a.p = b.p ∧ Obj.Alike a.o b.o
  else triple false a = triple false b

theorem alike_iff {a b : Assertion} {x y : List Char} (ha : triple false a = .ok x)
    (hb : triple false b = .ok y) : Alike a b ↔ x = y := by
  unfold Alike
  split
  · rename_i hclosed
    obtain ⟨o,ho,hx⟩ := bind_ok.1 ha
    obtain ⟨u,hu,hy⟩ := bind_ok.1 hb
    cases hx
    cases hy
    rw [object_alike_iff ho hu]
    constructor
    · rintro ⟨hs,hp,hobject⟩
      simp only [hs,hp,List.append_assoc,List.cons_append,hobject]
    · intro h
      simp only [iri,List.cons_append,List.append_assoc,List.cons.injEq,true_and,
        List.nil_append] at h
      obtain ⟨hs,hrest⟩ := cons_inj_of_notMem hclosed.1.1 hclosed.2.1 h
      simp only [List.cons.injEq,true_and] at hrest
      obtain ⟨hp,hobject⟩ := cons_inj_of_notMem hclosed.1.2 hclosed.2.2 hrest
      exact ⟨String.toList_inj.1 hs,String.toList_inj.1 hp,(List.cons.inj hobject).2⟩
  · rw [ha,hb,Except.ok.injEq]

def objectNames : Obj → List String
  | .term t => [t.name]
  | .literal _ => []

def names (a : Assertion) : List String := a.s :: a.p :: objectNames a.o

theorem names_congr {a b : Assertion} (h : a.fact = b.fact) : names a = names b := by
  simp only [Assertion.fact,Fact.mk.injEq] at h
  obtain ⟨hs,hp,ho⟩ := h
  have hobject : objectNames a.o = objectNames b.o := by
    cases ha : a.o <;> cases hb : b.o <;> simp_all [objectNames,Obj.val]
  rw [names,names,hs,hp,hobject]

theorem printable_token (turtle : Bool) (d : Datatype) : (d.token turtle).all printable = true := by
  cases turtle <;> cases d <;> decide

theorem objectToken_all {P : Char → Bool} (hP : ∀ c, printable c = true → P c = true)
    {turtle : Bool} {o : Obj} {x : List Char} (h : objectToken turtle o = .ok x) :
    x.all P = (objectNames o).all fun n => n.toList.all P := by
  have hall : ∀ cs : List Char, cs.all printable = true → cs.all P = true := by
    intro cs hcs
    rw [List.all_eq_true] at hcs ⊢
    exact fun c hc => hP c (hcs c hc)
  cases o with
  | term t =>
    cases h
    simp [iri,objectNames,hP '<' (by decide),hP '>' (by decide)]
  | literal l =>
    obtain ⟨v,-,hx⟩ := bind_ok.1 h
    cases hx
    simp only [objectNames,List.all_nil,List.all_append,Bool.and_eq_true]
    exact ⟨⟨hall _ (bytes_printable _),hall _ (by decide)⟩,hall _ (printable_token turtle v.2)⟩

theorem triple_all {P : Char → Bool} (hP : ∀ c, printable c = true → P c = true) {turtle : Bool}
    {a : Assertion} {x : List Char} (h : triple turtle a = .ok x) :
    x.all P = (names a).all fun n => n.toList.all P := by
  obtain ⟨o,ho,hx⟩ := bind_ok.1 h
  cases hx
  have hobject := objectToken_all hP ho
  simp [names,iri,hP '<' (by decide),hP '>' (by decide),hP ' ' (by decide),hP '.' (by decide),
    hobject]

theorem triple_ends {turtle : Bool} {a : Assertion} {x : List Char} (h : triple turtle a = .ok x) :
    ∃ front, x = front ++ ['.'] := by
  obtain ⟨o,-,hx⟩ := bind_ok.1 h
  cases hx
  exact ⟨iri a.s ++ ' ' :: iri a.p ++ ' ' :: o ++ [' '],by simp⟩

theorem sum_eq_length_iff {α : Type} {f : α → Nat} {xs : List α} (h : ∀ x ∈ xs, 1 ≤ f x) :
    (xs.map f).sum = xs.length ↔ ∀ x ∈ xs, f x = 1 := by
  have hle : ∀ ys : List α, (∀ y ∈ ys, 1 ≤ f y) → ys.length ≤ (ys.map f).sum := by
    intro ys hys
    induction ys with
    | nil => simp
    | cons y ys ih =>
      have hrest := ih fun z hz => hys z (List.mem_cons_of_mem _ hz)
      have hfirst := hys y List.mem_cons_self
      simp only [List.length_cons,List.map_cons,List.sum_cons]
      omega
  induction xs with
  | nil => simp
  | cons x xs ih =>
    have hxs : ∀ y ∈ xs, 1 ≤ f y := fun y hy => h y (List.mem_cons_of_mem _ hy)
    have hrest := hle xs hxs
    have hfirst := h x List.mem_cons_self
    have hall := ih hxs
    rw [List.forall_mem_cons,List.map_cons,List.sum_cons,List.length_cons]
    constructor
    · intro heq
      exact ⟨by omega,hall.1 (by omega)⟩
    · rintro ⟨hone,hones⟩
      have hsum := hall.2 hones
      omega

theorem sorted_facts (source : List Assertion) : factsOf (sorted source) = factsOf source := by
  ext f
  have hvalues := Set.ext_iff.1 (Collection.facts_foldl Collection.facts_put .empty source) f
  simp only [Collection.facts,Set.mem_ofPred_eq,Set.mem_union] at hvalues
  simp only [factsOf,sorted,Set.mem_ofPred_eq,(Collection.perm_ordered _).mem_iff]
  rw [hvalues]
  simp [Collection.values,Collection.empty,Dict.empty]

theorem sorted_card (source : List Assertion) :
    (factsOf source).encard = (sorted source).length := by
  have hsize := Collection.encard_facts (source.foldl Collection.put .empty)
  have hfacts : (source.foldl Collection.put .empty).facts = factsOf source := by
    rw [← sorted_facts]
    ext f
    simp only [factsOf,sorted,Collection.facts,Set.mem_ofPred_eq,
      (Collection.perm_ordered _).mem_iff]
  rw [← hfacts,hsize,sorted,(Collection.perm_ordered _).length_eq]
  rfl

theorem sorted_names (source : List Assertion) {P : String → Bool} :
    (∀ a ∈ sorted source, (names a).all P = true) ↔ ∀ a ∈ source, (names a).all P = true := by
  have hfacts := sorted_facts source
  constructor
  · intro h a ha
    obtain ⟨b,hb,heq⟩ : a.fact ∈ factsOf (sorted source) := hfacts ▸ ⟨a,ha,rfl⟩
    rw [← names_congr heq]
    exact h b hb
  · intro h a ha
    obtain ⟨b,hb,heq⟩ : a.fact ∈ factsOf source := hfacts ▸ ⟨a,ha,rfl⟩
    rw [← names_congr heq]
    exact h b hb

theorem toNtriples_ok {source : List Assertion} {text : List Char} :
    toNtriples source = .ok text ↔ ∃ lines, (sorted source).mapM (triple false) = .ok lines ∧
      text = lines.flatMap (· ++ ['\n']) := by
  rw [toNtriples,bind_ok]
  constructor
  · rintro ⟨lines,hlines,h⟩
    cases h
    exact ⟨lines,hlines,rfl⟩
  · rintro ⟨lines,hlines,rfl⟩
    exact ⟨lines,hlines,rfl⟩

def ascii (c : Char) : Bool := c.toNat < 128

theorem text_all {P : Char → Bool} (hP : ∀ c, printable c = true → P c = true)
    {source : List Assertion} {lines : List (List Char)}
    (h : (sorted source).mapM (triple false) = .ok lines) : (∀ l ∈ lines, l.all P = true) ↔
      ∀ a ∈ source, ((names a).all fun n => n.toList.all P) = true := by
  rw [← sorted_names]
  constructor
  · intro hlines a ha
    obtain ⟨l,hl⟩ := mapM_returns.1 ⟨lines,h⟩ a ha
    rw [← triple_all hP hl]
    exact hlines l ((mem_mapM h).2 ⟨a,ha,hl⟩)
  · intro hnames l hl
    obtain ⟨a,ha,htriple⟩ := (mem_mapM h).1 hl
    rw [triple_all hP htriple]
    exact hnames a ha

theorem lines_iff {source : List Assertion} {lines : List (List Char)}
    (h : (sorted source).mapM (triple false) = .ok lines) :
    ((splitLines (lines.flatMap (· ++ ['\n']))).length : ℕ∞) = (factsOf source).encard ↔
      ∀ a ∈ source, ((names a).all fun n => n.toList.all (!isBreak ·)) = true := by
  have hlength : (sorted source).length = lines.length := (forall₂_of_mapM h).length_eq
  rw [splitLines_flatMap,List.length_flatMap,sorted_card,Nat.cast_inj,hlength,
    sum_eq_length_iff fun l _ => one_le_lines (by simp),
    ← text_all (fun c hc => by simp [not_break_of_printable hc]) h]
  refine forall₂_congr fun l hl => ?_
  obtain ⟨a,-,htriple⟩ := (mem_mapM h).1 hl
  obtain ⟨front,rfl⟩ := triple_ends htriple
  exact line_count_iff (by decide)

theorem forall₂_alike_iff {as bs : List Assertion} {xs ys : List (List Char)}
    (ha : List.Forall₂ (fun a x => triple false a = .ok x) as xs)
    (hb : List.Forall₂ (fun b y => triple false b = .ok y) bs ys) :
    List.Forall₂ Alike as bs ↔ xs = ys := by
  induction ha generalizing bs ys with
  | nil =>
    cases hb with
    | nil => simp
    | cons => simp
  | cons hfirst _ ih =>
    cases hb with
    | nil => simp
    | cons hfirst' hrest => rw [List.forall₂_cons,alike_iff hfirst hfirst',ih hrest,List.cons.injEq]

theorem lines_inj {xs ys : List (List Char)} (hx : ∀ l ∈ xs, l.all (!isBreak ·) = true)
    (hy : ∀ l ∈ ys, l.all (!isBreak ·) = true)
    (h : xs.flatMap (· ++ ['\n']) = ys.flatMap (· ++ ['\n'])) : xs = ys := by
  have hsplit : ∀ zs : List (List Char), (∀ l ∈ zs, l.all (!isBreak ·) = true) →
      splitLines (zs.flatMap (· ++ ['\n'])) = zs := by
    intro zs hzs
    rw [splitLines_flatMap]
    induction zs with
    | nil => rfl
    | cons z zs ih =>
      rw [List.flatMap_cons,ih fun l hl => hzs l (List.mem_cons_of_mem z hl),
        splitLines_line [] (hzs z List.mem_cons_self)]
      rfl
  rw [← hsplit xs hx,h,hsplit ys hy]

/-- What the export is for: a text stands for one set of assertions, and each has its line. -/
structure Faithful (as bs : List Assertion) (text text' : List Char) : Prop where
  lossless : text = text' → factsOf as = factsOf bs
  ascii : text.all ascii = true ∧ text'.all ascii = true
  lines : ((splitLines text).length : ℕ∞) = (factsOf as).encard ∧
    ((splitLines text').length : ℕ∞) = (factsOf bs).encard

def writable (name : String) : Bool := name.toList.all fun c => ascii c && !isBreak c

/-- Every name can be written as it is, and assertions that are written alike are the same ones. -/
structure Exportable (as bs : List Assertion) : Prop where
  names : ∀ a ∈ as ++ bs, (names a).all writable = true
  apart : List.Forall₂ Alike (sorted as) (sorted bs) → factsOf as = factsOf bs

theorem all_writable_iff (source : List Assertion) : (∀ a ∈ source, (names a).all writable = true) ↔
      (∀ a ∈ source, ((names a).all fun n => n.toList.all RdfExport.ascii) = true) ∧
      ∀ a ∈ source, ((names a).all fun n => n.toList.all (!isBreak ·)) = true := by
  simp only [writable,List.all_eq_true,Bool.and_eq_true,forall_and]

theorem text_ascii_iff {source : List Assertion} {lines : List (List Char)}
    (h : (sorted source).mapM (triple false) = .ok lines) :
    (lines.flatMap (· ++ ['\n'])).all ascii = true ↔
      ∀ a ∈ source, ((names a).all fun n => n.toList.all ascii) = true := by
  have hprintable : ∀ c, printable c = true → ascii c = true := by
    intro c hc
    simp only [printable,decide_eq_true_eq] at hc
    simp only [ascii,decide_eq_true_eq]
    omega
  rw [← text_all hprintable h,List.all_flatMap,List.all_eq_true]
  simp [show ascii '\n' = true from by decide]

theorem ntriples_faithful_iff (as bs : List Assertion) (text text' : List Char)
    (h : toNtriples as = .ok text) (h' : toNtriples bs = .ok text') :
    Faithful as bs text text' ↔ Exportable as bs := by
  obtain ⟨xs,hxs,rfl⟩ := toNtriples_ok.1 h
  obtain ⟨ys,hys,rfl⟩ := toNtriples_ok.1 h'
  have halike := forall₂_alike_iff (forall₂_of_mapM hxs) (forall₂_of_mapM hys)
  constructor
  · rintro ⟨hlossless,⟨hascii,hascii'⟩,hlines,hlines'⟩
    refine ⟨?_,fun hall => hlossless (by rw [halike.1 hall])⟩
    intro a ha
    rcases List.mem_append.1 ha with ha | ha
    · exact (all_writable_iff as).2 ⟨(text_ascii_iff hxs).1 hascii,(lines_iff hxs).1 hlines⟩ a ha
    · exact (all_writable_iff bs).2 ⟨(text_ascii_iff hys).1 hascii',(lines_iff hys).1 hlines'⟩ a ha
  · rintro ⟨hnames,hapart⟩
    obtain ⟨hascii,hbreaks⟩ := (all_writable_iff as).1 fun a ha =>
      hnames a (List.mem_append_left bs ha)
    obtain ⟨hascii',hbreaks'⟩ := (all_writable_iff bs).1 fun a ha =>
      hnames a (List.mem_append_right as ha)
    have hplain : ∀ c, printable c = true → (!isBreak c) = true :=
      fun c hc => by simp [not_break_of_printable hc]
    refine ⟨fun heq => hapart (halike.2 ?_),⟨(text_ascii_iff hxs).2 hascii,
      (text_ascii_iff hys).2 hascii'⟩,(lines_iff hxs).2 hbreaks,(lines_iff hys).2 hbreaks'⟩
    exact lines_inj ((text_all hplain hxs).2 hbreaks) ((text_all hplain hys).2 hbreaks') heq

namespace Sample

def holding (value : Json) : Assertion :=
  ⟨"urn:cbp:part","urn:cbp:size",.literal ⟨.str,value⟩,by decide,by decide⟩

def linked : Assertion :=
  ⟨"urn:cbp:part","urn:cbp:of",.term ⟨"urn:cbp:whole",by decide⟩,by decide,by decide⟩

def line : List Char :=
  ("<urn:cbp:part> <urn:cbp:size> \"5\"^^<http://www.w3.org/2001/XMLSchema#string> .\n").toList

theorem holding_text : toNtriples [holding (.int 5)] = .ok line ∧
    toNtriples [holding (.str "5")] = .ok line := by
  constructor <;> rfl

/-- A number under the type of texts is written as its text is. -/
theorem number_written_as_text : ¬∀ (as bs : List Assertion) (text text' : List Char),
    toNtriples as = .ok text → toNtriples bs = .ok text' → Faithful as bs text text' := by
  intro h
  have hfaithful := h _ _ _ _ holding_text.1 holding_text.2
  have hmem : (holding (.int 5)).fact ∈ factsOf [holding (.str "5")] := by
    rw [← hfaithful.lossless rfl]
    exact ⟨_,List.mem_singleton_self _,rfl⟩
  obtain ⟨a,ha,heq⟩ := hmem
  rw [List.mem_singleton.1 ha] at heq
  revert heq
  decide +kernel

theorem linked_faithful :
    ∃ text text', Faithful [linked,holding (.str "5")] [linked] text text' := by
  have hbs : ∃ text, toNtriples [linked] = .ok text := ⟨_,rfl⟩
  have has : ∃ text, toNtriples [linked,holding (.str "5")] = .ok text := ⟨_,rfl⟩
  obtain ⟨text,htext⟩ := has
  obtain ⟨text',htext'⟩ := hbs
  refine ⟨text,text',(ntriples_faithful_iff _ _ text text' htext htext').2 ⟨by decide +kernel,?_⟩⟩
  intro halike
  exact absurd halike.length_eq (by decide +kernel)

end Sample
end AgentCentric.RdfExport

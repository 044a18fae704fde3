import AgentCentric.Ui.Assembly

namespace AgentCentric.Ui
open Json

mutual

def views : Json → List (List (String × Json))
  | .dict node => if kindOf node = some .view then node :: viewsField node else []
  | _ => []

def viewsField : List (String × Json) → List (List (String × Json))
  | [] => []
  | (key,value) :: rest => if key = "children" then viewsEach value else viewsField rest

def viewsEach : Json → List (List (String × Json))
  | .list children => viewsAll children
  | _ => []

def viewsAll : List Json → List (List (String × Json))
  | [] => []
  | child :: rest => views child ++ viewsAll rest

end

theorem viewsField_eq (node : List (String × Json)) :
    viewsField node = ((Dict.lookup node "children").map viewsEach).getD [] := by
  induction node with
  | nil => rfl
  | cons field rest ih =>
    obtain ⟨key,value⟩ := field
    by_cases hkey : key = "children" <;> simp [viewsField,Dict.lookup,hkey,ih]

theorem get_insert (node : List (String × Json)) (key other : String) (value default : Json) :
    get (Dict.insert node key value) other default =
      if key = other then value else get node other default := by
  unfold get
  rw [Dict.lookup_insert]
  split <;> rfl

theorem kindOf_relabel (r : UIRef) (p : Projection) (node : List (String × Json)) :
    kindOf (r.relabel p node) = kindOf node := by
  simp [kindOf,UIRef.relabel,get_insert]

theorem viewsField_relabel (r : UIRef) (p : Projection) (node : List (String × Json)) :
    viewsField (r.relabel p node) = viewsField node := by
  simp [viewsField_eq,UIRef.relabel,Dict.lookup_insert]

theorem views_relabel (r : UIRef) (p : Projection) {node : List (String × Json)}
    (h : isView (.dict node) = true) :
    views (.dict (r.relabel p node)) = r.relabel p node :: viewsField node := by
  have hkind : kindOf node = some .view := by simpa [isView] using h
  rw [views,kindOf_relabel,if_pos hkind,viewsField_relabel]

def Assurance.ofText (t : String) : Option Assurance :=
  [Assurance.verified,.model,.unverified,.refused].find? fun a => a.text = t

def Provenance.ofText (t : String) : Option Provenance :=
  [Provenance.trusted,.appointed,.discovered].find? fun p => p.text = t

/-- `_ASSURANCE_SEVERITY.get(label, -1)`. -/
def assuranceSeverity : Json → Int
  | .str t =>
    match Assurance.ofText t with
    | some a => a.severity
    | none => -1
  | _ => -1

/-- `_PROVENANCE_SEVERITY.get(label, -1)`. -/
def provenanceSeverity : Json → Int
  | .str t =>
    match Provenance.ofText t with
    | some p => p.severity
    | none => -1
  | _ => -1

structure NoStronger (node : List (String × Json)) (a : Assurance) (p : Provenance) : Prop where
  assurance : (a.severity : Int) ≤ assuranceSeverity (get node "assurance" .null)
  provenance : (p.severity : Int) ≤ provenanceSeverity (get node "provenance" .null)

theorem assuranceSeverity_text (a : Assurance) : assuranceSeverity (.str a.text) = a.severity := by
  cases a <;> decide

theorem provenanceSeverity_text (p : Provenance) :
    provenanceSeverity (.str p.text) = p.severity := by
  cases p <;> decide

theorem noStronger_relabel (r : UIRef) (p : Projection) (node : List (String × Json)) :
    NoStronger (r.relabel p node) p.assurance r.provenance := by
  constructor
  · rw [UIRef.relabel,get_insert,if_pos rfl,assuranceSeverity_text]
  · rw [UIRef.relabel,get_insert,if_neg (by decide),get_insert,if_pos rfl,provenanceSeverity_text]

structure IsWeakest {α : Type} (severity : α → Nat) (xs : List α) (w : α) : Prop where
  mem : w ∈ xs
  most : ∀ x ∈ xs, severity x ≤ severity w

theorem weakest_isWeakest {α : Type} (severity : α → Nat) (fallback : α) {xs : List α}
    (h : xs ≠ []) : IsWeakest severity xs (weakest severity fallback xs) := by
  have hfold : ∀ (ys : List α) (best : α), IsWeakest severity (best :: ys)
      (ys.foldl (fun best y => if severity best < severity y then y else best) best) := by
    intro ys
    induction ys with
    | nil =>
      intro best
      exact ⟨by simp,by simp⟩
    | cons y ys ih =>
      intro best
      obtain ⟨hmem,hmost⟩ := ih (if severity best < severity y then y else best)
      rw [List.foldl_cons]
      constructor
      · rcases List.mem_cons.1 hmem with heq | hmem
        · rw [heq]
          split <;> simp
        · exact List.mem_cons_of_mem _ (List.mem_cons_of_mem _ hmem)
      · have hgreater : severity best ≤ severity (if severity best < severity y then y else best) ∧
            severity y ≤ severity (if severity best < severity y then y else best) := by
          split <;> omega
        have hhead := hmost _ List.mem_cons_self
        intro x hx
        rcases List.mem_cons.1 hx with rfl | hx
        · exact hgreater.1.trans hhead
        · rcases List.mem_cons.1 hx with rfl | hx
          · exact hgreater.2.trans hhead
          · exact hmost x (List.mem_cons_of_mem _ hx)
  cases xs with
  | nil => exact absurd rfl h
  | cons x xs => exact hfold xs x

theorem checkTree_ok {r : UIRef} {viewed : Viewed} {node : List (String × Json)} :
    r.checkTree viewed = .ok node ↔ viewed = .json (.dict node) ∧ isView (.dict node) = true := by
  cases viewed with
  | json j =>
    cases j with
    | dict items =>
      cases hview : isView (.dict items) with
      | true =>
        simp only [UIRef.checkTree,hview,if_true,Except.ok.injEq,Viewed.json.injEq,Json.dict.injEq]
        constructor
        · rintro rfl
          exact ⟨rfl,hview⟩
        · exact fun h => h.1
      | false =>
        simp only [UIRef.checkTree,hview,Bool.false_eq_true,if_false,reduceCtorEq,false_iff,
          Viewed.json.injEq,Json.dict.injEq,not_and]
        rintro rfl
        exact Bool.eq_false_iff.1 hview
    | _ => simp [UIRef.checkTree]
  | foreign isView => cases isView <;> simp [UIRef.checkTree]

structure Shown (target : UITarget) (allowDiscovered : Bool) (r : UIRef) (p : Projection)
    (capabilities : List String) (node : List (String × Json)) : Prop where
  valid : r.validate target allowDiscovered = .ok capabilities
  declared : p.schema ∈ r.component.projections
  returned : r.view p = .ok (.json (.dict node))
  view : isView (.dict node) = true

theorem renderSection_ok {sha256 : String → HexDigest} {r : UIRef} {p : Projection}
    {target : UITarget} {allowDiscovered : Bool} {s : UISection} :
    r.renderSection sha256 p target allowDiscovered = .ok s ↔ ∃ capabilities node,
      Shown target allowDiscovered r p capabilities node ∧
        s = r.toSection sha256 p capabilities node := by
  simp only [UIRef.renderSection,bind_ok,assertProjectionGranted,require_ok,checkTree_ok]
  constructor
  · rintro ⟨capabilities,hvalid,_,hdeclared,_,hview,node,⟨rfl,hnode⟩,hsection⟩
    cases hsection
    exact ⟨capabilities,node,⟨hvalid,by simpa using hdeclared,hview,hnode⟩,rfl⟩
  · rintro ⟨capabilities,node,hshown,rfl⟩
    exact ⟨capabilities,hshown.valid,(),by simpa using hshown.declared,_,hshown.returned,node,
      ⟨rfl,hshown.view⟩,rfl⟩

namespace UIAssembly
variable {sha256 : String → HexDigest} {intOf : String → Option Int}

theorem attempt_rendered {projections : Dict String Projection} {target : UITarget}
    {allowDiscovered : Bool} {r : UIRef} {s : UISection} :
    attempt sha256 projections target allowDiscovered r = .ok (.rendered s) ↔
      ∃ p, grantedTo projections r = some p ∧
        r.renderSection sha256 p target allowDiscovered = .ok s := by
  unfold attempt
  cases hgranted : grantedTo projections r with
  | none => simp
  | some p =>
    simp only [Option.some.injEq,exists_eq_left']
    cases hsection : r.renderSection sha256 p target allowDiscovered with
    | ok s' => simp
    | error e => cases e <;> simp

end UIAssembly

end AgentCentric.Ui

namespace AgentCentric.Ui
open Json

namespace UIAssembly

structure Surface (sha256 : String → HexDigest) (intOf : String → Option Int) (a : UIAssembly)
    (target : UITarget) (projections : Dict String Projection) (attempts : List Attempt)
    (s : UISurfaceResult) : Prop where
  sections : s.sections = attempts.filterMap Attempt.section?
  skipped : s.skipped = attempts.filterMap Attempt.skipped?
  raw : s.sections = [] → s.rendered = false ∧ s.output = raw sha256 projections
  drawn : s.sections ≠ [] → s.rendered = true ∧ s.assurance = surfaceAssurance s.sections ∧
    ∃ render, binding intOf target = .ok render ∧
      render (.dict (a.root s.sections)) = .ok s.output

variable {sha256 : String → HexDigest} {intOf : String → Option Int} {a : UIAssembly}
variable {target : UITarget} {projections : Dict String Projection} {allowDiscovered : Bool}

theorem renderDocument_ok {s : UISurfaceResult}
    (h : a.renderDocument sha256 intOf target projections allowDiscovered = .ok s) :
    ∃ attempts, a.refs.mapM (attempt sha256 projections target allowDiscovered) = .ok attempts ∧
      Surface sha256 intOf a target projections attempts s := by
  obtain ⟨render,hrender,h⟩ := bind_ok.1 h
  obtain ⟨attempts,hattempts,h⟩ := bind_ok.1 h
  refine ⟨attempts,hattempts,?_⟩
  cases hsections : attempts.filterMap Attempt.section? with
  | nil =>
    simp only [hsections,List.isEmpty_nil,if_true] at h
    cases h
    exact ⟨hsections.symm,rfl,fun _ => ⟨rfl,rfl⟩,fun hne => absurd rfl hne⟩
  | cons first rest =>
    simp only [hsections,List.isEmpty_cons,Bool.false_eq_true,if_false] at h
    obtain ⟨output,houtput,h⟩ := bind_ok.1 h
    cases h
    exact ⟨hsections.symm,rfl,fun hnil => absurd hnil (by simp),
      fun _ => ⟨rfl,rfl,render,hrender,houtput⟩⟩

theorem Surface.mem_sections {attempts : List Attempt} {s : UISurfaceResult}
    (h : Surface sha256 intOf a target projections attempts s)
    (hattempts : a.refs.mapM (attempt sha256 projections target allowDiscovered) = .ok attempts)
    {t : UISection} : t ∈ s.sections ↔ ∃ r ∈ a.refs, ∃ p, grantedTo projections r = some p ∧
      r.renderSection sha256 p target allowDiscovered = .ok t := by
  rw [h.sections,List.mem_filterMap]
  constructor
  · rintro ⟨result,hmem,hresult⟩
    obtain ⟨r,hr,hrun⟩ := (mem_mapM hattempts).1 hmem
    cases result with
    | rendered t' =>
      cases hresult
      exact ⟨r,hr,attempt_rendered.1 hrun⟩
    | skipped _ => cases hresult
  · rintro ⟨r,hr,hrun⟩
    exact ⟨.rendered t,(mem_mapM hattempts).2 ⟨r,hr,attempt_rendered.2 hrun⟩,rfl⟩

end UIAssembly

/-- What is written above a view claims nothing that its section does not have. -/
structure HonestHeader (node : List (String × Json)) (a : Assurance) (p : Provenance) : Prop where
  verified : a ≠ .verified → textAt node "assurance" ≠ Assurance.verified.text
  trusted : p ≠ .trusted → textAt node "provenance" ≠ Provenance.trusted.text

theorem assurance_of_severity {n : Nat} {label : Json} (h : (n : Int) ≤ assuranceSeverity label) :
    ∃ a : Assurance, label = .str a.text ∧ n ≤ a.severity := by
  cases label with
  | str t =>
    unfold assuranceSeverity at h
    cases ha : Assurance.ofText t with
    | none =>
      simp only [ha] at h
      omega
    | some a =>
      simp only [ha] at h
      have ht : a.text = t := by simpa using List.find?_some ha
      exact ⟨a,by rw [ht],by omega⟩
  | _ =>
    simp only [assuranceSeverity] at h
    omega

theorem provenance_of_severity {n : Nat} {label : Json} (h : (n : Int) ≤ provenanceSeverity label) :
    ∃ p : Provenance, label = .str p.text ∧ n ≤ p.severity := by
  cases label with
  | str t =>
    unfold provenanceSeverity at h
    cases hp : Provenance.ofText t with
    | none =>
      simp only [hp] at h
      omega
    | some p =>
      simp only [hp] at h
      have ht : p.text = t := by simpa using List.find?_some hp
      exact ⟨p,by rw [ht],by omega⟩
  | _ =>
    simp only [provenanceSeverity] at h
    omega

theorem textAt_of_get {node : List (String × Json)} {key : String} {t : String}
    (h : get node key .null = .str t) : textAt node key = t := by
  unfold get at h
  cases hlookup : Dict.lookup node key with
  | none => simp [hlookup] at h
  | some value =>
    rw [hlookup] at h
    have hvalue : value = .str t := h
    simp [textAt,get,hlookup,hvalue,pyStr]

theorem NoStronger.honestHeader {node : List (String × Json)} {a : Assurance} {p : Provenance}
    (h : NoStronger node a p) : HonestHeader node a p := by
  constructor
  · intro ha
    obtain ⟨label,hget,hle⟩ := assurance_of_severity h.assurance
    rw [textAt_of_get hget]
    cases a <;> cases label <;> revert hle ha <;> decide
  · intro hp
    obtain ⟨label,hget,hle⟩ := provenance_of_severity h.provenance
    rw [textAt_of_get hget]
    cases p <;> cases label <;> revert hle hp <;> decide

/-- The labels of a section are those of its projection and its component, and no view in it has
stronger ones. -/
structure HonestSection (r : UIRef) (p : Projection) (t : UISection) : Prop where
  assurance : t.assurance = p.assurance
  provenance : t.provenance = r.provenance
  views : ∀ node ∈ views (.dict t.tree),
    NoStronger node p.assurance r.provenance ∧ HonestHeader node p.assurance r.provenance

structure HonestRoot (s : UISurfaceResult) (root : List (String × Json)) : Prop where
  assurance : get root "assurance" .null = .str s.assurance.text
  weakestAssurance : IsWeakest Assurance.severity (s.sections.map UISection.assurance) s.assurance
  provenance : ∃ p : Provenance, get root "provenance" .null = .str p.text ∧
    IsWeakest Provenance.severity (s.sections.map UISection.provenance) p

namespace UIAssembly

structure Honest (sha256 : String → HexDigest) (intOf : String → Option Int) (a : UIAssembly)
    (target : UITarget) (projections : Dict String Projection) (allowDiscovered : Bool)
    (s : UISurfaceResult) : Prop where
  origin : ∀ t ∈ s.sections, ∃ r ∈ a.refs, ∃ p, grantedTo projections r = some p ∧
    r.renderSection sha256 p target allowDiscovered = .ok t
  sections : ∀ r ∈ a.refs, ∀ p, grantedTo projections r = some p →
    ∀ t, r.renderSection sha256 p target allowDiscovered = .ok t →
      t ∈ s.sections ∧ HonestSection r p t
  root : s.sections ≠ [] → ∃ render root, binding intOf target = .ok render ∧
    render (.dict root) = .ok s.output ∧ HonestRoot s root

def Plain (a : UIAssembly) (target : UITarget) (projections : Dict String Projection)
    (allowDiscovered : Bool) : Prop :=
  ∀ r ∈ a.refs, ∀ p, grantedTo projections r = some p →
    ∀ capabilities node, Shown target allowDiscovered r p capabilities node →
      ∀ nested ∈ viewsField node, NoStronger nested p.assurance r.provenance

variable {sha256 : String → HexDigest} {intOf : String → Option Int} {a : UIAssembly}
variable {target : UITarget} {projections : Dict String Projection} {allowDiscovered : Bool}

theorem root_honest {s : UISurfaceResult} (hne : s.sections ≠ [])
    (hassurance : s.assurance = surfaceAssurance s.sections) :
    HonestRoot s (a.root s.sections) := by
  have hlabels : ∀ {α : Type} (f : UISection → α), s.sections.map f ≠ [] := by
    intro α f hnil
    exact hne (List.map_eq_nil_iff.1 hnil)
  constructor
  · rw [hassurance]
    rfl
  · rw [hassurance]
    exact weakest_isWeakest _ _ (hlabels UISection.assurance)
  · exact ⟨surfaceProvenance s.sections,rfl,weakest_isWeakest _ _ (hlabels UISection.provenance)⟩

theorem section_honest {r : UIRef} {p : Projection} {capabilities : List String}
    {node : List (String × Json)} (hview : isView (.dict node) = true) :
    HonestSection r p (r.toSection sha256 p capabilities node) ↔
      ∀ nested ∈ viewsField node, NoStronger nested p.assurance r.provenance := by
  have hviews : views (.dict (r.toSection sha256 p capabilities node).tree) =
      r.relabel p node :: viewsField node := views_relabel r p hview
  constructor
  · intro h nested hnested
    exact (h.views nested (by rw [hviews]; exact List.mem_cons_of_mem _ hnested)).1
  · intro h
    refine ⟨rfl,rfl,fun n hn => ?_⟩
    rw [hviews] at hn
    have hweaker : NoStronger n p.assurance r.provenance := by
      rcases List.mem_cons.1 hn with rfl | hn
      · exact noStronger_relabel r p node
      · exact h n hn
    exact ⟨hweaker,hweaker.honestHeader⟩

theorem honest_iff_plain {s : UISurfaceResult}
    (hrun : a.renderDocument sha256 intOf target projections allowDiscovered = .ok s) :
    a.Honest sha256 intOf target projections allowDiscovered s ↔
      a.Plain target projections allowDiscovered := by
  obtain ⟨attempts,hattempts,hsurface⟩ := renderDocument_ok hrun
  constructor
  · intro h r hr p hp capabilities node hshown
    have hsection : r.renderSection sha256 p target allowDiscovered =
        .ok (r.toSection sha256 p capabilities node) :=
      renderSection_ok.2 ⟨capabilities,node,hshown,rfl⟩
    exact (section_honest hshown.view).1 (h.sections r hr p hp _ hsection).2
  · intro h
    refine ⟨fun t ht => (hsurface.mem_sections hattempts).1 ht,fun r hr p hp t ht => ⟨?_,?_⟩,?_⟩
    · exact (hsurface.mem_sections hattempts).2 ⟨r,hr,p,hp,ht⟩
    · obtain ⟨capabilities,node,hshown,rfl⟩ := renderSection_ok.1 ht
      exact (section_honest hshown.view).2 (h r hr p hp capabilities node hshown)
    · intro hne
      obtain ⟨-,hassurance,render,hrender,houtput⟩ := hsurface.drawn hne
      exact ⟨render,_,hrender,houtput,root_honest hne hassurance⟩

end UIAssembly

/-- Bills that nobody verified, to be shown by a component that was appointed. -/
def billsProjection : Projection := ⟨"bills.v1",.list [],.unverified⟩

def billsComponent : UIComponent where
  id := "bills-view"
  abiVersion := uiAbiVersion
  targets := [.web,.cli]
  projections := ["bills.v1"]
  directives := []
  capabilities := []
  slots := []
  tokens := []
  secrets := []
  metadata := []

def billsView (children : List (List (String × Json))) (p : Projection) : Except Raised Viewed :=
  .ok (.json (.dict (treeView "Bills" p.schema p.assurance .appointed children)))

def billsRef (children : List (List (String × Json))) : UIRef :=
  ⟨billsComponent,billsView children,.appointed⟩

def zeros (_ : String) : HexDigest := .zeros

def billsAssembly (children : List (List (String × Json))) : UIAssembly :=
  UIAssembly.new zeros [billsRef children] "cbp.ui"

def billsProjections : Dict String Projection := ⟨[("bills.v1",billsProjection)],by decide⟩

def billsSurface (children : List (List (String × Json))) : Except Raised UISurfaceResult :=
  (billsAssembly children).renderDocument zeros (fun _ => none) .cli billsProjections false

def paidView : List (String × Json) := treeView "Paid" "bills.v1" .verified .trusted []

theorem honest_iff_plain_bills : ∃ s, billsSurface [] = .ok s ∧
    ((billsAssembly []).Honest zeros (fun _ => none) .cli billsProjections false s ↔
      (billsAssembly []).Plain .cli billsProjections false) := by
  obtain ⟨s,hs,-⟩ := ok_of_any
    (show (billsSurface []).toOption.any (fun s => s.rendered) = true by decide +kernel)
  exact ⟨s,hs,UIAssembly.honest_iff_plain hs⟩

theorem paid_reads_verified : ∃ s, billsSurface [paidView] = .ok s ∧
    s.output = "# cbp.ui\n[unverified / appointed] schema=cbp.ui.surface.v1\n# Bills\n" ++
      "[unverified / appointed] schema=bills.v1\n# Paid\n[verified / trusted] schema=bills.v1\n" ∧
    ¬ (billsAssembly [paidView]).Honest zeros (fun _ => none) .cli billsProjections false s := by
  obtain ⟨s,hs,houtput⟩ := ok_of_any (show (billsSurface [paidView]).toOption.any (fun s =>
    s.output == "# cbp.ui\n[unverified / appointed] schema=cbp.ui.surface.v1\n# Bills\n" ++
      "[unverified / appointed] schema=bills.v1\n# Paid\n[verified / trusted] schema=bills.v1\n") =
    true by decide +kernel)
  refine ⟨s,hs,by simpa using houtput,fun hhonest => ?_⟩
  have hshown : Shown .cli false (billsRef [paidView]) billsProjection []
      (treeView "Bills" "bills.v1" .unverified .appointed [paidView]) :=
    ⟨by rfl,by decide,rfl,by decide⟩
  have hsection := (hhonest.sections (billsRef [paidView]) List.mem_cons_self billsProjection rfl _
    (renderSection_ok.2 ⟨_,_,hshown,rfl⟩)).2
  have hpaid := (UIAssembly.section_honest hshown.view).1 hsection paidView (by
    rw [viewsField_eq]
    exact List.mem_cons_self)
  exact absurd hpaid.assurance (by decide)

end AgentCentric.Ui

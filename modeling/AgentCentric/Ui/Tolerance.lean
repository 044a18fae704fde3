import AgentCentric.Ui.Drawn

namespace AgentCentric.Ui
open Json

section
variable (leaf : NodeKind → List (String × Json) → Bool)

theorem drawableField_eq (node : List (String × Json)) : drawableField leaf node =
      ((Dict.lookup node "children").map (drawableEach leaf)).getD true := by
  induction node with
  | nil => rfl
  | cons field rest ih =>
    obtain ⟨key,value⟩ := field
    by_cases hkey : key = "children" <;> simp [drawableField,Dict.lookup,hkey,ih]

theorem drawableAll_eq (children : List Json) :
    drawableAll leaf children = children.all (drawable leaf) := by
  induction children with
  | nil => rfl
  | cons child rest ih => rw [drawableAll,ih,List.all_cons]

theorem drawable_view {node : List (String × Json)} (h : isView (.dict node) = true) :
    drawable leaf (.dict node) = drawableField leaf node := by
  have hkind : kindOf node = some .view := by simpa [isView] using h
  rw [drawable,hkind]

theorem drawable_relabel (r : UIRef) (p : Projection) {node : List (String × Json)}
    (h : isView (.dict node) = true) :
    drawable leaf (.dict (r.relabel p node)) = drawable leaf (.dict node) := by
  have hview : isView (.dict (r.relabel p node)) = true := by
    rw [isView,kindOf_relabel]
    exact h
  rw [drawable_view leaf h,drawable_view leaf hview]
  simp [drawableField_eq,UIRef.relabel,Dict.lookup_insert]

theorem drawable_root (a : UIAssembly) (sections : List UISection) :
    drawable leaf (.dict (a.root sections)) = true ↔
      ∀ t ∈ sections, drawable leaf (.dict t.tree) = true := by
  have hview : isView (.dict (a.root sections)) = true := by rfl
  rw [drawable_view leaf hview,drawableField_eq]
  simp [UIAssembly.root,treeView,Dict.lookup,drawableEach,drawableAll_eq]

end

def harmless (intOf : String → Option Int) (target : UITarget) : Except Raised Viewed → Bool
  | .error (.refused _) => true
  | .error (.escaped _) => false
  | .ok (.json tree) => !isView tree || drawable (leafDrawable intOf target) tree
  | .ok (.foreign isView) => !isView

/-- Nothing is granted to the component, or it is refused, or it declares the schema of what is
granted and its view is harmless. -/
def Tolerable (intOf : String → Option Int) (target : UITarget)
    (projections : Dict String Projection) (allowDiscovered : Bool) (r : UIRef) : Prop :=
  ∀ p, UIAssembly.grantedTo projections r = some p →
    (∃ e, r.validate target allowDiscovered = .error e) ∨
      (p.schema ∈ r.component.projections ∧ harmless intOf target (r.view p) = true)

theorem validate_refuses {r : UIRef} {target : UITarget} {allowDiscovered : Bool} {e : Raised}
    (h : r.validate target allowDiscovered = .error e) : ∃ reason, e = .refused reason := by
  simp only [UIRef.validate,sandboxPolicy,bind_error,require_error,pure,Except.pure,reduceCtorEq,
    and_false,exists_false,or_false] at h
  obtain ⟨-,he⟩ | ⟨_,-,⟨-,he⟩ | ⟨_,-,-,he⟩⟩ := h <;> exact ⟨_,he⟩

namespace UIAssembly
variable {sha256 : String → HexDigest} {intOf : String → Option Int} {a : UIAssembly}
variable {target : UITarget} {projections : Dict String Projection} {allowDiscovered : Bool}

def Attempt.drawn (intOf : String → Option Int) (target : UITarget) : Attempt → Bool
  | .rendered t => drawable (leafDrawable intOf target) (.dict t.tree)
  | .skipped _ => true

theorem attempt_tolerable {r : UIRef} :
    (∃ result, attempt sha256 projections target allowDiscovered r = .ok result ∧
      result.drawn intOf target = true) ↔ Tolerable intOf target projections allowDiscovered r := by
  unfold attempt Tolerable
  cases hgranted : grantedTo projections r with
  | none => simp [Attempt.drawn]
  | some p =>
    simp only [Option.some.injEq,forall_eq']
    unfold UIRef.renderSection
    cases hvalid : r.validate target allowDiscovered with
    | error e =>
      obtain ⟨reason,rfl⟩ := validate_refuses hvalid
      simp [bind,Except.bind,Attempt.drawn]
    | ok capabilities =>
      by_cases hdeclared : p.schema ∈ r.component.projections
      · simp only [assertProjectionGranted,require,hdeclared,decide_true,if_true,bind,Except.bind,
          reduceCtorEq,exists_false,false_or,true_and]
        cases r.view p with
        | error e => cases e <;> simp [harmless,Attempt.drawn]
        | ok viewed =>
          cases viewed with
          | foreign isView =>
            cases isView <;> simp [UIRef.checkTree,harmless,Attempt.drawn,UIRef.malformed]
          | json tree =>
            cases tree with
            | dict node =>
              cases hview : isView (.dict node) with
              | true =>
                simp [UIRef.checkTree,harmless,Attempt.drawn,hview,pure,Except.pure,
                  UIRef.toSection,drawable_relabel _ r p hview]
              | false => simp [UIRef.checkTree,harmless,Attempt.drawn,hview,UIRef.malformed]
            | _ => simp [UIRef.checkTree,harmless,Attempt.drawn,isView,UIRef.malformed]
      · simp [assertProjectionGranted,require,hdeclared,bind,Except.bind]

theorem renderDocument_returns (h : target ∈ availableTargets) :
    (∃ s, a.renderDocument sha256 intOf target projections allowDiscovered = .ok s) ↔
      ∃ attempts, a.refs.mapM (attempt sha256 projections target allowDiscovered) = .ok attempts ∧
        ∀ result ∈ attempts, result.drawn intOf target = true := by
  obtain ⟨render,hrender,hdraws⟩ := @binding_returns intOf target h
  have hroot : ∀ attempts : List Attempt, (∃ output, render (.dict (a.root
      (attempts.filterMap Attempt.section?))) = .ok output) ↔
        ∀ result ∈ attempts, result.drawn intOf target = true := by
    intro attempts
    rw [hdraws,drawable_root]
    constructor
    · intro hall result hmem
      cases result with
      | rendered t => exact hall t (List.mem_filterMap.2 ⟨_,hmem,rfl⟩)
      | skipped _ => rfl
    · intro hall t ht
      obtain ⟨result,hmem,hresult⟩ := List.mem_filterMap.1 ht
      cases result with
      | rendered t' =>
        cases hresult
        exact hall _ hmem
      | skipped _ => cases hresult
  constructor
  · rintro ⟨s,hs⟩
    obtain ⟨attempts,hattempts,hsurface⟩ := renderDocument_ok hs
    refine ⟨attempts,hattempts,(hroot attempts).1 ?_⟩
    by_cases hnil : s.sections = []
    · rw [← hsurface.sections,hnil]
      exact (hdraws _).2 (by rfl)
    · obtain ⟨-,-,render',hrender',houtput⟩ := hsurface.drawn hnil
      rw [hrender] at hrender'
      cases hrender'
      rw [← hsurface.sections]
      exact ⟨_,houtput⟩
  · rintro ⟨attempts,hattempts,hall⟩
    obtain ⟨output,houtput⟩ := (hroot attempts).2 hall
    unfold renderDocument
    simp only [hrender,hattempts,bind,Except.bind]
    split
    · exact ⟨_,rfl⟩
    · rw [houtput]
      exact ⟨_,rfl⟩

/-- A surface with a section of each component or the reason why there is none, and the
projections themselves where there is no section at all. -/
structure Answered (sha256 : String → HexDigest) (a : UIAssembly) (target : UITarget)
    (projections : Dict String Projection) (allowDiscovered : Bool) (s : UISurfaceResult) :
    Prop where
  rendered : ∀ r ∈ a.refs, (∃ p t, grantedTo projections r = some p ∧
      r.renderSection sha256 p target allowDiscovered = .ok t ∧ t ∈ s.sections) ∨
    ∃ reason, Skipped.mk r.component.id reason ∈ s.skipped
  raw : s.sections = [] → s.rendered = false ∧ s.output = raw sha256 projections

theorem answered {s : UISurfaceResult}
    (h : a.renderDocument sha256 intOf target projections allowDiscovered = .ok s) :
    a.Answered sha256 target projections allowDiscovered s := by
  obtain ⟨attempts,hattempts,hsurface⟩ := renderDocument_ok h
  refine ⟨fun r hr => ?_,hsurface.raw⟩
  obtain ⟨result,hresult⟩ := mapM_returns.1 ⟨attempts,hattempts⟩ r hr
  cases result with
  | rendered t =>
    obtain ⟨p,hp,ht⟩ := attempt_rendered.1 hresult
    exact .inl ⟨p,t,hp,ht,(hsurface.mem_sections hattempts).2 ⟨r,hr,p,hp,ht⟩⟩
  | skipped k =>
    have hid : k.component = r.component.id := by
      unfold attempt at hresult
      split at hresult
      · cases hresult
        rfl
      · split at hresult
        · cases hresult
        · cases hresult
          rfl
        · cases hresult
    refine .inr ⟨k.reason,?_⟩
    rw [← hid,hsurface.skipped]
    exact List.mem_filterMap.2 ⟨_,(mem_mapM hattempts).2 ⟨r,hr,hresult⟩,rfl⟩

/-- A surface is returned, and answers for every component, exactly when every component is
tolerable. -/
theorem answers_iff_tolerable (h : target ∈ availableTargets) :
    (∃ s, a.renderDocument sha256 intOf target projections allowDiscovered = .ok s ∧
      a.Answered sha256 target projections allowDiscovered s) ↔
    ∀ r ∈ a.refs, Tolerable intOf target projections allowDiscovered r := by
  have hanswered : (∃ s, a.renderDocument sha256 intOf target projections allowDiscovered = .ok s ∧
      a.Answered sha256 target projections allowDiscovered s) ↔
      ∃ s, a.renderDocument sha256 intOf target projections allowDiscovered = .ok s :=
    ⟨fun ⟨s,hs,_⟩ => ⟨s,hs⟩,fun ⟨s,hs⟩ => ⟨s,hs,answered hs⟩⟩
  rw [hanswered,renderDocument_returns h]
  constructor
  · rintro ⟨attempts,hattempts,hall⟩ r hr
    obtain ⟨result,hresult⟩ := mapM_returns.1 ⟨attempts,hattempts⟩ r hr
    exact attempt_tolerable.1
      ⟨result,hresult,hall result ((mem_mapM hattempts).2 ⟨r,hr,hresult⟩)⟩
  · intro hall
    have hreturns : ∀ r ∈ a.refs, ∃ result,
        attempt sha256 projections target allowDiscovered r = .ok result := by
      intro r hr
      obtain ⟨result,hresult,-⟩ := attempt_tolerable.2 (hall r hr)
      exact ⟨result,hresult⟩
    obtain ⟨attempts,hattempts⟩ := mapM_returns.2 hreturns
    refine ⟨attempts,hattempts,fun result hmem => ?_⟩
    obtain ⟨r,hr,hresult⟩ := (mem_mapM hattempts).1 hmem
    obtain ⟨result',hresult',hdrawn⟩ := attempt_tolerable.2 (hall r hr)
    rw [hresult] at hresult'
    cases hresult'
    exact hdrawn

end UIAssembly

def asText : Json → String
  | .null => ""
  | .bool b => if b then "true" else "false"
  | .str s => s
  | .list xs => (Json.list xs).compact
  | .dict items => (Json.dict items).compact
  | number => number.repr

def treeField (label : String) (value : Json) : List (String × Json) :=
  [("node",.str "field"),("label",.str label),("value",.str (asText value))]

def treeTable (columns : List String) (rows : List (List Json)) : List (String × Json) :=
  [("node",.str "table"),("columns",.list (columns.map .str)),
    ("rows",.list (rows.map fun row => .list (row.map fun cell => .str (asText cell))))]

def ledgerSchema : String := "cbp.web.ledger.v1"

namespace LedgerView

def manifest : UIComponent where
  id := "cbp.ledger-view"
  abiVersion := uiAbiVersion
  targets := [.cli,.web]
  projections := [ledgerSchema]
  directives := []
  capabilities := []
  slots := ["main"]
  tokens := [("accent",.str "#a78bfa")]
  secrets := []
  metadata := []

/-- `data.get("ledger") or {}`, and its items. -/
def entries (ledger : Json) : Except Raised (List (String × Json)) :=
  if ledger.truthy then
    match ledger with
    | .dict items => .ok (items.insertionSort fun a b => a.1 ≤ b.1)
    | other => .error (.escaped ("'" ++ other.typeName ++ "' object has no attribute 'items'"))
  else .ok []

def row (entry : String × Json) : Except Raised (List Json) :=
  match entry.2 with
  | .dict node => .ok [.str entry.1,get node "kind" (.str ""),get node "payload" (.dict [])]
  | other => .error (notMapping other)

def render (p : Projection) : Except Raised Viewed := do
  assertProjectionGranted manifest p.schema
  match p.data with
  | .dict data =>
    match Dict.lookup data "ledger" with
    | some ledger =>
      let entries ← entries ledger
      let rows ← entries.mapM row
      pure (.json (.dict (treeView "Directive ledger" p.schema p.assurance .trusted
        [treeField "entries" (get data "count" (.int rows.length)),
          treeTable ["correlation","kind","payload"] rows])))
    | none => .error (.refused "ledger projection must be a \x7bledger: \x7b...\x7d\x7d document")
  | _ => .error (.refused "ledger projection must be a \x7bledger: \x7b...\x7d\x7d document")

def ref : UIRef := ⟨manifest,render,.trusted⟩

end LedgerView

def ledgerProjections (entry : Json) : Dict String Projection :=
  ⟨[(ledgerSchema,⟨ledgerSchema,.dict [("ledger",.dict [("c1",entry)])],.verified⟩)],
    List.nodup_singleton _⟩

def ledgerAssembly : UIAssembly := UIAssembly.new zeros [LedgerView.ref] "cbp.ui"

theorem answers_iff_tolerable_ledger :
    (∃ s, ledgerAssembly.renderDocument zeros (fun _ => none) .web
        (ledgerProjections (.dict [("kind",.str "run")])) false = .ok s ∧
      ledgerAssembly.Answered zeros .web (ledgerProjections (.dict [("kind",.str "run")])) false s) ↔
    ∀ r ∈ ledgerAssembly.refs, Tolerable (fun _ => none) .web
      (ledgerProjections (.dict [("kind",.str "run")])) false r :=
  UIAssembly.answers_iff_tolerable (by decide)

/-- An entry that is no mapping: the exception of the view leaves the call. -/
theorem ledger_escapes :
    ledgerAssembly.renderDocument zeros (fun _ => none) .web (ledgerProjections (.int 1)) false =
      .error (.escaped "'int' object has no attribute 'get'") := by
  rfl

end AgentCentric.Ui

import AgentCentric.Ui.Labels
set_option linter.unusedSectionVars false

namespace AgentCentric.Ui
open Json

section
variable (leaf : NodeKind → List (String × Json) → Bool)

mutual

/-- A tree of known nodes whose leaves can be drawn. -/
def drawable : Json → Bool
  | .dict node =>
    match kindOf node with
    | some .view => drawableField node
    | some kind => leaf kind node
    | none => false
  | _ => false

def drawableField : List (String × Json) → Bool
  | [] => true
  | (key,value) :: rest => if key = "children" then drawableEach value else drawableField rest

def drawableEach : Json → Bool
  | .list children => drawableAll children
  | .str s => s = ""
  | .dict items => items.isEmpty
  | _ => false

def drawableAll : List Json → Bool
  | [] => true
  | child :: rest => drawable child && drawableAll rest

end

end

section
variable {α : Type} (M : Medium α) {leaf : NodeKind → List (String × Json) → Bool}
variable (hleaf : ∀ kind node, (∃ a, M.leaf kind node = .ok a) ↔ leaf kind node = true)
include hleaf

mutual

theorem draw_returns : ∀ tree : Json, (∃ a, draw M tree = .ok a) ↔ drawable leaf tree = true
  | .dict node => by
    rw [draw,drawable]
    cases hkind : kindOf node with
    | none => simp
    | some kind =>
      cases kind with
      | view =>
        rw [← drawField_returns node]
        cases drawField M node <;> simp [Except.map]
      | _ => exact hleaf _ node
  | .null | .bool _ | .int _ | .decimal _ | .nan | .infinity | .negInfinity | .str _
  | .list _ => by simp [draw,drawable]

theorem drawField_returns : ∀ node : List (String × Json),
    (∃ as, drawField M node = .ok as) ↔ drawableField leaf node = true
  | [] => by simp [drawField,drawableField]
  | (key,value) :: rest => by
    rw [drawField,drawableField]
    split
    · exact drawEach_returns value
    · exact drawField_returns rest

theorem drawEach_returns : ∀ value : Json,
    (∃ as, drawEach M value = .ok as) ↔ drawableEach leaf value = true
  | .list children => by
    rw [drawEach,drawableEach]
    exact drawAll_returns children
  | .str s => by
    rw [drawEach,drawableEach]
    split <;> simp_all
  | .dict items => by
    rw [drawEach,drawableEach]
    split <;> simp_all
  | .null | .bool _ | .int _ | .decimal _ | .nan | .infinity
  | .negInfinity => by simp [drawEach,drawableEach]

theorem drawAll_returns : ∀ children : List Json,
    (∃ as, drawAll M children = .ok as) ↔ drawableAll leaf children = true
  | [] => by simp [drawAll,drawableAll]
  | child :: rest => by
    rw [drawAll,drawableAll,Bool.and_eq_true,← draw_returns child,← drawAll_returns rest]
    simp only [bind_ok]
    constructor
    · rintro ⟨_,a,ha,as,has,-⟩
      exact ⟨⟨a,ha⟩,as,has⟩
    · rintro ⟨⟨a,ha⟩,as,has⟩
      exact ⟨a :: as,a,ha,as,has,rfl⟩

end

end

def levelDrawable (intOf : String → Option Int) (target : UITarget) (level : Json) : Bool :=
  match pyInt intOf level with
  | .ok n => target ≠ .cli || (-2 ^ 63 ≤ n && n < 2 ^ 63)
  | .error _ => false

def rowDrawable (target : UITarget) (columns : List Json) (row : Json) : Bool :=
  match iterate row with
  | .ok cells => target ≠ .cli || columns.length ≤ cells.length
  | .error _ => false

def tableDrawable (target : UITarget) (columns rows : Json) : Bool :=
  match iterate columns, iterate rows with
  | .ok names, .ok rows => rows.all (rowDrawable target names)
  | _, _ => false

def leafDrawable (intOf : String → Option Int) (target : UITarget) (kind : NodeKind)
    (node : List (String × Json)) : Bool :=
  match kind with
  | .view | .text | .field => true
  | .heading => levelDrawable intOf target (get node "level" (.int 1))
  | .list => (iterate (get node "items" (.list []))).isOk
  | .table => tableDrawable target (get node "columns" (.list [])) (get node "rows" (.list []))

theorem tableLines_returns {columns : List String} {rows : List (List String)} :
    (∃ lines, tableLines columns rows = .ok lines) ↔ ∀ row ∈ rows, columns.length ≤ row.length := by
  unfold tableLines
  split
  · next hshort =>
    obtain ⟨row,hrow,hlt⟩ := List.any_eq_true.1 hshort
    have hlt : row.length < columns.length := by simpa using hlt
    simp only [reduceCtorEq,exists_false,false_iff,not_forall]
    exact ⟨row,hrow,by omega⟩
  · next hlong =>
    simp only [Except.ok.injEq,exists_eq',true_iff]
    intro row hrow
    have := mt (fun hlt => List.any_eq_true.2 ⟨row,hrow,hlt⟩) hlong
    simpa using this

theorem rowDrawable_iff {target : UITarget} {columns : List Json} {row : Json} :
    rowDrawable target columns row = true ↔
      ∃ cells, iterate row = .ok cells ∧ (target = .cli → columns.length ≤ cells.length) := by
  unfold rowDrawable
  cases iterate row <;> cases target <;> simp

theorem rowsDrawable_iff {target : UITarget} {columns rows : List Json} :
    rows.all (rowDrawable target columns) = true ↔ ∃ cells, rows.mapM iterate = .ok cells ∧
      ∀ row ∈ cells, target = .cli → columns.length ≤ row.length := by
  rw [List.all_eq_true]
  constructor
  · intro h
    have hrows : ∀ row ∈ rows, ∃ cells, iterate row = .ok cells := by
      intro row hrow
      obtain ⟨cells,hcells,-⟩ := rowDrawable_iff.1 (h row hrow)
      exact ⟨cells,hcells⟩
    obtain ⟨cells,hcells⟩ := mapM_returns.2 hrows
    refine ⟨cells,hcells,fun xs hxs => ?_⟩
    obtain ⟨row,hrow,hiterate⟩ := (mem_mapM hcells).1 hxs
    obtain ⟨ys,hys,hlong⟩ := rowDrawable_iff.1 (h row hrow)
    rw [hiterate] at hys
    cases hys
    exact hlong
  · rintro ⟨cells,hcells,hlong⟩ row hrow
    obtain ⟨xs,hxs⟩ := mapM_returns.1 ⟨cells,hcells⟩ row hrow
    exact rowDrawable_iff.2 ⟨xs,hxs,hlong xs ((mem_mapM hcells).2 ⟨row,hrow,hxs⟩)⟩

theorem cliLeaf_returns (intOf : String → Option Int) (kind : NodeKind)
    (node : List (String × Json)) : (∃ lines, cliLeaf intOf kind node = .ok lines) ↔
      leafDrawable intOf .cli kind node = true := by
  cases kind with
  | view => simp [cliLeaf,leafDrawable]
  | text => simp [cliLeaf,leafDrawable]
  | field => simp [cliLeaf,leafDrawable]
  | heading =>
    simp only [cliLeaf,leafDrawable,levelDrawable]
    cases pyInt intOf (get node "level" (.int 1)) with
    | error e => simp [bind,Except.bind]
    | ok n =>
      simp only [bind_ok,require_ok,Except.ok.injEq,exists_eq_left']
      constructor
      · rintro ⟨_,_,hfits,-⟩
        simpa using hfits
      · intro hfits
        exact ⟨_,(),by simpa using hfits,rfl⟩
  | list =>
    simp only [cliLeaf,leafDrawable]
    cases iterate (get node "items" (.list [])) <;>
      simp [bind,Except.bind,pure,Except.pure,Except.isOk,Except.toBool]
  | table =>
    simp only [cliLeaf,leafDrawable,tableDrawable]
    cases iterate (get node "columns" (.list [])) with
    | error e => simp [bind,Except.bind]
    | ok columns =>
      cases iterate (get node "rows" (.list [])) with
      | error e => simp [bind,Except.bind]
      | ok rows =>
        simp only [rowsDrawable_iff,bind_ok,Except.ok.injEq,exists_eq_left']
        constructor
        · rintro ⟨lines,cells,hcells,hlines⟩
          have hlong := tableLines_returns.1 ⟨lines,hlines⟩
          refine ⟨cells,hcells,fun row hrow _ => ?_⟩
          simpa using hlong _ (List.mem_map_of_mem hrow)
        · rintro ⟨cells,hcells,hlong⟩
          have hlines : ∃ lines, tableLines (columns.map pyStr)
              (cells.map fun row => row.map pyStr) = .ok lines :=
            tableLines_returns.2 (by simpa using hlong)
          obtain ⟨lines,hlines⟩ := hlines
          exact ⟨lines,cells,hcells,hlines⟩

theorem webLeaf_returns (intOf : String → Option Int) (kind : NodeKind)
    (node : List (String × Json)) : (∃ fragment, webLeaf intOf kind node = .ok fragment) ↔
      leafDrawable intOf .web kind node = true := by
  cases kind with
  | view => simp [webLeaf,leafDrawable]
  | text => simp [webLeaf,leafDrawable]
  | field => simp [webLeaf,leafDrawable]
  | heading =>
    simp only [webLeaf,leafDrawable,levelDrawable]
    cases pyInt intOf (get node "level" (.int 1)) <;> simp [bind,Except.bind,pure,Except.pure]
  | list =>
    simp only [webLeaf,leafDrawable]
    cases iterate (get node "items" (.list [])) <;>
      simp [bind,Except.bind,pure,Except.pure,Except.isOk,Except.toBool]
  | table =>
    simp only [webLeaf,leafDrawable,tableDrawable]
    cases iterate (get node "columns" (.list [])) with
    | error e => simp [bind,Except.bind]
    | ok columns =>
      cases iterate (get node "rows" (.list [])) with
      | error e => simp [bind,Except.bind]
      | ok rows =>
        simp only [rowsDrawable_iff,bind_ok,Except.ok.injEq,exists_eq_left']
        constructor
        · rintro ⟨fragment,cells,hcells,-⟩
          exact ⟨cells,hcells,fun _ _ hcli => nomatch hcli⟩
        · rintro ⟨cells,hcells,-⟩
          exact ⟨_,cells,hcells,rfl⟩

def availableTargets : List UITarget := [.web,.cli]

theorem binding_returns {intOf : String → Option Int} {target : UITarget}
    (h : target ∈ availableTargets) : ∃ render, binding intOf target = .ok render ∧
      ∀ tree, (∃ output, render tree = .ok output) ↔
        drawable (leafDrawable intOf target) tree = true := by
  cases target with
  | web =>
    refine ⟨_,rfl,fun tree => ?_⟩
    rw [← draw_returns (web intOf "#38bdf8") (webLeaf_returns intOf)]
    unfold webFragment
    cases draw (web intOf "#38bdf8") tree <;> simp [Except.map]
  | cli =>
    refine ⟨_,rfl,fun tree => ?_⟩
    rw [← draw_returns (cli intOf) (cliLeaf_returns intOf)]
    unfold cliLines
    cases draw (cli intOf) tree <;> simp [Except.map]
  | os => cases h with | tail _ h => cases h with | tail _ h => cases h
  | embedded => cases h with | tail _ h => cases h with | tail _ h => cases h

end AgentCentric.Ui

import Mathlib.Data.Prod.Lex
import AgentCentric.Ui.Tolerance

namespace AgentCentric.Ui
open Json

namespace UIAssembly

def sortKey (sha256 : String → HexDigest) (r : UIRef) : Lex (String × String) :=
  toLex (r.component.id,r.component.uiHash sha256)

theorem sortKey_le {sha256 : String → HexDigest} (a b : UIRef) :
    (a.component.id < b.component.id ∨ (a.component.id = b.component.id ∧
      a.component.uiHash sha256 ≤ b.component.uiHash sha256)) ↔
      sortKey sha256 a ≤ sortKey sha256 b := by
  rw [sortKey,sortKey,Prod.Lex.toLex_le_toLex]

theorem sortKey_eq {sha256 : String → HexDigest} {a b : UIRef} :
    sortKey sha256 a = sortKey sha256 b ↔
      a.component.id = b.component.id ∧ a.component.uiHash sha256 = b.component.uiHash sha256 := by
  rw [sortKey,sortKey,toLex_inj,Prod.mk.injEq]

def identity (sha256 : String → HexDigest) (a : UIAssembly) : Json :=
  .dict [("schema",.str "cbp.ui.composition.v1"),("name",.str a.name),
    ("components",.list (a.refs.map fun r => r.identity sha256))]

theorem identity_canonical {sha256 : String → HexDigest} {a b : UIAssembly}
    (hname : a.name = b.name) : (a.identity sha256).canonical = (b.identity sha256).canonical ↔
      a.refs.map (fun r => (r.identity sha256).canonical) =
        b.refs.map (fun r => (r.identity sha256).canonical) := by
  refine (Json.canonical_dict_inj (by simp) (by simp)).trans ?_
  simp [hname,Json.canonical_list,Function.comp_def]

theorem targets_inj {s t : List UITarget} :
    s.map (fun t => Json.str t.text) = t.map (fun t => Json.str t.text) ↔ s = t := by
  refine (List.map_injective_iff.2 fun a b h => ?_).eq_iff
  cases a <;> cases b <;> simp [UITarget.text] at h ⊢

theorem provenance_inj {p q : Provenance} : p.text = q.text ↔ p = q := by
  cases p <;> cases q <;> simp [Provenance.text]

theorem ref_canonical {sha256 : String → HexDigest} {a b : UIRef} :
    (a.identity sha256).canonical = (b.identity sha256).canonical ↔
      sortKey sha256 a = sortKey sha256 b ∧ a.component.targets = b.component.targets ∧
        a.provenance = b.provenance := by
  refine (Json.canonical_dict_inj (by simp) (by simp)).trans ?_
  have htext : ∀ text, (Json.str text).canonical = .str text := fun text => by simp [canonical]
  rw [sortKey_eq,← targets_inj,← provenance_inj]
  simp [Json.canonical_list,htext,Function.comp_def,and_assoc]

section
variable (sha256 : String → HexDigest) (intOf : String → Option Int) (target : UITarget)
variable (projections : Dict String Projection) (allowDiscovered : Bool)

def raises (r : UIRef) : Option Raised :=
  faultOf (attempt sha256 projections target allowDiscovered r)

def shows (r : UIRef) : Option UISection :=
  (attempt sha256 projections target allowDiscovered r).toOption.bind Attempt.section?

def skips (r : UIRef) : Option Skipped :=
  (attempt sha256 projections target allowDiscovered r).toOption.bind Attempt.skipped?

def undrawn (t : UISection) : Option Raised :=
  (binding intOf target).toOption.bind fun render => faultOf (render (.dict t.tree))

def undrawable (r : UIRef) : Option Raised :=
  (shows sha256 target projections allowDiscovered r).bind (undrawn intOf target)

def surfaceOf (name hash : String) (sections : List UISection) (skipped : List Skipped) :
    Except Raised UISurfaceResult := do
  let render ← binding intOf target
  if sections.isEmpty then
    pure ⟨target,false,raw sha256 projections,hash,.unverified,[],skipped,true⟩
  else do
    let output ← render (.dict (root ⟨[],name⟩ sections))
    pure ⟨target,true,output,hash,surfaceAssurance sections,sections,skipped,!skipped.isEmpty⟩

end

theorem faultOf_map {α β : Type} (x : Except Raised α) (f : α → β) :
    faultOf (x.map f) = faultOf x := by
  cases x <;> rfl

theorem drawAll_mapM {α : Type} (M : Medium α) (children : List Json) :
    drawAll M children = children.mapM (draw M) := by
  induction children with
  | nil => rfl
  | cons child rest ih =>
    rw [drawAll,ih,List.mapM_cons]

theorem draw_root {α : Type} (M : Medium α) (a : UIAssembly) (sections : List UISection) :
    faultOf (draw M (.dict (a.root sections))) =
      (sections.filterMap fun t => faultOf (draw M (.dict t.tree))).head? := by
  have hkind : kindOf (a.root sections) = some .view := by rfl
  have hfield : drawField M (a.root sections) =
      (sections.map fun t => Json.dict t.tree).mapM (draw M) := by
    simp [root,treeView,drawField,drawEach,drawAll_mapM,Function.comp_def]
  rw [draw,hkind,faultOf_map,hfield,faultOf_mapM,List.filterMap_map]
  rfl

theorem render_root {intOf : String → Option Int} {target : UITarget}
    {render : Json → Except Raised String} (h : binding intOf target = .ok render)
    (a : UIAssembly) (sections : List UISection) : faultOf (render (.dict (a.root sections))) =
      (sections.filterMap (undrawn intOf target)).head? := by
  have hundrawn : ∀ t, undrawn intOf target t = faultOf (render (.dict t.tree)) := fun t => by
    simp [undrawn,h,Except.toOption]
  simp only [hundrawn]
  cases target with
  | web =>
    cases h
    simp only [faultOf_map,webFragment,draw_root]
  | cli =>
    cases h
    simp only [faultOf_map,cliLines,draw_root]
  | os => cases h
  | embedded => cases h

variable {sha256 : String → HexDigest} {intOf : String → Option Int} {target : UITarget}
variable {projections : Dict String Projection} {allowDiscovered : Bool}

theorem renderDocument_raises {a : UIAssembly} {render : Json → Except Raised String}
    (hbinding : binding intOf target = .ok render) {e : Raised}
    (h : (a.refs.filterMap (raises sha256 target projections allowDiscovered)).head? = some e) :
    a.renderDocument sha256 intOf target projections allowDiscovered = .error e := by
  have hattempts : a.refs.mapM (attempt sha256 projections target allowDiscovered) = .error e := by
    rw [← faultOf_some,faultOf_mapM]
    exact h
  rw [renderDocument,hbinding,hattempts]
  rfl

theorem renderDocument_shows {a : UIAssembly}
    (h : ∀ r ∈ a.refs, raises sha256 target projections allowDiscovered r = none) :
    a.renderDocument sha256 intOf target projections allowDiscovered =
      surfaceOf sha256 intOf target projections a.name (a.compositionHash sha256)
        (a.refs.filterMap (shows sha256 target projections allowDiscovered))
        (a.refs.filterMap (skips sha256 target projections allowDiscovered)) := by
  obtain ⟨attempts,hattempts⟩ := mapM_returns.2 fun r hr => faultOf_none.1 (h r hr)
  have hshows : attempts.filterMap Attempt.section? =
      a.refs.filterMap (shows sha256 target projections allowDiscovered) := by
    refine filterMap_of_mapM (fun r x hx => ?_) hattempts
    simp [shows,hx,Except.toOption]
  have hskips : attempts.filterMap Attempt.skipped? =
      a.refs.filterMap (skips sha256 target projections allowDiscovered) := by
    refine filterMap_of_mapM (fun r x hx => ?_) hattempts
    simp [skips,hx,Except.toOption]
  rw [renderDocument,surfaceOf,hattempts,← hshows,← hskips]
  rfl

theorem surfaceOf_undrawn {render : Json → Except Raised String}
    (hbinding : binding intOf target = .ok render) {name hash : String}
    {sections : List UISection} {skipped : List Skipped} {e : Raised}
    (h : (sections.filterMap (undrawn intOf target)).head? = some e) :
    surfaceOf sha256 intOf target projections name hash sections skipped = .error e := by
  have houtput : render (.dict (root ⟨[],name⟩ sections)) = .error e := by
    rw [← faultOf_some,render_root hbinding]
    exact h
  cases sections with
  | nil => cases h
  | cons first rest =>
    rw [surfaceOf,hbinding]
    simp only [List.isEmpty_cons,Bool.false_eq_true,if_false,bind,Except.bind,houtput]

theorem surfaceOf_drawn {render : Json → Except Raised String}
    (hbinding : binding intOf target = .ok render) {name hash : String}
    {sections : List UISection} {skipped : List Skipped}
    (h : sections.filterMap (undrawn intOf target) = []) :
    ∃ s, surfaceOf sha256 intOf target projections name hash sections skipped = .ok s ∧
      s.sections = sections ∧ s.skipped = skipped := by
  rw [surfaceOf,hbinding]
  cases sections with
  | nil => exact ⟨_,rfl,rfl,rfl⟩
  | cons first rest =>
    have hnone := render_root hbinding ⟨[],name⟩ (first :: rest)
    rw [h,List.head?_nil,faultOf_none] at hnone
    obtain ⟨output,houtput⟩ := hnone
    simp only [List.isEmpty_cons,Bool.false_eq_true,if_false,bind,Except.bind,houtput]
    exact ⟨_,rfl,rfl,rfl⟩

variable (sha256) (intOf) (target) (projections) (allowDiscovered)

/-- Components with one id and one hash come to the same, as far as the surface lets it be seen.
The first exception hides everything else, and the first section that cannot be drawn hides the
sections and what was skipped. -/
structure Settled (refs : List UIRef) : Prop where
  raised : FirstAlike (sortKey sha256) (raises sha256 target projections allowDiscovered) refs
  undrawn : (∀ r ∈ refs, raises sha256 target projections allowDiscovered r = none) →
    FirstAlike (sortKey sha256) (undrawable sha256 intOf target projections allowDiscovered) refs
  shown : (∀ r ∈ refs, raises sha256 target projections allowDiscovered r = none) →
    (∀ r ∈ refs, undrawable sha256 intOf target projections allowDiscovered r = none) →
    Alike (sortKey sha256) (shows sha256 target projections allowDiscovered) refs ∧
      Alike (sortKey sha256) (skips sha256 target projections allowDiscovered) refs

def SameSurface (refs : List UIRef) (name : String) : Prop :=
  ∀ ys, refs.Perm ys →
    (new sha256 refs name).renderDocument sha256 intOf target projections allowDiscovered =
      (new sha256 ys name).renderDocument sha256 intOf target projections allowDiscovered

variable {sha256} {intOf} {target} {projections} {allowDiscovered}
variable {refs : List UIRef} {name : String} {render : Json → Except Raised String}

theorem exists_head {α β : Type} {f : α → Option β} {xs : List α} {a : α} (ha : a ∈ xs)
    (h : f a ≠ none) : ∃ x, (xs.filterMap f).head? = some x := by
  obtain ⟨x,hx⟩ := Option.ne_none_iff_exists'.1 h
  have hmem : x ∈ xs.filterMap f := List.mem_filterMap.2 ⟨a,ha,hx⟩
  exact ⟨_,List.head?_eq_some_head (List.ne_nil_of_mem hmem)⟩

theorem mem_new {r : UIRef} : r ∈ (new sha256 refs name).refs ↔ r ∈ refs :=
  List.mem_insertionSort _

theorem sameSurface_first {f : UIRef → Option Raised} {r : UIRef} (hr : r ∈ refs) (h : f r ≠ none)
    (hsurface : ∀ ys e, refs.Perm ys → ((new sha256 ys name).refs.filterMap f).head? = some e →
      (new sha256 ys name).renderDocument sha256 intOf target projections allowDiscovered =
        .error e) :
    SameSurface sha256 intOf target projections allowDiscovered refs name ↔
      FirstAlike (sortKey sha256) f refs := by
  rw [← head_sort_iff _ (@sortKey_le sha256)]
  refine forall_congr' fun ys => forall_congr' fun hperm => ?_
  obtain ⟨e,he⟩ := exists_head ((@mem_new sha256 refs name r).2 hr) h
  obtain ⟨e',he'⟩ := exists_head ((@mem_new sha256 ys name r).2 (hperm.mem_iff.1 hr)) h
  rw [hsurface refs e (.refl refs) he,hsurface ys e' hperm he']
  exact ⟨fun heq => he.trans ((congrArg some (Except.error.inj heq)).trans he'.symm),
    fun heq => congrArg _ (Option.some.inj (he.symm.trans (heq.trans he')))⟩

theorem sameSurface_raised (hbinding : binding intOf target = .ok render) {r : UIRef}
    (hr : r ∈ refs) (h : raises sha256 target projections allowDiscovered r ≠ none) :
    SameSurface sha256 intOf target projections allowDiscovered refs name ↔
      FirstAlike (sortKey sha256) (raises sha256 target projections allowDiscovered) refs :=
  sameSurface_first hr h fun _ _ _ he => renderDocument_raises hbinding he

theorem renderDocument_new
    (hhash : ∀ ys, refs.Perm ys → (new sha256 refs name).compositionHash sha256 =
      (new sha256 ys name).compositionHash sha256)
    (h : ∀ r ∈ refs, raises sha256 target projections allowDiscovered r = none)
    {ys : List UIRef} (hperm : refs.Perm ys) :
    (new sha256 ys name).renderDocument sha256 intOf target projections allowDiscovered =
      surfaceOf sha256 intOf target projections name ((new sha256 refs name).compositionHash sha256)
        ((new sha256 ys name).refs.filterMap (shows sha256 target projections allowDiscovered))
        ((new sha256 ys name).refs.filterMap
          (skips sha256 target projections allowDiscovered)) := by
  rw [hhash ys hperm]
  exact renderDocument_shows fun r hr => h r (hperm.mem_iff.2 (mem_new.1 hr))

theorem sameSurface_undrawn (hbinding : binding intOf target = .ok render)
    (hhash : ∀ ys, refs.Perm ys → (new sha256 refs name).compositionHash sha256 =
      (new sha256 ys name).compositionHash sha256)
    (hraises : ∀ r ∈ refs, raises sha256 target projections allowDiscovered r = none) {r : UIRef}
    (hr : r ∈ refs) (h : undrawable sha256 intOf target projections allowDiscovered r ≠ none) :
    SameSurface sha256 intOf target projections allowDiscovered refs name ↔
      FirstAlike (sortKey sha256) (undrawable sha256 intOf target projections allowDiscovered)
        refs := by
  refine sameSurface_first hr h fun ys e hperm he => ?_
  rw [renderDocument_new hhash hraises hperm]
  exact surfaceOf_undrawn hbinding (by rwa [List.filterMap_filterMap])

theorem sameSurface_shown (hbinding : binding intOf target = .ok render)
    (hhash : ∀ ys, refs.Perm ys → (new sha256 refs name).compositionHash sha256 =
      (new sha256 ys name).compositionHash sha256)
    (hraises : ∀ r ∈ refs, raises sha256 target projections allowDiscovered r = none)
    (h : ∀ r ∈ refs, undrawable sha256 intOf target projections allowDiscovered r = none) :
    SameSurface sha256 intOf target projections allowDiscovered refs name ↔
      Alike (sortKey sha256) (shows sha256 target projections allowDiscovered) refs ∧
        Alike (sortKey sha256) (skips sha256 target projections allowDiscovered) refs := by
  rw [← filterMap_sort_iff _ (@sortKey_le sha256),
    ← filterMap_sort_iff _ (@sortKey_le sha256),← forall_and]
  refine forall_congr' fun ys => ?_
  rw [← forall_and]
  refine forall_congr' fun hperm => ?_
  have hdrawn : ∀ zs, refs.Perm zs →
      ((new sha256 zs name).refs.filterMap (shows sha256 target projections
        allowDiscovered)).filterMap (undrawn intOf target) = [] := by
    intro zs hzs
    rw [List.filterMap_filterMap,List.filterMap_eq_nil_iff]
    exact fun r hr => h r (hzs.mem_iff.2 (mem_new.1 hr))
  rw [renderDocument_new hhash hraises (.refl refs),renderDocument_new hhash hraises hperm]
  constructor
  · intro heq
    obtain ⟨s,hs,hsections,hskipped⟩ := surfaceOf_drawn hbinding (hdrawn refs (.refl refs))
    obtain ⟨s',hs',hsections',hskipped'⟩ := surfaceOf_drawn hbinding (hdrawn ys hperm)
    have hsame : s = s' := Except.ok.inj (hs.symm.trans (heq.trans hs'))
    exact ⟨hsections.symm.trans ((congrArg _ hsame).trans hsections'),
      hskipped.symm.trans ((congrArg _ hsame).trans hskipped')⟩
  · rintro ⟨hshows,hskips⟩
    exact congrArg₂ _ hshows hskips

theorem sameSurface_iff (hbinding : binding intOf target = .ok render)
    (hhash : ∀ ys, refs.Perm ys → (new sha256 refs name).compositionHash sha256 =
      (new sha256 ys name).compositionHash sha256) :
    SameSurface sha256 intOf target projections allowDiscovered refs name ↔
      Settled sha256 intOf target projections allowDiscovered refs := by
  by_cases hraises : ∀ r ∈ refs, raises sha256 target projections allowDiscovered r = none
  · have hraised : FirstAlike (sortKey sha256) (raises sha256 target projections allowDiscovered)
        refs := by
      intro a ha b hb hab hlow x hx
      rw [hraises a ha] at hx
      cases hx
    by_cases hdrawn : ∀ r ∈ refs,
        undrawable sha256 intOf target projections allowDiscovered r = none
    · rw [sameSurface_shown hbinding hhash hraises hdrawn]
      refine ⟨fun h => ⟨hraised,fun _ a ha b hb hab hlow x hx => ?_,fun _ _ => h⟩,
        fun h => h.shown hraises hdrawn⟩
      rw [hdrawn a ha] at hx
      cases hx
    · push Not at hdrawn
      obtain ⟨r,hr,hne⟩ := hdrawn
      rw [sameSurface_undrawn hbinding hhash hraises hr hne]
      exact ⟨fun h => ⟨hraised,fun _ => h,fun _ hnone => absurd (hnone r hr) hne⟩,
        fun h => h.undrawn hraises⟩
  · push Not at hraises
    obtain ⟨r,hr,hne⟩ := hraises
    rw [sameSurface_raised hbinding hr hne]
    exact ⟨fun h => ⟨h,fun hnone => absurd (hnone r hr) hne,fun hnone => absurd (hnone r hr) hne⟩,
      fun h => h.raised⟩

def HashedAlike (sha256 : String → HexDigest) (refs : List UIRef) : Prop :=
  ∀ a ∈ refs, ∀ b ∈ refs, sortKey sha256 a = sortKey sha256 b →
    a.component.targets = b.component.targets ∧ a.provenance = b.provenance

theorem hexDigest_ext {a b : HexDigest} (h : a.text = b.text) : a = b := by
  cases a
  cases b
  cases h
  rfl

theorem sameHash_iff
    (hcollision : ∀ ys, refs.Perm ys → sha256 ((new sha256 refs name).identity sha256).compact =
      sha256 ((new sha256 ys name).identity sha256).compact →
      ((new sha256 refs name).identity sha256).compact =
        ((new sha256 ys name).identity sha256).compact) :
    (∀ ys, refs.Perm ys → (new sha256 refs name).compositionHash sha256 =
      (new sha256 ys name).compositionHash sha256) ↔ HashedAlike sha256 refs := by
  have hdocument : ∀ ys, refs.Perm ys → ((new sha256 refs name).compositionHash sha256 =
      (new sha256 ys name).compositionHash sha256 ↔
      (new sha256 refs name).refs.filterMap (fun r => some (r.identity sha256).canonical) =
        (new sha256 ys name).refs.filterMap (fun r => some (r.identity sha256).canonical)) := by
    intro ys hperm
    have hcanonical := @identity_canonical sha256 (new sha256 refs name) (new sha256 ys name) rfl
    rw [List.filterMap_eq_map',← hcanonical,← Json.bytes_inj]
    constructor
    · intro h
      exact String.ofList_injective (hcollision ys hperm (hexDigest_ext h))
    · intro h
      exact congrArg (fun text => (sha256 (String.ofList text)).text) h
  have hsort := @filterMap_sort_iff UIRef Json _ _ (sortKey sha256)
    (fun r => some (r.identity sha256).canonical) refs _ _ (@sortKey_le sha256)
  refine (forall_congr' fun ys => forall_congr' fun hperm => hdocument ys hperm).trans
    (hsort.trans ?_)
  refine forall_congr' fun a => forall_congr' fun _ => forall_congr' fun b => forall_congr' fun _ =>
    forall_congr' fun hkey => ?_
  simp only [Option.some.injEq,forall_eq']
  rw [ref_canonical]
  exact and_iff_right hkey

/-- A composition has one content address and one surface for every order of its components, just
where components with one id and one hash have the same targets and provenance and come to the
same, as far as it can be seen. -/
theorem every_order_iff
    (hcollision : ∀ ys, refs.Perm ys → sha256 ((new sha256 refs name).identity sha256).compact =
      sha256 ((new sha256 ys name).identity sha256).compact →
      ((new sha256 refs name).identity sha256).compact =
        ((new sha256 ys name).identity sha256).compact) :
    (∀ ys, refs.Perm ys → (new sha256 refs name).compositionHash sha256 =
        (new sha256 ys name).compositionHash sha256 ∧
      ∀ target projections allowDiscovered,
        (new sha256 refs name).renderDocument sha256 intOf target projections allowDiscovered =
          (new sha256 ys name).renderDocument sha256 intOf target projections allowDiscovered) ↔
      HashedAlike sha256 refs ∧ ∀ target ∈ availableTargets, ∀ projections allowDiscovered,
        Settled sha256 intOf target projections allowDiscovered refs := by
  rw [← sameHash_iff hcollision]
  constructor
  · intro h
    have hhash := fun ys hperm => (h ys hperm).1
    refine ⟨hhash,fun target htarget projections allowDiscovered => ?_⟩
    obtain ⟨render,hbinding,-⟩ := @binding_returns intOf target htarget
    exact (sameSurface_iff hbinding hhash).1
      fun ys hperm => (h ys hperm).2 target projections allowDiscovered
  · rintro ⟨hhash,hsettled⟩ ys hperm
    refine ⟨hhash ys hperm,fun target projections allowDiscovered => ?_⟩
    by_cases htarget : target ∈ availableTargets
    · obtain ⟨render,hbinding,-⟩ := @binding_returns intOf target htarget
      exact (sameSurface_iff hbinding hhash).2
        (hsettled target htarget projections allowDiscovered) ys hperm
    · cases target with
      | web => exact absurd (by decide) htarget
      | cli => exact absurd (by decide) htarget
      | os => rfl
      | embedded => rfl

end UIAssembly

theorem new_congr {sha256 : String → HexDigest} {refs ys : List UIRef} {name : String}
    (hperm : refs.Perm ys) (hid : ∀ a ∈ refs, ∀ b ∈ refs, a.component.id = b.component.id → a = b) :
    UIAssembly.new sha256 refs name = UIAssembly.new sha256 ys name := by
  let r := fun a b : UIRef => a.component.id < b.component.id ∨ (a.component.id = b.component.id ∧
    a.component.uiHash sha256 ≤ b.component.uiHash sha256)
  have hr : ∀ a b, r a b ↔ UIAssembly.sortKey sha256 a ≤ UIAssembly.sortKey sha256 b :=
    UIAssembly.sortKey_le
  have : Std.Total r := ⟨fun a b => by rw [hr,hr]; exact le_total _ _⟩
  have : IsTrans UIRef r := ⟨fun a b c => by rw [hr,hr,hr]; exact le_trans⟩
  refine congrArg (UIAssembly.mk · name) (insertionSort_congr r hperm fun a ha b hb hab hba => ?_)
  rw [hr] at hab hba
  exact hid a ha b hb (UIAssembly.sortKey_eq.1 (le_antisymm hab hba)).1

def twoRefs : List UIRef := [LedgerView.ref,billsRef []]

theorem twoRefs_id : ∀ a ∈ twoRefs, ∀ b ∈ twoRefs, a.component.id = b.component.id → a = b := by
  simp [twoRefs,LedgerView.ref,LedgerView.manifest,billsRef,billsComponent]

theorem UIAssembly.settled_of_distinct {sha256 : String → HexDigest} {intOf : String → Option Int}
    {target : UITarget} {projections : Dict String Projection} {allowDiscovered : Bool}
    {refs : List UIRef} (h : ∀ a ∈ refs, ∀ b ∈ refs, sortKey sha256 a = sortKey sha256 b → a = b) :
    Settled sha256 intOf target projections allowDiscovered refs := by
  have halike : ∀ {β : Type} (f : UIRef → Option β), Alike (sortKey sha256) f refs := by
    intro β f a ha b hb hab x hx y hy
    rw [h a ha b hb hab,hy] at hx
    exact (Option.some.inj hx).symm
  exact ⟨fun a ha b hb hab _ => halike _ a ha b hb hab,
    fun _ a ha b hb hab _ => halike _ a ha b hb hab,fun _ _ => ⟨halike _,halike _⟩⟩

theorem every_order_two : twoRefs.length = 2 ∧ ∀ ys, twoRefs.Perm ys →
    (UIAssembly.new zeros twoRefs "cbp.ui").compositionHash zeros =
      (UIAssembly.new zeros ys "cbp.ui").compositionHash zeros ∧
    ∀ target projections allowDiscovered,
      (UIAssembly.new zeros twoRefs "cbp.ui").renderDocument zeros (fun _ => none) target
        projections allowDiscovered =
      (UIAssembly.new zeros ys "cbp.ui").renderDocument zeros (fun _ => none) target
        projections allowDiscovered := by
  have hkey : ∀ a ∈ twoRefs, ∀ b ∈ twoRefs,
      UIAssembly.sortKey zeros a = UIAssembly.sortKey zeros b → a = b :=
    fun a ha b hb hab => twoRefs_id a ha b hb (UIAssembly.sortKey_eq.1 hab).1
  refine ⟨rfl,(UIAssembly.every_order_iff fun ys hperm _ => by
      rw [new_congr hperm twoRefs_id]).2
    ⟨fun a ha b hb hab => ?_,fun _ _ _ _ => UIAssembly.settled_of_distinct hkey⟩⟩
  rw [hkey a ha b hb hab]
  exact ⟨rfl,rfl⟩

def tieredRef (provenance : Provenance) : UIRef := ⟨billsComponent,billsView [],provenance⟩

theorem new_tied (sha256 : String → HexDigest) (p q : Provenance) (name : String) :
    UIAssembly.new sha256 [tieredRef p,tieredRef q] name = ⟨[tieredRef p,tieredRef q],name⟩ := by
  simp [UIAssembly.new,tieredRef]

theorem every_order_tiered : ∃ xs ys : List UIRef, xs.Perm ys ∧ ∀ sha256 intOf,
    (UIAssembly.new sha256 xs "cbp.ui").renderDocument sha256 intOf .cli billsProjections false ≠
      (UIAssembly.new sha256 ys "cbp.ui").renderDocument sha256 intOf .cli billsProjections
        false := by
  refine ⟨[tieredRef .trusted,tieredRef .appointed],[tieredRef .appointed,tieredRef .trusted],
    .swap _ _ _,fun sha256 intOf h => ?_⟩
  rw [new_tied,new_tied] at h
  have htiers := congrArg (fun s => s.toOption.map fun s => s.sections.map UISection.provenance) h
  have hfirst : ((UIAssembly.renderDocument sha256 intOf
      ⟨[tieredRef .trusted,tieredRef .appointed],"cbp.ui"⟩ .cli billsProjections
      false).toOption.map fun s => s.sections.map UISection.provenance) =
      some [.trusted,.appointed] := rfl
  have hsecond : ((UIAssembly.renderDocument sha256 intOf
      ⟨[tieredRef .appointed,tieredRef .trusted],"cbp.ui"⟩ .cli billsProjections
      false).toOption.map fun s => s.sections.map UISection.provenance) =
      some [.appointed,.trusted] := rfl
  rw [hfirst,hsecond] at htiers
  cases htiers
end AgentCentric.Ui

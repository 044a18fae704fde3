import AgentCentric.Library.Checked
import Mathlib.Data.List.Perm.Subperm

namespace AgentCentric

/-- How a name is resolved, in a state that the resolution may change, and which names a node
goes on to. -/
structure Explorer (α ν σ ε : Type) where
  resolve : σ → α → Except ε (ν × σ)
  children : ν → List α
  cycle : α → ε

namespace Explorer
variable {α ν σ ε : Type}

abbrev Stage (α ν σ : Type) := List (α × ν) × σ

def descend (visit : α → Stage α ν σ → Except ε (Stage α ν σ)) :
    List α → Stage α ν σ → Except ε (Stage α ν σ)
  | [], stage => .ok stage
  | c :: cs, stage => do
      let stage ← visit c stage
      descend visit cs stage

section
variable [DecidableEq α] (x : Explorer α ν σ ε)

def enter (visit : List α → α → Stage α ν σ → Except ε (Stage α ν σ)) (visiting : List α)
    (a : α) (stage : Stage α ν σ) : Except ε (Stage α ν σ) :=
  if a ∈ visiting then .error (x.cycle a)
  else if a ∈ stage.1.map Prod.fst then .ok stage
  else do
    let (node,s) ← x.resolve stage.2 a
    let (done,s) ← descend (visit (a :: visiting)) (x.children node) (stage.1,s)
    pure (done ++ [(a,node)],s)

/-- The traversal, with `fuel` levels to go. -/
def visit : Nat → List α → α → Stage α ν σ → Except ε (Stage α ν σ)
  | 0 => x.enter fun _ a _ => .error (x.cycle a)
  | fuel+1 => x.enter (visit fuel)

end

inductive PostOrder (children : ν → List α) : List (α × ν) → Prop where
  | nil : PostOrder children []
  | snoc {done : List (α × ν)} {a : α} {node : ν} : PostOrder children done →
      a ∉ done.map Prod.fst → (∀ c ∈ children node, c ∈ done.map Prod.fst) →
      PostOrder children (done ++ [(a,node)])

namespace PostOrder
variable {children : ν → List α} {done : List (α × ν)}

theorem nodup (h : PostOrder children done) : (done.map Prod.fst).Nodup := by
  induction h with
  | nil => exact List.nodup_nil
  | snoc _ hnew _ ih =>
    rw [List.map_append,List.nodup_append]
    exact ⟨ih,by simp,fun b hb c hc => by
      rw [List.map_singleton,List.mem_singleton] at hc
      subst hc
      rintro rfl
      exact hnew hb⟩

theorem closed (h : PostOrder children done) :
    ∀ entry ∈ done, ∀ c ∈ children entry.2, c ∈ done.map Prod.fst := by
  induction h with
  | nil => simp
  | snoc _ _ hchildren ih =>
    intro entry hentry c hc
    rw [List.map_append]
    rcases List.mem_append.mp hentry with hentry | hentry
    · exact List.mem_append_left _ (ih entry hentry c hc)
    · obtain rfl := List.mem_singleton.mp hentry
      exact List.mem_append_left _ (hchildren c hc)

theorem before (h : PostOrder children done) : ∀ l entry r, done = l ++ entry :: r →
    ∀ c ∈ children entry.2, c ∈ l.map Prod.fst := by
  induction h with
  | nil =>
    intro l entry r heq
    simp at heq
  | @snoc done a node _ _ hchildren ih =>
    intro l entry r heq c hc
    rcases List.eq_nil_or_concat' r with rfl | ⟨r,last,rfl⟩
    · obtain ⟨rfl,hentry⟩ := List.append_inj' heq rfl
      cases hentry
      exact hchildren c hc
    · have hinit : done ++ [(a,node)] = (l ++ entry :: r) ++ [last] := by simpa using heq
      exact ih l entry r (List.append_inj' hinit rfl).1 c hc

end PostOrder

/-- What a traversal from one of `starts` adds to the nodes. `P` is what the resolution of a name
gives, along an invariant of the state. -/
structure Explored (x : Explorer α ν σ ε) (inv : σ → Prop) (P : α → ν → Prop) (edge : α → α → Prop)
    (visiting starts : List α) (old new : Stage α ν σ) : Prop where
  state : inv new.2
  ordered : PostOrder x.children new.1
  added : ∃ fresh, new.1 = old.1 ++ fresh ∧ ∀ entry ∈ fresh, entry.1 ∉ visiting ∧
    P entry.1 entry.2 ∧ ∃ a ∈ starts, Relation.ReflTransGen edge a entry.1
  reached : ∀ a ∈ starts, a ∈ new.1.map Prod.fst

section
variable {x : Explorer α ν σ ε} {inv : σ → Prop} {P : α → ν → Prop} {edge : α → α → Prop} {visiting : List α}

theorem Explored.mem {starts : List α} {old new : Stage α ν σ}
    (h : x.Explored inv P edge visiting starts old new) {a : α} (ha : a ∈ old.1.map Prod.fst) :
    a ∈ new.1.map Prod.fst := by
  obtain ⟨fresh,hnew,_⟩ := h.added
  rw [hnew,List.map_append]
  exact List.mem_append_left _ ha

theorem Explored.cons {a : α} {starts : List α} {s₀ s₁ s₂ : Stage α ν σ}
    (h₁ : x.Explored inv P edge visiting [a] s₀ s₁)
    (h₂ : x.Explored inv P edge visiting starts s₁ s₂) :
    x.Explored inv P edge visiting (a :: starts) s₀ s₂ := by
  obtain ⟨fresh₁,hnew₁,hall₁⟩ := h₁.added
  obtain ⟨fresh₂,hnew₂,hall₂⟩ := h₂.added
  refine ⟨h₂.state,h₂.ordered,⟨fresh₁ ++ fresh₂,by rw [hnew₂,hnew₁,List.append_assoc],?_⟩,?_⟩
  · intro entry hentry
    rcases List.mem_append.mp hentry with hentry | hentry
    · obtain ⟨hout,hp,b,hb,hpath⟩ := hall₁ entry hentry
      obtain rfl := List.mem_singleton.mp hb
      exact ⟨hout,hp,b,List.mem_cons_self,hpath⟩
    · obtain ⟨hout,hp,b,hb,hpath⟩ := hall₂ entry hentry
      exact ⟨hout,hp,b,List.mem_cons_of_mem _ hb,hpath⟩
  · intro b hb
    rcases List.mem_cons.mp hb with rfl | hb
    · exact h₂.mem (h₁.reached b List.mem_cons_self)
    · exact h₂.reached b hb

def Explores (x : Explorer α ν σ ε) (inv : σ → Prop) (P : α → ν → Prop) (edge : α → α → Prop)
    (visiting : List α) (visit : α → Stage α ν σ → Except ε (Stage α ν σ)) : Prop :=
  ∀ a stage stage', inv stage.2 → PostOrder x.children stage.1 → visit a stage = .ok stage' →
    x.Explored inv P edge visiting [a] stage stage'

theorem descend_explored {visit : α → Stage α ν σ → Except ε (Stage α ν σ)}
    (hvisit : x.Explores inv P edge visiting visit) {cs : List α} {stage stage' : Stage α ν σ}
    (hinv : inv stage.2) (hordered : PostOrder x.children stage.1)
    (h : descend visit cs stage = .ok stage') : x.Explored inv P edge visiting cs stage stage' := by
  induction cs generalizing stage with
  | nil =>
    cases h
    exact ⟨hinv,hordered,⟨[],(List.append_nil _).symm,by simp⟩,by simp⟩
  | cons c cs ih =>
    simp only [descend] at h
    obtain ⟨mid,hmid,hrest⟩ := bind_ok.mp h
    have hfirst := hvisit c stage mid hinv hordered hmid
    exact hfirst.cons (ih hfirst.state hfirst.ordered hrest)

variable [DecidableEq α]
  (hresolve : ∀ s a node s', inv s → x.resolve s a = .ok (node,s') → inv s' ∧ P a node)
  (hedge : ∀ a node, P a node → ∀ c ∈ x.children node, edge a c)
include hresolve hedge

/-- The node is not among those that its own children add, as these keep out of the names that
are being visited. -/
theorem enter_explored {visit : List α → α → Stage α ν σ → Except ε (Stage α ν σ)}
    (hvisit : ∀ visiting, x.Explores inv P edge visiting (visit visiting)) :
    x.Explores inv P edge visiting (x.enter visit visiting) := by
  intro a stage stage' hinv hordered h
  unfold enter at h
  split at h
  · cases h
  rename_i hout
  split at h
  · rename_i hdone
    cases h
    exact ⟨hinv,hordered,⟨[],(List.append_nil _).symm,by simp⟩,by simpa using hdone⟩
  · rename_i hnew
    obtain ⟨⟨node,s⟩,hnode,h⟩ := bind_ok.mp h
    obtain ⟨⟨done,s'⟩,hchildren,h⟩ := bind_ok.mp h
    cases h
    obtain ⟨hs,hp⟩ := hresolve _ _ _ _ hinv hnode
    have hbelow : x.Explored inv P edge (a :: visiting) (x.children node) (stage.1,s) (done,s') :=
      descend_explored (hvisit (a :: visiting)) hs hordered hchildren
    obtain ⟨fresh,hfresh,hall⟩ := hbelow.added
    simp only at hfresh
    have hlast : a ∉ done.map Prod.fst := by
      rw [hfresh,List.map_append,List.mem_append,not_or]
      refine ⟨hnew,fun hmem => ?_⟩
      obtain ⟨entry,hentry,rfl⟩ := List.mem_map.mp hmem
      exact (hall entry hentry).1 List.mem_cons_self
    refine ⟨hbelow.state,.snoc hbelow.ordered hlast hbelow.reached,
      ⟨fresh ++ [(a,node)],by rw [hfresh,List.append_assoc],?_⟩,by simp⟩
    intro entry hentry
    rcases List.mem_append.mp hentry with hentry | hentry
    · obtain ⟨hentryOut,hentryP,c,hc,hpath⟩ := hall entry hentry
      refine ⟨fun hmem => hentryOut (List.mem_cons_of_mem _ hmem),hentryP,a,
        List.mem_cons_self,?_⟩
      exact .head (hedge a node hp c hc) hpath
    · obtain rfl := List.mem_singleton.mp hentry
      exact ⟨hout,hp,a,List.mem_cons_self,.refl⟩

theorem visit_explored (fuel : Nat) (visiting : List α) :
    x.Explores inv P edge visiting (x.visit fuel visiting) := by
  induction fuel generalizing visiting with
  | zero =>
    refine enter_explored hresolve hedge fun _ => ?_
    intro a stage stage' _ _ h
    cases h
  | succ fuel ih => exact enter_explored hresolve hedge ih

/-- The nodes of a traversal are the names that can be reached, each once and after its children,
and each with what its resolution gives. -/
theorem visit_reachable (hback : ∀ a node, P a node → ∀ c, edge a c → c ∈ x.children node)
    {fuel : Nat} {root : α} {s s' : σ} {done : List (α × ν)} (hinv : inv s)
    (h : x.visit fuel [] root ([],s) = .ok (done,s')) :
    PostOrder x.children done ∧ (∀ entry ∈ done, P entry.1 entry.2) ∧
      ∀ a, a ∈ done.map Prod.fst ↔ Relation.ReflTransGen edge root a := by
  have hall := visit_explored hresolve hedge fuel [] root _ _ hinv .nil h
  obtain ⟨fresh,hfresh,hentries⟩ := hall.added
  simp only [List.nil_append] at hfresh
  subst hfresh
  refine ⟨hall.ordered,fun entry hentry => (hentries entry hentry).2.1,fun a => ⟨?_,?_⟩⟩
  · intro ha
    obtain ⟨entry,hentry,rfl⟩ := List.mem_map.mp ha
    obtain ⟨_,_,b,hb,hpath⟩ := hentries entry hentry
    obtain rfl := List.mem_singleton.mp hb
    exact hpath
  · intro hpath
    induction hpath with
    | refl => exact hall.reached root List.mem_cons_self
    | tail _ hstep ih =>
      obtain ⟨entry,hentry,rfl⟩ := List.mem_map.mp ih
      exact hall.ordered.closed entry hentry _
        (hback _ _ (hentries entry hentry).2.1 _ hstep)

end

theorem descend_error {visit : α → Stage α ν σ → Except ε (Stage α ν σ)}
    {good : Stage α ν σ → Prop} (hgood : ∀ a stage stage', good stage →
      visit a stage = .ok stage' → good stage') {cs : List α} {stage : Stage α ν σ} {e : ε}
    (hstage : good stage) (h : descend visit cs stage = .error e) :
    ∃ c ∈ cs, ∃ stage, good stage ∧ visit c stage = .error e := by
  induction cs generalizing stage with
  | nil => cases h
  | cons c cs ih =>
    rcases bind_error.mp h with hfirst | ⟨stage',hfirst,hrest⟩
    · exact ⟨c,List.mem_cons_self,stage,hstage,hfirst⟩
    · obtain ⟨d,hd,rest⟩ := ih (hgood _ _ _ hstage hfirst) hrest
      exact ⟨d,List.mem_cons_of_mem c hd,rest⟩

section
variable [DecidableEq α] {x : Explorer α ν σ ε} {inv : σ → Prop} {P : α → ν → Prop}
  {edge : α → α → Prop} {names : List α}
  (hresolve : ∀ s a node s', inv s → x.resolve s a = .ok (node,s') → inv s' ∧ P a node)
  (hedge : ∀ a node, P a node → ∀ c ∈ x.children node, edge a c)
  (hnames : ∀ s a node s', x.resolve s a = .ok (node,s') → a ∈ names)
include hresolve hedge hnames

/-- Where a traversal raises, it has come to a name that cannot be resolved, to one that leads to
itself, or back to one of those that are being visited. -/
theorem visit_raises {fuel : Nat} {visiting : List α} (hvisiting : visiting.Nodup)
    (hsub : ∀ a ∈ visiting, a ∈ names) (hfuel : names.length ≤ visiting.length + fuel) {a : α}
    {stage : Stage α ν σ} (hinv : inv stage.2) (hordered : PostOrder x.children stage.1) {e : ε}
    (h : x.visit fuel visiting a stage = .error e) :
    ∃ b, Relation.ReflTransGen edge a b ∧ (b ∈ visiting ∨ (∃ s e, inv s ∧
      x.resolve s b = .error e) ∨ Relation.TransGen edge b b) := by
  induction fuel generalizing visiting a stage with
  | zero =>
    simp only [visit,enter] at h
    split at h
    · rename_i hmem
      exact ⟨a,.refl,.inl hmem⟩
    rename_i hout
    split at h
    · cases h
    rcases bind_error.mp h with hres | ⟨⟨node,s'⟩,hres,-⟩
    · exact ⟨a,.refl,.inr (.inl ⟨_,_,hinv,hres⟩)⟩
    · -- all the names are being visited, but this one could be resolved
      have hfull := (List.subperm_of_subset hvisiting hsub).perm_of_length_le (by omega)
      exact absurd (hfull.mem_iff.mpr (hnames _ _ _ _ hres)) hout
  | succ fuel ih =>
    simp only [visit,enter] at h
    split at h
    · rename_i hmem
      exact ⟨a,.refl,.inl hmem⟩
    rename_i hout
    split at h
    · cases h
    rcases bind_error.mp h with hres | ⟨⟨node,s'⟩,hres,h⟩
    · exact ⟨a,.refl,.inr (.inl ⟨_,_,hinv,hres⟩)⟩
    obtain ⟨hs',hP⟩ := hresolve _ _ _ _ hinv hres
    rcases bind_error.mp h with hbelow | ⟨_,_,hpure⟩
    · have hgood : ∀ c stage stage', (inv stage.2 ∧ PostOrder x.children stage.1) →
          x.visit fuel (a :: visiting) c stage = .ok stage' →
            inv stage'.2 ∧ PostOrder x.children stage'.1 := by
        intro c stage stage' hstage hvisit
        have hexplored := visit_explored hresolve hedge fuel (a :: visiting) c stage stage'
          hstage.1 hstage.2 hvisit
        exact ⟨hexplored.state,hexplored.ordered⟩
      have hstart : inv ((stage.1,s') : Stage α ν σ).2 ∧
          PostOrder x.children ((stage.1,s') : Stage α ν σ).1 := ⟨hs',hordered⟩
      obtain ⟨c,hc,stage',hstage',hvisit⟩ := descend_error hgood hstart hbelow
      have hac := hedge a node hP c hc
      have hnodup : (a :: visiting).Nodup := List.nodup_cons.mpr ⟨hout,hvisiting⟩
      have hsub' : ∀ b ∈ a :: visiting, b ∈ names := by
        intro b hb
        rcases List.mem_cons.mp hb with rfl | hb
        · exact hnames _ _ _ _ hres
        · exact hsub b hb
      have hfuel' : names.length ≤ (a :: visiting).length + fuel := by
        simp only [List.length_cons]
        omega
      obtain ⟨b,hpath,hb⟩ := ih hnodup hsub' hfuel' hstage'.1 hstage'.2 hvisit
      rcases hb with hb | hb
      · rcases List.mem_cons.mp hb with rfl | hb
        · exact ⟨b,.refl,.inr (.inr (Relation.TransGen.head' hac hpath))⟩
        · exact ⟨b,.head hac hpath,.inl hb⟩
      · exact ⟨b,.head hac hpath,.inr hb⟩
    · cases hpure

end

/-- Among nodes in post-order nothing leads to itself. -/
theorem PostOrder.irrefl [DecidableEq α] {children : ν → List α} {done : List (α × ν)}
    (h : PostOrder children done) {edge : α → α → Prop}
    (hedge : ∀ entry ∈ done, ∀ c, edge entry.1 c → c ∈ children entry.2) {a : α}
    (ha : a ∈ done.map Prod.fst) : ¬Relation.TransGen edge a a := by
  have hstep {a c : α} (ha : a ∈ done.map Prod.fst) (hac : edge a c) :
      c ∈ done.map Prod.fst ∧ (done.map Prod.fst).idxOf c < (done.map Prod.fst).idxOf a := by
    obtain ⟨entry,hentry,rfl⟩ := List.mem_map.mp ha
    obtain ⟨l,r,rfl⟩ := List.append_of_mem hentry
    have hc := h.before l entry r rfl c (hedge entry hentry c hac)
    have hout : entry.1 ∉ l.map Prod.fst := by
      have hnodup := h.nodup
      rw [List.map_append,List.nodup_append] at hnodup
      exact fun hmem => hnodup.2.2 _ hmem _ (by simp) rfl
    refine ⟨by rw [List.map_append]; exact List.mem_append_left _ hc,?_⟩
    rw [List.map_append,List.idxOf_append_of_mem hc,List.idxOf_append_of_notMem hout]
    have hlt := List.idxOf_lt_length_of_mem hc
    omega
  have hall {b : α} (hab : Relation.TransGen edge a b) : b ∈ done.map Prod.fst ∧
      (done.map Prod.fst).idxOf b < (done.map Prod.fst).idxOf a := by
    induction hab with
    | single hab => exact hstep ha hab
    | tail _ hbc ih =>
      obtain ⟨hc,hlt⟩ := hstep ih.1 hbc
      exact ⟨hc,Nat.lt_trans hlt ih.2⟩
  exact fun haa => absurd (hall haa).2 (Nat.lt_irrefl _)

end Explorer
end AgentCentric

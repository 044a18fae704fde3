import Mathlib.Order.BourbakiWitt
import Mathlib.Order.CompletePartialOrder
import Mathlib.Data.List.Perm.Subperm

namespace AgentCentric

/-- A rule without variables: the head holds if all of `pos` holds and nothing of `neg` does. -/
structure GroundRule (F : Type) where
  head : F
  pos : Set F
  neg : Set F

/-- A program, which may have infinitely many rules without variables. -/
abbrev Program (F : Type) := Set (GroundRule F)

namespace Program
variable {F : Type}

/-- A rule depends on its own level and those below, and its negation on those below only. -/
structure Stratified (P : Program F) (level : F → Nat) : Prop where
  pos : ∀ r ∈ P, ∀ f ∈ r.pos, level f ≤ level r.head
  neg : ∀ r ∈ P, ∀ f ∈ r.neg, level f < level r.head

/-- Closed under the rules of a level, when negation is read in `N`. -/
def Closed (P : Program F) (level : F → Nat) (l : Nat) (N X : Set F) : Prop :=
  ∀ r ∈ P, level r.head = l → r.pos ⊆ X → Disjoint r.neg N → r.head ∈ X

/-- The least superset of `B` that is closed under the rules of a level, when negation is read
in `B`, the facts of the completed levels below. -/
def stratum (P : Program F) (level : F → Nat) (l : Nat) (B : Set F) : Set F :=
  {f | ∀ X, B ⊆ X → P.Closed level l B X → f ∈ X}

/-- The facts once the levels below `n` are completed. -/
def model (P : Program F) (level : F → Nat) (B : Set F) : Nat → Set F
  | 0 => B
  | l+1 => P.stratum level l (P.model level B l)

def perfect (P : Program F) (level : F → Nat) (B : Set F) : Set F :=
  {f | ∃ n, f ∈ P.model level B n}

variable {P : Program F} {level : F → Nat} {l : Nat} {B X : Set F}

theorem subset_stratum : B ⊆ P.stratum level l B := fun _ hf _ hB _ => hB hf

theorem stratum_subset (hB : B ⊆ X) (hX : P.Closed level l B X) : P.stratum level l B ⊆ X :=
  fun _ hf => hf X hB hX

theorem closed_stratum : P.Closed level l B (P.stratum level l B) := by
  intro r hr hlevel hpos hneg X hB hX
  exact hX r hr hlevel (fun f hf => hpos hf X hB hX) hneg

theorem mem_stratum {f : F} (h : f ∈ P.stratum level l B) :
    f ∈ B ∨ level f = l ∧ ∃ r ∈ P, r.head = f := by
  apply h (B ∪ {f | level f = l ∧ ∃ r ∈ P, r.head = f}) (fun f hf => .inl hf)
  intro r hr hlevel _ _
  exact .inr ⟨hlevel,r,hr,rfl⟩

/-- Facts that were derived at the level, and from which nothing new follows there. Negation
may be read in them, since nothing that is negated is new. -/
theorem eq_stratum (hP : P.Stratified level) (hB : B ⊆ X) (hX : X ⊆ P.stratum level l B)
    (hclosed : P.Closed level l X X) : X = P.stratum level l B := by
  apply hX.antisymm
  apply stratum_subset hB
  intro r hr hlevel hpos hneg
  apply hclosed r hr hlevel hpos
  rw [Set.disjoint_left] at hneg ⊢
  intro f hf hfX
  rcases mem_stratum (hX hfX) with hfB | ⟨hl,-⟩
  · exact hneg hf hfB
  · have hlt := hP.neg r hr f hf
    omega

theorem model_mono {m n : Nat} (h : m ≤ n) : P.model level B m ⊆ P.model level B n := by
  induction n, h using Nat.le_induction with
  | base => exact subset_rfl
  | succ n _ ih => exact ih.trans subset_stratum

theorem model_subset_perfect (n : Nat) : P.model level B n ⊆ P.perfect level B :=
  fun _ hf => ⟨n,hf⟩

theorem subset_perfect : B ⊆ P.perfect level B := model_subset_perfect 0

/-- A fact of a completed level does not come later. -/
theorem mem_model_of_level {m n : Nat} {f : F} (h : f ∈ P.model level B n) (hm : level f < m) :
    f ∈ P.model level B m := by
  induction n with
  | zero => exact model_mono (Nat.zero_le m) h
  | succ n ih =>
    rcases mem_stratum h with hf | ⟨hl,-⟩
    · exact ih hf
    · exact model_mono (by omega) h

theorem mem_model_of_perfect {m : Nat} {f : F} (h : f ∈ P.perfect level B) (hm : level f < m) :
    f ∈ P.model level B m := by
  obtain ⟨n,hn⟩ := h
  exact mem_model_of_level hn hm

/-- Above the levels of all heads nothing happens. -/
theorem perfect_eq_model {n : Nat} (h : ∀ r ∈ P, level r.head < n) :
    P.perfect level B = P.model level B n := by
  apply Set.Subset.antisymm _ (model_subset_perfect n)
  rintro f ⟨m,hm⟩
  induction m with
  | zero => exact model_mono (Nat.zero_le n) hm
  | succ m ih =>
    rcases mem_stratum hm with hf | ⟨hl,r,hr,rfl⟩
    · exact ih hf
    · exact mem_model_of_level hm (h r hr)

theorem closed_perfect (hP : P.Stratified level) {r : GroundRule F} (hr : r ∈ P)
    (hpos : r.pos ⊆ P.perfect level B) (hneg : Disjoint r.neg (P.perfect level B)) :
    r.head ∈ P.perfect level B := by
  have hhead : r.head ∈ P.model level B (level r.head + 1) := by
    apply closed_stratum r hr rfl
    · intro f hf
      exact mem_model_of_perfect (hpos hf) (Nat.lt_succ_of_le (hP.pos r hr f hf))
    · exact hneg.mono_right (model_subset_perfect _)
  exact model_subset_perfect _ hhead

theorem perfect_perfect (hP : P.Stratified level) :
    P.perfect level (P.perfect level B) = P.perfect level B := by
  have hmodel : ∀ n, P.model level (P.perfect level B) n = P.perfect level B := by
    intro n
    induction n with
    | zero => rfl
    | succ n ih =>
      rw [model,ih]
      apply Set.Subset.antisymm _ subset_stratum
      exact stratum_subset subset_rfl fun r hr _ hpos hneg => closed_perfect hP hr hpos hneg
  apply Set.Subset.antisymm _ subset_perfect
  rintro f ⟨n,hn⟩
  rwa [hmodel] at hn

/-- Without negation, any facts that are closed under the rules have the perfect model. -/
theorem perfect_subset (hB : B ⊆ X) (hX : ∀ r ∈ P, r.pos ⊆ X → r.head ∈ X) :
    P.perfect level B ⊆ X := by
  rintro f ⟨n,hn⟩
  induction n generalizing f with
  | zero => exact hB hn
  | succ n ih => exact stratum_subset (fun f hf => ih hf) (fun r hr _ hpos _ => hX r hr hpos) hn

end Program
end AgentCentric

namespace AgentCentric.Worklist
variable {α : Type} (next : α → List α)

/-- Takes one item after the other off a stack, its top first, and puts the successors of each
new one on it. -/
def explore [DecidableEq α] : Nat → List α → List α → List α
  | 0, seen, _ => seen
  | _+1, seen, [] => seen
  | n+1, seen, x :: pending =>
    if x ∈ seen then explore n seen pending
    else explore n (seen ++ [x]) ((next x).reverse ++ pending)

variable {next}

/-- What holds while the items of `roots` are explored. -/
structure Exploring (next : α → List α) (roots seen pending : List α) : Prop where
  nodup : seen.Nodup
  reached : ∀ x, x ∈ seen ∨ x ∈ pending →
    ∃ r ∈ roots, Relation.ReflTransGen (fun a b => b ∈ next a) r x
  covered : ∀ r ∈ roots, r ∈ seen ∨ r ∈ pending
  closed : ∀ x ∈ seen, ∀ y ∈ next x, y ∈ seen ∨ y ∈ pending

namespace Exploring
variable {roots seen pending : List α}

theorem start (next : α → List α) (roots : List α) : Exploring next roots [] roots where
  nodup := List.nodup_nil
  reached x h := ⟨x,by simpa using h,.refl⟩
  covered _ h := .inr h
  closed x h := by cases h

theorem skip {x : α} (h : Exploring next roots seen (x :: pending)) (hx : x ∈ seen) :
    Exploring next roots seen pending where
  nodup := h.nodup
  reached y hy := h.reached y (hy.imp id (List.mem_cons_of_mem x))
  covered r hr := by
    rcases h.covered r hr with hseen | hpending
    · exact .inl hseen
    · rcases List.mem_cons.mp hpending with rfl | hpending
      · exact .inl hx
      · exact .inr hpending
  closed y hy z hz := by
    rcases h.closed y hy z hz with hseen | hpending
    · exact .inl hseen
    · rcases List.mem_cons.mp hpending with rfl | hpending
      · exact .inl hx
      · exact .inr hpending

theorem enter {x : α} (h : Exploring next roots seen (x :: pending)) (hx : x ∉ seen) :
    Exploring next roots (seen ++ [x]) ((next x).reverse ++ pending) := by
  obtain ⟨r,hr,hpath⟩ := h.reached x (.inr List.mem_cons_self)
  have hmove {y : α} (hy : y ∈ seen ∨ y ∈ x :: pending) :
      y ∈ seen ++ [x] ∨ y ∈ (next x).reverse ++ pending := by
    simp only [List.mem_append,List.mem_cons] at hy ⊢
    tauto
  refine ⟨?_,?_,fun r hr => hmove (h.covered r hr),?_⟩
  · rw [List.nodup_append]
    refine ⟨h.nodup,by simp,fun a ha b hb => ?_⟩
    rw [List.mem_singleton.mp hb]
    rintro rfl
    exact hx ha
  · intro y hy
    simp only [List.mem_append,List.mem_singleton,List.mem_reverse] at hy
    rcases hy with (hseen | rfl) | hnext | hpending
    · exact h.reached y (.inl hseen)
    · exact ⟨r,hr,hpath⟩
    · exact ⟨r,hr,hpath.tail hnext⟩
    · exact h.reached y (.inr (List.mem_cons_of_mem x hpending))
  · intro y hy z hz
    rcases List.mem_append.mp hy with hy | hy
    · exact hmove (h.closed y hy z hz)
    · rw [List.mem_singleton.mp hy] at hz
      exact .inr (List.mem_append_left _ (List.mem_reverse.mpr hz))

/-- Once nothing is pending, what was seen is what can be reached. -/
theorem mem_iff (h : Exploring next roots seen []) (x : α) :
    x ∈ seen ↔ ∃ r ∈ roots, Relation.ReflTransGen (fun a b => b ∈ next a) r x := by
  have hsettle {y : α} (hy : y ∈ seen ∨ y ∈ ([] : List α)) : y ∈ seen := by simpa using hy
  constructor
  · exact fun hx => h.reached x (.inl hx)
  · rintro ⟨r,hr,hpath⟩
    induction hpath with
    | refl => exact hsettle (h.covered r hr)
    | tail _ hstep ih => exact hsettle (h.closed _ ih _ hstep)

end Exploring

/-- With room for every item of `all` and for all that each may put on the stack, a run
sees just what can be reached. -/
theorem mem_explore [DecidableEq α] {all roots : List α} {width : Nat}
    (hroots : ∀ r ∈ roots, r ∈ all) (hnext : ∀ x ∈ all, ∀ y ∈ next x, y ∈ all)
    (hwidth : ∀ x, (next x).length ≤ width) {n : Nat}
    (hn : all.length * (width + 1) + roots.length < n) (x : α) : x ∈ explore next n [] roots ↔
      ∃ r ∈ roots, Relation.ReflTransGen (fun a b => b ∈ next a) r x := by
  have hwithin {y : α} (hy : ∃ r ∈ roots, Relation.ReflTransGen (fun a b => b ∈ next a) r y) :
      y ∈ all := by
    obtain ⟨r,hr,hpath⟩ := hy
    induction hpath with
    | refl => exact hroots r hr
    | tail _ hstep ih => exact hnext _ ih _ hstep
  -- the items still to be seen each take one step and push at most `width` others
  have hrun : ∀ n seen pending, Exploring next roots seen pending →
      (all.length - seen.length) * (width + 1) + pending.length < n →
        ∃ final, explore next n seen pending = final ∧ Exploring next roots final [] := by
    intro n
    induction n with
    | zero =>
      intro seen pending _ hlt
      omega
    | succ n ih =>
      intro seen pending h hlt
      cases pending with
      | nil => exact ⟨seen,rfl,h⟩
      | cons y pending =>
        simp only [List.length_cons] at hlt
        rw [explore]
        split
        · rename_i hy
          exact ih seen pending (h.skip hy) (by omega)
        · rename_i hy
          have henter := h.enter hy
          have hsub : ∀ z ∈ seen ++ [y], z ∈ all := fun z hz =>
            hwithin (henter.reached z (.inl hz))
          have hroom := (List.subperm_of_subset henter.nodup hsub).length_le
          rw [List.length_append,List.length_singleton] at hroom
          have hpushed := hwidth y
          have hspent : (all.length - seen.length) * (width + 1) =
              (all.length - (seen.length + 1)) * (width + 1) + (width + 1) := by
            rw [← Nat.succ_mul]
            congr 1
            omega
          refine ih _ _ henter ?_
          simp only [List.length_append,List.length_singleton,List.length_reverse]
          omega
  obtain ⟨final,hfinal,hexplored⟩ := hrun n [] roots (.start next roots) (by simpa using hn)
  rw [hfinal]
  exact hexplored.mem_iff x

end AgentCentric.Worklist

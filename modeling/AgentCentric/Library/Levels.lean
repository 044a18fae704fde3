import AgentCentric.Library.Dict
import Mathlib.Order.Lattice.Nat

namespace AgentCentric

/-- The target lies as high above its sources as their weights say. -/
structure Bound (κ : Type) where
  target : κ
  sources : List (κ × Nat)

namespace Bound
variable {κ : Type}

def Holds (c : Bound κ) (σ : κ → Nat) : Prop := ∀ e ∈ c.sources, σ e.1 + e.2 ≤ σ c.target

def Meets (cs : List (Bound κ)) (σ : κ → Nat) : Prop := ∀ c ∈ cs, c.Holds σ

def required (c : Bound κ) (σ : κ → Nat) : Nat :=
  c.sources.foldl (fun n e => max n (σ e.1 + e.2)) 0

theorem foldl_max_le {es : List (κ × Nat)} {σ : κ → Nat} {n m : Nat} :
    es.foldl (fun n e => max n (σ e.1 + e.2)) n ≤ m ↔ n ≤ m ∧ ∀ e ∈ es, σ e.1 + e.2 ≤ m := by
  induction es generalizing n with
  | nil => simp
  | cons e es ih =>
    simp only [List.foldl_cons,ih,List.mem_cons,forall_eq_or_imp,Nat.max_le,and_assoc]

theorem required_le {c : Bound κ} {σ : κ → Nat} {m : Nat} :
    c.required σ ≤ m ↔ ∀ e ∈ c.sources, σ e.1 + e.2 ≤ m := by
  simp [required,foldl_max_le]

theorem holds_iff {c : Bound κ} {σ : κ → Nat} : c.Holds σ ↔ c.required σ ≤ σ c.target :=
  required_le.symm

theorem required_mono {c : Bound κ} {σ τ : κ → Nat} (h : ∀ k, σ k ≤ τ k) :
    c.required σ ≤ c.required τ := by
  rw [required_le]
  intro e he
  have hle := required_le.1 (Nat.le_refl (c.required τ)) e he
  have hσ := h e.1
  omega

noncomputable def least (cs : List (Bound κ)) (k : κ) : Nat := sInf {n | ∃ σ, Meets cs σ ∧ σ k = n}

theorem least_le {cs : List (Bound κ)} {σ : κ → Nat} (h : Meets cs σ) (k : κ) :
    least cs k ≤ σ k := Nat.sInf_le ⟨σ,h,rfl⟩

theorem meets_least {cs : List (Bound κ)} {σ : κ → Nat} (h : Meets cs σ) : Meets cs (least cs) := by
  intro c hc e he
  obtain ⟨τ,hτ,hleast⟩ := Nat.sInf_mem (s := {n | ∃ τ, Meets cs τ ∧ τ c.target = n}) ⟨_,σ,h,rfl⟩
  have hsource := least_le hτ e.1
  have hbound := hτ c hc e he
  have htarget : τ c.target = least cs c.target := hleast
  omega

variable [DecidableEq κ]

def lift (c : Bound κ) (r : (κ → Nat) × Bool) : (κ → Nat) × Bool :=
  if r.1 c.target < c.required r.1 then
    (fun k => if k = c.target then c.required r.1 else r.1 k,true)
  else r

def round (cs : List (Bound κ)) (σ : κ → Nat) : (κ → Nat) × Bool :=
  cs.foldl (fun r c => c.lift r) (σ,false)

theorem le_lift (c : Bound κ) (r : (κ → Nat) × Bool) (k : κ) : r.1 k ≤ (c.lift r).1 k := by
  unfold lift
  split
  · by_cases hk : k = c.target
    · subst hk
      simp only [if_true]
      omega
    · simp only [hk,if_false,Nat.le_refl]
  · exact Nat.le_refl _

theorem lift_le {c : Bound κ} {r : (κ → Nat) × Bool} {τ : κ → Nat} (hc : c.Holds τ)
    (h : ∀ k, r.1 k ≤ τ k) (k : κ) : (c.lift r).1 k ≤ τ k := by
  unfold lift
  split
  · by_cases hk : k = c.target
    · simp only [hk,if_true]
      exact Nat.le_trans (required_mono h) (holds_iff.1 hc)
    · simp only [hk,if_false]
      exact h k
  · exact h k

theorem required_le_lift (c : Bound κ) (r : (κ → Nat) × Bool) :
    c.required r.1 ≤ (c.lift r).1 c.target := by
  unfold lift
  split
  · simp
  · omega

theorem le_foldl_lift (cs : List (Bound κ)) (r : (κ → Nat) × Bool) (k : κ) :
    r.1 k ≤ (cs.foldl (fun r c => c.lift r) r).1 k := by
  induction cs generalizing r with
  | nil => exact Nat.le_refl _
  | cons c cs ih => exact Nat.le_trans (le_lift c r k) (ih (c.lift r))

theorem foldl_lift_le {cs : List (Bound κ)} {r : (κ → Nat) × Bool} {τ : κ → Nat} (hτ : Meets cs τ)
    (h : ∀ k, r.1 k ≤ τ k) (k : κ) : (cs.foldl (fun r c => c.lift r) r).1 k ≤ τ k := by
  induction cs generalizing r with
  | nil => exact h k
  | cons c cs ih =>
    exact ih (fun d hd => hτ d (List.mem_cons_of_mem c hd)) (lift_le (hτ c List.mem_cons_self) h)

theorem le_round (cs : List (Bound κ)) (σ : κ → Nat) (k : κ) : σ k ≤ (round cs σ).1 k :=
  le_foldl_lift cs (σ,false) k

theorem round_le {cs : List (Bound κ)} {σ τ : κ → Nat} (hτ : Meets cs τ) (h : ∀ k, σ k ≤ τ k)
    (k : κ) : (round cs σ).1 k ≤ τ k := foldl_lift_le hτ h k

/-- Every bound was enforced at some time of the round, when nothing was lower than at its start. -/
theorem required_le_round {cs : List (Bound κ)} {c : Bound κ} (hc : c ∈ cs) (σ : κ → Nat) :
    c.required σ ≤ (round cs σ).1 c.target := by
  have hall : ∀ r : (κ → Nat) × Bool, (∀ k, σ k ≤ r.1 k) →
      c.required σ ≤ (cs.foldl (fun r c => c.lift r) r).1 c.target := by
    induction cs with
    | nil => cases hc
    | cons d cs ih =>
      intro r hr
      have hnext : ∀ k, σ k ≤ (d.lift r).1 k := fun k => Nat.le_trans (hr k) (le_lift d r k)
      rcases List.mem_cons.1 hc with rfl | hc
      · calc c.required σ ≤ c.required r.1 := required_mono hr
          _ ≤ (c.lift r).1 c.target := required_le_lift c r
          _ ≤ _ := le_foldl_lift cs (c.lift r) c.target
      · exact ih hc (d.lift r) hnext
  exact hall (σ,false) fun k => Nat.le_refl _

theorem foldl_lift_flag (cs : List (Bound κ)) (r : (κ → Nat) × Bool) (hr : r.2 = true) :
    (cs.foldl (fun r c => c.lift r) r).2 = true := by
  induction cs generalizing r with
  | nil => exact hr
  | cons c cs ih =>
    have hflag : (c.lift r).2 = true := by
      unfold lift
      split
      · rfl
      · exact hr
    exact ih (c.lift r) hflag

/-- A round that lifts nothing found every bound met. -/
theorem foldl_lift_quiet {cs : List (Bound κ)} {r : (κ → Nat) × Bool}
    (h : (cs.foldl (fun r c => c.lift r) r).2 = false) :
    cs.foldl (fun r c => c.lift r) r = r ∧ Meets cs r.1 := by
  induction cs with
  | nil => exact ⟨rfl,by simp [Meets]⟩
  | cons c cs ih =>
    rw [List.foldl_cons] at h ⊢
    have hquiet : ¬ r.1 c.target < c.required r.1 := by
      intro hlt
      have hflag : (c.lift r).2 = true := by
        unfold lift
        rw [if_pos hlt]
      rw [foldl_lift_flag cs _ hflag] at h
      cases h
    have hsame : c.lift r = r := by
      unfold lift
      rw [if_neg hquiet]
    rw [hsame] at h ⊢
    obtain ⟨hrest,hmeets⟩ := ih h
    refine ⟨hrest,?_⟩
    intro d hd
    rcases List.mem_cons.1 hd with rfl | hd
    · exact holds_iff.2 (Nat.le_of_not_lt hquiet)
    · exact hmeets d hd

theorem round_quiet {cs : List (Bound κ)} {σ : κ → Nat} (h : (round cs σ).2 = false) :
    (round cs σ).1 = σ ∧ Meets cs σ := by
  obtain ⟨hsame,hmeets⟩ := foldl_lift_quiet h
  exact ⟨congrArg Prod.fst hsame,hmeets⟩

theorem foldl_lift_moved {cs : List (Bound κ)} {r : (κ → Nat) × Bool} (hr : r.2 = false)
    (h : (cs.foldl (fun r c => c.lift r) r).2 = true) :
    ∃ c ∈ cs, r.1 c.target < (cs.foldl (fun r c => c.lift r) r).1 c.target := by
  induction cs generalizing r with
  | nil =>
    rw [List.foldl_nil,hr] at h
    cases h
  | cons c cs ih =>
    rw [List.foldl_cons] at h ⊢
    by_cases hlt : r.1 c.target < c.required r.1
    · refine ⟨c,List.mem_cons_self,?_⟩
      exact Nat.lt_of_lt_of_le (Nat.lt_of_lt_of_le hlt (required_le_lift c r))
        (le_foldl_lift cs _ _)
    · have hsame : c.lift r = r := by
        unfold lift
        rw [if_neg hlt]
      rw [hsame] at h ⊢
      obtain ⟨d,hd,hmoved⟩ := ih hr h
      exact ⟨d,List.mem_cons_of_mem c hd,hmoved⟩

theorem round_moved {cs : List (Bound κ)} {σ : κ → Nat} (h : (round cs σ).2 = true) :
    ∃ c ∈ cs, σ c.target < (round cs σ).1 c.target := foldl_lift_moved rfl h

section
variable {cs : List (Bound κ)} {keys : Finset κ}

noncomputable def final (cs : List (Bound κ)) (keys : Finset κ) (σ : κ → Nat) : Finset κ :=
  keys.filter fun k => σ k = least cs k

omit [DecidableEq κ] in
/-- Where a key is below its least level, a bound on such a key has all its weight from a source
that has its least level: otherwise all of them could be one lower. -/
theorem exists_tight {σ τ : κ → Nat} (hτ : Meets cs τ) {k : κ} (hk : σ k < least cs k) :
    ∃ c ∈ cs, σ c.target < least cs c.target ∧ ∃ e ∈ c.sources,
      ¬ σ e.1 < least cs e.1 ∧ least cs c.target ≤ least cs e.1 + e.2 := by
  by_contra hno
  have hleast := meets_least hτ
  let ρ : κ → Nat := fun x => if σ x < least cs x then least cs x - 1 else least cs x
  have hρ : Meets cs ρ := by
    intro c hc e he
    have hbound := hleast c hc e he
    by_cases htarget : σ c.target < least cs c.target
    · by_cases hsource : σ e.1 < least cs e.1
      · simp only [ρ,htarget,hsource,if_true]
        omega
      · have hslack : ¬ least cs c.target ≤ least cs e.1 + e.2 := fun htight =>
          hno ⟨c,hc,htarget,e,he,hsource,htight⟩
        simp only [ρ,htarget,hsource,if_true,if_false]
        omega
    · have hle : ρ e.1 ≤ least cs e.1 := by
        simp only [ρ]
        split <;> omega
      simp only [ρ,htarget,if_false] at hle ⊢
      omega
  have hlow := least_le hρ k
  simp only [ρ,hk,if_true] at hlow
  omega

/-- A round gives one more key its least level, as long as there is one without. -/
theorem final_round {σ τ : κ → Nat} (hτ : Meets cs τ) (htargets : ∀ c ∈ cs, c.target ∈ keys)
    (hle : ∀ k, σ k ≤ least cs k) {k : κ} (hk : σ k < least cs k) :
    (final cs keys σ).card < (final cs keys (round cs σ).1).card := by
  have hleast := meets_least hτ
  have hround : ∀ x, (round cs σ).1 x ≤ least cs x := round_le hleast hle
  obtain ⟨c,hc,htarget,e,he,hsource,htight⟩ := exists_tight hτ hk
  apply Finset.card_lt_card
  rw [Finset.ssubset_iff_of_subset]
  · refine ⟨c.target,?_,?_⟩
    · have hlift := required_le_round hc σ
      have hsources := required_le.1 (Nat.le_refl (c.required σ)) e he
      have hupper := hround c.target
      have hsame := hle e.1
      simp only [final,Finset.mem_filter]
      exact ⟨htargets c hc,by omega⟩
    · simp only [final,Finset.mem_filter,not_and]
      intro _
      omega
  · intro x hx
    simp only [final,Finset.mem_filter] at hx ⊢
    have hlow := le_round cs σ x
    have hupper := hround x
    exact ⟨hx.1,by omega⟩

def settle (cs : List (Bound κ)) : Nat → (κ → Nat) → Option (κ → Nat)
  | 0, _ => none
  | n+1, σ => if (round cs σ).2 then settle cs n (round cs σ).1 else some (round cs σ).1

/-- Levels that settled are the least ones. -/
theorem settle_some {n : Nat} {σ ρ : κ → Nat} (hlow : ∀ τ, Meets cs τ → ∀ k, σ k ≤ τ k)
    (h : settle cs n σ = some ρ) : Meets cs ρ ∧ ∀ τ, Meets cs τ → ∀ k, ρ k ≤ τ k := by
  induction n generalizing σ with
  | zero => cases h
  | succ n ih =>
    rw [settle] at h
    split at h
    · exact ih (fun τ hτ => round_le hτ (hlow τ hτ)) h
    · rename_i hquiet
      obtain ⟨hsame,hmeets⟩ := round_quiet (Bool.not_eq_true _ ▸ hquiet)
      cases h
      rw [hsame]
      exact ⟨hmeets,hlow⟩

theorem settle_isSome {n : Nat} {σ τ : κ → Nat} (hτ : Meets cs τ) (htargets : ∀ c ∈ cs, c.target ∈ keys)
    (hle : ∀ k, σ k ≤ least cs k) (hn : keys.card < (final cs keys σ).card + n) :
    ∃ ρ, settle cs n σ = some ρ := by
  induction n generalizing σ with
  | zero =>
    have hcard : (final cs keys σ).card ≤ keys.card := Finset.card_filter_le _ _
    omega
  | succ n ih =>
    rw [settle]
    by_cases hflag : (round cs σ).2 = true
    · obtain ⟨c,-,hmoved⟩ := round_moved hflag
      have hround : ∀ x, (round cs σ).1 x ≤ least cs x := round_le (meets_least hτ) hle
      have hbelow : σ c.target < least cs c.target := Nat.lt_of_lt_of_le hmoved (hround c.target)
      have hmore := final_round hτ htargets hle hbelow
      rw [if_pos hflag]
      exact ih hround (by omega)
    · rw [if_neg hflag]
      exact ⟨_,rfl⟩

theorem settle_iff (htargets : ∀ c ∈ cs, c.target ∈ keys) :
    (∃ ρ, settle cs (keys.card + 1) (fun _ => 0) = some ρ) ↔ ∃ σ, Meets cs σ := by
  constructor
  · rintro ⟨ρ,hρ⟩
    exact ⟨ρ,(settle_some (fun _ _ _ => Nat.zero_le _) hρ).1⟩
  · rintro ⟨σ,hσ⟩
    exact settle_isSome hσ htargets (fun _ => Nat.zero_le _) (by omega)

end

section
variable {cs : List (Bound κ)}

/-- A bound on `b` has `a` for a source. -/
def Arc (cs : List (Bound κ)) (a b : κ) : Prop :=
  ∃ c ∈ cs, c.target = b ∧ ∃ e ∈ c.sources, e.1 = a

/-- A bound lifts `b` above its source `a`. -/
def Lifts (cs : List (Bound κ)) (a b : κ) : Prop :=
  ∃ c ∈ cs, c.target = b ∧ ∃ e ∈ c.sources, e.1 = a ∧ 0 < e.2

omit [DecidableEq κ]

theorem le_of_arcs {σ : κ → Nat} (hσ : Meets cs σ) {a b : κ}
    (h : Relation.ReflTransGen (Arc cs) a b) : σ a ≤ σ b := by
  induction h with
  | refl => exact Nat.le_refl _
  | tail _ hstep ih =>
    obtain ⟨c,hc,rfl,e,he,rfl⟩ := hstep
    have hbound := hσ c hc e he
    omega

/-- There are levels exactly if no bound lifts a key above itself, on a way round. -/
theorem meets_iff_no_cycle {w : Nat} (hw : ∀ c ∈ cs, ∀ e ∈ c.sources, e.2 ≤ w) :
    (∃ σ, Meets cs σ) ↔ ¬∃ a b, Lifts cs a b ∧ Relation.ReflTransGen (Arc cs) b a := by
  classical
  constructor
  · rintro ⟨σ,hσ⟩ ⟨a,b,⟨c,hc,rfl,e,he,rfl,hpos⟩,hback⟩
    have hbound := hσ c hc e he
    have hle := le_of_arcs hσ hback
    omega
  · intro hno
    let keys : Finset κ := (cs.flatMap fun c => c.sources.map Prod.fst).toFinset
    let Below (x k : κ) : Prop := ∃ b, Lifts cs x b ∧ Relation.ReflTransGen (Arc cs) b k
    -- as many keys are lifted below a key
    refine ⟨fun k => w * (keys.filter fun x => Below x k).card,fun c hc e he => ?_⟩
    have harc : Arc cs e.1 c.target := ⟨c,hc,rfl,e,he,rfl⟩
    have hsub : (keys.filter fun x => Below x e.1) ⊆ keys.filter fun x => Below x c.target := by
      intro x hx
      simp only [Finset.mem_filter] at hx ⊢
      obtain ⟨hx,b,hlifts,hpath⟩ := hx
      exact ⟨hx,b,hlifts,hpath.tail harc⟩
    dsimp only
    by_cases hpos : 0 < e.2
    · have hlifts : Lifts cs e.1 c.target := ⟨c,hc,rfl,e,he,rfl,hpos⟩
      have hkey : e.1 ∈ keys := List.mem_toFinset.2
        (List.mem_flatMap.2 ⟨c,hc,List.mem_map_of_mem he⟩)
      have hlt := Finset.card_lt_card ((Finset.ssubset_iff_of_subset hsub).2 ⟨e.1,
        Finset.mem_filter.2 ⟨hkey,c.target,hlifts,.refl⟩,fun hmem => by
          obtain ⟨-,b,hb,hpath⟩ := Finset.mem_filter.1 hmem
          exact hno ⟨e.1,b,hb,hpath⟩⟩)
      calc w * (keys.filter fun x => Below x e.1).card + e.2
          ≤ w * ((keys.filter fun x => Below x e.1).card + 1) := by
            rw [Nat.mul_succ]
            exact Nat.add_le_add_left (hw c hc e he) _
        _ ≤ _ := Nat.mul_le_mul_left w hlt
    · have hle := Nat.mul_le_mul_left w (Finset.card_le_card hsub)
      omega

end

end Bound
end AgentCentric

import Mathlib.Data.List.Induction
import AgentCentric.Library.Replay
import AgentCentric.Provider.Runtime

namespace AgentCentric.Provider

theorem lookup_sorted_isSome (items : List (String × Json)) (key : String) :
    (Dict.lookup (Json.sorted items) key).isSome = (Dict.lookup items key).isSome := by
  rw [Json.lookup_sorted,Option.isSome_map]

namespace ResourceSpec

theorem smuggled_sorted (spec : List (String × Json)) :
    smuggled (Json.sorted spec) = smuggled spec := by
  simp only [smuggled,lookup_sorted_isSome]

theorem toDict_canonical (r : ResourceSpec) :
    r.toDict.canonical = .dict [("kind",.str r.kind),("name",.str r.name),
      ("spec",.dict (Json.sorted r.spec))] := by
  have hlt : ("kind" : String) ≤ "name" ∧ ("kind" : String) ≤ "spec" ∧ ("name" : String) ≤ "spec" := by
    decide
  simp [toDict,Json.canonical_dict,Json.sorted,Json.canonicalItems,Json.canonical,Json.byKey,hlt,
    List.insertionSort]

theorem fromDict_toDict {r : ResourceSpec} (h : r.Clean) :
    fromDict r.toDict.canonical = .ok r.canonical := by
  have hclean : smuggled (Json.sorted r.spec) = [] := by rw [smuggled_sorted,h]
  rw [toDict_canonical]
  simp [fromDict,Dict.lookup,hclean,text,r.kind_ne,r.name_ne,canonical]

theorem fromDict_smuggled {r : ResourceSpec} (h : ¬ r.Clean) :
    ∃ e, fromDict r.toDict.canonical = .error e := by
  have hsmuggled : smuggled (Json.sorted r.spec) ≠ [] := by
    rw [smuggled_sorted]
    exact h
  rw [toDict_canonical]
  simp [fromDict,Dict.lookup,hsmuggled]

end ResourceSpec

def kept (desired : List ResourceSpec) : List Json :=
  (desired.map ResourceSpec.toDict).map Json.canonical

theorem readDesired_kept {desired : List ResourceSpec} (h : ∀ r ∈ desired, r.Clean) :
    Ledger.readDesired (kept desired) = .ok (desired.map ResourceSpec.canonical) := by
  unfold Ledger.readDesired kept
  induction desired with
  | nil => rfl
  | cons r rest ih =>
    have hrest := ih fun r' hr' => h r' (List.mem_cons_of_mem r hr')
    rw [List.map_cons,List.map_cons,List.mapM_cons,ResourceSpec.fromDict_toDict (h r List.mem_cons_self),hrest]
    rfl

theorem clean_of_readDesired {desired : List ResourceSpec} {read : List ResourceSpec}
    (h : Ledger.readDesired (kept desired) = .ok read) : ∀ r ∈ desired, r.Clean := by
  unfold Ledger.readDesired kept at h
  induction desired generalizing read with
  | nil => simp
  | cons r rest ih =>
    rw [List.map_cons,List.map_cons,List.mapM_cons,bind_ok] at h
    obtain ⟨first,hfirst,hrest⟩ := h
    obtain ⟨others,hothers,_⟩ := bind_ok.1 hrest
    have hr : r.Clean := by
      by_contra hsmuggled
      obtain ⟨e,he⟩ := ResourceSpec.fromDict_smuggled hsmuggled
      rw [he] at hfirst
      cases hfirst
    simp only [List.mem_cons,forall_eq_or_imp]
    exact ⟨hr,ih hothers⟩

theorem clean_of_fromDict {data : Json} {r : ResourceSpec} (h : ResourceSpec.fromDict data = .ok r) :
    r.Clean := by
  unfold ResourceSpec.fromDict at h
  split at h
  · split at h
    · split at h
      · cases h
      · rename_i hclean
        split at h
        · split at h
          · cases h
          · split at h
            · cases h
            · cases h
              exact not_not.1 hclean
        · cases h
    · cases h
  · cases h

theorem clean_of_mapM {documents : List Json} {read : List ResourceSpec}
    (h : Ledger.readDesired documents = .ok read) : ∀ r ∈ read, r.Clean := by
  unfold Ledger.readDesired at h
  induction documents generalizing read with
  | nil =>
    cases h
    simp
  | cons d rest ih =>
    rw [List.mapM_cons,bind_ok] at h
    obtain ⟨first,hfirst,hrest⟩ := h
    obtain ⟨others,hothers,hread⟩ := bind_ok.1 hrest
    cases hread
    simp only [List.mem_cons,forall_eq_or_imp]
    exact ⟨clean_of_fromDict hfirst,ih hothers⟩

theorem clean_of_canonical {ledger : Ledger} {desired : List ResourceSpec}
    (h : ledger.lastHealthyDesired = .ok (some (desired.map ResourceSpec.canonical))) :
    ∀ r ∈ desired, r.Clean := by
  unfold Ledger.lastHealthyDesired at h
  cases hlast : ledger.lastHealthy with
  | none =>
    rw [hlast] at h
    cases h
  | some documents =>
    rw [hlast] at h
    cases hread : Ledger.readDesired documents with
    | error e =>
      simp only [hread] at h
      cases h
    | ok read =>
      simp only [hread] at h
      cases h
      intro r hr
      have hclean := clean_of_mapM hread r.canonical (List.mem_map_of_mem hr)
      unfold ResourceSpec.Clean ResourceSpec.canonical at hclean
      rwa [ResourceSpec.smuggled_sorted] at hclean

theorem lastHealthyDesired_kept {ledger : Ledger} {desired : List ResourceSpec}
    (h : ledger.lastHealthy = some (kept desired)) (last : Option (List ResourceSpec)) :
    ledger.lastHealthyDesired = .ok last ↔
      (∀ r ∈ desired, r.Clean) ∧ last = some (desired.map ResourceSpec.canonical) := by
  unfold Ledger.lastHealthyDesired
  rw [h]
  constructor
  · intro hlast
    cases hread : Ledger.readDesired (kept desired) with
    | error e =>
      simp only [hread] at hlast
      cases hlast
    | ok read =>
      have hclean := clean_of_readDesired hread
      have hmap : (Ledger.readDesired (kept desired)).map some = .ok last := hlast
      rw [readDesired_kept hclean] at hmap
      cases hmap
      exact ⟨hclean,rfl⟩
  · rintro ⟨hclean,rfl⟩
    simp only [readDesired_kept hclean]
    rfl

theorem lastHealthyDesired_congr {ledger ledger' : Ledger} (h : ledger'.lastHealthy = ledger.lastHealthy) :
    ledger'.lastHealthyDesired = ledger.lastHealthyDesired := by
  unfold Ledger.lastHealthyDesired
  rw [h]

def SameHealthy {W : Type} (s s' : Scene W) : Prop := s'.ledger.lastHealthy = s.ledger.lastHealthy

instance {W : Type} : Std.Refl (SameHealthy (W := W)) := ⟨fun _ => rfl⟩

instance {W : Type} : IsTrans (Scene W) SameHealthy :=
  ⟨fun _ _ _ first second => second.trans first⟩

theorem allows_sameHealthy {W : Type} (sha256 : List Char → Digest) :
    Allows sha256 (SameHealthy (W := W)) where
  outside _ _ := rfl
  called _ _ _ := rfl
  recorded _ h _ _ s := s.ledger.append_other sha256 h

section
open Act AgentCentric.Provider.Runtime
variable {W : Type} (sha256 : List Char → Digest) (R : Runtime W)

theorem keeps_escalate (plan : ProviderPlan) (attempts : Nat) :
    Keeps SameHealthy (R.escalate sha256 plan attempts) := by
  apply keeps_bind
  · exact fun s => s.ledger.append_other sha256 (by simp [transition])
  intro _
  apply keeps_bind (keeps_notify sha256 R (allows_sameHealthy sha256) _ _)
  intro _
  exact keeps_pure _

theorem keeps_settle (desired : List ResourceSpec) (approved : Bool) (rounds : Nat)
    (plan : ProviderPlan) (attempts : Nat) :
    Keeps SameHealthy (R.settle sha256 desired approved rounds plan attempts) := by
  induction rounds generalizing plan attempts with
  | zero => exact keeps_raise _
  | succ rounds ih =>
    apply keeps_bind (keeps_passes sha256 R (allows_sameHealthy sha256) plan approved)
    intro passed
    cases passed
    · rw [if_neg Bool.false_ne_true]
      apply keeps_bind
      · exact keeps_read
      intro s
      apply keeps_bind
      · exact keeps_lift _
      intro previous
      cases previous with
      | none =>
        cases reconcileAction false false false (attempts + 1) R.maxAttempts <;>
          exact keeps_escalate sha256 R plan _
      | some previous =>
        cases haction : reconcileAction false false (some previous).isSome (attempts + 1)
            R.maxAttempts with
        | rollback =>
          apply keeps_bind (keeps_rollback sha256 R (allows_sameHealthy sha256) previous)
          intro rolledBack
          cases rolledBack
          · exact keeps_escalate sha256 R plan _
          · apply keeps_bind (keeps_plan sha256 R (allows_sameHealthy sha256) desired)
            intro plan'
            exact ih plan' _
        | converged | apply | escalate => exact keeps_escalate sha256 R plan _
    · exact keeps_pure _

theorem keeps_drive (desired : List ResourceSpec) (approved : Bool) :
    Keeps SameHealthy (R.drive sha256 desired approved) := by
  unfold drive
  apply keeps_bind
  · exact keeps_read
  intro s
  apply keeps_bind (keeps_plan sha256 R (allows_sameHealthy sha256) desired)
  intro plan
  apply keeps_bind (keeps_settle sha256 R _ _ _ _ _)
  intro verdict
  exact keeps_pure _

end

theorem notify_world {W : Type} (R : Runtime W) (event : NotificationEvent) (plan : ProviderPlan)
    {s s' : Scene W} (h : s.world = s'.world) : (R.notify event plan s).1 = (R.notify event plan s').1 := by
  unfold Runtime.notify
  cases R.binding with
  | none => simp only [outside,h]
  | some events =>
    by_cases hbound : event ∈ events
    · simp only [hbound,if_true,outside,h]
    · simp only [hbound,if_false]
      rfl

structure Call (W : Type) where
  runtime : Runtime W
  desired : List ResourceSpec
  approved : Bool

namespace Call
variable {W : Type} (sha256 : List Char → Digest)

def perform (c : Call W) : Step W ReconcileResult := c.runtime.reconcile sha256 c.desired c.approved

/-- The call returns with the action `converged`. -/
def converges (c : Call W) (s : Scene W) : Bool :=
  match (c.perform sha256 s).1 with
  | .ok result => result.action = .converged
  | .error _ => false

/-- The health gate passes: there was a history before the call or not, the plan that is
healthy, and the state in which this is about to be recorded. -/
def passing (c : Call W) (s : Scene W) : Option (Bool × ProviderPlan × Scene W) :=
  match c.runtime.drive sha256 c.desired c.approved s with
  | (.ok (hadHistory,.healthy plan _),s₁) => some (hadHistory,plan,s₁)
  | _ => none

def remembered (c : Call W) (plan : ProviderPlan) : Evidence :=
  c.runtime.transition sha256 .healthy true plan (some c.desired)

def announces (c : Call W) (hadHistory : Bool) (plan : ProviderPlan) (s : Scene W) : Prop :=
  (c.runtime.notify (if hadHistory then .healed else .provisioned) plan s).1 = .ok ()

def known (c : Call W) (plan : ProviderPlan) (s : Scene W) : Prop :=
  s.ledger.holds ((c.remembered sha256 plan).fingerprint sha256) = true

theorem finish_notify (c : Call W) (hadHistory : Bool) (plan : ProviderPlan) (s : Scene W) :
    ∃ s', s'.world = s.world ∧ s'.ledger.lastHealthy =
        (s.ledger.append sha256 (c.remembered sha256 plan)).lastHealthy ∧
      c.runtime.finishConverged sha256 c.desired plan hadHistory s =
        c.runtime.notify (if hadHistory then .healed else .provisioned) plan s' := by
  let first := (Runtime.record sha256 (c.remembered sha256 plan) s).2
  let second := (Runtime.record sha256 (c.runtime.transition sha256 .converged true plan none) first).2
  refine ⟨second,rfl,?_,rfl⟩
  exact Ledger.append_other sha256 first.ledger (by simp [Runtime.transition])

theorem perform_of_not_passing {c : Call W} {s : Scene W} (h : c.passing sha256 s = none) :
    c.converges sha256 s = false ∧
      (c.perform sha256 s).2.ledger.lastHealthy = s.ledger.lastHealthy := by
  have hkeeps : SameHealthy s (c.runtime.drive sha256 c.desired c.approved s).2 :=
    keeps_drive sha256 c.runtime c.desired c.approved s
  unfold passing at h
  unfold converges perform Runtime.reconcile
  rw [Act.bind_apply]
  split at h
  · cases h
  · rename_i hne
    rcases hdrive : c.runtime.drive sha256 c.desired c.approved s with ⟨_ | ⟨had,⟨plan,n⟩ | ⟨plan,n⟩⟩,s₁⟩
    · rw [hdrive] at hkeeps
      exact ⟨rfl,hkeeps⟩
    · exact absurd hdrive (hne had plan n s₁)
    · rw [hdrive] at hkeeps
      exact ⟨rfl,hkeeps⟩

/-- A call that reaches a healthy plan records it, unless it is known, and returns unless the
notification raises. -/
theorem perform_of_passing {c : Call W} {s s₁ : Scene W} {hadHistory : Bool} {plan : ProviderPlan}
    (h : c.passing sha256 s = some (hadHistory,plan,s₁)) :
    (c.converges sha256 s = true ↔ c.announces hadHistory plan s₁) ∧ (c.known sha256 plan s₁ →
        (c.perform sha256 s).2.ledger.lastHealthy = s.ledger.lastHealthy) ∧
      (¬ c.known sha256 plan s₁ →
        (c.perform sha256 s).2.ledger.lastHealthy = some (kept c.desired)) := by
  have hkeeps : SameHealthy s (c.runtime.drive sha256 c.desired c.approved s).2 :=
    keeps_drive sha256 c.runtime c.desired c.approved s
  obtain ⟨n,hdrive⟩ : ∃ n, c.runtime.drive sha256 c.desired c.approved s =
      (.ok (hadHistory,.healthy plan n),s₁) := by
    unfold passing at h
    split at h
    · rename_i had plan' n s' hdrive
      simp only [Option.some.injEq,Prod.mk.injEq] at h
      obtain ⟨rfl,rfl,rfl⟩ := h
      exact ⟨n,hdrive⟩
    · cases h
  rw [hdrive] at hkeeps
  obtain ⟨s',hworld,hledger,hfinish⟩ := finish_notify sha256 c hadHistory plan s₁
  have hsame := notify_world c.runtime (if hadHistory then .healed else .provisioned) plan hworld
  have hperform : c.perform sha256 s = (c.runtime.finishConverged sha256 c.desired plan hadHistory >>=
      fun _ => pure ⟨.converged,plan,n⟩) s₁ := by
    unfold perform Runtime.reconcile
    rw [Act.bind_ok hdrive]
  have hquiet : SameHealthy s' (c.runtime.notify (if hadHistory then .healed else .provisioned)
      plan s').2 := keeps_notify sha256 c.runtime (allows_sameHealthy sha256) _ plan s'
  have happend := Ledger.append_healthy sha256 s₁.ledger (e := c.remembered sha256 plan) rfl rfl
  have hlast : (c.perform sha256 s).2.ledger.lastHealthy = s'.ledger.lastHealthy := by
    rw [hperform,Act.bind_apply,hfinish]
    rcases hnotify : c.runtime.notify (if hadHistory then .healed else .provisioned) plan s' with
      ⟨_ | _,s''⟩ <;> (rw [hnotify] at hquiet; exact hquiet)
  rw [hlast,hledger,happend]
  refine ⟨?_,?_,?_⟩
  · unfold converges announces
    rw [hperform,Act.bind_apply,hfinish,← hsame]
    rcases hnotify : c.runtime.notify (if hadHistory then .healed else .provisioned) plan s' with
      ⟨_ | _,s''⟩ <;> simp
  · intro hknown
    unfold known at hknown
    rw [if_pos hknown,hkeeps]
  · intro hnew
    unfold known at hnew
    rw [if_neg hnew]
    rfl

/-- The condition under which the ledger stays right. If the health gate passes, then
the record is new, the call returns and nothing secret is in the desired state; or the record is
known and the call does not return; or the desired state is the last healthy one already. -/
def Faithful (c : Call W) (s : Scene W) : Prop :=
  ∀ hadHistory plan s₁, c.passing sha256 s = some (hadHistory,plan,s₁) →
    (¬ c.known sha256 plan s₁ ∧ c.announces hadHistory plan s₁ ∧ ∀ r ∈ c.desired, r.Clean) ∨
    (c.known sha256 plan s₁ ∧ ¬ c.announces hadHistory plan s₁) ∨
    s.ledger.lastHealthyDesired = .ok (some (c.desired.map ResourceSpec.canonical))

/-- The ledger says that `last` was healthy last. -/
def Recalls (ledger : Ledger) (last : Option (List ResourceSpec)) : Prop :=
  ledger.lastHealthyDesired = .ok (last.map fun desired => desired.map ResourceSpec.canonical)

theorem recalls_perform_iff {c : Call W} {s : Scene W} {last : Option (List ResourceSpec)}
    (h : Recalls s.ledger last) :
    Recalls (c.perform sha256 s).2.ledger (if c.converges sha256 s then some c.desired else last) ↔
      c.Faithful sha256 s := by
  unfold Recalls at h ⊢
  unfold Faithful
  cases hpassing : c.passing sha256 s with
  | none =>
    obtain ⟨hconverges,hlast⟩ := perform_of_not_passing sha256 hpassing
    rw [hconverges,lastHealthyDesired_congr hlast,h]
    simp
  | some reached =>
    obtain ⟨hadHistory,plan,s₁⟩ := reached
    obtain ⟨hconverges,hknown,hnew⟩ := perform_of_passing sha256 hpassing
    have hone : ∀ P : Bool → ProviderPlan → Scene W → Prop,
        (∀ had p t, some (hadHistory,plan,s₁) = some (had,p,t) → P had p t) ↔ P hadHistory plan s₁ := by
      intro P
      constructor
      · intro hall
        exact hall hadHistory plan s₁ rfl
      · intro hP had p t heq
        cases heq
        exact hP
    rw [hone fun had p t => (¬ c.known sha256 p t ∧ c.announces had p t ∧ ∀ r ∈ c.desired, r.Clean) ∨
      (c.known sha256 p t ∧ ¬ c.announces had p t) ∨
      s.ledger.lastHealthyDesired = .ok (some (c.desired.map ResourceSpec.canonical))]
    by_cases hk : c.known sha256 plan s₁
    · rw [lastHealthyDesired_congr (hknown hk)]
      by_cases ha : c.announces hadHistory plan s₁
      · simp [hconverges.2 ha,hk,ha]
      · have hc : ¬ c.converges sha256 s = true := fun hc => ha (hconverges.1 hc)
        simp [hc,hk,ha,h]
    · rw [lastHealthyDesired_kept (hnew hk)]
      by_cases ha : c.announces hadHistory plan s₁
      · simp only [hconverges.2 ha,hk,ha,if_true,Option.map_some,and_true,not_false_eq_true,
          true_and,not_true_eq_false,and_false,false_or]
        constructor
        · exact .inl
        · rintro (hclean | hlast)
          · exact hclean
          · exact clean_of_canonical hlast
      · have hc : ¬ c.converges sha256 s = true := fun hc => ha (hconverges.1 hc)
        simp only [hc,hk,ha,h,if_false,false_and,and_false,false_or,Except.ok.injEq,Bool.false_eq_true]
        constructor
        · exact And.right
        · intro hlast
          exact ⟨clean_of_canonical (h.trans (congrArg Except.ok hlast)),hlast⟩

end Call

section
open Replay
variable {W : Type} (sha256 : List Char → Digest)

def afterCalls (calls : List (Call W)) (s : Scene W) : Scene W :=
  calls.foldl (fun s c => (c.perform sha256 s).2) s

def performed : List (Call W) → Scene W → List (Call W × Scene W)
  | [], _ => []
  | c :: rest, s => (c,s) :: performed rest (c.perform sha256 s).2

/-- The desired state of the most recent call that returned `converged`. -/
def lastConverged (calls : List (Call W)) (s : Scene W) : Option (List ResourceSpec) :=
  (latest (fun p : Call W × Scene W => p.1.converges sha256 p.2) (performed sha256 calls s)).map
    fun p => p.1.desired

theorem performed_concat (calls : List (Call W)) (c : Call W) (s : Scene W) :
    performed sha256 (calls ++ [c]) s = performed sha256 calls s ++ [(c,afterCalls sha256 calls s)] := by
  induction calls generalizing s with
  | nil => rfl
  | cons d rest ih =>
    rw [List.cons_append,performed,performed,ih,List.cons_append]
    rfl

theorem afterCalls_concat (calls : List (Call W)) (c : Call W) (s : Scene W) :
    afterCalls sha256 (calls ++ [c]) s = (c.perform sha256 (afterCalls sha256 calls s)).2 := by
  unfold afterCalls
  rw [List.foldl_append]
  rfl

theorem lastConverged_concat (calls : List (Call W)) (c : Call W) (s : Scene W) :
    lastConverged sha256 (calls ++ [c]) s =
      if c.converges sha256 (afterCalls sha256 calls s) then some c.desired
      else lastConverged sha256 calls s := by
  unfold lastConverged
  rw [performed_concat,latest_concat]
  split <;> rfl

/-- On one ledger, empty at first, the last healthy desired state is that of the most recent call
that returned `converged`, after every call, exactly if every call is faithful. -/
theorem lastHealthyDesired_iff (calls : List (Call W)) (w : W) :
    (∀ done, done <+: calls → (afterCalls sha256 done (.new w)).ledger.lastHealthyDesired =
      .ok ((lastConverged sha256 done (.new w)).map fun desired => desired.map ResourceSpec.canonical)) ↔
    ∀ p ∈ performed sha256 calls (.new w), p.1.Faithful sha256 p.2 := by
  induction calls using List.reverseRecOn with
  | nil =>
    simp only [List.prefix_nil,forall_eq,performed,List.not_mem_nil,false_implies,implies_true,iff_true]
    rfl
  | append_singleton calls c ih =>
    have hstep := @Call.recalls_perform_iff W sha256 c (afterCalls sha256 calls (.new w))
      (lastConverged sha256 calls (.new w))
    rw [← afterCalls_concat,← lastConverged_concat] at hstep
    simp only [List.prefix_concat_iff,performed_concat,List.mem_append,List.mem_singleton]
    constructor
    · intro hall p hp
      have hbefore := hall calls (.inr (List.prefix_refl calls))
      rcases hp with hp | rfl
      · exact ih.1 (fun done hdone => hall done (.inr hdone)) p hp
      · exact (hstep hbefore).1 (hall _ (.inl rfl))
    · intro hall done hdone
      have hrest := ih.2 fun p hp => hall p (.inl hp)
      rcases hdone with rfl | hdone
      · exact (hstep (hrest calls (List.prefix_refl calls))).2 (hall _ (.inr rfl))
      · exact hrest done hdone

def sized (n : Int) : List ResourceSpec := [⟨"db","main",[("size",.int n)],db_ne,main_ne⟩]

def alternating : List (Call InMemory) :=
  let R := Runtime.inMemory "local" local_ne
  [⟨R,sized 1,false⟩,⟨R,sized 2,false⟩,⟨R,sized 1,false⟩,⟨R,sized 2,false⟩]

def written (state : Except String (Option (List ResourceSpec))) : Option (List String) :=
  match state with
  | .ok desired => desired.map fun ds => ds.map fun r => r.toDict.compact
  | .error _ => none

/-- The fourth call converges to the second state by a plan that was recorded already, and the
ledger says that the first one was healthy last. -/
theorem alternating_forgets :
    ¬ ∀ done, done <+: alternating →
      (afterCalls Digest.ofChars done (.new ⟨fun _ => false,true,Dict.empty⟩)).ledger.lastHealthyDesired =
        .ok ((lastConverged Digest.ofChars done (.new ⟨fun _ => false,true,Dict.empty⟩)).map
          fun desired => desired.map ResourceSpec.canonical) := by
  intro h
  have hlast := congrArg written (h alternating (List.prefix_refl alternating))
  revert hlast
  decide +kernel

end

end AgentCentric.Provider

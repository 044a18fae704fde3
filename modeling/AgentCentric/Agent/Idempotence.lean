import AgentCentric.Agent.Agent

namespace AgentCentric
open Json

variable {W : Type} {reason : String} {a : Agent W} {d : Directive}

namespace Agent

def admitted {W : Type} (a : Agent W) (late : Bool) (d : Directive) :
    Except String (String × Callable W × List (String × Json)) :=
  if (d.correlationId,d.kind) ∈ a.usedKeys then
    .error "correlation id reused for different directive"
  else
    match field d.payload "task" with
    | .str taskName =>
      match a.violation late d with
      | some reason => .error reason
      | none =>
        match a.resolve taskName with
        | none => .error ("unknown task " ++ pyRepr taskName)
        | some task =>
          match runArgs d with
          | .dict items => .ok (taskName,task,items)
          | args => .error (raisedText taskName (notMapping task args))
    | _ => .error "run directive requires a 'task' name"

/-- Why a directive is turned down before its task is called; `none` if its answer is
kept already, or if its task is called. -/
def refusal {W : Type} (a : Agent W) (late : Bool) (d : Directive) : Option String :=
  match a.results.get d.fingerprint with
  | some _ => none
  | none =>
    match a.admitted late d with
    | .error reason => some reason
    | .ok _ => none

def raises {W : Type} (a : Agent W) (late : Bool) (d : Directive) (w : W) : Bool :=
  match a.results.get d.fingerprint with
  | some _ => false
  | none =>
    match a.admitted late d with
    | .error _ => false
    | .ok (_,task,items) =>
      match task.call items w with
      | (.error _,_) => true
      | (.ok value,w₁) =>
        match a.verify value (a.verifierFor d) w₁ with
        | (.error _,_) => true
        | (.ok _,_) => false

inductive Answers {W : Type} (a : Agent W) (d : Directive) : Except Raised Response → Prop where
  | escaped (e : Raised) : Answers a d (.error e)
  | raised (taskName text : String) : Answers a d (.ok (a.error d (raisedText taskName text)))
  | returned (taskName : String) (value : PyValue) (verified : Bool) :
      Answers a d (.ok (a.result d taskName value verified))

inductive Handles {W : Type} (a : Agent W) (late : Bool) (d : Directive) (w : W)
    (t : Turn W) : Prop where
  | cached {response : Response} : a.results.get d.fingerprint = some response →
      t = a.answer w response → Handles a late d w t
  | refused {reason : String} : a.refusal late d = some reason →
      t.outcome = .ok (a.error d reason) → t.agent.results = a.results →
      t.agent.usedKeys = a.usedKeys → t.called = false → Handles a late d w t
  | raised : a.raises late d w = true → a.refusal late d = none → t.agent.results = a.results →
      t.agent.usedKeys = a.usedKeys → t.called = true →
      (∃ items, runArgs d = .dict items) → a.Answers d t.outcome → Handles a late d w t
  | returned {response : Response} : a.raises late d w = false → a.refusal late d = none →
      a.results.get d.fingerprint = none → t.outcome = .ok response →
      t.agent.results = a.results.set d.fingerprint response →
      t.agent.usedKeys = (d.correlationId,d.kind) :: a.usedKeys → t.called = true →
      (∃ items, runArgs d = .dict items) → a.Answers d t.outcome → Handles a late d w t

theorem runTask_of_error {late : Bool}
    (w : W) (hnew : a.results.get d.fingerprint = none) (h : a.admitted late d = .error reason) :
    a.Handles late d w (a.runTask late d w) := by
  have href : a.refusal late d = some reason := by simp [refusal,hnew,h]
  suffices hturn : a.runTask late d w = a.refuse w d reason ∨
      a.runTask late d w = (a.counted false).refuse w d reason by
    rcases hturn with heq | heq <;> rw [heq] <;> exact .refused href rfl rfl rfl rfl
  simp only [admitted] at h
  simp only [runTask,hnew]
  split at h
  · rename_i hused
    cases h
    exact .inl (by rw [if_pos hused])
  rename_i hused
  rw [if_neg hused]
  by_cases hname : ∃ taskName, field d.payload "task" = .str taskName
  · obtain ⟨taskName,hname⟩ := hname
    simp only [hname] at h ⊢
    cases hviolation : a.violation late d with
    | some violated =>
      simp only [hviolation] at h ⊢
      cases h
      exact .inl rfl
    | none =>
      simp only [hviolation] at h ⊢
      cases htask : a.resolve taskName with
      | none =>
        simp only [htask] at h ⊢
        cases h
        exact .inl rfl
      | some task =>
        simp only [htask] at h ⊢
        split at h
        · cases h
        · rename_i hargs
          cases h
          refine .inr ?_
          unfold execute
          split
          · rename_i items hitems
            exact absurd hitems (hargs items)
          · rfl
  · have hnone : ∀ taskName, field d.payload "task" = .str taskName → False :=
      fun taskName heq => hname ⟨taskName,heq⟩
    simp only at h
    cases h
    exact .inl (by simp)

theorem admitted_ok {late : Bool} {taskName : String}
    {task : Callable W} {items : List (String × Json)} (hnew : a.results.get d.fingerprint = none)
    (h : a.admitted late d = .ok (taskName,task,items)) :
    (∀ w, a.runTask late d w = (a.counted false).execute d taskName task w) ∧
      runArgs d = .dict items := by
  simp only [admitted] at h
  split at h
  · cases h
  rename_i hused
  split at h
  · rename_i name hname
    split at h
    · cases h
    · rename_i hviolation
      split at h
      · cases h
      · rename_i htask
        split at h
        · rename_i hargs
          cases h
          refine ⟨fun w => ?_,hargs⟩
          simp only [runTask,hnew,if_neg hused,hname,hviolation,htask]
        · cases h
  · cases h

@[simp] theorem counted_results (a : Agent W) (isSpawn : Bool) :
    (a.counted isSpawn).results = a.results := rfl

@[simp] theorem counted_usedKeys (a : Agent W) (isSpawn : Bool) :
    (a.counted isSpawn).usedKeys = a.usedKeys := rfl

theorem verify_counted (a : Agent W) (value : PyValue) (name : Json) (w : W) :
    (a.counted false).verify value name w = a.verify value name w := by
  cases name <;> rfl

theorem runTask_handles (a : Agent W) (late : Bool) (d : Directive) (w : W) :
    a.Handles late d w (a.runTask late d w) := by
  cases hcached : a.results.get d.fingerprint with
  | some response => exact .cached hcached (by simp [runTask,hcached])
  | none =>
    cases hentry : a.admitted late d with
    | error reason => exact runTask_of_error w hcached hentry
    | ok call =>
      obtain ⟨taskName,task,items⟩ := call
      obtain ⟨hrun,hargs⟩ := admitted_ok hcached hentry
      rw [hrun w]
      have hname : (a.counted false).verifierFor d = a.verifierFor d := rfl
      have href : a.refusal late d = none := by simp [refusal,hcached,hentry]
      cases hcall : task.call items w with
      | mk value w₁ =>
        cases value with
        | error e =>
          have hturn : (a.counted false).execute d taskName task w =
              ⟨.ok (a.error d (raisedText taskName e.text)),a.counted false,w₁,true⟩ := by
            simp only [execute,hargs,hcall]
            rfl
          have hraises : a.raises late d w = true := by simp [raises,hcached,hentry,hcall]
          rw [hturn]
          exact .raised hraises href rfl rfl rfl ⟨items,hargs⟩ (.raised taskName e.text)
        | ok value =>
          cases hverify : a.verify value (a.verifierFor d) w₁ with
          | mk verified w₂ =>
            cases verified with
            | error e =>
              have hturn : (a.counted false).execute d taskName task w =
                  ⟨.error e,a.counted false,w₂,true⟩ := by
                simp only [execute,hargs,hcall,verify_counted,hname,hverify]
              have hraises : a.raises late d w = true := by
                simp [raises,hcached,hentry,hcall,hverify]
              rw [hturn]
              exact .raised hraises href rfl rfl rfl ⟨items,hargs⟩ (.escaped e)
            | ok verified =>
              have hturn : (a.counted false).execute d taskName task w =
                  ⟨.ok (a.result d taskName value verified),
                    (a.counted false).keep d (a.result d taskName value verified),w₂,true⟩ := by
                simp only [execute,hargs,hcall,verify_counted,hname,hverify]
                rfl
              have hraises : a.raises late d w = false := by
                simp [raises,hcached,hentry,hcall,hverify]
              rw [hturn]
              exact .returned hraises href hcached rfl rfl rfl rfl ⟨items,hargs⟩
                (.returned taskName value verified)

theorem runTask_identity (a : Agent W) (late : Bool) (d : Directive) (w : W) :
    (a.runTask late d w).agent.identity = a.identity := by
  unfold runTask execute
  repeat' split
  all_goals rfl

end Agent

structure Handling (W : Type) where
  agent : Agent W
  world : W
  late : Bool
  directive : Directive

namespace Handling

def turn {W : Type} (h : Handling W) : Turn W := h.agent.runTask h.late h.directive h.world

def fingerprint {W : Type} (h : Handling W) : Fingerprint := h.directive.fingerprint

def key {W : Type} (h : Handling W) : String × DirectiveKind :=
  (h.directive.correlationId,h.directive.kind)

def called {W : Type} (h : Handling W) : Bool := h.turn.called

def outcome {W : Type} (h : Handling W) : Except Raised Response := h.turn.outcome

def refusal {W : Type} (h : Handling W) : Option String := h.agent.refusal h.late h.directive

def raises {W : Type} (h : Handling W) : Bool := h.agent.raises h.late h.directive h.world

end Handling

def Agent.handleAll {W : Type} (a : Agent W) (w : W) : List (Directive × Bool) → List (Handling W)
  | [] => []
  | (d,late) :: rest =>
      let h : Handling W := ⟨a,w,late,d⟩
      h :: h.turn.agent.handleAll h.turn.world rest

/-- Every directive runs its task once at most and gets one answer, and a correlation id
runs one task at most. -/
structure Idempotent {W : Type} (hs : List (Handling W)) : Prop where
  once : hs.Pairwise fun h g => h.fingerprint = g.fingerprint → ¬ (h.called ∧ g.called)
  same : hs.Pairwise fun h g => h.fingerprint = g.fingerprint → g.outcome = h.outcome
  exclusive : hs.Pairwise fun h g => h.key = g.key → h.fingerprint ≠ g.fingerprint →
    ¬ (h.called ∧ g.called)

/-- A directive whose task or verifier raised does not come again, and its correlation id
is refused afterwards; a refused directive is refused for the same reason again. -/
def Settled {W : Type} (hs : List (Handling W)) : Prop :=
  hs.Pairwise fun h g => h.key = g.key →
    (h.raises = true → h.fingerprint ≠ g.fingerprint ∧ g.refusal ≠ none) ∧
    (∀ reason, h.refusal = some reason → h.fingerprint = g.fingerprint →
      g.refusal = some reason)

variable {h : Handling W}

namespace Handling

theorem key_of_fingerprint {h g : Handling W} (heq : h.fingerprint = g.fingerprint) :
    h.key = g.key := by
  have hid := congrArg Fingerprint.correlationId heq
  have hkind := congrArg Fingerprint.kind heq
  exact Prod.ext hid hkind

theorem refused_turn (href : h.refusal = some reason) :
    h.outcome = .ok (h.agent.error h.directive reason) ∧ h.called = false ∧
      h.turn.agent.results = h.agent.results := by
  have href' : h.agent.refusal h.late h.directive = some reason := href
  cases h.agent.runTask_handles h.late h.directive h.world with
  | cached hcached => simp [Agent.refusal,hcached] at href'
  | refused hreason hout hresults _ hcalled =>
    rw [href'] at hreason
    cases hreason
    exact ⟨hout,hcalled,hresults⟩
  | raised _ hnone => simp [href'] at hnone
  | returned _ hnone => simp [href'] at hnone

theorem cached_turn {response : Response}
    (hcached : h.agent.results.get h.fingerprint = some response) :
    h.outcome = .ok response ∧ h.called = false := by
  have hturn : h.turn = h.agent.answer h.world response := by
    simp only [turn,Agent.runTask]
    rw [show h.agent.results.get h.directive.fingerprint = some response from hcached]
  exact ⟨congrArg Turn.outcome hturn,congrArg Turn.called hturn⟩

theorem used_turn (hused : h.key ∈ h.agent.usedKeys) : h.called = false := by
  cases hcached : h.agent.results.get h.fingerprint with
  | some response => exact (cached_turn hcached).2
  | none =>
    have hkey : (h.directive.correlationId,h.directive.kind) ∈ h.agent.usedKeys := hused
    have hnew : h.agent.results.get h.directive.fingerprint = none := hcached
    have href : h.refusal = some "correlation id reused for different directive" := by
      simp [refusal,Agent.refusal,hnew,Agent.admitted,hkey]
    exact (refused_turn href).2.1

theorem turn_keeps (h : Handling W) : (∀ f response, h.agent.results.get f = some response →
      h.turn.agent.results.get f = some response) ∧
    (∀ k ∈ h.agent.usedKeys, k ∈ h.turn.agent.usedKeys) := by
  cases h.agent.runTask_handles h.late h.directive h.world with
  | cached _ hturn =>
    have hagent : h.turn.agent = h.agent := congrArg Turn.agent hturn
    rw [hagent]
    exact ⟨fun _ _ hf => hf,fun _ hk => hk⟩
  | refused _ _ hresults hused =>
    exact ⟨fun _ _ hf => hresults ▸ hf,fun _ hk => hused ▸ hk⟩
  | raised _ _ hresults hused =>
    exact ⟨fun _ _ hf => hresults ▸ hf,fun _ hk => hused ▸ hk⟩
  | returned _ _ hnew _ hresults hused =>
    constructor
    · intro f response hf
      have hne : h.directive.fingerprint ≠ f := by
        rintro rfl
        rw [hnew] at hf
        cases hf
      rw [turn,hresults,Dict.get_set_ne _ _ hne,hf]
    · intro k hk
      rw [turn,hused]
      exact List.mem_cons_of_mem _ hk

theorem turn_identity (h : Handling W) : h.turn.agent.identity = h.agent.identity :=
  h.agent.runTask_identity h.late h.directive h.world

end Handling

variable {ds : List (Directive × Bool)}

namespace Agent

/-- A whole sequence: kept answers and used correlation ids are there whenever a later
directive is handled. -/
theorem handleAll_keeps {w : W} {g : Handling W} (hg : g ∈ a.handleAll w ds) :
    (∀ f response, a.results.get f = some response → g.agent.results.get f = some response) ∧
    (∀ k ∈ a.usedKeys, k ∈ g.agent.usedKeys) ∧ g.agent.identity = a.identity := by
  induction ds generalizing a w with
  | nil => simp [handleAll] at hg
  | cons x rest ih =>
    obtain ⟨d,late⟩ := x
    simp only [handleAll,List.mem_cons] at hg
    have hstep := Handling.turn_keeps (⟨a,w,late,d⟩ : Handling W)
    have hidentity := Handling.turn_identity (⟨a,w,late,d⟩ : Handling W)
    cases hg with
    | inl heq =>
      subst heq
      exact ⟨fun _ _ hf => hf,fun _ hk => hk,rfl⟩
    | inr hmem =>
      obtain ⟨hresults,hused,hid⟩ := ih hmem
      exact ⟨fun f r hf => hresults f r (hstep.1 f r hf),fun k hk => hused k (hstep.2 k hk),
        hid.trans hidentity⟩

end Agent

namespace Handling

theorem later {h g : Handling W} (hg : g ∈ h.turn.agent.handleAll h.turn.world ds)
    (hsettled : h.key = g.key →
      (h.raises = true → h.fingerprint ≠ g.fingerprint ∧ g.refusal ≠ none) ∧
      (∀ reason, h.refusal = some reason → h.fingerprint = g.fingerprint →
        g.refusal = some reason)) : (h.key = g.key → ¬ (h.called ∧ g.called)) ∧
    (h.fingerprint = g.fingerprint → g.outcome = h.outcome) := by
  obtain ⟨hresults,hused,hidentity⟩ := Agent.handleAll_keeps hg
  rw [turn_identity] at hidentity
  cases hturn : h.agent.runTask_handles h.late h.directive h.world with
  | cached hcached =>
    have hown := cached_turn (h := h) hcached
    refine ⟨fun _ hboth => ?_,fun hfp => ?_⟩
    · simp [hown.2] at hboth
    · have hlater : g.agent.results.get h.fingerprint = some _ :=
        hresults _ _ ((turn_keeps h).1 _ _ hcached)
      rw [hown.1,(cached_turn (h := g) (hfp ▸ hlater)).1]
  | refused href =>
    have hown := refused_turn (h := h) href
    refine ⟨fun _ hboth => ?_,fun hfp => ?_⟩
    · simp [hown.2.1] at hboth
    · have hlater := (hsettled (key_of_fingerprint hfp)).2 _ href hfp
      have hid := congrArg Fingerprint.correlationId hfp
      have hid' : h.directive.correlationId = g.directive.correlationId := hid
      rw [hown.1,(refused_turn hlater).1]
      simp only [Agent.error,hidentity,hid']
  | raised hraises =>
    refine ⟨fun hkey hboth => ?_,fun hfp => ?_⟩
    · obtain ⟨reason,hreason⟩ := Option.ne_none_iff_exists'.1 ((hsettled hkey).1 hraises).2
      simp [(refused_turn hreason).2.1] at hboth
    · exact absurd hfp ((hsettled (key_of_fingerprint hfp)).1 hraises).1
  | returned _ _ _ hout hkept hkeys =>
    refine ⟨fun hkey hboth => ?_,fun hfp => ?_⟩
    · have hmem : h.key ∈ h.turn.agent.usedKeys := by
        rw [turn,hkeys]
        exact List.mem_cons_self
      have hnot := used_turn (h := g) (hkey ▸ hused _ hmem)
      simp [hnot] at hboth
    · have hget := hresults h.fingerprint _ (by rw [turn,hkept]; exact Dict.get_set_self _ _ _)
      rw [(cached_turn (h := g) (hfp ▸ hget)).1]
      exact hout.symm

end Handling

namespace Agent

theorem violation_head {late : Bool}
    (h : a.violation late d = some reason) : reason.toList.head? = some 'r' := by
  simp only [violation,Option.bind_eq_some_iff,EnvelopeGuard.checkDirective] at h
  obtain ⟨guard,-,h⟩ := h
  split at h
  · cases h
  · split at h
    · cases h
      simp [String.toList_append]
    split at h
    · cases h
      simp [String.toList_append]
    split at h
    · cases h
      simp [String.toList_append]
    split at h
    · cases h
      simp [String.toList_append]
    · cases h

/-- No refusal reads like a failed verification, and one that reads like a raised exception
is about arguments that are no mapping. -/
theorem admitted_head {late : Bool} (h : a.admitted late d = .error reason) :
    reason.toList.head? ≠ some 'v' ∧
      (reason.toList.head? = some 't' → ∀ items, runArgs d ≠ .dict items) := by
  simp only [admitted] at h
  split at h
  · cases h
    simp
  split at h
  · split at h
    · rename_i hviolation
      cases h
      rw [violation_head hviolation]
      simp
    · split at h
      · cases h
        simp [String.toList_append]
      · split at h
        · cases h
        · rename_i hargs
          cases h
          exact ⟨by simp [raisedText,String.toList_append],fun _ items heq => hargs items heq⟩
  · cases h
    simp

end Agent

namespace Handling

theorem admitted_of_refusal
    (href : h.refusal = some reason) : h.agent.admitted h.late h.directive = .error reason := by
  have href' : h.agent.refusal h.late h.directive = some reason := href
  unfold Agent.refusal at href'
  split at href'
  · cases href'
  · split at href'
    · rename_i hentry
      cases href'
      exact hentry
    · cases href'

theorem refused_new
    (href : h.refusal = some reason) : h.agent.results.get h.fingerprint = none := by
  cases hcached : h.agent.results.get h.fingerprint with
  | none => rfl
  | some response =>
    have hcached' : h.agent.results.get h.directive.fingerprint = some response := hcached
    simp [refusal,Agent.refusal,hcached'] at href

theorem args_of_fingerprint {h g : Handling W} (heq : h.fingerprint = g.fingerprint)
    {items : List (String × Json)} (hargs : Agent.runArgs h.directive = .dict items) :
    ∃ items', Agent.runArgs g.directive = .dict items' := by
  have hget := Directive.get_of_fingerprint heq "args"
  unfold Agent.runArgs at hargs ⊢
  cases hh : h.directive.payload.get "args" with
  | none =>
    rw [hh] at hget
    cases hg : g.directive.payload.get "args" with
    | none => exact ⟨[],rfl⟩
    | some j => simp [hg] at hget
  | some i =>
    rw [hh] at hget hargs
    cases hg : g.directive.payload.get "args" with
    | none => simp [hg] at hget
    | some j =>
      simp only [Option.getD_some] at hargs ⊢
      subst hargs
      simp only [hg,Option.map_some,Option.some.injEq,Json.canonical] at hget
      cases j <;> simp [Json.canonical] at hget ⊢

theorem called_ne_refused {h k : Handling W}
    (hfp : h.fingerprint = k.fingerprint) (href : h.refusal = some reason)
    (hcalled : k.called = true) : k.outcome ≠ .ok (h.agent.error h.directive reason) := by
  obtain ⟨hverification,hraised⟩ := Agent.admitted_head (admitted_of_refusal href)
  have hnotDict : reason.toList.head? = some 't' →
      ∀ items, Agent.runArgs k.directive ≠ .dict items := by
    intro hhead items hargs
    obtain ⟨items',hargs'⟩ := args_of_fingerprint hfp.symm hargs
    exact hraised hhead items' hargs'
  have hanswers : (∃ items, Agent.runArgs k.directive = .dict items) ∧
      k.agent.Answers k.directive k.outcome := by
    cases k.agent.runTask_handles k.late k.directive k.world with
    | cached hcached => simp [(cached_turn (h := k) hcached).2] at hcalled
    | refused hrefused => simp [(refused_turn (h := k) hrefused).2.1] at hcalled
    | raised _ _ _ _ _ hargs hout => exact ⟨hargs,hout⟩
    | returned _ _ _ _ _ _ _ hargs hout => exact ⟨hargs,hout⟩
  obtain ⟨⟨items,hargs⟩,hout⟩ := hanswers
  intro heq
  rw [heq] at hout
  generalize hresponse : h.agent.error h.directive reason = response at hout
  have herror : response.error = .str reason := by rw [← hresponse]; rfl
  have hverified : response.verified = .bool false := by rw [← hresponse]; rfl
  cases hout with
  | raised taskName text =>
    have htext : Agent.raisedText taskName text = reason := Json.str.inj herror
    exact hnotDict (by rw [← htext]; simp [Agent.raisedText,String.toList_append]) items hargs
  | returned taskName value verified =>
    have hfalse : verified = false := Json.bool.inj hverified
    subst hfalse
    have htext : "verification failed for task " ++ pyRepr taskName = reason :=
      Json.str.inj herror
    exact hverification (by rw [← htext]; simp [String.toList_append])

theorem kept_called {w : W}
    {g : Handling W} {f : Fingerprint} {response : Response} (hg : g ∈ a.handleAll w ds)
    (hkept : g.agent.results.get f = some response) (hnew : a.results.get f = none) :
    ∃ k ∈ a.handleAll w ds, k.called = true ∧ k.fingerprint = f := by
  induction ds generalizing a w with
  | nil => simp [Agent.handleAll] at hg
  | cons x rest ih =>
    obtain ⟨d,late⟩ := x
    simp only [Agent.handleAll,List.mem_cons] at hg ⊢
    cases hg with
    | inl heq =>
      rw [heq] at hkept
      simp only [hnew] at hkept
      cases hkept
    | inr hmem =>
      by_cases hafter : (turn ⟨a,w,late,d⟩).agent.results.get f = none
      · obtain ⟨k,hk,hcalled⟩ := ih hmem hafter
        exact ⟨k,.inr hk,hcalled⟩
      · refine ⟨⟨a,w,late,d⟩,.inl rfl,?_⟩
        have hsame : ∀ t : Turn W, t.agent.results = a.results → t.agent.results.get f = none :=
          fun t ht => by rw [ht,hnew]
        cases a.runTask_handles late d w with
        | cached _ hturn =>
          have hresults : (a.runTask late d w).agent.results = a.results := by
            rw [hturn]
            rfl
          exact absurd (hsame _ hresults) hafter
        | refused _ _ hresults => exact absurd (hsame _ hresults) hafter
        | raised _ _ hresults => exact absurd (hsame _ hresults) hafter
        | returned _ _ _ _ hresults _ hcalled =>
          refine ⟨hcalled,?_⟩
          by_contra hne
          have hne' : d.fingerprint ≠ f := hne
          rw [turn,hresults,Dict.get_set_ne _ _ hne'] at hafter
          exact hafter hnew

theorem raises_turn (hraises : h.raises = true) :
    h.called = true ∧ h.turn.agent.results = h.agent.results ∧
      (∃ items, Agent.runArgs h.directive = .dict items) ∧
      h.agent.Answers h.directive h.outcome := by
  have hraises' : h.agent.raises h.late h.directive h.world = true := hraises
  cases h.agent.runTask_handles h.late h.directive h.world with
  | cached hcached => simp [Agent.raises,hcached] at hraises'
  | refused href =>
    have hnew : h.agent.results.get h.directive.fingerprint = none := refused_new href
    simp [Agent.raises,hnew,admitted_of_refusal href] at hraises'
  | raised _ _ hresults _ hcalled hargs hout => exact ⟨hcalled,hresults,hargs,hout⟩
  | returned hnot => simp [hnot] at hraises'

theorem later_settled {h g : Handling W} (hg : g ∈ h.turn.agent.handleAll h.turn.world ds)
    (hcalls : ∀ k ∈ h.turn.agent.handleAll h.turn.world ds, h.key = k.key → ¬ (h.called ∧ k.called))
    (hsame : ∀ k ∈ h.turn.agent.handleAll h.turn.world ds, h.fingerprint = k.fingerprint →
      k.outcome = h.outcome) (hkey : h.key = g.key) :
    (h.raises = true → h.fingerprint ≠ g.fingerprint ∧ g.refusal ≠ none) ∧
    (∀ reason, h.refusal = some reason → h.fingerprint = g.fingerprint →
      g.refusal = some reason) := by
  have hrefused : g.called = false → g.agent.results.get g.fingerprint = none →
      ∃ reason, g.refusal = some reason := by
    intro hnot hnew
    cases hg' : g.agent.runTask_handles g.late g.directive g.world with
    | cached hcached => rw [fingerprint,hcached] at hnew; cases hnew
    | refused href => exact ⟨_,href⟩
    | raised _ _ _ _ hcalled => rw [called,turn,hcalled] at hnot; cases hnot
    | returned _ _ _ _ _ _ hcalled => rw [called,turn,hcalled] at hnot; cases hnot
  constructor
  · intro hraises
    obtain ⟨hcalled,hresults,⟨items,hargs⟩,hanswers⟩ := raises_turn hraises
    have hnotCalled : g.called = false := by
      by_contra hg'
      exact hcalls g hg hkey ⟨hcalled,by simpa using hg'⟩
    have hnew : g.agent.results.get g.fingerprint = none := by
      cases hkept : g.agent.results.get g.fingerprint with
      | none => rfl
      | some response =>
        have hbefore : h.turn.agent.results.get g.fingerprint = none := by
          rw [hresults]
          cases hown : h.agent.results.get g.fingerprint with
          | none => rfl
          | some other =>
            have hused : h.key ∈ h.agent.usedKeys := hkey ▸ h.agent.used _ _ hown
            simp [used_turn hused] at hcalled
        obtain ⟨k,hk,hkcalled,hkfp⟩ := kept_called hg hkept hbefore
        exact absurd ⟨hcalled,hkcalled⟩ (hcalls k hk (hkey.trans (key_of_fingerprint hkfp).symm))
    obtain ⟨reason,href⟩ := hrefused hnotCalled hnew
    refine ⟨fun hfp => ?_,by simp [href]⟩
    have hout := called_ne_refused hfp.symm href hcalled
    exact hout ((hsame g hg hfp).symm.trans (refused_turn href).1)
  · intro reason href hfp
    have hout := (hsame g hg hfp).trans (refused_turn href).1
    have hnotCalled : g.called = false := by
      by_contra hg'
      exact called_ne_refused hfp href (by simpa using hg') hout
    have hbefore : h.turn.agent.results.get g.fingerprint = none := by
      rw [← hfp,(refused_turn href).2.2]
      exact refused_new href
    have hnew : g.agent.results.get g.fingerprint = none := by
      cases hkept : g.agent.results.get g.fingerprint with
      | none => rfl
      | some response =>
        obtain ⟨k,hk,hkcalled,hkfp⟩ := kept_called hg hkept hbefore
        have hkh : h.fingerprint = k.fingerprint := hfp.trans hkfp.symm
        exact absurd ((hsame k hk hkh).trans (refused_turn href).1)
          (called_ne_refused hkh href hkcalled)
    obtain ⟨reason',href'⟩ := hrefused hnotCalled hnew
    have hsame' := (refused_turn href').1
    rw [hout] at hsame'
    have htext := congrArg Response.error (Except.ok.inj hsame')
    have heq : reason = reason' := Json.str.inj htext
    rw [heq,href']

end Handling

theorem handleAll_pairs {R S : Handling W → Handling W → Prop} {w : W}
    (hstep : ∀ (h : Handling W) ds, (∀ k ∈ h.turn.agent.handleAll h.turn.world ds, R h k) →
      ∀ g ∈ h.turn.agent.handleAll h.turn.world ds, S h g)
    (h : (a.handleAll w ds).Pairwise R) : (a.handleAll w ds).Pairwise S := by
  induction ds generalizing a w with
  | nil => exact List.Pairwise.nil
  | cons x rest ih =>
    obtain ⟨d,late⟩ := x
    simp only [Agent.handleAll,List.pairwise_cons] at h ⊢
    exact ⟨hstep ⟨a,w,late,d⟩ rest h.1,ih h.2⟩

/-- Every directive runs its task once at most and gets one answer, and a correlation id runs
one task at most, exactly if the sequence is settled. -/
theorem handleAll_idempotent_iff {W : Type} (a : Agent W) (w : W) (ds : List (Directive × Bool)) :
    Idempotent (a.handleAll w ds) ↔ Settled (a.handleAll w ds) := by
  constructor
  · rintro ⟨honce,hsame,hexclusive⟩
    refine handleAll_pairs ?_ (honce.and (hsame.and hexclusive))
    intro h rest hpairs g hg hkey
    refine Handling.later_settled hg (fun k hk hkey => ?_) (fun k hk => (hpairs k hk).2.1) hkey
    by_cases hfp : h.fingerprint = k.fingerprint
    · exact (hpairs k hk).1 hfp
    · exact (hpairs k hk).2.2 hkey hfp
  · intro hsettled
    have hlater := handleAll_pairs (S := fun h g => (h.key = g.key → ¬ (h.called ∧ g.called)) ∧
        (h.fingerprint = g.fingerprint → g.outcome = h.outcome))
      (fun h rest hpairs g hg => Handling.later hg (hpairs g hg)) hsettled
    constructor
    · exact hlater.imp fun hpair hfp => hpair.1 (Handling.key_of_fingerprint hfp)
    · exact hlater.imp fun hpair => hpair.2
    · exact hlater.imp fun hpair hkey _ => hpair.1 hkey

def failing : Callable Nat := ⟨"flaky",fun _ calls => (.error (.escaped "boom"),calls + 1),
  fun _ calls => (.ok true,calls)⟩

def flakyAgent : Agent Nat :=
  { (Agent.new "root" none [] : Agent Nat) with
    registry := Dict.empty.set "flaky" ⟨"flaky",.str "",.str "python",some failing⟩ }

def flakyRun : Directive := ⟨"run-1",.run,Dict.empty.set "task" (.str "flaky")⟩

/-- The directive is sent twice, and its task runs twice. -/
theorem raised_runs_again :
    ¬ Idempotent (flakyAgent.handleAll 0 [(flakyRun,false),(flakyRun,false)]) ∧
      (flakyAgent.handleAll 0 [(flakyRun,false),(flakyRun,false)]).map
        (fun h => h.turn.world) = [1,2] := by
  refine ⟨fun h => ?_,by decide⟩
  have honce := h.once
  simp only [Agent.handleAll,List.pairwise_cons] at honce
  exact honce.1 _ List.mem_cons_self rfl ⟨by decide,by decide⟩

end AgentCentric

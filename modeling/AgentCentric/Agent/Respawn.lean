import AgentCentric.Agent.Dispatch

namespace AgentCentric
open Json
variable {d : Directive}

namespace Agent
variable {W : Type}

def accounted (a : Agent W) (o : Outside) (d : Directive) : Prop :=
  (field d.payload "identity").truthy = true ∧ (field d.payload "endpoint").truthy = true ∧
    a.violation o.late d = none ∧ (field d.payload "identity").unhashable = false ∧
    a.hasChild (field d.payload "identity") = false

def bindRefused : Except Raised (Option String) → Bool
  | .ok (some _) => true
  | .error e => e.isRejected
  | .ok none => false

def foiled (a : Agent W) (o : Outside) (d : Directive) : Bool :=
  !a.declares (field d.payload "kind") || bindRefused o.bound

def adopted (a : Agent W) (child : String) : Agent W :=
  { a.counted true with children := a.children ++ [child] }

/-- The ways in which a spawn ends. -/
inductive Spawns (a : Agent W) (o : Outside) (d : Directive) :
    Except Raised Response × Agent W → Prop
  | refused (message : String) (hearly : ¬a.accounted o d) :
      Spawns a o d (.ok (a.error d message),a)
  | unhashable (text : String) (hearly : ¬a.accounted o d) :
      Spawns a o d (.error (.escaped text),a)
  | there (child : String) (hearly : ¬a.accounted o d) (hnamed : child ≠ "")
      (hendpoint : (field d.payload "endpoint").truthy = true)
      (hidentity : field d.payload "identity" = .str child) (hchild : child ∈ a.children) :
      Spawns a o d (.ok (a.ok d),a)
  | foiled (outcome : Except Raised Response) (haccounted : a.accounted o d)
      (hfoiled : a.foiled o d = true)
      (houtcome : (∃ message, outcome = .ok (a.error d message)) ∨
        ∃ text, outcome = .error (.rejected text)) : Spawns a o d (outcome,a.counted true)
  | raised (text : String) (hfine : a.foiled o d = false) :
      Spawns a o d (.error (.escaped text),a.counted true)
  | provisioned (child : String) (haccounted : a.accounted o d)
      (hidentity : field d.payload "identity" = .str child) (hfine : a.foiled o d = false) :
      Spawns a o d (.ok (a.ok d),a.adopted child)

theorem bindChild_spawns {a : Agent W} {o : Outside} (h : a.accounted o d) :
    Spawns a o d ((a.counted true).bindChild o d (field d.payload "identity")) := by
  unfold bindChild
  dsimp only
  have hdeclares : (a.counted true).declares (field d.payload "kind") =
      a.declares (field d.payload "kind") := rfl
  rw [hdeclares]
  cases hkind : a.declares (field d.payload "kind") with
  | false =>
    exact .foiled _ h (by simp [Agent.foiled,hkind]) (.inl ⟨_,rfl⟩)
  | true =>
    simp only [not_true_eq_false,if_false]
    cases hbound : o.bound with
    | error e =>
      cases e with
      | rejected text =>
        exact .foiled _ h (by simp [Agent.foiled,hbound,bindRefused,Raised.isRejected])
          (.inr ⟨text,rfl⟩)
      | escaped text =>
        exact .raised text (by simp [Agent.foiled,hkind,hbound,bindRefused,Raised.isRejected])
    | ok reason =>
      cases reason with
      | some reason =>
        exact .foiled _ h (by simp [Agent.foiled,hbound,bindRefused]) (.inl ⟨reason,rfl⟩)
      | none =>
        have hfine : a.foiled o d = false := by simp [Agent.foiled,hkind,hbound,bindRefused]
        cases hidentity : field d.payload "identity" with
        | str child => exact .provisioned child h hidentity hfine
        | _ => exact .raised _ hfine

theorem spawn_spawns (a : Agent W) (o : Outside) (d : Directive) : Spawns a o d (a.spawn o d) := by
  unfold spawn
  dsimp only
  split
  · rename_i hmissing
    exact .refused _ fun h => by simp [h.1,h.2.1] at hmissing
  · rename_i hthere
    simp only [not_or,not_not] at hthere
    cases hviolation : a.violation o.late d with
    | some reason => exact .refused reason fun h => absurd h.2.2.1 (by simp [hviolation])
    | none =>
      dsimp only
      split
      · rename_i hidentity
        exact .unhashable _ fun h => absurd h.2.2.2.1 (by simp [hidentity,Json.unhashable])
      · rename_i hidentity
        exact .unhashable _ fun h => absurd h.2.2.2.1 (by simp [hidentity,Json.unhashable])
      · rename_i hlist hdict
        have hkey : (field d.payload "identity").unhashable = false := by
          cases hidentity : field d.payload "identity" with
          | list xs => exact absurd hidentity (hlist xs)
          | dict items => exact absurd hidentity (hdict items)
          | _ => rfl
        cases hchild : a.hasChild (field d.payload "identity") with
        | true =>
          rw [if_pos rfl]
          cases hidentity : field d.payload "identity" with
          | str child =>
            have hnamed : child ≠ "" := by simpa [hidentity,Json.truthy] using hthere.1
            refine .there child (fun h => ?_) hnamed hthere.2 hidentity
              (by simpa [hasChild,hidentity] using hchild)
            exact Bool.false_ne_true (h.2.2.2.2.symm.trans hchild)
          | _ => simp [hidentity,hasChild] at hchild
        | false =>
          rw [if_neg Bool.false_ne_true]
          exact bindChild_spawns ⟨hthere.1,hthere.2,hviolation,hkey,hchild⟩

def heard (a : Agent W) (d : Directive) : Prop := a.alive = true ∧ d.correlationId ≠ ""

theorem react_spawn {a : Agent W} (h : a.heard d) (hkind : d.kind = .spawn)
    (I : Integrity) (w : W) (o : Outside) : a.react .base I w (.directive d o) =
      ⟨(a.spawn o d).2.effectOf d (a.spawn o d).1,(a.spawn o d).2,w⟩ := by
  have hroute : maybeDelegate d = none := by simp [maybeDelegate,hkind]
  simp only [react,h.1,h.2,not_true_eq_false,if_false]
  rw [dispatch_handled I a o w hroute]
  simp only [Handler.base,handle,hkind]

theorem effectOf_error {a : Agent W} (h : a.heard d) (b : Agent W)
    (message : String) : a.effectOf d (.ok (b.error d message)) =
      .answered (b.error d message) := by
  have hsends : a.sends (b.error d message) = .ok () :=
    sends_ok h.1 (failure_valid b.identity message h.2) rfl
  simp only [effectOf,hsends]

theorem effectOf_ok {a : Agent W} (h : a.heard d) (b : Agent W) :
    a.effectOf d (.ok (b.ok d)) = .answered (b.ok d) := by
  have hsends : a.sends (b.ok d) = .ok () := sends_ok h.1 (plain_valid h.2 (by simp) (by simp)) rfl
  simp only [effectOf,hsends]

theorem effectOf_rejected {a : Agent W} (h : a.heard d) (text : String) :
    a.effectOf d (.error (.rejected text)) =
      .answered (a.error d ("directive rejected: " ++ text)) := by
  have hsends := sends_error h.1 h.2 ("directive rejected: " ++ text)
  simp only [effectOf,excused,hsends]

theorem react_unheard {a : Agent W} (h : ¬a.heard d) (I : Integrity) (w : W)
    (o : Outside) : (a.react .base I w (.directive d o)).agent = a ∧
      ∀ response, (a.react .base I w (.directive d o)).effect = .answered response →
        response.kind = .error := by
  cases halive : a.alive with
  | false => exact ⟨by simp [react,halive],fun response => by simp [react,halive]⟩
  | true =>
    have hid : d.correlationId = "" := by
      by_contra hid
      exact h ⟨halive,hid⟩
    have hmalformed : a.react .base I w (.directive d o) =
        a.malformed w "directive is missing a correlation id" := by simp [react,halive,hid]
    rw [hmalformed]
    refine ⟨rfl,fun response hresponse => ?_⟩
    cases hresponse
    rfl

theorem counted_self {a : Agent W} : a.counted true = a ↔ a.envelopeGuard = none := by
  constructor
  · intro h
    have hguard := congrArg Agent.envelopeGuard h
    cases hnone : a.envelopeGuard with
    | none => rfl
    | some guard =>
      simp only [counted,hnone,Option.map_some,Option.some.injEq] at hguard
      have hsteps := congrArg EnvelopeGuard.steps hguard
      simp [EnvelopeGuard.recordStep] at hsteps
  · intro h
    cases a
    simp_all [counted]

end Agent

def FailsClean {W : Type} (I : Integrity) (a : Agent W) (w : W) (o : Outside) (d : Directive) :
    Prop :=
  ∀ response, (a.react .base I w (.directive d o)).effect = .answered response →
    response.kind = .error → (a.react .base I w (.directive d o)).agent = a

def Agent.wastes {W : Type} (a : Agent W) (o : Outside) (d : Directive) : Prop :=
  a.heard d ∧ a.envelopeGuard ≠ none ∧ a.accounted o d ∧ a.foiled o d = true

theorem failsClean_iff {W : Type} (I : Integrity) (a : Agent W) (w : W) (o : Outside)
    (hkind : d.kind = .spawn) : FailsClean I a w o d ↔ ¬a.wastes o d := by
  by_cases hheard : a.heard d
  · have hcases := Agent.spawn_spawns a o d
    unfold FailsClean
    rw [Agent.react_spawn hheard hkind]
    generalize a.spawn o d = r at hcases
    cases hcases with
    | refused message hearly =>
      exact ⟨fun _ h => hearly h.2.2.1,fun _ _ _ _ => rfl⟩
    | unhashable text hearly => exact ⟨fun _ h => hearly h.2.2.1,fun _ _ _ _ => rfl⟩
    | there child hearly =>
      exact ⟨fun _ h => hearly h.2.2.1,fun _ _ _ _ => rfl⟩
    | foiled outcome haccounted hfoiled houtcome =>
      have hcounted : (a.counted true).heard d := hheard
      have hanswer : ∃ response, (a.counted true).effectOf d outcome = .answered response ∧
          response.kind = .error := by
        rcases houtcome with ⟨message,rfl⟩ | ⟨text,rfl⟩
        · exact ⟨_,Agent.effectOf_error hcounted a message,rfl⟩
        · exact ⟨_,Agent.effectOf_rejected hcounted text,rfl⟩
      obtain ⟨response,heffect,herror⟩ := hanswer
      constructor
      · rintro hclean ⟨-,hguard,-⟩
        exact hguard (Agent.counted_self.1 (hclean response heffect herror))
      · intro hwastes response' _ _
        refine Agent.counted_self.2 ?_
        by_contra hguard
        exact hwastes ⟨hheard,hguard,haccounted,hfoiled⟩
    | raised text hfine =>
      exact ⟨fun _ h => absurd h.2.2.2 (by simp [hfine]),fun _ response heffect => by cases heffect⟩
    | provisioned child haccounted hidentity hfine =>
      refine ⟨fun _ h => absurd h.2.2.2 (by simp [hfine]),fun _ response heffect herror => ?_⟩
      have hok : (a.adopted child).effectOf d (.ok (a.ok d)) = .answered (a.ok d) :=
        Agent.effectOf_ok hheard a
      cases hok.symm.trans heffect
      cases herror
  · exact ⟨fun _ h => hheard h.1,fun _ _ _ _ => (Agent.react_unheard hheard I w o).1⟩

namespace Agent
variable {W : Type}

def KeepsChildren (a b : Agent W) : Prop :=
  b.alive = true → a.alive = true ∧ a.children ⊆ b.children

theorem KeepsChildren.of_same {a b : Agent W} (halive : b.alive = a.alive)
    (hchildren : b.children = a.children) : KeepsChildren a b :=
  fun h => ⟨halive ▸ h,hchildren ▸ fun _ => id⟩

theorem KeepsChildren.trans {a b c : Agent W} (h : KeepsChildren a b) (h' : KeepsChildren b c) :
    KeepsChildren a c :=
  fun halive => ⟨(h (h' halive).1).1,fun _ hx => (h' halive).2 ((h (h' halive).1).2 hx)⟩

theorem guarded_same (a : Agent W) (d : Directive) :
    (a.guarded d).alive = a.alive ∧ (a.guarded d).children = a.children := by
  unfold guarded
  split <;> exact ⟨rfl,rfl⟩

theorem runTask_children (a : Agent W) (late : Bool) (d : Directive) (w : W) :
    (a.runTask late d w).agent.children = a.children := by
  unfold runTask execute
  dsimp only
  repeat' split
  all_goals rfl

theorem spawn_keeps (a : Agent W) (o : Outside) (d : Directive) :
    KeepsChildren a (a.spawn o d).2 := by
  have hcases := spawn_spawns a o d
  generalize a.spawn o d = r at hcases
  cases hcases with
  | provisioned child =>
    exact fun halive => ⟨halive,List.subset_append_left _ _⟩
  | _ => exact .of_same rfl rfl

theorem handle_keeps (a : Agent W) (o : Outside) (d : Directive) (w : W) :
    KeepsChildren a (a.handle o d w).agent := by
  unfold handle
  cases d.kind with
  | configure =>
    have hkept := configure_provisions a o d
    obtain ⟨halive,hchildren⟩ := guarded_same a d
    exact .of_same (hkept.alive.trans halive) (hkept.children.trans hchildren)
  | run => exact .of_same (runTask_alive a o.late d w) (runTask_children a o.late d w)
  | spawn => exact spawn_keeps a o d
  | register =>
    unfold registerCapability
    dsimp only
    repeat' split
    all_goals exact .of_same rfl rfl
  | stateSet =>
    unfold stateSet
    dsimp only
    repeat' split
    all_goals exact .of_same rfl rfl
  | kill => exact fun halive => absurd halive Bool.false_ne_true
  | _ => exact .of_same rfl rfl

theorem drainChild_keeps (I : Integrity) (a : Agent W) (channel : String) (m : ChildMessage)
    (w : W) : KeepsChildren a (a.drainChild I channel m w).agent := by
  unfold drainChild
  split
  · exact .of_same rfl rfl
  · exact .of_same rfl rfl
  · split
    · exact .of_same rfl rfl
    · unfold relayVerified
      split
      · exact .of_same rfl rfl
      · dsimp only
        split
        · rename_i r hsend
          rw [send_ok hsend]
          exact .of_same rfl rfl
        · exact .of_same rfl rfl

theorem drainChild_alive (I : Integrity) (a : Agent W) (channel : String) (m : ChildMessage)
    (w : W) : (a.drainChild I channel m w).agent.alive = a.alive := by
  unfold drainChild
  split
  · rfl
  · rfl
  · split
    · rfl
    · unfold relayVerified
      split
      · rfl
      · dsimp only
        split
        · rename_i r hsend
          rw [send_ok hsend]
          rfl
        · rfl

theorem react_keeps (I : Integrity) (a : Agent W) (w : W) (e : Event) :
    KeepsChildren a (a.react .base I w e).agent := by
  cases e with
  | directive d o =>
    unfold react
    dsimp only
    split
    · exact .of_same rfl rfl
    · split
      · exact .of_same rfl rfl
      · cases hroute : maybeDelegate d with
        | none =>
          rw [dispatch_handled I a o w hroute]
          exact handle_keeps a o d w
        | some target =>
          by_cases hchild : target ∈ a.children
          · rw [dispatch_delegated I o w hroute hchild]
            exact .of_same rfl rfl
          · rw [dispatch_misrouted I o w hroute hchild]
            exact .of_same rfl rfl
  | malformed reason =>
    unfold react
    dsimp only
    split <;> exact .of_same rfl rfl
  | child channel m =>
    unfold react
    dsimp only
    split
    · exact .of_same rfl rfl
    · exact drainChild_keeps I a channel m w

theorem run_keeps (I : Integrity) (a : Agent W) (w : W) (es : List Event) :
    KeepsChildren a (Past.run .base I a w es).agent := by
  induction es using List.reverseRecOn with
  | nil => exact .of_same rfl rfl
  | append_singleton es e ih =>
    rw [Past.run_concat]
    exact ih.trans (react_keeps I _ _ e)

theorem spawn_succeeds {a : Agent W} (hkind : d.kind = .spawn) {I : Integrity}
    {w : W} {o : Outside} {response : Response}
    (heffect : (a.react .base I w (.directive d o)).effect = .answered response)
    (hok : response.kind = .ok) : a.heard d ∧ (field d.payload "endpoint").truthy = true ∧
      ∃ child, field d.payload "identity" = .str child ∧ child ≠ "" ∧
        child ∈ (a.react .base I w (.directive d o)).agent.children := by
  by_cases hheard : a.heard d
  · refine ⟨hheard,?_⟩
    have hcases := spawn_spawns a o d
    rw [react_spawn hheard hkind] at heffect ⊢
    generalize a.spawn o d = r at hcases heffect
    cases hcases with
    | refused message hearly =>
      cases (effectOf_error hheard a message).symm.trans heffect
      cases hok
    | unhashable text hearly => cases heffect
    | there child hearly hnamed hendpoint hidentity hchild =>
      exact ⟨hendpoint,child,hidentity,hnamed,hchild⟩
    | foiled outcome haccounted hfoiled houtcome =>
      have hcounted : (a.counted true).heard d := hheard
      rcases houtcome with ⟨message,rfl⟩ | ⟨text,rfl⟩
      · cases (effectOf_error hcounted a message).symm.trans heffect
        cases hok
      · cases (effectOf_rejected hcounted text).symm.trans heffect
        cases hok
    | raised text hfine => cases heffect
    | provisioned child haccounted hidentity hfine =>
      have hnamed : child ≠ "" := by simpa [hidentity,Json.truthy] using haccounted.1
      exact ⟨haccounted.2.1,child,hidentity,hnamed,by simp [adopted]⟩
  · have herror := (react_unheard hheard I w o).2 response heffect
    rw [hok] at herror
    cases herror

/-- While the envelope lets it through, the directive of a child that is there is answered, and
changes nothing. -/
theorem spawn_there {a : Agent W} {o : Outside} {child : String}
    (hidentity : field d.payload "identity" = .str child) (hchild : child ∈ a.children)
    (hname : child ≠ "") (hendpoint : (field d.payload "endpoint").truthy = true) :
    a.spawn o d = match a.violation o.late d with
      | some reason => (.ok (a.error d reason),a)
      | none => (.ok (a.ok d),a) := by
  have hthere : a.hasChild (.str child) = true := by simpa [hasChild] using hchild
  have htruthy : (Json.str child).truthy = true := by simpa [Json.truthy] using hname
  unfold spawn
  cases a.violation o.late d <;> simp [hidentity,htruthy,hendpoint,hthere]

end Agent

def Event.kills : Event → Bool
  | .directive d _ => d.kind = .kill && d.correlationId ≠ ""
  | _ => false

theorem Agent.react_alive {W : Type} (I : Integrity) (a : Agent W) (w : W) (e : Event) :
    (a.react .base I w e).agent.alive = (a.alive && !e.kills) := by
  cases halive : a.alive with
  | false =>
    have hkeeps := Agent.react_keeps I a w e
    cases hafter : (a.react .base I w e).agent.alive with
    | false => rfl
    | true => exact absurd (halive.symm.trans (hkeeps hafter).1) Bool.false_ne_true
  | true =>
    cases e with
    | directive d o =>
      by_cases hid : d.correlationId = ""
      · simp [Agent.react,Agent.malformed,Event.kills,halive,hid]
      · simp only [Agent.react,halive,hid,not_true_eq_false,if_false]
        cases hroute : Agent.maybeDelegate d with
        | some target =>
          have hrun : d.kind = .run := by
            by_contra hrun
            simp [Agent.maybeDelegate,hrun] at hroute
          by_cases hchild : target ∈ a.children
          · rw [Agent.dispatch_delegated I o w hroute hchild]
            simp [Event.kills,hrun,halive]
          · rw [Agent.dispatch_misrouted I o w hroute hchild]
            simp [Event.kills,hrun,halive]
        | none =>
          rw [Agent.dispatch_handled I a o w hroute]
          by_cases hkill : d.kind = .kill
          · simp [Handler.base,Agent.handle,Agent.kill,Event.kills,hkill,hid]
          · simp [Handler.base,Agent.handle_alive a o d w hkill,Event.kills,hkill,halive]
    | malformed reason => simp [Agent.react,Agent.malformed,Event.kills,halive]
    | child channel m =>
      simp only [Agent.react,Event.kills]
      split
      · simp [halive]
      · rw [Agent.drainChild_alive]
        simp [halive]

theorem Past.run_alive {W : Type} (I : Integrity) (a : Agent W) (w : W) (es : List Event) :
    (Past.run .base I a w es).agent.alive = true ↔ a.alive = true ∧ ∀ e ∈ es, e.kills = false := by
  induction es using List.reverseRecOn with
  | nil => simp [Past.run,Past.start]
  | append_singleton es e ih =>
    rw [Past.run_concat]
    simp only [Past.next,Agent.react_alive,Bool.and_eq_true,Bool.not_eq_true',ih,List.mem_append,
      List.mem_singleton,or_imp,forall_and,forall_eq,and_assoc]

/-- What succeeded once is answered and changes nothing when it comes again, after any events. -/
def RepeatsClean {W : Type} (I : Integrity) (a : Agent W) (w : W) (o : Outside) (d : Directive)
    (es : List Event) (o' : Outside) : Prop :=
  let first := a.react .base I w (.directive d o)
  let later := Past.run .base I first.agent first.world es
  ∀ response, first.effect = .answered response → response.kind = .ok →
    (later.agent.react .base I later.world (.directive d o')).agent = later.agent ∧
      ∃ response', (later.agent.react .base I later.world (.directive d o')).effect =
        .answered response' ∧ response'.kind = .ok

/-- Nothing killed the agent in between, and the envelope that is in force then has room for the
directive. -/
def Repeatable {W : Type} (I : Integrity) (a : Agent W) (w : W) (o : Outside) (d : Directive)
    (es : List Event) (o' : Outside) : Prop :=
  let first := a.react .base I w (.directive d o)
  let later := Past.run .base I first.agent first.world es
  ∀ response, first.effect = .answered response → response.kind = .ok →
    (∀ e ∈ es, e.kills = false) ∧ later.agent.violation o'.late d = none

theorem repeatsClean_iff {W : Type} (I : Integrity) (a : Agent W) (w : W) (o : Outside)
    (hkind : d.kind = .spawn) (es : List Event) (o' : Outside) :
    RepeatsClean I a w o d es o' ↔ Repeatable I a w o d es o' := by
  unfold RepeatsClean Repeatable
  dsimp only
  refine forall_congr' fun response => forall_congr' fun heffect => forall_congr' fun hok => ?_
  obtain ⟨hheard,hendpoint,child,hidentity,hnamed,hchild⟩ :=
    Agent.spawn_succeeds hkind heffect hok
  have hfirst : (a.react .base I w (.directive d o)).agent.alive = true := by
    rw [Agent.react_alive,hheard.1]
    simp [Event.kills,hkind]
  generalize hagent : (a.react .base I w (.directive d o)).agent = b at hchild hfirst
  generalize (a.react .base I w (.directive d o)).world = v
  have halive := Past.run_alive I b v es
  have hkeeps := Agent.run_keeps I b v es
  generalize Past.run .base I b v es = later at halive hkeeps
  constructor
  · rintro ⟨hsame,response',heffect',hok'⟩
    have hlater : later.agent.heard d := by
      by_contra hunheard
      cases ((Agent.react_unheard hunheard I later.world o').2 response' heffect').symm.trans hok'
    refine ⟨(halive.1 hlater.1).2,?_⟩
    rw [Agent.react_spawn hlater hkind,
      Agent.spawn_there hidentity ((hkeeps hlater.1).2 hchild) hnamed hendpoint] at heffect'
    cases hviolation : later.agent.violation o'.late d with
    | none => rfl
    | some reason =>
      rw [hviolation] at heffect'
      cases (Agent.effectOf_error hlater later.agent reason).symm.trans heffect'
      cases hok'
  · rintro ⟨hkills,hviolation⟩
    have hlives := halive.2 ⟨hfirst,hkills⟩
    have hlater : later.agent.heard d := ⟨hlives,hheard.2⟩
    rw [Agent.react_spawn hlater hkind,
      Agent.spawn_there hidentity ((hkeeps hlives).2 hchild) hnamed hendpoint,hviolation]
    exact ⟨rfl,_,Agent.effectOf_ok hlater later.agent,rfl⟩

/-- A failed spawn changes nothing and a repeated one is answered, where no guard accounts for a
spawn that comes to nothing, and the envelope still has room for the repeated one. -/
theorem spawn_idempotent_iff {W : Type} (I : Integrity) (a : Agent W) (w : W) (o : Outside)
    (correlationId : String) (payload : Dict String Json) (es : List Event) (o' : Outside) :
    let d : Directive := ⟨correlationId,.spawn,payload⟩
    FailsClean I a w o d ∧ RepeatsClean I a w o d es o' ↔
      ¬a.wastes o d ∧ Repeatable I a w o d es o' :=
  and_congr (failsClean_iff I a w o rfl) (repeatsClean_iff I a w o rfl es o')

/-- An agent with room for two steps is told to spawn a child of an undeclared kind. -/
theorem undeclared_counted : ¬ ∀ (I : Integrity) (a : Agent Unit) (w : Unit) (o : Outside)
    (correlationId : String) (payload : Dict String Json) (es : List Event) (o' : Outside),
    FailsClean I a w o ⟨correlationId,.spawn,payload⟩ ∧
      RepeatsClean I a w o ⟨correlationId,.spawn,payload⟩ es o' := by
  intro h
  let a : Agent Unit := { Agent.new "root" none [] with
    envelopeGuard := some (EnvelopeGuard.new (some ⟨.int 2,.null,.null,.null⟩)) }
  let o : Outside := ⟨false,.error (.escaped ""),.ok (),.ok none,none⟩
  let payload : Dict String Json := Dict.empty.update [("identity",.str "child"),
    ("endpoint",.str "inproc://child"),("kind",.str "shell")]
  have hclean := (failsClean_iff .off a () o rfl).1 (h .off a () o "spawn-1" payload [] o).1
  exact hclean ⟨⟨rfl,by decide⟩,Option.some_ne_none _,⟨by decide,by decide,rfl,rfl,rfl⟩,rfl⟩

end AgentCentric

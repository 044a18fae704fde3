import AgentCentric.Agent.Delegation

namespace AgentCentric
open Json

/-- No fraction of a directive is left by the bound. -/
def Json.isWhole : Json → Bool
  | .decimal d => d.value.den = 1
  | _ => true

/-- No number of directives exceeds the bound. -/
def Json.isUnbounded : Json → Bool
  | .null | .nan | .infinity => true
  | _ => false

namespace Agent

def forwards {W : Type} (a : Agent W) (d : Directive) : Bool :=
  match maybeDelegate d with
  | some target => target ∈ a.children
  | none => false

def spawns {W : Type} (a : Agent W) (o : Outside) (d : Directive) : Bool :=
  d.kind = .spawn ∧ a.children.length < (a.spawn o d).2.children.length

def runs {W : Type} (a : Agent W) (o : Outside) (d : Directive) (w : W) : Bool :=
  d.kind = .run ∧ maybeDelegate d = none ∧ (a.runTask o.late d w).called

end Agent

namespace Step

def received {W : Type} (s : Step W) : Option (Directive × Outside) :=
  match s.event with
  | .directive d o => if s.agent.alive ∧ d.correlationId ≠ "" then some (d,o) else none
  | _ => none

def grants {W : Type} (s : Step W) : Bool := s.received.any fun p =>
  p.1.kind = .configure ∧ (Agent.granted p.1).isSome

def forwards {W : Type} (s : Step W) : Bool := s.received.any fun p => s.agent.forwards p.1

def spawns {W : Type} (s : Step W) : Bool := s.received.any fun p => s.agent.spawns p.2 p.1

def acted {W : Type} (s : Step W) : Bool :=
  s.received.any fun p => s.agent.forwards p.1 || s.agent.spawns p.2 p.1 ||
    s.agent.runs p.2 p.1 s.world

def oversized {W : Type} (env : ResourceEnvelope) (s : Step W) : Bool :=
  s.received.any fun p => env.sizeCap.lessThan (EnvelopeGuard.payloadByteLength p.1.payload)

end Step

/-- What a granted envelope promises of the directives since. -/
structure WithinEnvelope {W : Type} (env : ResourceEnvelope) (steps : List (Step W)) : Prop where
  runs : env.stepLimit.lessThan (steps.countP Step.acted) = false
  children : env.childLimit.lessThan (steps.countP Step.spawns) = false
  sizes : ∀ s ∈ steps, s.acted = true → s.oversized env = false

namespace Agent
variable {W : Type}

/-- A directive that is not acted on may be counted all the same, one that is acted on was let
through and is counted. -/
inductive Accounts (a : Agent W) (late isSpawn : Bool) (d : Directive) (acted : Bool)
    (b : Agent W) : Prop where
  | same : acted = false → b.envelopeGuard = a.envelopeGuard → Accounts a late isSpawn d acted b
  | counted : a.violation late d = none →
      b.envelopeGuard = a.envelopeGuard.map (·.recordStep isSpawn) →
      Accounts a late isSpawn d acted b

theorem execute_guard (a : Agent W) (d : Directive) (taskName : String) (task : Callable W)
    (w : W) : (a.execute d taskName task w).agent.envelopeGuard = a.envelopeGuard := by
  unfold execute
  repeat' split
  all_goals rfl

theorem runTask_accounts (a : Agent W) (late : Bool) (d : Directive) (w : W) :
    a.Accounts late false d (a.runTask late d w).called (a.runTask late d w).agent := by
  unfold runTask
  cases a.results.get d.fingerprint with
  | some response => exact .same rfl rfl
  | none =>
    dsimp only
    split
    · exact .same rfl rfl
    · cases field d.payload "task" with
      | str taskName =>
        dsimp only
        cases hviolation : a.violation late d with
        | some reason => exact .same rfl rfl
        | none =>
          dsimp only
          cases a.resolve taskName with
          | none => exact .same rfl rfl
          | some task => exact .counted hviolation (execute_guard _ d taskName task w)
      | _ => exact .same rfl rfl

theorem bindChild_guard (a : Agent W) (o : Outside) (d : Directive) (identity : Json) :
    (a.bindChild o d identity).2.envelopeGuard = a.envelopeGuard := by
  unfold bindChild provision
  dsimp only
  repeat' split
  all_goals rfl

theorem spawn_accounts (a : Agent W) (o : Outside) (d : Directive) :
    a.Accounts o.late true d (decide (a.children.length < (a.spawn o d).2.children.length))
      (a.spawn o d).2 := by
  unfold spawn
  dsimp only
  split
  · exact .same (by simp) rfl
  · cases hviolation : a.violation o.late d with
    | some reason => exact .same (by simp) rfl
    | none =>
      dsimp only
      split
      · exact .same (by simp) rfl
      · exact .same (by simp) rfl
      · split
        · exact .same (by simp) rfl
        · exact .counted hviolation (bindChild_guard _ o d _)

theorem handle_guard (a : Agent W) (o : Outside) (d : Directive) (w : W) (hrun : d.kind ≠ .run)
    (hspawn : d.kind ≠ .spawn) (hgrant : d.kind = .configure → granted d = none) :
    (a.handle o d w).agent.envelopeGuard = a.envelopeGuard := by
  unfold handle
  cases hkind : d.kind with
  | configure =>
    have hguarded : a.guarded d = a := by simp [guarded,hgrant hkind]
    have hkept := (configure_provisions a o d).envelopeGuard
    rwa [hguarded] at hkept
  | run => exact absurd hkind hrun
  | spawn => exact absurd hkind hspawn
  | register =>
    unfold registerCapability
    dsimp only
    repeat' split
    all_goals rfl
  | stateSet =>
    unfold stateSet
    dsimp only
    repeat' split
    all_goals rfl
  | resolve | stateGet | audit | ping | kill => rfl

theorem dispatchInner_agent (I : Integrity) (a : Agent W) (o : Outside) (d : Directive) (w : W)
    (h : maybeDelegate d = none) :
    (∃ r, a.dispatchInner .base I o d w = .ok r ∧ r.agent = (a.handle o d w).agent) ∨
      ∃ e w', a.dispatchInner .base I o d w = .error (e,(a.handle o d w).agent,w') := by
  unfold dispatchInner
  rw [h]
  dsimp only [Handler.base]
  cases (a.handle o d w).outcome with
  | error e => exact .inr ⟨e,_,rfl⟩
  | ok response =>
    dsimp only
    cases hsend : (a.handle o d w).agent.send (a.handle o d w).world response .answered with
    | error e => exact .inr ⟨e,_,rfl⟩
    | ok r =>
      refine .inl ⟨r,rfl,?_⟩
      rw [send_ok hsend]

theorem dispatch_agent (I : Integrity) (a : Agent W) (o : Outside) (d : Directive) (w : W)
    (h : maybeDelegate d = none) : (a.dispatch .base I o d w).agent = (a.handle o d w).agent := by
  unfold dispatch
  rcases dispatchInner_agent I a o d w h with ⟨r,hr,hagent⟩ | ⟨e,w',he⟩
  · rw [hr]
    exact hagent
  · rw [he]
    cases e with
    | escaped text => rfl
    | rejected text =>
      dsimp only
      cases hsend : (a.handle o d w).agent.send w' ((a.handle o d w).agent.error d
          ("directive rejected: " ++ text)) .answered with
      | error e => rfl
      | ok r =>
        dsimp only
        rw [send_ok hsend]

theorem dispatch_routed (I : Integrity) (a : Agent W) (o : Outside) (d : Directive) (w : W)
    {target : String} (h : maybeDelegate d = some target) :
    (a.dispatch .base I o d w).agent.envelopeGuard = a.envelopeGuard := by
  have hinner : (∃ r, a.dispatchInner .base I o d w = .ok r ∧
        r.agent.envelopeGuard = a.envelopeGuard) ∨
      ∃ e, a.dispatchInner .base I o d w = .error (e,a,w) := by
    unfold dispatchInner
    rw [h]
    dsimp only
    split
    · exact .inl ⟨_,rfl,rfl⟩
    · cases hsend : a.send w (a.error d ("delegation target " ++ pyRepr target ++
          " is not a spawned child")) .answered with
      | error e => exact .inr ⟨e,rfl⟩
      | ok r =>
        refine .inl ⟨r,rfl,?_⟩
        rw [send_ok hsend]
  unfold dispatch
  rcases hinner with ⟨r,hr,hguard⟩ | ⟨e,he⟩
  · rw [hr]
    exact hguard
  · rw [he]
    cases e with
    | escaped text => rfl
    | rejected text =>
      dsimp only
      cases hsend : a.send w (a.error d ("directive rejected: " ++ text)) .answered with
      | error e => rfl
      | ok r =>
        dsimp only
        rw [send_ok hsend]

theorem drainChild_guard (I : Integrity) (a : Agent W) (channel : String) (m : ChildMessage)
    (w : W) : (a.drainChild I channel m w).agent.envelopeGuard = a.envelopeGuard := by
  unfold drainChild
  split
  · rfl
  · rfl
  · rename_i response _
    split
    · rfl
    · unfold relayVerified
      split
      · rfl
      · dsimp only
        split
        · rename_i r hsend
          rw [send_ok hsend]
          rfl
        · rfl

end Agent
variable {bound : Json}

theorem lessThan_unbounded (h : bound.isUnbounded = true) (n : Nat) : bound.lessThan n = false := by
  cases bound <;> simp_all [Json.isUnbounded,lessThan]

theorem lessThan_mono {m n : Nat} (hle : m ≤ n) (h : bound.lessThan n = false) :
    bound.lessThan m = false := by
  cases bound with
  | int i =>
    simp only [lessThan,decide_eq_false_iff_not] at h ⊢
    omega
  | decimal d =>
    simp only [lessThan,decide_eq_false_iff_not,not_lt] at h ⊢
    have hcast : (m : Rat) ≤ n := by exact_mod_cast hle
    exact hcast.trans h
  | bool b =>
    simp only [lessThan,decide_eq_false_iff_not] at h ⊢
    omega
  | _ => simp_all [lessThan]

theorem lessThan_succ {n : Nat} (hwhole : bound.isWhole = true)
    (h : bound.atMost n = false) : bound.lessThan (n + 1) = false := by
  cases bound with
  | int i =>
    simp only [atMost,lessThan,decide_eq_false_iff_not] at h ⊢
    omega
  | decimal d =>
    simp only [atMost,lessThan,decide_eq_false_iff_not,not_lt,not_le] at h ⊢
    have hden : d.value.den = 1 := by simpa [Json.isWhole] using hwhole
    have hvalue : ((d.value.num : Int) : Rat) = d.value := Rat.coe_int_num_of_den_eq_one hden
    rw [← hvalue] at h ⊢
    have hnum : (n : Int) < d.value.num := by exact_mod_cast h
    have hnext : ((n + 1 : Nat) : Int) ≤ d.value.num := by omega
    exact_mod_cast hnext
  | bool b =>
    simp only [atMost,lessThan,decide_eq_false_iff_not] at h ⊢
    omega
  | _ => simp_all [atMost,lessThan]

theorem checkBound_ok {name : String}
    (h : ResourceEnvelope.checkBound name bound = .ok ()) : bound.lessThan 0 = false := by
  unfold ResourceEnvelope.checkBound at h
  split at h
  · rfl
  · simp [lessThan]
  · obtain ⟨_,-,hbound⟩ := bind_ok.1 h
    simpa using require_ok.1 hbound

structure Agent.Granted {W : Type} (a : Agent W) (env : ResourceEnvelope) : Prop where
  guard : a.envelopeGuard = some (EnvelopeGuard.new (some env))
  valid : env.validate = .ok ()

variable {env : ResourceEnvelope}

/-- One event: the guard is as it was, and nothing is acted on here, or it has counted what it
let through. -/
inductive Tallies {W : Type} (s : Step W) (b : Agent W) : Prop where
  | same : b.envelopeGuard = s.agent.envelopeGuard → (s.acted = true → s.forwards = true) →
      s.spawns = false → Tallies s b
  | counted {d : Directive} {o : Outside} : s.received = some (d,o) →
      (d.kind = .run ∨ d.kind = .spawn) → s.agent.violation o.late d = none →
      b.envelopeGuard = s.agent.envelopeGuard.map (·.recordStep (d.kind = .spawn)) →
      (s.spawns = true → d.kind = .spawn) → Tallies s b

theorem react_tallies {W : Type} (I : Integrity) {a : Agent W} {w : W} {e : Event}
    {effect : Effect} (h : (⟨a,w,e,effect⟩ : Step W).grants = false) :
    Tallies ⟨a,w,e,effect⟩ (a.react .base I w e).agent := by
  cases e with
  | malformed reason =>
    refine .same ?_ (by simp [Step.acted,Step.received]) (by simp [Step.spawns,Step.received])
    unfold Agent.react
    dsimp only
    split <;> rfl
  | child channel m =>
    refine .same ?_ (by simp [Step.acted,Step.received]) (by simp [Step.spawns,Step.received])
    unfold Agent.react
    dsimp only
    split
    · rfl
    · exact Agent.drainChild_guard I a channel m w
  | directive d o =>
    by_cases hsees : a.alive = true ∧ d.correlationId ≠ ""
    · have hreact : a.react .base I w (.directive d o) = a.dispatch .base I o d w := by
        simp [Agent.react,hsees.1,hsees.2]
      have hreceived : (⟨a,w,.directive d o,effect⟩ : Step W).received = some (d,o) := by
        simp [Step.received,hsees]
      rw [hreact]
      cases hroute : Agent.maybeDelegate d with
      | some target =>
        have hkind : d.kind = .run := by
          by_contra hne
          simp [Agent.maybeDelegate,hne] at hroute
        refine .same (Agent.dispatch_routed I a o d w hroute) ?_ ?_
        · simp [Step.acted,Step.forwards,hreceived,Agent.spawns,Agent.runs,hkind,hroute]
        · simp [Step.spawns,hreceived,Agent.spawns,hkind]
      | none =>
        have hnot : a.forwards d = false := by simp [Agent.forwards,hroute]
        rw [Agent.dispatch_agent I a o d w hroute]
        by_cases hrun : d.kind = .run
        · have hhandle : (a.handle o d w).agent = (a.runTask o.late d w).agent := by
            simp [Agent.handle,hrun]
          have hspawns : (⟨a,w,.directive d o,effect⟩ : Step W).spawns = false := by
            simp [Step.spawns,hreceived,Agent.spawns,hrun]
          rw [hhandle]
          cases a.runTask_accounts o.late d w with
          | same hidle hguard =>
            refine .same hguard ?_ hspawns
            simp [Step.acted,hreceived,Agent.spawns,Agent.runs,hrun,hidle,hnot]
          | counted hthrough hguard =>
            exact .counted hreceived (.inl hrun) hthrough (by simpa [hrun] using hguard)
              (by simp [hspawns])
        · by_cases hspawn : d.kind = .spawn
          · have hhandle : (a.handle o d w).agent = (a.spawn o d).2 := by
              simp [Agent.handle,hspawn]
            rw [hhandle]
            cases a.spawn_accounts o d with
            | same hidle hguard =>
              have hspawns : a.spawns o d = false := by simpa [Agent.spawns,hspawn] using hidle
              refine .same hguard ?_ ?_
              · simp [Step.acted,hreceived,hspawns,Agent.runs,hspawn,hnot]
              · simp [Step.spawns,hreceived,hspawns]
            | counted hthrough hguard =>
              exact .counted hreceived (.inr hspawn) hthrough (by simpa [hspawn] using hguard)
                fun _ => hspawn
          · refine .same (Agent.handle_guard a o d w hrun hspawn ?_) ?_ ?_
            · intro hconfigure
              simpa [Step.grants,hreceived,hconfigure] using h
            · simp [Step.acted,hreceived,Agent.spawns,Agent.runs,hspawn,hrun,hnot]
            · simp [Step.spawns,hreceived,Agent.spawns,hspawn]
    · have hreceived : (⟨a,w,.directive d o,effect⟩ : Step W).received = none := by
        simp [Step.received,hsees]
      refine .same ?_ (by simp [Step.acted,hreceived]) (by simp [Step.spawns,hreceived])
      unfold Agent.react
      dsimp only
      split
      · rfl
      · rename_i halive
        have hid : d.correlationId = "" := by
          by_contra hne
          exact hsees ⟨by simpa using halive,hne⟩
        rw [if_pos hid]
        rfl

structure Covered {W : Type} (env : ResourceEnvelope) (p : Past W) : Prop where
  guard : ∃ n c, p.agent.envelopeGuard = some ⟨some env,n,c⟩ ∧
    p.steps.countP (fun s => s.acted && ¬ s.forwards) ≤ n ∧ env.stepLimit.lessThan n = false ∧
    p.steps.countP Step.spawns ≤ c ∧ env.childLimit.lessThan c = false
  sizes : ∀ s ∈ p.steps, s.acted = true → s.forwards = false → s.oversized env = false

theorem Covered.start {W : Type} {a : Agent W} (w : W)
    (h : a.Granted env) : Covered env (Past.start a w) := by
  have hvalid := h.valid
  obtain ⟨_,hsteps,hrest⟩ := bind_ok.1 hvalid
  obtain ⟨_,-,hrest⟩ := bind_ok.1 hrest
  obtain ⟨_,-,hchildren⟩ := bind_ok.1 hrest
  exact ⟨⟨0,0,h.guard,by simp [Past.start],checkBound_ok hsteps,by simp [Past.start],
    checkBound_ok hchildren⟩,by simp [Past.start]⟩

theorem checkDirective_none {n c : Nat} {late : Bool} {d : Directive}
    (h : (⟨some env,n,c⟩ : EnvelopeGuard).checkDirective late d.kind d.payload = none) :
    env.sizeCap.lessThan (EnvelopeGuard.payloadByteLength d.payload) = false ∧
      (d.kind = .run ∨ d.kind = .spawn → env.stepLimit.atMost n = false) ∧
      (d.kind = .spawn → env.childLimit.atMost c = false) := by
  unfold EnvelopeGuard.checkDirective at h
  dsimp only at h
  split at h
  · cases h
  split at h
  · cases h
  split at h
  · cases h
  split at h
  · cases h
  rename_i hsize hsteps hchildren
  refine ⟨by simpa using hsize,?_,?_⟩
  · intro hkind
    by_contra hfull
    exact hsteps ⟨hkind,by simpa using hfull⟩
  · intro hkind
    by_contra hfull
    exact hchildren ⟨hkind,by simpa using hfull⟩

theorem Covered.next {W : Type} {p : Past W} (I : Integrity)
    (h : Covered env p) (hsteps : env.stepLimit.isWhole = true)
    (hchildren : env.childLimit.isWhole = true) (e : Event)
    (hgrants : ∀ s ∈ (p.next .base I e).steps, s.grants = false) : Covered env (p.next .base I e) := by
  obtain ⟨⟨n,c,hguard,hacted,hstep,hspawned,hchild⟩,hsizes⟩ := h
  have hlast : (p.next .base I e).steps =
      p.steps ++ [⟨p.agent,p.world,e,(p.agent.react .base I p.world e).effect⟩] := rfl
  have hgrant := hgrants ⟨p.agent,p.world,e,(p.agent.react .base I p.world e).effect⟩
    (by simp [hlast])
  have hagent : (p.next .base I e).agent = (p.agent.react .base I p.world e).agent := rfl
  cases react_tallies I hgrant with
  | same hkept hhere hnone =>
    refine ⟨⟨n,c,?_,?_,hstep,?_,hchild⟩,?_⟩
    · rw [hagent,hkept]
      exact hguard
    · rw [hlast,List.countP_append]
      have hzero : List.countP (fun s : Step W => s.acted && ¬ s.forwards)
          [⟨p.agent,p.world,e,(p.agent.react .base I p.world e).effect⟩] = 0 := by
        simpa using hhere
      omega
    · rw [hlast,List.countP_append]
      simpa [hnone] using hspawned
    · intro s hs
      rw [hlast,List.mem_append,List.mem_singleton] at hs
      rcases hs with hold | rfl
      · exact hsizes s hold
      · intro hact hforward
        rw [hhere hact] at hforward
        cases hforward
  | @counted d o hreceived hkind hthrough hkept hspawns =>
    have hcheck : (⟨some env,n,c⟩ : EnvelopeGuard).checkDirective o.late d.kind d.payload = none := by
      simpa [Agent.violation,hguard] using hthrough
    obtain ⟨hsize,hroom,hplace⟩ := checkDirective_none hcheck
    refine ⟨⟨n + 1,if d.kind = .spawn then c + 1 else c,?_,?_,?_,?_,?_⟩,?_⟩
    · rw [hagent,hkept,hguard]
      by_cases hspawn : d.kind = .spawn <;> simp [EnvelopeGuard.recordStep,hspawn]
    · rw [hlast,List.countP_append]
      have hone : List.countP (fun s : Step W => s.acted && ¬ s.forwards)
          [⟨p.agent,p.world,e,(p.agent.react .base I p.world e).effect⟩] ≤ 1 :=
        List.countP_le_length
      omega
    · exact lessThan_succ hsteps (hroom hkind)
    · rw [hlast,List.countP_append]
      by_cases hspawn : d.kind = .spawn
      · have hone : List.countP Step.spawns
            [⟨p.agent,p.world,e,(p.agent.react .base I p.world e).effect⟩] ≤ 1 :=
          List.countP_le_length
        rw [if_pos hspawn]
        omega
      · have hnone : (⟨p.agent,p.world,e,(p.agent.react .base I p.world e).effect⟩ :
            Step W).spawns = false := by
          by_contra hsome
          exact hspawn (hspawns (by simpa using hsome))
        simpa [hnone,hspawn] using hspawned
    · by_cases hspawn : d.kind = .spawn
      · rw [if_pos hspawn]
        exact lessThan_succ hchildren (hplace hspawn)
      · rw [if_neg hspawn]
        exact hchild
    · intro s hs
      rw [hlast,List.mem_append,List.mem_singleton] at hs
      rcases hs with hold | rfl
      · exact hsizes s hold
      · intro _ _
        simpa [Step.oversized,hreceived] using hsize

theorem run_covered {W : Type} (I : Integrity) {a : Agent W} (w : W)
    (hgranted : a.Granted env) (hsteps : env.stepLimit.isWhole = true)
    (hchildren : env.childLimit.isWhole = true) (es : List Event)
    (hgrants : ∀ s ∈ (Past.run .base I a w es).steps, s.grants = false) :
    Covered env (Past.run .base I a w es) := by
  induction es using List.reverseRecOn with
  | nil => exact .start w hgranted
  | append_singleton es e ih =>
    rw [Past.run_concat] at hgrants ⊢
    refine (ih ?_).next I hsteps hchildren e hgrants
    intro s hs
    exact hgrants s (List.mem_append_left _ hs)

/-- Nothing is forwarded under a step limit, nor beyond the size cap. -/
def Contained {W : Type} (env : ResourceEnvelope) (steps : List (Step W)) : Prop :=
  ∀ s ∈ steps, s.forwards = true → env.stepLimit.isUnbounded = true ∧ s.oversized env = false

/-- From a grant to the next, the bounds of the envelope hold, where its limits are whole and
nothing is forwarded that they are about. -/
theorem within_envelope {W : Type} (I : Integrity) {a : Agent W} (w : W) {env : ResourceEnvelope}
    (hgranted : a.Granted env) (hsteps : env.stepLimit.isWhole = true)
    (hchildren : env.childLimit.isWhole = true) (es : List Event)
    (hgrants : ∀ s ∈ (Past.run .base I a w es).steps, s.grants = false)
    (hcontained : Contained env (Past.run .base I a w es).steps) :
    WithinEnvelope env (Past.run .base I a w es).steps := by
  obtain ⟨⟨n,c,-,hacted,hstep,hspawned,hchild⟩,hsizes⟩ :=
    run_covered I w hgranted hsteps hchildren es hgrants
  constructor
  · by_cases hunbounded : env.stepLimit.isUnbounded = true
    · exact lessThan_unbounded hunbounded _
    · have hhere : ∀ s ∈ (Past.run .base I a w es).steps, s.forwards = false := by
        intro s hs
        by_contra hforward
        exact hunbounded (hcontained s hs (by simpa using hforward)).1
      have hsame : (Past.run .base I a w es).steps.countP Step.acted =
          (Past.run .base I a w es).steps.countP (fun s => s.acted && ¬ s.forwards) := by
        apply List.countP_congr
        intro s hs
        simp [hhere s hs]
      rw [hsame]
      exact lessThan_mono hacted hstep
  · exact lessThan_mono hspawned hchild
  · intro s hs hact
    cases hforward : s.forwards with
    | true => exact (hcontained s hs hforward).2
    | false => exact hsizes s hs hact hforward

namespace Accounting

/-- One directive may be run. -/
def oneStep : ResourceEnvelope := ⟨.int 1,.null,.null,.null⟩

def quietly : Outside := ⟨false,.error (.escaped ""),.ok (),.ok none,none⟩

def bounded : Agent Unit :=
  (Past.run .base Integrity.off (Agent.new "root" none []) ()
    [.directive ⟨"spawn-1",.spawn,
        (Dict.empty.set "identity" (.str "worker")).set "endpoint" (.str "worker")⟩ quietly,
      .directive ⟨"configure-2",.configure,
        Dict.empty.set "_envelope" (.dict oneStep.toPayload)⟩ quietly]).agent

def delegatedRun (id : String) : Event :=
  .directive ⟨id,.run,(Dict.empty.set "task" (.str "t")).set "child" (.str "worker")⟩ quietly

theorem bounded_granted : bounded.Granted oneStep := ⟨rfl,rfl⟩

theorem within_envelope_run :
    WithinEnvelope oneStep (Past.run .base Integrity.off bounded ()
      [.directive ⟨"run-3",.run,Dict.empty.set "task" (.str "t")⟩ quietly]).steps := by
  apply within_envelope Integrity.off () bounded_granted rfl rfl
  · decide +kernel
  · unfold Contained
    decide +kernel

/-- Two runs are forwarded to the child, though one directive is the limit. -/
theorem delegated_runs_exceed :
    bounded.Granted oneStep ∧
    (∀ s ∈ (Past.run .base Integrity.off bounded ()
      [delegatedRun "run-3",delegatedRun "run-4"]).steps, s.grants = false) ∧
    ¬ WithinEnvelope oneStep (Past.run .base Integrity.off bounded ()
      [delegatedRun "run-3",delegatedRun "run-4"]).steps := by
  refine ⟨⟨rfl,rfl⟩,by decide +kernel,?_⟩
  intro h
  exact absurd h.runs (by decide +kernel)

end Accounting
end AgentCentric

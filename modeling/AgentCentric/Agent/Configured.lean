import AgentCentric.Agent.Dispatch
import AgentCentric.Library.Act

namespace AgentCentric
open Json

structure OpenedTrajectory where
  path : String
  deriving DecidableEq

/-- An agent, and what else a configure directive sets. The guard of the envelope and the two stores
are objects, each with a number of its own. -/
structure Configured (W : Type) where
  agent : Agent W
  rules : List Json
  guardObject : Nat
  statePath : Option String
  stateObject : Nat
  trajectoryPath : Option String
  trajectoryStore : Option OpenedTrajectory
  trajectoryObject : Nat
  /-- A catalog keeps every entry under its name. -/
  named : ∀ catalog, agent.catalog = some catalog →
    ∀ name entry, catalog.get name = some entry → entry.name = name

/-- What the outside answers, with numbers for the objects that are made. A new object is none of
those in use. -/
structure Supply {W : Type} (s : Configured W) extends Outside where
  guardObject : Nat
  guardFresh : guardObject ≠ s.guardObject
  stateObject : Nat
  stateFresh : stateObject ≠ s.stateObject
  trajectoryObject : Nat
  trajectoryFresh : trajectoryObject ≠ s.trajectoryObject

namespace Configured
variable {W : Type}

def change (s : Configured W) (b : Agent W) (h : b.catalog = s.agent.catalog) : Configured W :=
  { s with
    agent := b
    named := fun catalog hcatalog => s.named catalog (h ▸ hcatalog) }

def setRules (d : Directive) : Act Raised (Configured W) Unit := fun s =>
  match ((d.payload.get "rules").getD (.list [])).elements with
  | .error e => (.error e,s)
  | .ok rules => (.ok (),{ s with rules := rules })

def setGuard (number : Nat) (d : Directive) : Act Raised (Configured W) Unit := fun s =>
  match field d.payload "_envelope" with
  | .dict items =>
    match ResourceEnvelope.fromPayload items with
    | .error e => (.error e,s)
    | .ok env => (.ok (),{ s.change { s.agent with
        envelopeGuard := some (EnvelopeGuard.new env) } rfl with guardObject := number })
  | _ => (.ok (),s)

def setVerifier (d : Directive) : Act Raised (Configured W) Unit := fun s =>
  if (field d.payload "_clear_verifier").truthy then
    (.ok (),s.change { s.agent with verifier := none } rfl)
  else match field d.payload "verifier" with
    | .str name => (.ok (),s.change { s.agent with verifier := some name } rfl)
    | _ => (.ok (),s)

def registerNames : List Json → Act Raised (Configured W) Unit
  | [] => pure ()
  | name :: rest => fun s =>
    match s.agent.catalogEntry name with
    | .error e => (.error e,s)
    | .ok entry => registerNames rest (s.change (s.agent.register entry) rfl)

def registerField (d : Directive) (name : String) : Act Raised (Configured W) Unit := fun s =>
  match ((d.payload.get name).getD (.list [])).elements with
  | .error e => (.error e,s)
  | .ok names => registerNames names s

def setState (opened : Except Raised StateStore) (number : Nat) (d : Directive) :
    Act Raised (Configured W) Unit := fun s =>
  match field d.payload "state" with
  | .str path =>
    if path = "" then (.ok (),s)
    else
      let s := { s with statePath := some path }
      match opened with
      | .error e => (.error e,s)
      | .ok store => (.ok (),{ s.change { s.agent with stateStore := some store } rfl with
          stateObject := number })
  | _ => (.ok (),s)

def setTrajectory (opened : Except Raised Unit) (number : Nat) (d : Directive) :
    Act Raised (Configured W) Unit := fun s =>
  match field d.payload "trajectory" with
  | .str path =>
    if path = "" then (.ok (),s)
    else
      let s := { s with trajectoryPath := some path }
      match opened with
      | .error e => (.error e,s)
      | .ok _ => (.ok (),{ s with
          trajectoryStore := some ⟨path⟩
          trajectoryObject := number })
  | _ => (.ok (),s)

/-- `_configure`, with all that it sets. -/
def configure {s : Configured W} (o : Supply s) (d : Directive) :
    Act Raised (Configured W) Response := do
  setRules d
  setGuard o.guardObject d
  setVerifier d
  registerField d "tasks"
  registerField d "verifiers"
  setState o.state o.stateObject d
  setTrajectory o.trajectory o.trajectoryObject d
  let s ← Act.read
  pure (s.agent.ok d)

end Configured

/-- One change to what an agent holds. -/
inductive Setting (W : Type) where
  | rules (rules : List Json)
  | guard (number : Nat) (env : Option ResourceEnvelope)
  | verifier (name : Option String)
  | callable (entry : RegistryEntry W)
  | statePath (path : String)
  | stateStore (number : Nat) (store : StateStore)
  | trajectoryPath (path : String)
  | trajectoryStore (number : Nat) (path : String)

/-- What a setting is kept in. -/
inductive Slot where
  | rules
  | guard
  | verifier
  | callable (name : String)
  | statePath
  | stateStore
  | trajectoryPath
  | trajectoryStore

namespace Setting
variable {W : Type}

def slot : Setting W → Slot
  | .rules _ => .rules
  | .guard _ _ => .guard
  | .verifier _ => .verifier
  | .callable entry => .callable entry.name
  | .statePath _ => .statePath
  | .stateStore _ _ => .stateStore
  | .trajectoryPath _ => .trajectoryPath
  | .trajectoryStore _ _ => .trajectoryStore

end Setting

namespace Configured
variable {W : Type}

def make (s : Configured W) : Setting W → Configured W
  | .rules rules => { s with rules := rules }
  | .guard number env => { s.change { s.agent with
      envelopeGuard := some (EnvelopeGuard.new env) } rfl with guardObject := number }
  | .verifier name => s.change { s.agent with verifier := name } rfl
  | .callable entry => s.change (s.agent.register entry) rfl
  | .statePath path => { s with statePath := some path }
  | .stateStore number store =>
    { s.change { s.agent with stateStore := some store } rfl with stateObject := number }
  | .trajectoryPath path => { s with trajectoryPath := some path }
  | .trajectoryStore number path =>
    { s with
      trajectoryStore := some ⟨path⟩
      trajectoryObject := number }

def Has (s : Configured W) : Setting W → Prop
  | .rules rules => s.rules = rules
  | .guard number env =>
    s.guardObject = number ∧ s.agent.envelopeGuard = some (EnvelopeGuard.new env)
  | .verifier name => s.agent.verifier = name
  | .callable entry => s.agent.registry.get entry.name = some entry
  | .statePath path => s.statePath = some path
  | .stateStore number store => s.stateObject = number ∧ s.agent.stateStore = some store
  | .trajectoryPath path => s.trajectoryPath = some path
  | .trajectoryStore number path =>
    s.trajectoryObject = number ∧ s.trajectoryStore = some ⟨path⟩

theorem overwrites : Act.Overwrites (make (W := W)) Has Setting.slot where
  made s g := by
    cases g <;> simp [make,Has,change,Agent.register]
  other s g h hslot := by
    cases g <;> cases h <;>
      first
      | exact Iff.rfl
      | exact absurd rfl hslot
      | skip
    rename_i entry other
    have hname : entry.name ≠ other.name := fun heq => hslot (by simp only [Setting.slot,heq])
    simp only [make,Has,change,Agent.register,Dict.get_set_ne _ _ hname]
  idle s g h := by
    obtain ⟨agent,_,_,_,_,_,_,_,_⟩ := s
    cases g with
    | callable entry =>
      have hset := Dict.set_of_get h
      simp only [make,change,Agent.register]
      simp only [hset]
    | _ =>
      simp only [Has] at h
      first
      | (subst h; rfl)
      | (obtain ⟨hnumber,hstore⟩ := h; subst hnumber; simp only [make,change,← hstore])

def rulesTried (d : Directive) : List (Except Raised (Setting W)) :=
  [((d.payload.get "rules").getD (.list [])).elements.map .rules]

def guardTried (number : Nat) (d : Directive) : List (Except Raised (Setting W)) :=
  match field d.payload "_envelope" with
  | .dict items => [(ResourceEnvelope.fromPayload items).map (.guard number)]
  | _ => []

def verifierTried (d : Directive) : List (Except Raised (Setting W)) :=
  if (field d.payload "_clear_verifier").truthy then [.ok (.verifier none)]
  else match field d.payload "verifier" with
    | .str name => [.ok (.verifier (some name))]
    | _ => []

def namesTried (a : Agent W) (d : Directive) (name : String) :
    List (Except Raised (Setting W)) :=
  match ((d.payload.get name).getD (.list [])).elements with
  | .error e => [.error e]
  | .ok names => names.map fun name => (a.catalogEntry name).map .callable

def stateTried (opened : Except Raised StateStore) (number : Nat) (d : Directive) :
    List (Except Raised (Setting W)) :=
  match field d.payload "state" with
  | .str path =>
    if path = "" then [] else [.ok (.statePath path),opened.map (.stateStore number)]
  | _ => []

def trajectoryTried (opened : Except Raised Unit) (number : Nat) (d : Directive) :
    List (Except Raised (Setting W)) :=
  match field d.payload "trajectory" with
  | .str path =>
    if path = "" then []
    else [.ok (.trajectoryPath path),opened.map fun _ => .trajectoryStore number path]
  | _ => []

def tried {s : Configured W} (o : Supply s) (d : Directive) :
    List (Except Raised (Setting W)) :=
  rulesTried d ++ (guardTried o.guardObject d ++ (verifierTried d ++
    (namesTried s.agent d "tasks" ++ (namesTried s.agent d "verifiers" ++
      (stateTried o.state o.stateObject d ++
        trajectoryTried o.trajectory o.trajectoryObject d)))))

theorem registerNames_agent (names : List Json) (s : Configured W) :
    (registerNames names s).1 = (s.agent.grantNames names).1 ∧
      (registerNames names s).2.agent = (s.agent.grantNames names).2 := by
  induction names generalizing s with
  | nil => exact ⟨rfl,rfl⟩
  | cons name rest ih =>
    unfold registerNames Agent.grantNames
    cases s.agent.catalogEntry name with
    | error e => exact ⟨rfl,rfl⟩
    | ok entry => exact ih _

theorem registerField_agent (s : Configured W) (d : Directive) (name : String) :
    (registerField d name s).1 = (s.agent.grantField d name).1 ∧
      (registerField d name s).2.agent = (s.agent.grantField d name).2 := by
  unfold registerField Agent.grantField
  cases ((d.payload.get name).getD (.list [])).elements with
  | error e => exact ⟨rfl,rfl⟩
  | ok names => exact registerNames_agent names s

theorem setRules_agent (s : Configured W) (d : Directive) :
    (setRules d s).1 = ((d.payload.get "rules").getD (.list [])).elements.map (fun _ => ()) ∧
      (setRules d s).2.agent = s.agent := by
  unfold setRules
  cases ((d.payload.get "rules").getD (.list [])).elements <;> exact ⟨rfl,rfl⟩

theorem setGuard_agent (s : Configured W) (number : Nat) (d : Directive) :
    (setGuard number d s).1 = (s.agent.grantEnvelope d).map (fun _ => ()) ∧
      (setGuard number d s).2.agent = (s.agent.grantEnvelope d).toOption.getD s.agent := by
  unfold setGuard Agent.grantEnvelope
  cases field d.payload "_envelope" with
  | dict items =>
    dsimp only
    cases ResourceEnvelope.fromPayload items <;> exact ⟨rfl,rfl⟩
  | _ => exact ⟨rfl,rfl⟩

theorem setVerifier_agent (s : Configured W) (d : Directive) :
    (setVerifier d s).1 = .ok () ∧ (setVerifier d s).2.agent = s.agent.grantVerifier d := by
  unfold setVerifier Agent.grantVerifier
  split
  · exact ⟨rfl,rfl⟩
  · cases field d.payload "verifier" <;> exact ⟨rfl,rfl⟩

theorem setState_agent (s : Configured W) (o : Outside) (number : Nat) (d : Directive) :
    (setState o.state number d s).1 = (s.agent.grantState o d).map (fun _ => ()) ∧
      (setState o.state number d s).2.agent = (s.agent.grantState o d).toOption.getD s.agent := by
  unfold setState Agent.grantState Agent.grantsPath
  cases field d.payload "state" with
  | str path =>
    by_cases hpath : path = ""
    · simp [hpath,Except.map,Except.toOption]
    · simp only [hpath,ne_eq,not_false_eq_true,decide_true,if_true,if_false]
      cases o.state <;> exact ⟨rfl,rfl⟩
  | _ => exact ⟨rfl,rfl⟩

theorem setTrajectory_agent (s : Configured W) (o : Outside) (number : Nat) (d : Directive) :
    (setTrajectory o.trajectory number d s).1 = Agent.grantTrajectory o d ∧
      (setTrajectory o.trajectory number d s).2.agent = s.agent := by
  unfold setTrajectory Agent.grantTrajectory Agent.grantsPath
  cases field d.payload "trajectory" with
  | str path =>
    by_cases hpath : path = ""
    · simp [hpath]
    · simp only [hpath,ne_eq,not_false_eq_true,decide_true,if_true,if_false]
      cases o.trajectory <;> exact ⟨rfl,rfl⟩
  | _ => exact ⟨rfl,rfl⟩

theorem bind_agent {m : Act Raised (Configured W) Unit} {rest : Act Raised (Configured W) Response}
    {s : Configured W} {result : Except Raised Unit} {b : Agent W}
    {found : Except Raised Response × Agent W} (hm : (m s).1 = result ∧ (m s).2.agent = b)
    (hok : result = .ok () → ∀ t : Configured W, t.agent = b →
      (rest t).1 = found.1 ∧ (rest t).2.agent = found.2)
    (herror : ∀ e, result = .error e → found = (.error e,b)) :
    ((m >>= fun _ => rest) s).1 = found.1 ∧ ((m >>= fun _ => rest) s).2.agent = found.2 := by
  obtain ⟨hresult,hagent⟩ := hm
  rw [Act.bind_apply]
  generalize m s = p at hresult hagent
  obtain ⟨r,t⟩ := p
  simp only at hresult hagent
  subst hresult
  cases r with
  | ok u => exact hok rfl t hagent
  | error e =>
    rw [herror e rfl]
    exact ⟨rfl,hagent⟩

theorem configure_agent (s : Configured W) (o : Supply s) (d : Directive) :
    (configure o d s).1 = (s.agent.configure o.toOutside d).1 ∧
      (configure o d s).2.agent = (s.agent.configure o.toOutside d).2 := by
  unfold configure Agent.configure
  refine bind_agent (setRules_agent s d) ?_ ?_
  · intro hrules t ht
    cases helements : ((d.payload.get "rules").getD (.list [])).elements with
    | error e => simp [helements,Except.map] at hrules
    | ok rules =>
      refine bind_agent (setGuard_agent t o.guardObject d) ?_ ?_
      · rw [ht]
        intro hguard u hu
        cases henv : s.agent.grantEnvelope d with
        | error e => simp [henv,Except.map] at hguard
        | ok b =>
          rw [henv] at hu
          simp only [Except.toOption,Option.getD_some] at hu
          refine bind_agent (setVerifier_agent u d) ?_ (by simp)
          rw [hu]
          intro _ v hv
          dsimp only
          have htasks := registerField_agent v d "tasks"
          rw [hv] at htasks
          cases hgrant : (b.grantVerifier d).grantField d "tasks" with
          | mk r c =>
            rw [hgrant] at htasks
            cases r with
            | error r => exact bind_agent htasks (by simp) fun e he => by cases he; rfl
            | ok _ =>
              refine bind_agent htasks ?_ (by simp)
              intro _ x hx
              have hverifiers := registerField_agent x d "verifiers"
              rw [hx] at hverifiers
              dsimp only
              cases hgrant' : c.grantField d "verifiers" with
              | mk r e =>
                rw [hgrant'] at hverifiers
                cases r with
                | error r => exact bind_agent hverifiers (by simp) fun e he => by cases he; rfl
                | ok _ =>
                  refine bind_agent hverifiers ?_ (by simp)
                  intro _ y hy
                  have hstate := setState_agent y o.toOutside o.stateObject d
                  rw [hy] at hstate
                  dsimp only
                  cases hopened : e.grantState o.toOutside d with
                  | error r =>
                    rw [hopened] at hstate
                    exact bind_agent hstate (by simp [Except.map]) fun e he => by cases he; rfl
                  | ok f =>
                    rw [hopened] at hstate
                    refine bind_agent hstate ?_ (by simp [Except.map])
                    intro _ z hz
                    have hlast := setTrajectory_agent z o.toOutside o.trajectoryObject d
                    simp only [Except.toOption,Option.getD_some] at hz
                    rw [hz] at hlast
                    dsimp only
                    cases htrajectory : Agent.grantTrajectory o.toOutside d with
                    | error r =>
                      rw [htrajectory] at hlast
                      exact bind_agent hlast (by simp) fun e he => by cases he; rfl
                    | ok _ =>
                      rw [htrajectory] at hlast
                      refine bind_agent hlast ?_ (by simp)
                      intro _ last hagent
                      exact ⟨by rw [← hagent]; rfl,hagent⟩
      · rw [ht]
        intro e hguard
        cases henv : s.agent.grantEnvelope d with
        | error e' => simp_all [Except.map,Except.toOption]
        | ok b => simp [henv,Except.map] at hguard
  · intro e hrules
    cases helements : ((d.payload.get "rules").getD (.list [])).elements with
    | error e' => simp_all [Except.map]
    | ok rules => simp [helements,Except.map] at hrules

theorem setRules_eq (d : Directive) : setRules d = Act.inTurn make (rulesTried (W := W) d) := by
  funext s
  unfold setRules rulesTried
  cases ((d.payload.get "rules").getD (.list [])).elements <;> rfl

theorem setGuard_eq (number : Nat) (d : Directive) :
    setGuard number d = Act.inTurn make (guardTried (W := W) number d) := by
  funext s
  unfold setGuard guardTried
  cases field d.payload "_envelope" with
  | dict items =>
    dsimp only
    cases ResourceEnvelope.fromPayload items <;> rfl
  | _ => rfl

theorem setVerifier_eq (d : Directive) :
    setVerifier d = Act.inTurn make (verifierTried (W := W) d) := by
  funext s
  unfold setVerifier verifierTried
  split
  · rfl
  · cases field d.payload "verifier" <;> rfl

theorem setState_eq (opened : Except Raised StateStore) (number : Nat) (d : Directive) :
    setState opened number d = Act.inTurn make (stateTried (W := W) opened number d) := by
  funext s
  unfold setState stateTried
  cases field d.payload "state" with
  | str path =>
    dsimp only
    split
    · rfl
    · cases opened <;> rfl
  | _ => rfl

theorem setTrajectory_eq (opened : Except Raised Unit) (number : Nat) (d : Directive) :
    setTrajectory opened number d = Act.inTurn make (trajectoryTried (W := W) opened number d) := by
  funext s
  unfold setTrajectory trajectoryTried
  cases field d.payload "trajectory" with
  | str path =>
    dsimp only
    split
    · rfl
    · cases opened <;> rfl
  | _ => rfl

theorem make_catalog (s : Configured W) (g : Setting W) :
    (s.make g).agent.catalog = s.agent.catalog := by cases g <;> rfl

theorem make_identity (s : Configured W) (g : Setting W) :
    (s.make g).agent.identity = s.agent.identity := by cases g <;> rfl

theorem foldl_make (changes : List (Setting W)) (s : Configured W) :
    (changes.foldl make s).agent.catalog = s.agent.catalog ∧
      (changes.foldl make s).agent.identity = s.agent.identity := by
  induction changes generalizing s with
  | nil => exact ⟨rfl,rfl⟩
  | cons g changes ih =>
    obtain ⟨hcatalog,hidentity⟩ := ih (s.make g)
    exact ⟨hcatalog.trans (make_catalog s g),hidentity.trans (make_identity s g)⟩

theorem catalogEntry_congr {a b : Agent W} (h : a.catalog = b.catalog) (name : Json) :
    a.catalogEntry name = b.catalogEntry name := by
  simp only [Agent.catalogEntry,h]

theorem namesTried_congr {a b : Agent W} (h : a.catalog = b.catalog) (d : Directive)
    (name : String) : namesTried a d name = namesTried b d name := by
  simp only [namesTried,catalogEntry_congr h]

theorem registerNames_eq (names : List Json) (s : Configured W) : registerNames names s =
      Act.inTurn make (names.map fun name => (s.agent.catalogEntry name).map .callable) s := by
  induction names generalizing s with
  | nil => rfl
  | cons name rest ih =>
    rw [registerNames,List.map_cons]
    dsimp only
    cases s.agent.catalogEntry name with
    | error e => rfl
    | ok entry =>
      have hcatalog : (s.change (s.agent.register entry) rfl).agent.catalog = s.agent.catalog :=
        rfl
      dsimp only
      rw [ih]
      simp only [catalogEntry_congr hcatalog]
      rfl

theorem registerField_eq (d : Directive) (name : String) {a : Agent W} {s : Configured W}
    (h : s.agent.catalog = a.catalog) :
    registerField d name s = Act.inTurn make (namesTried a d name) s := by
  rw [← namesTried_congr h,registerField,namesTried]
  cases ((d.payload.get name).getD (.list [])).elements with
  | error e => rfl
  | ok names => exact registerNames_eq names s

theorem inTurn_bind {s : Configured W} {m : Act Raised (Configured W) Unit}
    {first rest : List (Except Raised (Setting W))} {next : Act Raised (Configured W) Response}
    {response : Response} (hm : m s = Act.inTurn make first s)
    (hnext : ∀ t : Configured W, t.agent.catalog = s.agent.catalog →
      t.agent.identity = s.agent.identity →
        next t = (Act.inTurn make rest >>= fun _ => pure response) t) :
    (m >>= fun _ => next) s =
      (Act.inTurn make (first ++ rest) >>= fun _ => pure response) s := by
  rw [Act.bind_apply,hm,Act.inTurn_append,Act.bind_apply,Act.bind_apply,Act.inTurn_apply]
  obtain ⟨hcatalog,hidentity⟩ := foldl_make (Act.carried first) s
  cases Act.firstError first with
  | none => exact hnext _ hcatalog hidentity
  | some e => rfl

theorem configure_eq (s : Configured W) (o : Supply s) (d : Directive) : configure o d s =
      (Act.inTurn make (tried o d) >>= fun _ => pure (s.agent.ok d)) s := by
  unfold configure tried
  refine inTurn_bind (by rw [setRules_eq]) fun s₁ hcatalog₁ hidentity₁ => ?_
  refine inTurn_bind (by rw [setGuard_eq]) fun s₂ hcatalog₂ hidentity₂ => ?_
  refine inTurn_bind (by rw [setVerifier_eq]) fun s₃ hcatalog₃ hidentity₃ => ?_
  have hcatalog := hcatalog₃.trans (hcatalog₂.trans hcatalog₁)
  have hidentity := hidentity₃.trans (hidentity₂.trans hidentity₁)
  refine inTurn_bind (registerField_eq d "tasks" hcatalog) fun s₄ hcatalog₄ hidentity₄ => ?_
  refine inTurn_bind (registerField_eq d "verifiers" (hcatalog₄.trans hcatalog))
    fun s₅ hcatalog₅ hidentity₅ => ?_
  refine inTurn_bind (by rw [setState_eq]) fun s₆ hcatalog₆ hidentity₆ => ?_
  have hsame := hidentity₆.trans (hidentity₅.trans (hidentity₄.trans hidentity))
  rw [setTrajectory_eq,Act.bind_apply,Act.bind_apply,Act.inTurn_apply]
  obtain ⟨hcatalog₇,hidentity₇⟩ :=
    foldl_make (Act.carried (trajectoryTried o.trajectory o.trajectoryObject d)) s₆
  cases Act.firstError (trajectoryTried (W := W) o.trajectory o.trajectoryObject d) with
  | none =>
    have hok : ∀ t : Configured W, t.agent.identity = s.agent.identity →
        t.agent.ok d = s.agent.ok d := fun t ht => by rw [Agent.ok,Agent.ok,ht]
    exact congrArg (fun r => (Except.ok r,_)) (hok _ (hidentity₇.trans hsame))
  | some e => rfl

theorem configure_made (s : Configured W) (o : Supply s) (d : Directive) :
    configure o d s = ((Act.firstError (tried o d)).elim (.ok (s.agent.ok d)) .error,
      (Act.carried (tried o d)).foldl make s) := by
  rw [configure_eq,Act.bind_apply,Act.inTurn_apply]
  cases Act.firstError (tried o d) <;> rfl

def Asked {s : Configured W} (o : Supply s) (d : Directive) : Setting W → Prop
  | .rules rules => ((d.payload.get "rules").getD (.list [])).elements = .ok rules
  | .guard number env => number = o.guardObject ∧
      ∃ items, field d.payload "_envelope" = .dict items ∧
        ResourceEnvelope.fromPayload items = .ok env
  | .verifier name => .ok (.verifier name) ∈ verifierTried (W := W) d
  | .callable entry => ∃ catalog, s.agent.catalog = some catalog ∧
      catalog.get entry.name = some entry
  | .statePath path => field d.payload "state" = .str path
  | .stateStore number store => number = o.stateObject ∧ o.state = .ok store
  | .trajectoryPath path => field d.payload "trajectory" = .str path
  | .trajectoryStore number path =>
    number = o.trajectoryObject ∧ field d.payload "trajectory" = .str path

theorem granted_named (s : Configured W) {name : Json} {entry : RegistryEntry W}
    (h : s.agent.catalogEntry name = .ok entry) : ∃ catalog, s.agent.catalog = some catalog ∧
      catalog.get entry.name = some entry := by
  unfold Agent.catalogEntry at h
  cases hcatalog : s.agent.catalog with
  | none => simp [hcatalog] at h
  | some catalog =>
    simp only [hcatalog] at h
    cases name with
    | str key =>
      cases hget : catalog.get key with
      | none => simp [hget,expect] at h
      | some found =>
        simp only [hget,expect,Except.ok.injEq] at h
        subst h
        rw [s.named catalog hcatalog key found hget]
        exact ⟨catalog,rfl,hget⟩
    | _ => cases h

theorem asked_of_mem {s : Configured W} {o : Supply s} {d : Directive} {g : Setting W}
    (h : .ok g ∈ tried o d) : Asked o d g := by
  have hnames : ∀ name, .ok g ∈ namesTried s.agent d name → Asked o d g := by
    intro name hmem
    unfold namesTried at hmem
    cases helements : ((d.payload.get name).getD (.list [])).elements with
    | error e => simp [helements] at hmem
    | ok names =>
      simp only [helements,List.mem_map] at hmem
      obtain ⟨key,-,hentry⟩ := hmem
      cases hcatalog : s.agent.catalogEntry key with
      | error e => simp [hcatalog,Except.map] at hentry
      | ok entry =>
        simp only [hcatalog,Except.map,Except.ok.injEq] at hentry
        subst hentry
        exact s.granted_named hcatalog
  simp only [tried,List.mem_append] at h
  obtain h | h | h | h | h | h | h := h
  · simp only [rulesTried,List.mem_singleton] at h
    cases helements : ((d.payload.get "rules").getD (.list [])).elements with
    | error e => simp [helements,Except.map] at h
    | ok rules =>
      simp only [helements,Except.map,Except.ok.injEq] at h
      subst h
      exact helements
  · unfold guardTried at h
    split at h
    · rename_i items hitems
      rw [List.mem_singleton] at h
      cases henv : ResourceEnvelope.fromPayload items with
      | error e => simp [henv,Except.map] at h
      | ok env =>
        simp only [henv,Except.map,Except.ok.injEq] at h
        subst h
        exact ⟨rfl,items,hitems,henv⟩
    · cases h
  · have hsame := h
    unfold verifierTried at h
    split at h
    · cases List.mem_singleton.1 h
      exact hsame
    · split at h
      · cases List.mem_singleton.1 h
        exact hsame
      · cases h
  · exact hnames _ h
  · exact hnames _ h
  · unfold stateTried at h
    split at h
    · rename_i path hpath
      split at h
      · cases h
      · simp only [List.mem_cons,Except.ok.injEq,List.not_mem_nil,or_false] at h
        obtain rfl | h := h
        · exact hpath
        · cases hopened : o.state with
          | error e => simp [hopened,Except.map] at h
          | ok store =>
            simp only [hopened,Except.map,Except.ok.injEq] at h
            subst h
            exact ⟨rfl,hopened⟩
    · cases h
  · unfold trajectoryTried at h
    split at h
    · rename_i path hpath
      split at h
      · cases h
      · simp only [List.mem_cons,Except.ok.injEq,List.not_mem_nil,or_false] at h
        obtain rfl | h := h
        · exact hpath
        · cases hopened : o.trajectory with
          | error e => simp [hopened,Except.map] at h
          | ok u =>
            simp only [hopened,Except.map,Except.ok.injEq] at h
            subst h
            exact ⟨rfl,hpath⟩
    · cases h

theorem asked_unique {s : Configured W} {o : Supply s} {d : Directive} {g h : Setting W}
    (hg : Asked o d g) (hh : Asked o d h) (hslot : g.slot = h.slot) : g = h := by
  cases g with
  | callable entry =>
    cases h with
    | callable other =>
      have hname : entry.name = other.name := Slot.callable.inj hslot
      obtain ⟨catalog,hcatalog,hentry⟩ := hg
      obtain ⟨catalog',hcatalog',hother⟩ := hh
      cases hcatalog.symm.trans hcatalog'
      rw [hname] at hentry
      cases hentry.symm.trans hother
      rfl
    | _ => cases hslot
  | verifier name =>
    cases h with
    | verifier other =>
      simp only [Asked,verifierTried] at hg hh
      split at hg
      · simp_all
      · split at hg <;> simp_all
    | _ => cases hslot
  | rules rules =>
    cases h with
    | rules others => exact congrArg Setting.rules (Except.ok.inj (hg.symm.trans hh))
    | _ => cases hslot
  | guard number env =>
    cases h with
    | guard number' env' =>
      obtain ⟨rfl,items,hitems,henv⟩ := hg
      obtain ⟨rfl,others,hothers,henv'⟩ := hh
      cases hitems.symm.trans hothers
      cases henv.symm.trans henv'
      rfl
    | _ => cases hslot
  | statePath path =>
    cases h with
    | statePath other =>
      cases hg.symm.trans hh
      rfl
    | _ => cases hslot
  | stateStore number store =>
    cases h with
    | stateStore number' store' =>
      obtain ⟨rfl,hstore⟩ := hg
      obtain ⟨rfl,hstore'⟩ := hh
      cases hstore.symm.trans hstore'
      rfl
    | _ => cases hslot
  | trajectoryPath path =>
    cases h with
    | trajectoryPath other =>
      cases hg.symm.trans hh
      rfl
    | _ => cases hslot
  | trajectoryStore number path =>
    cases h with
    | trajectoryStore number' path' =>
      obtain ⟨rfl,hpath⟩ := hg
      obtain ⟨rfl,hpath'⟩ := hh
      cases hpath.symm.trans hpath'
      rfl
    | _ => cases hslot

theorem tried_compatible {s : Configured W} (o : Supply s) (d : Directive) :
    Act.Compatible Setting.slot (Act.carried (tried o d)) :=
  fun _ hg _ hh => asked_unique (asked_of_mem (Act.mem_of_carried hg))
    (asked_of_mem (Act.mem_of_carried hh))

theorem configure_idle (s : Configured W) (o : Supply s) (d : Directive) :
    (configure o d s).2 = s ↔ ∀ g ∈ Act.carried (tried o d), s.Has g := by
  rw [configure_made]
  exact overwrites.foldl_eq_iff (tried_compatible o d) s

/-- A configure directive is never for a child. Where its payload is no mapping, looking into it
raises. -/
def receive (s : Configured W) (o : Supply s) (m : Received) : Configured W :=
  match m.payload with
  | .dict _ => (configure o m.directive s).2
  | _ => s

/-- Why the directive is refused: a setting cannot be made, or the local audit is not written. -/
def refusal {s : Configured W} (o : Supply s) (recorded : Except Raised Unit) (d : Directive) :
    Option Raised :=
  match Act.firstError (tried o d) with
  | some e => some e
  | none =>
    match recorded with
    | .error e => some e
    | .ok _ => none

end Configured

def Received.configuring (m : Received) : Received := { m with kind := .configure }

def Received.isMapping (m : Received) : Bool :=
  match m.payload with
  | .dict _ => true
  | _ => false

namespace Configured
variable {W : Type}

theorem configuring_kind (m : Received) : m.configuring.directive.kind = .configure :=
  m.configuring.directive_kind

theorem route_configuring (s : Configured W) (o : Outside) (recorded : Except Raised Unit)
    (m : Received) (w : W) : s.agent.route o recorded m.configuring w =
      match (s.agent.handleReceived o m.configuring w).outcome with
      | .error e => ⟨[],.error e,(s.agent.handleReceived o m.configuring w).agent,
          (s.agent.handleReceived o m.configuring w).world⟩
      | .ok response => (s.agent.handleReceived o m.configuring w).agent.respond recorded
          (s.agent.handleReceived o m.configuring w).world response := by
  have hroute : Agent.maybeDelegate m.configuring.directive = none := by
    simp [Agent.maybeDelegate,configuring_kind]
  cases houtcome : (s.agent.handleReceived o m.configuring w).outcome <;>
    simp [Agent.route,hroute,houtcome]

theorem handled_mapping (s : Configured W) (o : Outside) {m : Received}
    (h : m.isMapping = true) (w : W) : s.agent.handleReceived o m.configuring w =
      ⟨(s.agent.configure o m.configuring.directive).1,
        (s.agent.configure o m.configuring.directive).2,w,false⟩ := by
  have hkind := configuring_kind m
  obtain ⟨correlationId,kind,payload,hid⟩ := m
  cases payload with
  | dict items =>
    simp only [Agent.handleReceived,Received.configuring,Agent.handle] at hkind ⊢
    rw [hkind]
  | _ => cases h

theorem handled_other (s : Configured W) (o : Outside) {m : Received}
    (h : m.isMapping = false) (w : W) : ∃ text, s.agent.handleReceived o m.configuring w =
      ⟨.error (.escaped text),s.agent,w,false⟩ := by
  obtain ⟨correlationId,kind,payload,hid⟩ := m
  cases payload with
  | dict items => cases h
  | _ => exact ⟨_,rfl⟩

theorem receive_agent (s : Configured W) (o : Supply s) (recorded : Except Raised Unit)
    (m : Received) (w : W) : (s.receive o m.configuring).agent =
      (s.agent.dispatchReceived o.toOutside recorded m.configuring w).agent := by
  have hdispatch : (s.agent.dispatchReceived o.toOutside recorded m.configuring w).agent =
      (s.agent.handleReceived o.toOutside m.configuring w).agent := by
    unfold Agent.dispatchReceived
    rw [route_configuring]
    cases (s.agent.handleReceived o.toOutside m.configuring w).outcome with
    | error e => cases e <;> simp [Agent.excuse_agent]
    | ok response =>
      dsimp only
      split
      · rw [Agent.excuse_agent,Agent.respond_agent]
      · rw [Agent.respond_agent]
  rw [hdispatch]
  cases hmapping : m.isMapping with
  | false =>
    obtain ⟨text,hhandled⟩ := handled_other s o.toOutside hmapping w
    rw [hhandled]
    obtain ⟨correlationId,kind,payload,hid⟩ := m
    cases payload with
    | dict items => cases hmapping
    | _ => rfl
  | true =>
    rw [handled_mapping s o.toOutside hmapping w,
      ← (configure_agent s o m.configuring.directive).2]
    obtain ⟨correlationId,kind,payload,hid⟩ := m
    cases payload with
    | dict items => rfl
    | _ => cases hmapping

theorem answered_error_iff (s : Configured W) (o : Supply s) (recorded : Except Raised Unit)
    {m : Received} (w : W) (halive : s.agent.alive = true) (hmapping : m.isMapping = true) :
    (∃ response ∈ (s.agent.dispatchReceived o.toOutside recorded m.configuring w).sent,
        response.kind = .error) ↔
      ∃ text, refusal o recorded m.configuring.directive = some (.rejected text) := by
  have hid := m.configuring.directive_id_ne
  have hkept : (s.agent.configure o.toOutside m.configuring.directive).2.alive = true :=
    (Agent.configure_alive _ _ _).trans halive
  have houtcome := (configure_agent s o m.configuring.directive).1
  rw [configure_made] at houtcome
  unfold Agent.dispatchReceived refusal
  rw [route_configuring,handled_mapping s o.toOutside hmapping w,← houtcome]
  cases Act.firstError (tried o m.configuring.directive) with
  | some e =>
    cases e with
    | escaped text => simp
    | rejected text =>
      simp [Agent.excuse,Agent.sends_error hkept hid]
      rfl
  | none =>
    have hok : (s.agent.configure o.toOutside m.configuring.directive).2.sends
        (s.agent.ok m.configuring.directive) = .ok () :=
      Agent.sends_ok hkept (Agent.plain_valid hid (by simp) (by simp)) rfl
    have hkind : (s.agent.ok m.configuring.directive).kind = .ok := rfl
    cases recorded with
    | ok _ => simp [Agent.respond,hok,hkind,Except.map]
    | error e =>
      cases e with
      | escaped text => simp [Agent.respond,hok,hkind,Except.map]
      | rejected text =>
        simp [Agent.respond,hok,hkind,Except.map,Agent.excuse,Agent.sends_error hkept hid]
        rfl

theorem sent_of_dead (s : Configured W) (o : Supply s) (recorded : Except Raised Unit)
    {m : Received} (w : W) (hdead : s.agent.alive = false) (hmapping : m.isMapping = true) :
    (s.agent.dispatchReceived o.toOutside recorded m.configuring w).sent = [] := by
  have hkept : (s.agent.configure o.toOutside m.configuring.directive).2.alive = false :=
    (Agent.configure_alive _ _ _).trans hdead
  have hsends : ∀ response,
      (s.agent.configure o.toOutside m.configuring.directive).2.sends response = .error
        (s.agent.configure o.toOutside m.configuring.directive).2.unsent :=
    fun response => Agent.sends_unsent (.inl hkept)
  unfold Agent.dispatchReceived
  rw [route_configuring,handled_mapping s o.toOutside hmapping w]
  cases (s.agent.configure o.toOutside m.configuring.directive).1 with
  | error e => cases e <;> simp [Agent.excuse,hsends]
  | ok response =>
    simp only [Agent.respond,hsends]
    split
    · simp [Agent.excuse,hsends]
    · rfl

/-- A configure directive that is answered with an error leaves the agent as it is, if and only if
what was made before it was refused was there already. -/
theorem rejected_unchanged_iff (s : Configured W) (o : Supply s) (recorded : Except Raised Unit)
    (m : Received) (w : W) :
    ((∃ response ∈ (s.agent.dispatchReceived o.toOutside recorded m.configuring w).sent,
        response.kind = .error) → s.receive o m.configuring = s) ↔
      (s.agent.alive = true → m.isMapping = true →
        (∃ text, refusal o recorded m.configuring.directive = some (.rejected text)) →
        ∀ setting ∈ Act.carried (tried o m.configuring.directive), s.Has setting) := by
  cases hmapping : m.isMapping with
  | false =>
    have hsame : s.receive o m.configuring = s := by
      obtain ⟨correlationId,kind,payload,hid⟩ := m
      cases payload with
      | dict items => cases hmapping
      | _ => rfl
    simp [hsame]
  | true =>
    have hreceive : s.receive o m.configuring = (configure o m.configuring.directive s).2 := by
      obtain ⟨correlationId,kind,payload,hid⟩ := m
      cases payload with
      | dict items => rfl
      | _ => cases hmapping
    cases halive : s.agent.alive with
    | false => simp [sent_of_dead s o recorded w halive hmapping]
    | true =>
      rw [answered_error_iff s o recorded w halive hmapping,hreceive,configure_idle]
      simp

namespace Cleared

def agent : Configured Unit where
  agent := { Agent.new "worker" (some Dict.empty) [] with
    verifier := some "exact"
    alive := true }
  rules := []
  guardObject := 0
  statePath := none
  stateObject := 0
  trajectoryPath := none
  trajectoryStore := none
  trajectoryObject := 0
  named catalog h name entry hget := by
    cases h
    cases hget

def supply : Supply agent where
  late := false
  state := .error (.rejected "no state")
  trajectory := .ok ()
  bound := .ok none
  rows := none
  guardObject := 1
  guardFresh := by decide
  stateObject := 1
  stateFresh := by decide
  trajectoryObject := 1
  trajectoryFresh := by decide

def message : Received :=
  ⟨"configure-1",.configure,.dict [("_clear_verifier",.bool true),("tasks",.list [.str "missing"])],
    by decide⟩

end Cleared

theorem rejected_clears_verifier :
    (∃ response ∈ (Cleared.agent.agent.dispatchReceived Cleared.supply.toOutside (.ok ())
        Cleared.message.configuring ()).sent, response.kind = .error) ∧
      Cleared.agent.receive Cleared.supply Cleared.message.configuring ≠ Cleared.agent := by
  refine ⟨?_,?_⟩
  · exact ⟨_,List.mem_cons_self,rfl⟩
  · intro h
    have hverifier := congrArg (fun s : Configured Unit => s.agent.verifier) h
    exact absurd hverifier (by decide)

end Configured
end AgentCentric

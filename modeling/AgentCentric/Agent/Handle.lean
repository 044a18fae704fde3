import AgentCentric.Agent.Agent

namespace AgentCentric
open Json

/-- What files, sockets and the clock answer while one directive is handled. -/
structure Outside where
  late : Bool
  /-- The granted state store, once opened. -/
  state : Except Raised StateStore
  /-- The granted trajectory, once opened. -/
  trajectory : Except Raised Unit
  /-- The binding of a child's endpoint, with the reason why it may not be bound. -/
  bound : Except Raised (Option String)
  /-- The rows of the trajectory, where one is configured. -/
  rows : Option Json

variable {W : Type}

namespace Agent

def ok {W : Type} (a : Agent W) (d : Directive) : Response :=
  Response.plain d.correlationId .ok true a.identity

/-- `_catalog_entry`: a name that was not provisioned raises. Where there is no catalog, nothing is
looked up. -/
def catalogEntry {W : Type} (a : Agent W) (name : Json) : Except Raised (RegistryEntry W) :=
  match a.catalog with
  | none => .error (.rejected name.repr)
  | some catalog =>
    match name with
    | .str s => expect (catalog.get s) (.rejected (pyRepr s))
    | .list _ => .error (.escaped "unhashable type: 'list'")
    | .dict _ => .error (.escaped "unhashable type: 'dict'")
    | other => .error (.rejected other.repr)

def register {W : Type} (a : Agent W) (entry : RegistryEntry W) : Agent W :=
  { a with registry := a.registry.set entry.name entry }

def grantNames {W : Type} (a : Agent W) : List Json → Except Raised Unit × Agent W
  | [] => (.ok (),a)
  | name :: rest =>
    match a.catalogEntry name with
    | .error e => (.error e,a)
    | .ok entry => (a.register entry).grantNames rest

def grantField {W : Type} (a : Agent W) (d : Directive) (name : String) :
    Except Raised Unit × Agent W :=
  match ((d.payload.get name).getD (.list [])).elements with
  | .error e => (.error e,a)
  | .ok names => a.grantNames names

def grantEnvelope {W : Type} (a : Agent W) (d : Directive) : Except Raised (Agent W) :=
  match field d.payload "_envelope" with
  | .dict items =>
    match ResourceEnvelope.fromPayload items with
    | .error e => .error e
    | .ok env => .ok { a with envelopeGuard := some (EnvelopeGuard.new env) }
  | _ => .ok a

def grantVerifier {W : Type} (a : Agent W) (d : Directive) : Agent W :=
  if (field d.payload "_clear_verifier").truthy then { a with verifier := none }
  else match field d.payload "verifier" with
    | .str name => { a with verifier := some name }
    | _ => a

def grantsPath (d : Directive) (name : String) : Bool :=
  match field d.payload name with
  | .str path => path ≠ ""
  | _ => false

def grantState {W : Type} (a : Agent W) (o : Outside) (d : Directive) : Except Raised (Agent W) :=
  if grantsPath d "state" then o.state.map fun store => { a with stateStore := some store }
  else .ok a

def grantTrajectory (o : Outside) (d : Directive) : Except Raised Unit :=
  if grantsPath d "trajectory" then o.trajectory else .ok ()

/-- `_configure`. What was granted before an exception stays granted. -/
def configure {W : Type} (a : Agent W) (o : Outside) (d : Directive) :
    Except Raised Response × Agent W :=
  match ((d.payload.get "rules").getD (.list [])).elements with
  | .error e => (.error e,a)
  | .ok _ =>
    match a.grantEnvelope d with
    | .error e => (.error e,a)
    | .ok a =>
      match (a.grantVerifier d).grantField d "tasks" with
      | (.error e,a) => (.error e,a)
      | (.ok _,a) =>
        match a.grantField d "verifiers" with
        | (.error e,a) => (.error e,a)
        | (.ok _,a) =>
          match a.grantState o d with
          | .error e => (.error e,a)
          | .ok a =>
            match grantTrajectory o d with
            | .error e => (.error e,a)
            | .ok _ => (.ok (a.ok d),a)

/-- `_register_capability`: metadata only, never a callable. -/
def registerCapability {W : Type} (a : Agent W) (d : Directive) : Response × Agent W :=
  match field d.payload "name" with
  | .str name =>
    if name = "" then (a.error d "register requires a 'name'",a)
    else
      let url := field d.payload "source_url"
      let kind := field d.payload "kind"
      (a.ok d,a.register ⟨name,if url.truthy then url else .str "",
        if kind.truthy then kind else .str "python",none⟩)
  | _ => (a.error d "register requires a 'name'",a)

def resolveCapability {W : Type} (a : Agent W) (d : Directive) : Response :=
  match field d.payload "name" with
  | .str name =>
    if name = "" then a.error d "resolve requires a 'name'"
    else
      match a.registry.get name with
      | none => a.error d ("unknown capability " ++ pyRepr name)
      | some entry =>
        let verified := entry.sourceUrl.truthy
        { Response.plain d.correlationId (if verified then .result else .error) verified
            a.identity with
          value := .json (.dict [("name",.str entry.name),("kind",entry.kind),
            ("source_url",entry.sourceUrl)])
          error := if verified then .null
            else .str ("capability " ++ pyRepr name ++ " has no source location") }
  | _ => a.error d "resolve requires a 'name'"

/-- The kind of a child must be declared; `None` is the generic agent. -/
def declares {W : Type} (a : Agent W) : Json → Bool
  | .null => true
  | .str kind => kind ∈ a.childKinds
  | _ => false

def hasChild {W : Type} (a : Agent W) : Json → Bool
  | .str child => child ∈ a.children
  | _ => false

def provision {W : Type} (a : Agent W) (d : Directive) (identity : Json) :
    Except Raised Response × Agent W :=
  match identity with
  | .str child => (.ok (a.ok d),{ a with children := a.children ++ [child] })
  | other => (.error (.escaped ("'" ++ other.typeName ++ "' object has no attribute 'encode'")),a)

/-- The part of `_spawn` that is accounted for: the endpoint must be bound. -/
def bindChild {W : Type} (a : Agent W) (o : Outside) (d : Directive) (identity : Json) :
    Except Raised Response × Agent W :=
  let kind := field d.payload "kind"
  if ¬ a.declares kind then (.ok (a.error d ("undeclared child kind " ++ kind.repr)),a)
  else
    match o.bound with
    | .error e => (.error e,a)
    | .ok (some reason) => (.ok (a.error d reason),a)
    | .ok none => a.provision d identity

def spawn {W : Type} (a : Agent W) (o : Outside) (d : Directive) :
    Except Raised Response × Agent W :=
  let identity := field d.payload "identity"
  if ¬ identity.truthy ∨ ¬ (field d.payload "endpoint").truthy then
    (.ok (a.error d "spawn requires 'identity' and 'endpoint'"),a)
  else
    match a.violation o.late d with
    | some reason => (.ok (a.error d reason),a)
    | none =>
      match identity with
      | .list _ => (.error (.escaped "unhashable type: 'list'"),a)
      | .dict _ => (.error (.escaped "unhashable type: 'dict'"),a)
      | identity =>
        if a.hasChild identity then (.ok (a.ok d),a)
        else (a.counted true).bindChild o d identity

def audit {W : Type} (a : Agent W) (o : Outside) (d : Directive) : Response :=
  match o.rows with
  | none => a.error d "no durable trajectory store configured"
  | some rows =>
    { Response.plain d.correlationId .result true a.identity with value := .json rows }

/-- `kill`: the channels are closed, the parent's too. -/
def kill {W : Type} (a : Agent W) : Agent W :=
  { a with children := [],stateStore := none,alive := false }

def handle {W : Type} (a : Agent W) (o : Outside) (d : Directive) (w : W) : Turn W :=
  match d.kind with
  | .configure => let r := a.configure o d; ⟨r.1,r.2,w,false⟩
  | .run => a.runTask o.late d w
  | .spawn => let r := a.spawn o d; ⟨r.1,r.2,w,false⟩
  | .register => let r := a.registerCapability d; ⟨.ok r.1,r.2,w,false⟩
  | .resolve => ⟨.ok (a.resolveCapability d),a,w,false⟩
  | .stateSet => let r := a.stateSet d; ⟨.ok r.1,r.2,w,false⟩
  | .stateGet => ⟨a.stateGet d,a,w,false⟩
  | .audit => ⟨.ok (a.audit o d),a,w,false⟩
  | .ping => ⟨.ok (a.ok d),a,w,false⟩
  | .kill => ⟨.ok (a.ok d),a.kill,w,false⟩

/-- Only what is granted differs: the registry, the verifier and the state store. -/
structure Provisioned {W : Type} (a b : Agent W) : Prop where
  identity : b.identity = a.identity
  envelopeGuard : b.envelopeGuard = a.envelopeGuard
  results : b.results = a.results
  usedKeys : b.usedKeys = a.usedKeys
  delegated : b.delegated = a.delegated
  catalog : b.catalog = a.catalog
  children : b.children = a.children
  alive : b.alive = a.alive

theorem Provisioned.refl (a : Agent W) : Provisioned a a :=
  ⟨rfl,rfl,rfl,rfl,rfl,rfl,rfl,rfl⟩

theorem Provisioned.trans {a b c : Agent W} (h : Provisioned a b)
    (h' : Provisioned b c) : Provisioned a c where
  identity := h'.identity.trans h.identity
  envelopeGuard := h'.envelopeGuard.trans h.envelopeGuard
  results := h'.results.trans h.results
  usedKeys := h'.usedKeys.trans h.usedKeys
  delegated := h'.delegated.trans h.delegated
  catalog := h'.catalog.trans h.catalog
  children := h'.children.trans h.children
  alive := h'.alive.trans h.alive

theorem grantNames_provisions (a : Agent W) (names : List Json) :
    Provisioned a (a.grantNames names).2 := by
  induction names generalizing a with
  | nil => exact .refl a
  | cons name rest ih =>
    unfold grantNames
    cases a.catalogEntry name with
    | error e => exact .refl a
    | ok entry =>
      have hregister : Provisioned a (a.register entry) := ⟨rfl,rfl,rfl,rfl,rfl,rfl,rfl,rfl⟩
      exact hregister.trans (ih _)

theorem grantField_provisions (a : Agent W) (d : Directive) (name : String) :
    Provisioned a (a.grantField d name).2 := by
  unfold grantField
  cases ((d.payload.get name).getD (.list [])).elements with
  | error e => exact .refl a
  | ok names => exact grantNames_provisions a names

theorem grantVerifier_provisions (a : Agent W) (d : Directive) :
    Provisioned a (a.grantVerifier d) := by
  unfold grantVerifier
  split
  · exact ⟨rfl,rfl,rfl,rfl,rfl,rfl,rfl,rfl⟩
  · split <;> exact ⟨rfl,rfl,rfl,rfl,rfl,rfl,rfl,rfl⟩

theorem grantState_provisions {a b : Agent W} {o : Outside} {d : Directive}
    (h : a.grantState o d = .ok b) : Provisioned a b := by
  unfold grantState at h
  split at h
  · cases hstate : o.state with
    | error e => simp [hstate,Except.map] at h
    | ok store =>
      simp only [hstate,Except.map,Except.ok.injEq] at h
      subst h
      exact ⟨rfl,rfl,rfl,rfl,rfl,rfl,rfl,rfl⟩
  · cases h
    exact .refl a

def granted (d : Directive) : Option (Option ResourceEnvelope) :=
  match ((d.payload.get "rules").getD (.list [])).elements,field d.payload "_envelope" with
  | .ok _,.dict items => (ResourceEnvelope.fromPayload items).toOption
  | _,_ => none

def guarded {W : Type} (a : Agent W) (d : Directive) : Agent W :=
  match granted d with
  | some env => { a with envelopeGuard := some (EnvelopeGuard.new env) }
  | none => a

theorem guarded_of_error {a : Agent W} {d : Directive} {e : Raised}
    (h : a.grantEnvelope d = .error e) : a.guarded d = a := by
  unfold grantEnvelope at h
  unfold guarded granted
  cases ((d.payload.get "rules").getD (.list [])).elements with
  | error e => rfl
  | ok _ =>
    cases henv : field d.payload "_envelope" with
    | dict items =>
      cases hpayload : ResourceEnvelope.fromPayload items with
      | error e => simp [hpayload,Except.toOption]
      | ok env => simp [henv,hpayload] at h
    | _ => rfl

theorem guarded_of_ok {a b : Agent W} {d : Directive} {rules : List Json}
    (hrules : ((d.payload.get "rules").getD (.list [])).elements = .ok rules)
    (h : a.grantEnvelope d = .ok b) : a.guarded d = b := by
  unfold grantEnvelope at h
  unfold guarded granted
  rw [hrules]
  cases henv : field d.payload "_envelope" with
  | dict items =>
    cases hpayload : ResourceEnvelope.fromPayload items with
    | error e => simp [henv,hpayload] at h
    | ok env => simpa [henv,hpayload,Except.toOption] using h
  | _ => simpa [henv] using h

/-- Apart from what is granted, configuring puts a new guard at most. -/
theorem configure_provisions (a : Agent W) (o : Outside) (d : Directive) :
    Provisioned (a.guarded d) (a.configure o d).2 := by
  unfold configure
  cases hrules : ((d.payload.get "rules").getD (.list [])).elements with
  | error e =>
    have hnone : a.guarded d = a := by simp [guarded,granted,hrules]
    rw [hnone]
    exact .refl a
  | ok rules =>
    dsimp only
    cases henv : a.grantEnvelope d with
    | error e =>
      rw [guarded_of_error henv]
      exact .refl a
    | ok b =>
      rw [guarded_of_ok hrules henv]
      have htasks := (grantVerifier_provisions b d).trans
        (grantField_provisions (b.grantVerifier d) d "tasks")
      dsimp only
      cases hgrant : (b.grantVerifier d).grantField d "tasks" with
      | mk r c =>
        rw [hgrant] at htasks
        cases r with
        | error e => exact htasks
        | ok _ =>
          have hverifiers := htasks.trans (grantField_provisions c d "verifiers")
          dsimp only
          cases hgrant' : c.grantField d "verifiers" with
          | mk r e =>
            rw [hgrant'] at hverifiers
            cases r with
            | error _ => exact hverifiers
            | ok _ =>
              dsimp only
              cases hstate : e.grantState o d with
              | error _ => exact hverifiers
              | ok f =>
                have hf := hverifiers.trans (grantState_provisions hstate)
                dsimp only
                cases grantTrajectory o d <;> exact hf

theorem configure_delegated (a : Agent W) (o : Outside) (d : Directive) :
    (a.configure o d).2.delegated = a.delegated := by
  rw [(configure_provisions a o d).delegated,guarded]
  cases granted d <;> rfl

theorem spawn_delegated (a : Agent W) (o : Outside) (d : Directive) :
    (a.spawn o d).2.delegated = a.delegated := by
  unfold spawn bindChild provision
  dsimp only
  repeat' split
  all_goals rfl

theorem runTask_delegated (a : Agent W) (late : Bool) (d : Directive) (w : W) :
    (a.runTask late d w).agent.delegated = a.delegated := by
  unfold runTask execute
  repeat' split
  all_goals rfl

/-- Delegations are only recorded where a directive is routed. -/
theorem handle_delegated (a : Agent W) (o : Outside) (d : Directive) (w : W) :
    (a.handle o d w).agent.delegated = a.delegated := by
  unfold handle
  split
  · exact configure_delegated a o d
  · exact runTask_delegated a o.late d w
  · exact spawn_delegated a o d
  · unfold registerCapability
    repeat' split
    all_goals rfl
  · rfl
  · unfold stateSet
    repeat' split
    all_goals rfl
  all_goals rfl

end Agent
end AgentCentric

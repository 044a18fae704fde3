import AgentCentric.Driver.Calls
import AgentCentric.Library.Transducer

namespace AgentCentric

namespace Agent
variable {W : Type}

theorem guarded_identity (a : Agent W) (d : Directive) : (a.guarded d).identity = a.identity := by
  unfold guarded
  cases granted d <;> rfl

theorem handle_identity (a : Agent W) (o : Outside) (d : Directive) (w : W) :
    (a.handle o d w).agent.identity = a.identity := by
  unfold handle
  split
  · exact (configure_provisions a o d).identity.trans (guarded_identity a d)
  · unfold runTask execute
    repeat' split
    all_goals rfl
  · unfold spawn bindChild provision
    dsimp only
    repeat' split
    all_goals rfl
  · unfold registerCapability
    repeat' split
    all_goals rfl
  · rfl
  · unfold stateSet
    repeat' split
    all_goals rfl
  all_goals rfl

theorem relayVerified_identity (a : Agent W) (response : Response) (channel : String) (w : W) :
    (a.relayVerified response channel w).agent.identity = a.identity := by
  unfold relayVerified
  split
  · rfl
  · rename_i accepted w' hverdict
    dsimp only
    cases hsend : a.send w' (if accepted then response else a.demoted response channel)
        (.relayed channel) with
    | error e => rfl
    | ok reaction => rw [send_ok hsend]

theorem react_identity (I : Integrity) (a : Agent W) (w : W) (e : Event) :
    (a.react Handler.base I w e).agent.identity = a.identity := by
  cases e with
  | directive d o =>
    simp only [react]
    split
    · rfl
    · split
      · rfl
      · cases hroute : maybeDelegate d with
        | none =>
          rw [dispatch_handled I a o w hroute]
          exact handle_identity a o d w
        | some target =>
          by_cases hchild : target ∈ a.children
          · rw [dispatch_delegated I o w hroute hchild]
          · rw [dispatch_misrouted I o w hroute hchild]
  | malformed reason =>
    simp only [react]
    split <;> rfl
  | child channel m =>
    simp only [react]
    split
    · rfl
    · unfold drainChild
      split
      · rfl
      · rfl
      · split
        · rfl
        · exact relayVerified_identity _ _ _ _

end Agent

variable {payload : Dict String Json} {kind : DirectiveKind}

namespace Cbp
open Json Unwinding

def Linked {W N : Type} : Tree W N → W → List (Change W N) → Tree W N → W → Prop
  | t,w,[],t',w' => t = t' ∧ w = w'
  | t,w,c :: cs,t',w' => c.tree = t ∧ c.world = w ∧ Linked c.tree' c.world' cs t' w'

/-- Where the tree or the world changes or a task is called, it is for a directive that the peer may
issue. -/
def Change.Authorised {W N : Type} (authz : PeerAuthz) (peer : String) (c : Change W N) : Prop :=
  (c.tree' ≠ c.tree ∨ c.world' ≠ c.world ∨ c.executed = true) →
    ∃ order, c.order = some order ∧ authz.Permits peer order

variable {W N : Type}

/-- All that has happened since the driver was created was authorised, and a refused call changes
neither the tree, with the verifiers that it shows, nor the ledger. -/
structure Obeys (K : Config W N) (authz : PeerAuthz) (start s : CbpDriver W N)
    (i : Call W × Surroundings W) : Prop where
  linked : Linked start.tree start.world (s.step K i).2.trace (s.step K i).2.tree
    (s.step K i).2.world
  authorised : ∀ c ∈ (s.step K i).2.trace, c.Authorised authz start.tree.root.identity
  refused : ∀ reason, (s.step K i).1 = .refused reason →
    (s.step K i).2.tree = s.tree ∧ (s.step K i).2.verifierNames = s.verifierNames ∧
      (s.step K i).2.ledger = s.ledger

/-- What a caller has to see to, where the driver asks for no authorization. -/
def SeenTo (K : Config W N) (authz : PeerAuthz) (s : CbpDriver W N) : Call W → Prop
  | .register _ _ _ => authz.Permits s.tree.root.identity ⟨.register,none⟩
  | .configure grant _ => authz.Permits s.tree.root.identity ⟨.configure,none⟩ ∨
      ∀ name ∈ grant.names, name ∈ s.verifierNames
  | .configureChild identity _ _ => (s.tree.nodes.get identity).isSome →
      authz.Permits s.tree.root.identity ⟨.configure,some identity⟩
  | .configureProvider child provider modelId =>
      (s.tree.nodes.get child).bind (K.agents.attach provider modelId) = none
  | .spawn identity _ _ => authz.Permits s.tree.root.identity ⟨.spawn,none⟩ →
      authz.Permits s.tree.root.identity ⟨.spawn,some identity⟩
  | .replaySession (some entries) => ∀ payload ∈ CbpDriver.runsOf entries,
      authz.Permits s.tree.root.identity ⟨.run,childNamed .run payload⟩
  | _ => True

theorem linked_concat {t t' t'' : Tree W N} {w w' w'' : W} {cs : List (Change W N)}
    (h : Linked t w cs t' w') (order : Option Order) (executed : Bool) :
    Linked t w (cs ++ [⟨t',w',order,executed,t'',w''⟩]) t'' w'' := by
  induction cs generalizing t w with
  | nil => exact ⟨h.1.symm,h.2.symm,rfl,rfl⟩
  | cons c cs ih => exact ⟨h.1,h.2.1,ih h.2.2⟩

theorem permits_unnamed {authz : PeerAuthz} {peer : String}
    {child : Option String} (h : authz.Permits peer ⟨kind,child⟩) :
    authz.Permits peer ⟨kind,none⟩ := by
  obtain ⟨policy,hpolicy,hrole,_⟩ := h
  exact ⟨policy,hpolicy,hrole,fun _ _ hnone => nomatch hnone⟩

/-- Every message on its way is about a directive that the peer may issue. -/
structure Sound (authz : PeerAuthz) (start : CbpDriver W N) (s : Scenery W N) : Prop where
  peer : s.tree.root.identity = start.tree.root.identity
  down : ∀ d ∈ s.down, authz.Permits start.tree.root.identity (orderOf d)
  across : ∀ m ∈ s.across, authz.Permits start.tree.root.identity m.order
  upward : ∀ m ∈ s.upward, authz.Permits start.tree.root.identity m.order
  linked : Linked start.tree start.world s.trace s.tree s.world
  authorised : ∀ c ∈ s.trace, c.Authorised authz start.tree.root.identity

namespace Sound
variable {authz : PeerAuthz} {start : CbpDriver W N} {s : Scenery W N}

theorem move (h : Sound authz start s) {order : Option Order} {executed : Bool} {tree : Tree W N}
    {w : W} (hpeer : tree.root.identity = s.tree.root.identity)
    (hchange : Change.Authorised authz start.tree.root.identity
      ⟨s.tree,s.world,order,executed,tree,w⟩) :
    Sound authz start (s.move order executed tree w) where
  peer := hpeer.trans h.peer
  down := h.down
  across := h.across
  upward := h.upward
  linked := linked_concat h.linked order executed
  authorised := by
    intro c hc
    simp only [Scenery.move,List.mem_append,List.mem_singleton] at hc
    rcases hc with hc | rfl
    · exact h.authorised c hc
    · exact hchange

theorem moveFor (h : Sound authz start s) {order : Order} (executed : Bool) (tree : Tree W N)
    (w : W) (hpeer : tree.root.identity = s.tree.root.identity)
    (horder : authz.Permits start.tree.root.identity order) :
    Sound authz start (s.move (some order) executed tree w) :=
  h.move hpeer fun _ => ⟨order,rfl,horder⟩

theorem deliverDown (h : Sound authz start s) (C : ChildAgents W N) (I : Integrity) (o : Outside)
    {d : Directive} (hd : authz.Permits start.tree.root.identity (orderOf d)) :
    Sound authz start (s.deliverDown C I o d).2 := by
  have hmoved := h.moveFor (Scenery.executes s.tree.root o d s.world)
    ⟨(s.tree.root.react Handler.base I s.world (.directive d o)).agent,
      Scenery.nodesAfter C d s.tree.root
        (s.tree.root.react Handler.base I s.world (.directive d o)).agent s.tree.nodes⟩
    (s.tree.root.react Handler.base I s.world (.directive d o)).world
    (Agent.react_identity I s.tree.root s.world (.directive d o)) hd
  unfold Scenery.deliverDown
  dsimp only
  split
  · refine { hmoved with across := ?_ }
    intro m hm
    simp only [List.mem_append,List.mem_singleton] at hm
    rcases hm with hm | rfl
    · exact hmoved.across m hm
    · exact hd
  · exact hmoved

theorem deliverAcross (h : Sound authz start s) (C : ChildAgents W N) (o : Outside) {m : Across}
    (hm : authz.Permits start.tree.root.identity m.order) :
    Sound authz start (s.deliverAcross C o m).2 := by
  unfold Scenery.deliverAcross
  cases s.tree.nodes.get m.child with
  | none => exact h
  | some node =>
    dsimp only
    have hmoved := h.moveFor (C.receive s.catalog o m.directive node s.world).called
      { s.tree with
        nodes := s.tree.nodes.set m.child (C.receive s.catalog o m.directive node s.world).node }
      (C.receive s.catalog o m.directive node s.world).world rfl hm
    have hleft : Sound authz start { s.move (some m.order)
        (C.receive s.catalog o m.directive node s.world).called { s.tree with
          nodes := s.tree.nodes.set m.child (C.receive s.catalog o m.directive node s.world).node }
        (C.receive s.catalog o m.directive node s.world).world with
        upward := s.upward ++ (C.receive s.catalog o m.directive node s.world).messages.map
          fun message => ⟨m.child,message,m.order⟩ } := by
      refine { hmoved with upward := ?_ }
      intro up hup
      simp only [List.mem_append,List.mem_map] at hup
      obtain hup | ⟨message,_,rfl⟩ := hup
      · exact hmoved.upward up hup
      · exact hm
    split <;> exact hleft

theorem deliverUpward (h : Sound authz start s) (I : Integrity) {m : Upward}
    (hm : authz.Permits start.tree.root.identity m.order) :
    Sound authz start (s.deliverUpward I m).2 :=
  h.moveFor false _ _ (Agent.react_identity I s.tree.root s.world _) hm

theorem deliver (h : Sound authz start s) (C : ChildAgents W N) (I : Integrity)
    (delivery : Delivery) : Sound authz start (s.deliver C I delivery).2 := by
  cases delivery with
  | down o =>
    simp only [Scenery.deliver]
    cases hdown : s.down with
    | nil => exact h
    | cons d rest =>
      have hrest : Sound authz start { s with down := rest } :=
        { h with down := fun e he => h.down e (by rw [hdown]; exact List.mem_cons_of_mem d he) }
      exact hrest.deliverDown C I o (h.down d (by simp [hdown]))
  | lost => exact { h with down := fun d hd => h.down d (List.mem_of_mem_tail hd) }
  | across i o =>
    simp only [Scenery.deliver]
    cases hm : s.across[i]? with
    | none => exact h
    | some m =>
      have hrest : Sound authz start { s with across := s.across.eraseIdx i } :=
        { h with across := fun m hm => h.across m (List.mem_of_mem_eraseIdx hm) }
      exact hrest.deliverAcross C o (h.across m (List.mem_of_getElem? hm))
  | upward i =>
    simp only [Scenery.deliver]
    cases hm : s.upward[i]? with
    | none => exact h
    | some m =>
      have hrest : Sound authz start { s with upward := s.upward.eraseIdx i } :=
        { h with upward := fun m hm => h.upward m (List.mem_of_mem_eraseIdx hm) }
      exact hrest.deliverUpward I (h.upward m (List.mem_of_getElem? hm))

theorem poll (h : Sound authz start s) (C : ChildAgents W N) (I : Integrity)
    (window : List Delivery) : Sound authz start (s.poll C I window).2 := by
  induction window generalizing s with
  | nil => exact h
  | cons delivery rest ih =>
    have hlater := ih (h.deliver C I delivery)
    simp only [Scenery.poll]
    split
    · exact h.deliver C I delivery
    · split <;> exact hlater

end Sound

/-- What holds in every state of a driver whose calls are seen to. -/
structure Kept (authz : PeerAuthz) (start s : CbpDriver W N) : Prop where
  peerAutz : s.peerAutz = some authz
  sound : Sound authz start s.scenery
  runs : ∀ e ∈ s.ledger.entries, e.2.kind = .run →
    authz.Permits start.tree.root.identity ⟨.run,childNamed .run e.2.payload⟩

namespace CbpDriver
variable {authz : PeerAuthz} {start s : CbpDriver W N}

theorem mem_runsOf_iff {entries : List (String × LedgerEntry)} : payload ∈ runsOf entries ↔
      ∃ e ∈ entries, e.2.child = false ∧ e.2.kind = .run ∧ e.2.payload = payload := by
  simp only [runsOf,List.mem_map,List.mem_filter,Bool.and_eq_true,Bool.not_eq_true',
    decide_eq_true_eq,and_assoc]

theorem mem_entries_set {ledger : Dict String LedgerEntry} {k : String} {entry : LedgerEntry}
    {e : String × LedgerEntry} (h : e ∈ (ledger.set k entry).entries) :
    e.2 = entry ∨ e ∈ ledger.entries := by
  have hget := (Dict.lookup_eq_some_iff (ledger.set k entry).nodup).2 h
  have hset := Dict.get_set ledger k e.1 entry
  unfold Dict.get at hset
  rw [hget] at hset
  split at hset
  · exact .inl (Option.some.inj hset)
  · exact .inr ((Dict.lookup_eq_some_iff ledger.nodup).1 hset.symm)

theorem kept_record (h : Kept authz start s) (k : String) (entry : LedgerEntry)
    (hentry : entry.kind = .run →
      authz.Permits start.tree.root.identity ⟨.run,childNamed .run entry.payload⟩) :
    Kept authz start { s with ledger := s.ledger.set k entry } where
  peerAutz := h.peerAutz
  sound := h.sound
  runs := by
    intro e he hkind
    rcases mem_entries_set he with heq | hold
    · rw [heq] at hkind ⊢
      exact hentry hkind
    · exact h.runs e hold hkind

theorem kept_setOutcome (h : Kept authz start s) (correlationId : String) (response : Response) :
    Kept authz start (s.setOutcome correlationId response) := by
  unfold setOutcome
  cases hget : s.ledger.get correlationId with
  | none => exact h
  | some entry =>
    have hmem := (Dict.lookup_eq_some_iff s.ledger.nodup).1 hget
    exact kept_record h correlationId _ (h.runs (correlationId,entry) hmem)

theorem kept_move (h : Kept authz start s) {order : Option Order} {executed : Bool}
    {tree : Tree W N} {w : W} (hpeer : tree.root.identity = s.tree.root.identity)
    (hchange : Change.Authorised authz start.tree.root.identity
      ⟨s.tree,s.world,order,executed,tree,w⟩) : Kept authz start (s.move order executed tree w) :=
  ⟨h.peerAutz,h.sound.move hpeer hchange,h.runs⟩

theorem attempts_kept (K : Config W N) (h : Kept authz start s) {d : Directive}
    (hd : authz.Permits start.tree.root.identity (orderOf d)) (n : Nat)
    (windows : List (List Delivery)) : Kept authz start (attempts K d n windows s).2 := by
  induction n generalizing s windows with
  | zero => exact h
  | succ n ih =>
    have hsent : Sound authz start { s.scenery with down := s.scenery.down ++ [d] } := by
      refine { h.sound with down := ?_ }
      intro e he
      simp only [List.mem_append,List.mem_singleton] at he
      rcases he with he | rfl
      · exact h.sound.down e he
      · exact hd
    have hpolled : Kept authz start { s with scenery :=
        (Scenery.poll K.agents K.integrity (windows.headD [])
          { s.scenery with down := s.scenery.down ++ [d] }).2 } :=
      ⟨h.peerAutz,hsent.poll K.agents K.integrity (windows.headD []),h.runs⟩
    simp only [attempts]
    split
    · exact hpolled
    · split
      · exact kept_setOutcome hpolled d.correlationId _
      · exact ih hpolled windows.tail

theorem attempts_answers (K : Config W N) (d : Directive) (n : Nat)
    (windows : List (List Delivery)) (s : CbpDriver W N) (reason : String) :
    (attempts K d n windows s).1 ≠ .refused reason := by
  induction n generalizing s windows with
  | zero => simp [attempts]
  | succ n ih =>
    simp only [attempts]
    split
    · simp
    · split
      · simp
      · exact ih windows.tail _

theorem permits_of_refusal (h : Kept authz start s) (hnone : s.refusal kind payload = none) :
    authz.Permits start.tree.root.identity ⟨kind,textOf (field payload "child")⟩ := by
  have hpeer : s.tree.root.identity = start.tree.root.identity := h.sound.peer
  simp only [refusal,h.peerAutz,Option.bind_some,hpeer] at hnone
  exact (authz.authorize_eq_none _ kind _).1 hnone

theorem refusal_of_permits (h : Kept authz start s)
    (hpermits : authz.Permits start.tree.root.identity ⟨kind,textOf (field payload "child")⟩) :
    s.refusal kind payload = none := by
  have hpeer : s.tree.root.identity = start.tree.root.identity := h.sound.peer
  simp only [refusal,h.peerAutz,Option.bind_some,hpeer]
  exact (authz.authorize_eq_none _ kind _).2 hpermits

/-- A directive is refused before anything is recorded, or else it is one that the peer may issue,
where authorization sees the child that it names. -/
theorem roundtrip_kept (K : Config W N) (env : Surroundings W)
    (initial : String) (h : Kept authz start s)
    (hnames : authz.Permits start.tree.root.identity ⟨kind,textOf (field payload "child")⟩ →
      authz.Permits start.tree.root.identity ⟨kind,childNamed kind payload⟩) :
    Kept authz start (s.roundtrip K env kind payload initial).2 := by
  simp only [roundtrip,correlation]
  split
  · exact ⟨h.peerAutz,h.sound,h.runs⟩
  · rename_i hnone
    have hpermits := hnames (permits_of_refusal h hnone)
    have hseq : Kept authz start { s with seq := s.seq + 1 } := ⟨h.peerAutz,h.sound,h.runs⟩
    refine attempts_kept K (d := ⟨_,kind,payload⟩) (kept_record hseq _ _ ?_) hpermits _ _
    intro hkind
    cases hkind
    exact hpermits

theorem roundtrip_refused {K : Config W N} {env : Surroundings W} {initial reason : String}
    (h : (s.roundtrip K env kind payload initial).1 = .refused reason) :
    s.refusal kind payload = some reason ∧
      (s.roundtrip K env kind payload initial).2 = { s with seq := s.seq + 1 } := by
  simp only [roundtrip,correlation] at h ⊢
  have hsame : refusal { s with seq := s.seq + 1 } kind payload = s.refusal kind payload := rfl
  rw [hsame] at h ⊢
  cases hrefusal : s.refusal kind payload with
  | none =>
    simp only [hrefusal] at h
    exact absurd h (attempts_answers _ _ _ _ _ _)
  | some why =>
    simp only [hrefusal,Outcome.refused.injEq] at h
    exact ⟨by rw [h],rfl⟩

theorem childNamed_spawnPayload (identity endpoint : String) (kind : Option String) :
    childNamed .spawn (spawnPayload identity endpoint kind) = some identity := by
  cases kind <;> rfl

theorem issueAgain_kept (env : Surroundings W) {payloads : List (Dict String Json)}
    (h : Kept authz start s) (hpayloads : ∀ payload ∈ payloads,
      authz.Permits start.tree.root.identity ⟨.run,childNamed .run payload⟩) :
    Kept authz start (payloads.foldl (issueAgain env) s) := by
  induction payloads generalizing s with
  | nil => exact h
  | cons payload rest ih =>
    have hfirst : Kept authz start (s.issueAgain env payload) :=
      kept_move h rfl fun _ => ⟨_,rfl,hpayloads payload (by simp)⟩
    exact ih hfirst fun p hp => hpayloads p (List.mem_cons_of_mem payload hp)

theorem kept_correlation (h : Kept authz start s) (initial : String) :
    Kept authz start (s.correlation initial).2 := ⟨h.peerAutz,h.sound,h.runs⟩

theorem configureChild_kept (K : Config W N) (env : Surroundings W) {identity : String} (g : Grant)
    (storeKeys : List String) (h : Kept authz start s) (hseen : (s.tree.nodes.get identity).isSome →
      authz.Permits start.tree.root.identity ⟨.configure,some identity⟩) :
    Kept authz start (s.configureChild K env identity g storeKeys).2 := by
  have hseq := kept_correlation h "configure-child"
  unfold configureChild
  dsimp only
  split
  · exact hseq
  · have hrecorded := kept_record hseq (s.correlation "configure-child").1
      ⟨.configure,g.recorded K.isolate identity storeKeys,true,none⟩ fun hkind => nomatch hkind
    split
    · exact hrecorded
    · rename_i node hnode
      have hsome : s.tree.nodes.get identity = some node := hnode
      exact kept_move hrecorded rfl fun _ => ⟨_,rfl,hseen (by rw [hsome]; rfl)⟩

theorem configureProvider_idle {K : Config W N} {child : String} {provider : ModelProvider W}
    {modelId : Option String}
    (hseen : (s.tree.nodes.get child).bind (K.agents.attach provider modelId) = none) :
    (s.configureProvider K child provider modelId).2 = s := by
  unfold configureProvider
  cases hnode : s.tree.nodes.get child with
  | none => rfl
  | some node =>
    rw [hnode] at hseen
    simp only [Option.bind_some] at hseen
    simp only [hseen]

theorem spawnEndpoint_kept (K : Config W N) (identity : String) (endpoint : Option String)
    (h : Kept authz start s) : Kept authz start (s.spawnEndpoint K identity endpoint).2 := by
  have hchild : Kept authz start (s.childEndpoint K identity).2 := by
    unfold childEndpoint
    split
    · exact ⟨h.peerAutz,h.sound,h.runs⟩
    · exact h
  unfold spawnEndpoint
  cases endpoint with
  | none => exact hchild
  | some endpoint =>
    dsimp only
    split
    · exact h
    · exact hchild

theorem replayed_mem {target : Option String} (h : s.replayed target = some payload) :
    ∃ e ∈ s.ledger.entries, e.2.kind = .run ∧ e.2.payload = payload := by
  simp only [replayed,Option.filter_eq_some_iff,Option.map_eq_some_iff] at h
  obtain ⟨⟨e,hchosen,rfl⟩,_⟩ := h
  have hmem : e ∈ s.ledger.entries.filter fun e => e.2.kind = .run := by
    cases target with
    | some k => exact List.mem_of_find?_eq_some hchosen
    | none => exact List.mem_of_getLast? hchosen
  simp only [List.mem_filter,decide_eq_true_eq] at hmem
  exact ⟨e,hmem.1,hmem.2,rfl⟩

theorem step_kept (K : Config W N) {i : Call W × Surroundings W} (h : Kept authz start s)
    (hseen : SeenTo K authz s i.1) : Kept authz start (s.step K i).2 := by
  obtain ⟨c,env⟩ := i
  have hpeer : s.tree.root.identity = start.tree.root.identity := h.sound.peer
  cases c with
  | register name fn sourceUrl =>
    exact kept_move h rfl fun _ => ⟨⟨.register,none⟩,rfl,hpeer ▸ hseen⟩
  | configure g clearVerifier =>
    simp only [step,call,configure]
    split
    · exact h
    · exact roundtrip_kept K env "configure" ⟨h.peerAutz,h.sound,h.runs⟩ permits_unnamed
  | configureChild identity g storeKeys =>
    exact configureChild_kept K env g storeKeys h (hpeer ▸ hseen)
  | configureProvider child provider modelId =>
    simp only [step,call,configureProvider_idle hseen]
    exact h
  | run task args verifier child sources => exact roundtrip_kept K env "run" h id
  | spawn identity endpoint kind =>
    have hendpoint := spawnEndpoint_kept K identity endpoint h
    simp only [step,call,spawn]
    split
    · exact hendpoint
    · refine roundtrip_kept K env "spawn" hendpoint fun hrole => ?_
      rw [childNamed_spawnPayload]
      exact hpeer ▸ hseen (hpeer ▸ permits_unnamed hrole)
  | replay target =>
    refine issueAgain_kept env h fun payload hpayload => ?_
    obtain ⟨e,he,hkind,rfl⟩ := replayed_mem (Option.mem_toList.1 hpayload)
    exact h.runs e he hkind
  | replaySession entries =>
    refine issueAgain_kept env h fun payload hpayload => ?_
    obtain ⟨e,he,hchild,hkind,rfl⟩ := mem_runsOf_iff.1 hpayload
    have hmem := List.mem_of_mem_take he
    cases entries with
    | none => exact h.runs e hmem hkind
    | some entries => exact hpeer ▸ hseen e.2.payload (mem_runsOf_iff.2 ⟨e,hmem,hchild,hkind,rfl⟩)
  | inspect => exact h
  | resolve name => exact roundtrip_kept K env "resolve" h permits_unnamed
  | stateSet key value => exact roundtrip_kept K env "state-set" h permits_unnamed
  | stateGet key => exact roundtrip_kept K env "state-get" h permits_unnamed
  | audit => exact roundtrip_kept K env "audit" h permits_unnamed
  | ping => exact roundtrip_kept K env "ping" h permits_unnamed
  | kill => exact roundtrip_kept K env "kill" h permits_unnamed

theorem roundtrip_spares {K : Config W N} {env : Surroundings W} {initial reason : String}
    (h : (s.roundtrip K env kind payload initial).1 = .refused reason) :
    (s.roundtrip K env kind payload initial).2.tree = s.tree ∧
      (s.roundtrip K env kind payload initial).2.verifierNames = s.verifierNames ∧
      (s.roundtrip K env kind payload initial).2.ledger = s.ledger := by
  rw [(roundtrip_refused h).2]
  exact ⟨rfl,rfl,rfl⟩

theorem spawnEndpoint_spares (K : Config W N) (identity : String) (endpoint : Option String)
    (s : CbpDriver W N) : (s.spawnEndpoint K identity endpoint).2.tree = s.tree ∧
      (s.spawnEndpoint K identity endpoint).2.verifierNames = s.verifierNames ∧
      (s.spawnEndpoint K identity endpoint).2.ledger = s.ledger := by
  unfold spawnEndpoint childEndpoint
  repeat' split
  all_goals exact ⟨rfl,rfl,rfl⟩

theorem configure_spares {K : Config W N} {env : Surroundings W} {g : Grant} {clearVerifier : Bool}
    {reason : String} (h : Kept authz start s)
    (hseen : SeenTo K authz s (.configure g clearVerifier))
    (href : (s.configure K env g clearVerifier).1 = .refused reason) :
    (s.configure K env g clearVerifier).2.tree = s.tree ∧
      (s.configure K env g clearVerifier).2.verifierNames = s.verifierNames ∧
      (s.configure K env g clearVerifier).2.ledger = s.ledger := by
  have hpeer : s.tree.root.identity = start.tree.root.identity := h.sound.peer
  unfold configure at href ⊢
  cases hvalid : g.validate with
  | error e => simp [hvalid] at href
  | ok _ =>
    simp only [hvalid] at href ⊢
    rcases hseen with hrole | hnames
    · have hchild : field (g.payload K.isolate clearVerifier) "child" = .null := by
        simp only [Grant.payload,Grant.lists,Grant.envelopeItem,Grant.verifierItem,Grant.stores]
        cases g.envelope <;> cases g.verifier <;> cases g.state <;> cases g.trajectory <;>
          cases clearVerifier <;> rfl
      have hnone : (s.noted g).refusal .configure (g.payload K.isolate clearVerifier) = none := by
        refine refusal_of_permits (s := s.noted g) ⟨h.peerAutz,h.sound,h.runs⟩ ?_
        rw [hchild]
        exact hpeer ▸ hrole
      obtain ⟨hsome,_⟩ := roundtrip_refused href
      rw [hnone] at hsome
      exact nomatch hsome
    · have hsame : s.noted g = s := by
        have hfresh : (g.names.filter fun name => name ∉ s.verifierNames) = [] := by
          simpa [List.filter_eq_nil_iff] using hnames
        simp only [noted,hfresh,List.append_nil]
      rw [hsame] at href ⊢
      exact roundtrip_spares href

theorem step_spares {K : Config W N} {i : Call W × Surroundings W} {reason : String}
    (h : Kept authz start s) (hseen : SeenTo K authz s i.1)
    (href : (s.step K i).1 = .refused reason) :
    (s.step K i).2.tree = s.tree ∧ (s.step K i).2.verifierNames = s.verifierNames ∧
      (s.step K i).2.ledger = s.ledger := by
  obtain ⟨c,env⟩ := i
  cases c with
  | register name fn sourceUrl => exact nomatch href
  | configure g clearVerifier => exact configure_spares h hseen href
  | configureChild identity g storeKeys =>
    simp only [step,call,configureChild] at href
    repeat' split at href
    all_goals exact nomatch href
  | configureProvider child provider modelId =>
    simp only [step,call,configureProvider] at href
    repeat' split at href
    all_goals exact nomatch href
  | spawn identity endpoint kind =>
    obtain ⟨htree,hnames,hledger⟩ := spawnEndpoint_spares K identity endpoint s
    simp only [step,call,spawn] at href ⊢
    cases hbound : unbound K (s.spawnEndpoint K identity endpoint).1 with
    | some why => simp [hbound] at href
    | none =>
      simp only [hbound] at href ⊢
      obtain ⟨htree',hnames',hledger'⟩ := roundtrip_spares href
      exact ⟨htree'.trans htree,hnames'.trans hnames,hledger'.trans hledger⟩
  | replay target => exact nomatch href
  | replaySession entries => exact nomatch href
  | inspect => exact nomatch href
  | run task args verifier child sources => exact roundtrip_spares href
  | resolve name => exact roundtrip_spares href
  | stateSet key value => exact roundtrip_spares href
  | stateGet key => exact roundtrip_spares href
  | audit => exact roundtrip_spares href
  | ping => exact roundtrip_spares href
  | kill => exact roundtrip_spares href

theorem kept_new (identity : String) (authz : PeerAuthz) (w : W) :
    Kept authz (new identity (some authz) w : CbpDriver W N) (new identity (some authz) w) where
  peerAutz := rfl
  sound := {
    peer := rfl
    down := fun _ hd => nomatch hd
    across := fun _ hm => nomatch hm
    upward := fun _ hm => nomatch hm
    linked := ⟨rfl,rfl⟩
    authorised := fun _ hc => nomatch hc }
  runs := fun _ he => nomatch he

/-- In every run in which each call is seen to, the tree changes and tasks are called only for
directives that the peer may issue, and a refused call changes nothing. -/
theorem obeys_of_seenTo (K : Config W N) (identity : String) (authz : PeerAuthz) (w : W)
    (calls : List (Call W × Surroundings W))
    (h : Along (step K) (fun s i => SeenTo K authz s i.1) (new identity (some authz) w) calls) :
    Along (step K) (Obeys K authz (new identity (some authz) w)) (new identity (some authz) w)
      calls := by
  have hstep : ∀ (s : CbpDriver W N) (i : Call W × Surroundings W), True →
      Kept authz (new identity (some authz) w) s → SeenTo K authz s i.1 →
      Obeys K authz (new identity (some authz) w) s i ∧
        Kept authz (new identity (some authz) w) (s.step K i).2 := by
    intro s i _ hkept hseen
    have hnext := step_kept K hkept hseen
    exact ⟨⟨hnext.sound.linked,hnext.sound.authorised,fun _ href => step_spares hkept hseen href⟩,
      hnext⟩
  exact (Along.keeps hstep (fun _ _ => trivial) h (kept_new identity authz w)).1

end CbpDriver

namespace Scene
open CbpDriver

def config : Config Unit (Agent Unit) where
  transport := "inproc"
  checkTcpBind _ := none
  isolate := id
  integrity := .off
  agents := .base [] .off

def authz (roles : List String) (subgroup : Option String) : PeerAuthz :=
  PeerAuthz.add ⟨Dict.empty⟩ ⟨"root",roles,subgroup⟩

def driver (roles : List String) (subgroup : Option String) : CbpDriver Unit (Agent Unit) :=
  new "root" (some (authz roles subgroup)) ()

/-- Nothing is late, and every endpoint can be bound. -/
def outside : Outside := ⟨false,.error (.escaped "no file"),.ok (),.ok none,none⟩

/-- The root receives what it is sent, and then what passes between it and a child. -/
def prompt : Surroundings Unit where
  windows := [[.down outside,.across 0 outside,.upward 0,.upward 0]]
  outside := outside
  issued := 0
  fresh _ w := (false,w)

def verifier : Grant := ⟨[],[],[],some "exact",none,false,none,none⟩

def configured : List (Call Unit × Surroundings Unit) :=
  [(.spawn "bills-1" none none,prompt),(.configureChild "bills-1" verifier [],prompt)]

def task : Callable Unit := ⟨"pay",fun _ w => (.ok (.json .null),w),fun _ w => (.ok true,w)⟩

def paid : List (Call Unit × Surroundings Unit) :=
  [(.register "pay" task "",prompt),(.spawn "bills-1" none none,prompt),
    (.configureChild "bills-1" { verifier with tasks := ["pay"],verifier := none } [],prompt),
    (.run "pay" .null none (some (.str "bills-1")) none,prompt),(.kill,prompt)]

def bills : PeerAuthz := authz ["register","spawn","configure","run"] (some "bills-")

theorem bills_permits {child : Option String}
    (hkind : kind.text ∈ ["register","spawn","configure","run"])
    (hchild : child = none ∨ child = some "bills-1") : bills.Permits "root" ⟨kind,child⟩ := by
  refine ⟨_,rfl,hkind,fun c subgroup hc hsubgroup => ?_⟩
  cases hsubgroup
  rcases hchild with hnone | hsome
  · exact absurd (hc.symm.trans hnone) (by simp)
  · cases hc.symm.trans hsome
    decide

theorem paid_seenTo : Along (step config) (fun s i => SeenTo config bills s i.1)
    (driver ["register","spawn","configure","run"] (some "bills-")) paid :=
  ⟨bills_permits (by decide) (.inl rfl),fun _ => bills_permits (by decide) (.inr rfl),
    fun _ => bills_permits (by decide) (.inr rfl),trivial,trivial,trivial⟩

end Scene

/-- A child is spawned, configured and asked, and all of it is authorised. -/
theorem obeys_of_seenTo_bills : Along (CbpDriver.step Scene.config)
    (Obeys Scene.config Scene.bills (CbpDriver.new "root" (some Scene.bills) ()))
    (CbpDriver.new "root" (some Scene.bills) ()) Scene.paid :=
  CbpDriver.obeys_of_seenTo Scene.config "root" Scene.bills () Scene.paid Scene.paid_seenTo

/-- A peer that may only spawn configures a child. -/
theorem unauthorised_configure : ¬ ∀ (K : Config Unit (Agent Unit)) (authz : PeerAuthz)
    (calls : List (Call Unit × Surroundings Unit)), Along (CbpDriver.step K)
      (Obeys K authz (CbpDriver.new "root" (some authz) ())) (CbpDriver.new "root" (some authz) ())
      calls := by
  intro h
  obtain ⟨_,hobeys,_⟩ := h Scene.config (Scene.authz ["spawn"] none) Scene.configured
  have hsome := hobeys.authorised _ (List.mem_append_right _ (List.mem_singleton.2 rfl))
    (.inl fun heq => by
      have hverifier := congrArg (fun t : Tree Unit (Agent Unit) =>
        (t.nodes.get "bills-1").map fun a => a.verifier) heq
      exact absurd hverifier (by decide +kernel))
  obtain ⟨order,horder,policy,hpolicy,hrole,_⟩ := hsome
  cases horder
  cases hpolicy
  exact absurd hrole (by decide)

end Cbp
end AgentCentric

import AgentCentric.Library.Json

namespace AgentCentric.Chains

/-- An event of a trajectory, as far as it is read here. -/
structure Row where
  correlationId : String
  node : String
  kind : String
  verified : Bool
  value : Json
  error : Option String
  parent : String
  sources : Option Json

structure TrajectoryStore where
  rows : List Row
  writeOnce : (rows.map Row.correlationId).Nodup

structure ChainEvent where
  node : String
  kind : String
  verified : Bool
  value : Json
  error : Option String
  parent : String
  sources : Option Json

structure AuditChain where
  correlationId : String
  events : List ChainEvent
  verified : Bool
  terminal : String
  terminalValue : Json
  terminalError : Option String

def Row.event (row : Row) : ChainEvent :=
  ⟨row.node,row.kind,row.verified,row.value,row.error,row.parent,row.sources⟩

def orderChain (events : List ChainEvent) : List ChainEvent :=
  let nonRelay := events.filter fun e => e.kind ≠ "relay"
  let relays := events.filter fun e => e.kind = "relay"
  nonRelay ++ relays.insertionSort fun a b => a.parent ≤ b.parent

def chainOf (correlationId : String) (ordered : List ChainEvent) : AuditChain :=
  let terminal := ordered.getLast?
  { correlationId := correlationId
    events := ordered
    verified := ordered.all ChainEvent.verified
    terminal := (terminal.map ChainEvent.kind).getD "unknown"
    terminalValue := (terminal.map ChainEvent.value).getD .null
    terminalError := terminal.bind ChainEvent.error }

def allRows (stores : Dict String TrajectoryStore) : List Row :=
  stores.entries.flatMap fun e => e.2.rows

def eventsByCid (stores : Dict String TrajectoryStore) : Dict String (List ChainEvent) :=
  .group Row.correlationId Row.event (allRows stores)

def reconstructChains (stores : Dict String TrajectoryStore) : List AuditChain :=
  ((eventsByCid stores).keys.insertionSort (· ≤ ·)).map fun cid =>
    chainOf cid (orderChain (((eventsByCid stores).get cid).getD []))

def Relayed : Row → List Row → Prop
  | _, [] => True
  | child, row :: rest => row.kind = "relay" ∧ row.parent = child.node ∧ Relayed row rest

structure Linear (correlationId : String) (origin : Row) (relays : List Row) : Prop where
  concerns : ∀ row ∈ origin :: relays, row.correlationId = correlationId
  begun : origin.kind ≠ "relay"
  relayed : Relayed origin relays
  distinct : ((origin :: relays).map Row.node).Nodup

structure Recorded (stores : Dict String TrajectoryStore) (correlationId : String)
    (rows : List Row) : Prop where
  there : ∀ row ∈ rows, ∃ store, stores.get row.node = some store ∧ row ∈ store.rows
  only : ∀ name store, stores.get name = some store → ∀ row ∈ store.rows,
    row.correlationId = correlationId → row.node = name ∧ row ∈ rows

def Reconstructed (stores : Dict String TrajectoryStore) (correlationId : String) (origin : Row)
    (relays : List Row) : Prop :=
  let rows := origin :: relays
  let top := rows.getLast (List.cons_ne_nil origin relays)
  ∃ verified, ((reconstructChains stores).filter fun c => c.correlationId = correlationId) =
    [⟨correlationId,rows.map Row.event,verified,top.kind,top.value,top.error⟩]

/-- The names of the nodes that are relayed go up in the order of texts. -/
def Ascending (relays : List Row) : Prop := (relays.map Row.parent).Pairwise (· < ·)

variable {stores : Dict String TrajectoryStore} {correlationId : String} {origin : Row}
  {relays rows : List Row}

theorem Relayed.kind {child : Row} {rest : List Row} (h : Relayed child rest) :
    ∀ row ∈ rest, row.kind = "relay" := by
  induction rest generalizing child with
  | nil => exact nofun
  | cons next rest ih =>
    intro row hrow
    rcases List.mem_cons.1 hrow with rfl | hrow
    · exact h.1
    · exact ih h.2.2 row hrow

theorem Relayed.parents {child : Row} {rest : List Row} (h : Relayed child rest) :
    rest.map Row.parent = ((child :: rest).map Row.node).dropLast := by
  induction rest generalizing child with
  | nil => rfl
  | cons row rest ih =>
    obtain ⟨-,hparent,hrest⟩ := h
    rw [List.map_cons,hparent,ih hrest]
    rfl

theorem Linear.parents_nodup (h : Linear correlationId origin relays) :
    (relays.map Row.parent).Nodup := by
  rw [h.relayed.parents]
  exact h.distinct.sublist (List.dropLast_sublist _)

theorem Recorded.nodup (h : Recorded stores correlationId rows) :
    ((allRows stores).filter fun row => row.correlationId = correlationId).Nodup := by
  rw [allRows,List.filter_flatMap,List.nodup_flatMap]
  constructor
  · exact fun e _ => (List.Nodup.of_map Row.correlationId e.2.writeOnce).filter _
  · have hkeys : stores.entries.Pairwise fun e e' => e.1 ≠ e'.1 := List.pairwise_map.1 stores.nodup
    refine hkeys.imp_of_mem fun {e e'} he he' hne row hrow hrow' => hne ?_
    have hnode (e : String × TrajectoryStore) (he : e ∈ stores.entries)
        (hrow : row ∈ e.2.rows.filter fun row => row.correlationId = correlationId) :
        row.node = e.1 := by
      obtain ⟨hmem,hid⟩ := List.mem_filter.1 hrow
      have hget : stores.get e.1 = some e.2 := (Dict.lookup_eq_some_iff stores.nodup).2 he
      exact (h.only e.1 e.2 hget row hmem (of_decide_eq_true hid)).1
    exact (hnode e he hrow).symm.trans (hnode e' he' hrow')

theorem Recorded.perm (h : Recorded stores correlationId rows)
    (hconcerns : ∀ row ∈ rows, row.correlationId = correlationId) (hnodup : rows.Nodup) :
    ((allRows stores).filter fun row => row.correlationId = correlationId).Perm rows := by
  refine (List.perm_ext_iff_of_nodup h.nodup hnodup).2 fun row => ?_
  simp only [allRows,List.mem_filter,List.mem_flatMap,decide_eq_true_eq]
  constructor
  · rintro ⟨⟨e,he,hrow⟩,hid⟩
    have hget : stores.get e.1 = some e.2 := (Dict.lookup_eq_some_iff stores.nodup).2 he
    exact (h.only e.1 e.2 hget row hrow hid).2
  · intro hrow
    obtain ⟨store,hstore,hmem⟩ := h.there row hrow
    have hentry : (row.node,store) ∈ stores.entries :=
      (Dict.lookup_eq_some_iff stores.nodup).1 hstore
    exact ⟨⟨_,hentry,hmem⟩,hconcerns row hrow⟩

theorem sorted_iff {events sorted : List ChainEvent} (hperm : events.Perm sorted)
    (hnodup : (sorted.map ChainEvent.parent).Nodup) :
    events.insertionSort (fun a b => a.parent ≤ b.parent) = sorted ↔
      (sorted.map ChainEvent.parent).Pairwise (· < ·) := by
  have : Std.Total fun a b : ChainEvent => a.parent ≤ b.parent :=
    ⟨fun a b => le_total a.parent b.parent⟩
  have : IsTrans ChainEvent fun a b => a.parent ≤ b.parent := ⟨fun a b c => le_trans⟩
  constructor
  · intro h
    have hle : sorted.Pairwise fun a b => a.parent ≤ b.parent := by
      rw [← h]
      exact List.pairwise_insertionSort _ events
    exact ((List.pairwise_map.2 hle).and hnodup).imp fun h => lt_of_le_of_ne h.1 h.2
  · intro h
    have hle : sorted.Pairwise fun a b => a.parent ≤ b.parent :=
      (List.pairwise_map.1 h).imp fun h => h.le
    have hsame : ∀ a ∈ events, ∀ b ∈ events, a.parent ≤ b.parent → b.parent ≤ a.parent →
        a = b := by
      intro a ha b hb hab hba
      exact List.inj_on_of_nodup_map hnodup (hperm.mem_iff.1 ha) (hperm.mem_iff.1 hb)
        (le_antisymm hab hba)
    rw [insertionSort_congr _ hperm hsame]
    exact hle.insertionSort_eq

theorem orderChain_iff (h : Linear correlationId origin relays) {events : List ChainEvent}
    (hperm : events.Perm ((origin :: relays).map Row.event)) :
    orderChain events = (origin :: relays).map Row.event ↔ Ascending relays := by
  have hparents : (relays.map Row.event).map ChainEvent.parent = relays.map Row.parent := by
    rw [List.map_map]
    rfl
  have hnone : (relays.map Row.event).filter (fun e => e.kind ≠ "relay") = [] := by
    rw [List.filter_eq_nil_iff]
    intro e he
    obtain ⟨row,hrow,rfl⟩ := List.mem_map.1 he
    simpa using show row.event.kind = "relay" from h.relayed.kind row hrow
  have hall : (relays.map Row.event).filter (fun e => e.kind = "relay") =
      relays.map Row.event := by
    rw [List.filter_eq_self]
    intro e he
    obtain ⟨row,hrow,rfl⟩ := List.mem_map.1 he
    simpa using show row.event.kind = "relay" from h.relayed.kind row hrow
  have hbegun : origin.event.kind ≠ "relay" := h.begun
  have horigin : events.filter (fun e => e.kind ≠ "relay") = [origin.event] := by
    have hfiltered := hperm.filter fun e => e.kind ≠ "relay"
    rw [List.map_cons,List.filter_cons_of_pos (by simpa using hbegun),hnone] at hfiltered
    exact List.perm_singleton.1 hfiltered
  have hrelays : (events.filter fun e => e.kind = "relay").Perm (relays.map Row.event) := by
    have hfiltered := hperm.filter fun e => e.kind = "relay"
    rwa [List.map_cons,List.filter_cons_of_neg (by simpa using hbegun),hall] at hfiltered
  rw [orderChain,horigin,List.map_cons,List.singleton_append,List.cons_inj_right]
  rw [sorted_iff hrelays (hparents ▸ h.parents_nodup),hparents,Ascending]

theorem chain_of_id (h : ((eventsByCid stores).get correlationId).isSome) :
    ((reconstructChains stores).filter fun c => c.correlationId = correlationId) =
      [chainOf correlationId (orderChain (((eventsByCid stores).get correlationId).getD []))] := by
  have hmem : correlationId ∈ (eventsByCid stores).keys.insertionSort (· ≤ ·) := by
    rw [List.mem_insertionSort]
    exact (Dict.lookup_isSome _ _).1 h
  have hnodup : ((eventsByCid stores).keys.insertionSort (· ≤ ·)).Nodup :=
    (List.perm_insertionSort _ _).nodup_iff.2 (eventsByCid stores).nodup
  rw [reconstructChains,List.filter_map]
  have hfilter : ((eventsByCid stores).keys.insertionSort (· ≤ ·)).filter
      ((fun c : AuditChain => decide (c.correlationId = correlationId)) ∘ fun cid =>
        chainOf cid (orderChain (((eventsByCid stores).get cid).getD []))) = [correlationId] := by
    refine (List.filter_eq correlationId).trans ?_
    rw [List.count_eq_one_of_mem hnodup hmem]
    rfl
  rw [hfilter,List.map_singleton]

/-- For every linear chain of delegations, and every order of the stores, the chain is
reconstructed from its origin up to the top, where the names of what is relayed go up. -/
theorem reconstructed_iff (hlinear : Linear correlationId origin relays)
    (hrecorded : Recorded stores correlationId (origin :: relays)) :
    Reconstructed stores correlationId origin relays ↔ Ascending relays := by
  have hnodup : (origin :: relays).Nodup := List.Nodup.of_map Row.node hlinear.distinct
  have hperm := hrecorded.perm hlinear.concerns hnodup
  have hsome : ((eventsByCid stores).get correlationId).isSome := by
    have horigin : origin ∈ allRows stores :=
      List.mem_of_mem_filter (hperm.mem_iff.2 List.mem_cons_self)
    obtain ⟨events,hevents,-⟩ : ∃ events, (Dict.group Row.correlationId Row.event
        (allRows stores)).get origin.correlationId = some events ∧ origin.event ∈ events :=
      Dict.group_of_mem horigin
    rw [hlinear.concerns origin List.mem_cons_self] at hevents
    rw [eventsByCid,hevents]
    rfl
  have hevents : ((eventsByCid stores).get correlationId).getD [] =
      ((allRows stores).filter fun row => row.correlationId = correlationId).map Row.event :=
    Dict.get_group _ _ _ _
  have hordered : (((eventsByCid stores).get correlationId).getD []).Perm
      ((origin :: relays).map Row.event) := hevents ▸ hperm.map Row.event
  have horder := orderChain_iff hlinear hordered
  rw [← horder,Reconstructed,chain_of_id hsome]
  simp only [List.cons.injEq,and_true]
  constructor
  · rintro ⟨verified,hchain⟩
    exact congrArg AuditChain.events hchain
  · intro hordered
    rw [hordered]
    have hlast : ((origin :: relays).map Row.event).getLast? =
        some ((origin :: relays).getLast (List.cons_ne_nil origin relays)).event := by
      rw [List.getLast?_map,List.getLast?_eq_some_getLast (List.cons_ne_nil origin relays)]
      rfl
    refine ⟨((origin :: relays).map Row.event).all ChainEvent.verified,?_⟩
    rw [chainOf,hlast]
    rfl

namespace Scene

def apart (rows : List Row) (h : (rows.map Row.node).Nodup) : Dict String TrajectoryStore :=
  ⟨rows.map fun row => (row.node,⟨[row],by simp⟩),by rwa [List.map_map]⟩

theorem apart_recorded {correlationId : String} {rows : List Row}
    (h : (rows.map Row.node).Nodup) : Recorded (apart rows h) correlationId rows := by
  have hget {name : String} {store : TrajectoryStore} : (apart rows h).get name = some store ↔
      ∃ row ∈ rows, row.node = name ∧ (⟨[row],by simp⟩ : TrajectoryStore) = store := by
    refine (Dict.lookup_eq_some_iff (apart rows h).nodup).trans ?_
    simp [apart]
  constructor
  · exact fun row hrow => ⟨_,hget.2 ⟨row,hrow,rfl,rfl⟩,List.mem_singleton.2 rfl⟩
  · intro name store hstore row hrow _
    obtain ⟨row',hrow',hname,rfl⟩ := hget.1 hstore
    rw [List.mem_singleton.1 hrow]
    exact ⟨hname,hrow'⟩

def outcome (node : String) : Row :=
  ⟨"run-1",node,"result",true,.int 7,none,"",none⟩

def relay (node child : String) : Row :=
  ⟨"run-1",node,"relay",true,.int 7,none,child,none⟩

def chain (below middle : String) : List Row := [relay middle below,relay "root" middle]

theorem chain_linear {below middle : String}
    (h : ((outcome below :: chain below middle).map Row.node).Nodup) :
    Linear "run-1" (outcome below) (chain below middle) where
  concerns row hrow := by
    simp only [chain,List.mem_cons,List.not_mem_nil,or_false] at hrow
    rcases hrow with rfl | rfl | rfl <;> rfl
  begun := show "result" ≠ "relay" by decide
  relayed := ⟨rfl,rfl,rfl,rfl,trivial⟩
  distinct := h

theorem crossed_nodup : ((outcome "b" :: chain "b" "a").map Row.node).Nodup := by decide

end Scene

theorem reconstructed_ab : Reconstructed (Scene.apart _ (show ((Scene.outcome "a" ::
    Scene.chain "a" "b").map Row.node).Nodup by decide)) "run-1" (Scene.outcome "a")
      (Scene.chain "a" "b") :=
  (reconstructed_iff (Scene.chain_linear (by decide)) (Scene.apart_recorded (by decide))).2
    (by unfold Ascending; decide)

/-- The middle node comes before the one below it in the order of texts. -/
theorem crossed_order : ¬ ∀ (stores : Dict String TrajectoryStore) (correlationId : String)
    (origin : Row) (relays : List Row), Linear correlationId origin relays →
      Recorded stores correlationId (origin :: relays) →
      Reconstructed stores correlationId origin relays := by
  intro h
  obtain ⟨verified,hchain⟩ := h _ "run-1" (Scene.outcome "b") (Scene.chain "b" "a")
    (Scene.chain_linear Scene.crossed_nodup) (Scene.apart_recorded Scene.crossed_nodup)
  have hnodes := congrArg (fun cs : List AuditChain => cs.flatMap fun c =>
    c.events.map ChainEvent.node) hchain
  exact absurd (hnodes.trans (show _ = ["b","a","root"] from rfl)) (by decide +kernel)

end AgentCentric.Chains

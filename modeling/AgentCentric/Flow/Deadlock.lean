import AgentCentric.Flow.Delivery

namespace AgentCentric.Flow
open Network Machine

/-- No component is ready: each one has an active emitter, or is a spent source, or waits
for a packet. -/
def Quiet (p : Plan) (s : State) : Prop :=
  ∀ c ∈ p.order, s.emitters c.id = none →
    (p.incoming c.id = [] ∧ c.id ∈ s.spentSources) ∨
      ∃ k ∈ p.incoming c.id, s.buffers.queue k.id = []

def NoSend (s : State) : Prop :=
  ∀ id e, s.emitters id = some e →
    (e.step s.buffers).status = .blocked ∧ (e.step s.buffers).buffers = s.buffers

/-- Some idle component lacks only packets that suspended emitters will still deliver in a
pass that leaves every one of them blocked. -/
def Woken (p : Plan) (s : State) : Prop :=
  ∃ c ∈ p.order, s.emitters c.id = none ∧ p.incoming c.id ≠ [] ∧
    ∀ k ∈ p.incoming c.id, s.buffers.queue k.id ≠ [] ∨
      ∃ e, s.emitters k.source = some e ∧ k ∈ e.frontier s.buffers

variable {wires : List Connection} {e : Emitter}

namespace Emitter

/-- The first connection in line is full. -/
def Stuck (e : Emitter) (b : Buffers) : Prop :=
  ∃ v t rest, e.pending = some (v,t :: rest) ∧ b.isFull t.1 = true

theorem Stuck.step {b : Buffers} (h : e.Stuck b) : e.step b = ⟨.blocked,e,b⟩ := by
  obtain ⟨v,⟨c,required⟩,rest,hpending,hfull⟩ := h
  obtain ⟨streams,pending⟩ := e
  simp only at hpending hfull
  subst hpending
  simp [Emitter.step,front,resume,flush,hfull]

theorem isFull_congr {b b' : Buffers} {c : Connection} (h : b'.queue c.id = b.queue c.id) :
    b'.isFull c = b.isFull c := by
  simp [Buffers.isFull,h]

theorem Stuck.congr {id : String} {b b' : Buffers} (hok : e.Ok wires id) (h : e.Stuck b)
    (hsame : ∀ w ∈ wires, w.source = id → b'.queue w.id = b.queue w.id) : e.Stuck b' := by
  obtain ⟨v,t,rest,hpending,hfull⟩ := h
  obtain ⟨hwire,hsource⟩ := (hok.pending v _ hpending).wire t.1 (by simp)
  exact ⟨v,t,rest,hpending,by rw [isFull_congr (hsame t.1 hwire hsource)]; exact hfull⟩

theorem frontier_congr {id : String} {b b' : Buffers} (hok : e.Ok wires id)
    (hsame : ∀ w ∈ wires, w.source = id → b'.queue w.id = b.queue w.id) :
    e.frontier b' = e.frontier b := by
  unfold frontier
  split
  · rename_i v ts streams hfront
    have hts := (front_ok hok hfront).1
    have hfull : ∀ c ∈ ts.map Prod.fst, b'.isFull c = b.isFull c := fun c hc =>
      isFull_congr (hsame c (hts.wire c hc).1 (hts.wire c hc).2)
    generalize ts.map Prod.fst = cs at hfull
    induction cs with
    | nil => rfl
    | cons c cs ih =>
      have hrest := ih fun c' hc' => hfull c' (List.mem_cons_of_mem _ hc')
      simp [List.takeWhile_cons,hfull c (by simp),hrest]
  · rfl

theorem step_blocked {id : String} {b : Buffers}
    (hids : DistinctIds wires) (hok : e.Ok wires id) (h : (e.step b).status = .blocked) :
    (e.step b).emitter.Stuck (e.step b).buffers ∧ ∀ w ∈ wires, w.source = id →
        ((e.step b).buffers.queue w.id ≠ [] ↔ b.queue w.id ≠ [] ∨ w ∈ e.frontier b) := by
  have hmoved := step_moved b hids hok
  generalize e.step b = st at hmoved h
  cases hmoved with
  | done _ => cases h
  | progress => cases h
  | mismatch => cases h
  | blocked v done t rest streams hfront hroom hfull =>
    have hts := (front_ok hok hfront).1
    have hfrontier : e.frontier b = done.map Prod.fst := by
      have hall : ∀ c ∈ done.map Prod.fst, (!b.isFull c) = true := by
        intro c hc
        obtain ⟨t',ht',rfl⟩ := List.mem_map.mp hc
        simp [(hroom t' ht').1]
      simp [frontier,hfront,List.takeWhile_append_of_pos hall,hfull]
    have hnot : Targets.has done t.1 = false := by
      rw [Bool.eq_false_iff]
      intro hin
      have hnodup := hts.nodup
      simp only [List.map_append,List.nodup_append] at hnodup
      exact hnodup.2.2 t.1 (Targets.has_eq_true.mp hin) t.1 (by simp) rfl
    refine ⟨⟨v,t,rest,rfl,?_⟩,fun w hw _ => ?_⟩
    · have hqueue := putAll_queue v b hids hts.left (hts.wire t.1 (by simp)).1
      rw [hnot] at hqueue
      rw [isFull_congr (by simpa using hqueue)]
      exact hfull
    · rw [putAll_queue v b hids hts.left hw,hfrontier,← Targets.has_eq_true]
      by_cases hin : Targets.has done w = true
      · simp [hin]
      · simp [hin]

end Emitter

/-- What a pass does in which every emitter of `ids` turns out to be blocked. -/
structure Stalled (wires : List Connection) (ids : List String)
    (emitters emitters' : String → Option Emitter) (b b' : Buffers) : Prop where
  others : ∀ id, id ∉ ids → emitters' id = emitters id
  frame : ∀ w ∈ wires, w.source ∉ ids → b'.queue w.id = b.queue w.id
  idle : ∀ id, emitters' id = none ↔ emitters id = none
  stuck : ∀ id ∈ ids, ∀ e', emitters' id = some e' → e'.Stuck b'
  woken : ∀ w ∈ wires, w.source ∈ ids → (b'.queue w.id ≠ [] ↔ b.queue w.id ≠ [] ∨
    ∃ e, emitters w.source = some e ∧ w ∈ e.frontier b)

theorem round_stalled {ids : List String}
    {emitters : String → Option Emitter} {b : Buffers} (hids : DistinctIds wires)
    (hok : ∀ id e, emitters id = some e → e.Ok wires id) (hnodup : ids.Nodup)
    (h : (round ids emitters b).status = .blocked) :
    Stalled wires ids emitters (round ids emitters b).emitters b
      (round ids emitters b).buffers := by
  induction ids generalizing emitters b with
  | nil => exact ⟨fun _ _ => rfl,fun _ _ _ => rfl,fun _ => Iff.rfl,by simp,by simp⟩
  | cons id rest ih =>
    simp only [List.nodup_cons] at hnodup
    cases he : emitters id with
    | none =>
      rw [round_cons_none b he] at h ⊢
      have hrest := ih hok hnodup.2 h
      refine ⟨fun id' h' => ?_,fun w hw h' => ?_,hrest.idle,fun id' h' e' he' => ?_,
        fun w hw h' => ?_⟩
      · exact hrest.others id' fun hin => h' (List.mem_cons_of_mem _ hin)
      · exact hrest.frame w hw fun hin => h' (List.mem_cons_of_mem _ hin)
      · cases List.mem_cons.mp h' with
        | inl heq =>
          subst heq
          rw [(hrest.idle id').mpr he] at he'
          cases he'
        | inr hin => exact hrest.stuck id' hin e' he'
      · cases List.mem_cons.mp h' with
        | inl heq =>
          rw [hrest.frame w hw (heq ▸ hnodup.1),heq]
          simp [he]
        | inr hin => exact hrest.woken w hw hin
    | some e =>
      rw [round_cons_some b he] at h ⊢
      by_cases hblocked : (e.step b).status = .blocked
      · rw [if_pos hblocked] at h ⊢
        have hmoved := Emitter.step_moved b hids (hok id e he)
        obtain ⟨hstuck,hserved⟩ := Emitter.step_blocked hids (hok id e he) hblocked
        have hok' : ∀ id' e', Function.update emitters id (some (e.step b).emitter) id' = some e' →
            e'.Ok wires id' :=
          forall_update_some hok (hmoved.ok (hok id e he))
        have hrest := ih hok' hnodup.2 h
        -- the later emitters leave the wires of this one alone
        have hkept : ∀ w ∈ wires, w.source = id →
            (round rest (Function.update emitters id (some (e.step b).emitter))
              (e.step b).buffers).buffers.queue w.id = (e.step b).buffers.queue w.id :=
          fun w hw hsource => hrest.frame w hw (hsource ▸ hnodup.1)
        refine ⟨fun id' h' => ?_,fun w hw h' => ?_,fun id' => ?_,fun id' h' e' he' => ?_,
          fun w hw h' => ?_⟩
        · simp only [List.mem_cons,not_or] at h'
          rw [hrest.others id' h'.2,Function.update_of_ne h'.1]
        · simp only [List.mem_cons,not_or] at h'
          rw [hrest.frame w hw h'.2]
          exact hmoved.elsewhere hids (hok id e he) hw h'.1
        · rw [hrest.idle id']
          by_cases hid : id' = id
          · simp [hid,he]
          · rw [Function.update_of_ne hid]
        · cases List.mem_cons.mp h' with
          | inl heq =>
            subst heq
            rw [hrest.others id' hnodup.1,Function.update_self] at he'
            cases he'
            exact hstuck.congr (hmoved.ok (hok id' e he)) hkept
          | inr hin => exact hrest.stuck id' hin e' he'
        · cases List.mem_cons.mp h' with
          | inl heq =>
            rw [hkept w hw heq,hserved w hw heq,heq]
            simp [he]
          | inr hin =>
            have hne : w.source ≠ id := fun heq => hnodup.1 (heq ▸ hin)
            rw [hrest.woken w hw hin,hmoved.elsewhere hids (hok id e he) hw hne,
              Function.update_of_ne hne]
            have hfrontier : ∀ e', emitters w.source = some e' →
                e'.frontier (e.step b).buffers = e'.frontier b := fun e' he' =>
              Emitter.frontier_congr (hok _ e' he') fun k hk hsource =>
                hmoved.elsewhere hids (hok id e he) hk (hsource ▸ hne)
            cases he' : emitters w.source with
            | none => simp
            | some e' => simp [hfrontier e' he']
      · rw [if_neg hblocked] at h
        exact absurd h hblocked

theorem allBlocked_turn {d : Driver} {p : Plan} {s s' : State} (hp : p.Sound)
    (h : schedulerStep d p s = .halt .allBlocked s') :
    ready p s = [] ∧ s' = s.passed (round (producers p s) s.emitters s.buffers) ∧
      (round (producers p s) s.emitters s.buffers).status = .blocked := by
  have hturn := schedulerStep_turn (d := d) hp s
  rw [h] at hturn
  generalize ho : Outcome.halt Verdict.allBlocked s' = o at hturn
  cases hturn with
  | activation c _ _ _ hact => cases hact <;> cases ho
  | emission hready _ =>
    unfold emit at ho
    simp only at ho
    split at ho
    · rename_i hstatus
      cases ho
      exact ⟨hready,rfl,hstatus⟩
    · cases ho
    · cases ho
    · split at ho <;> cases ho
  | settled _ _ =>
    unfold settle at ho
    split at ho <;> cases ho

/-- The last pass may still serve an idle component before it finds its emitter blocked, so
"no component is ready" was checked too early. The message is true exactly when no idle
component gets its last missing packets in that pass; that every emitter is blocked is
always true. -/
theorem allBlocked_quiet_iff {d : Driver} {net : ComponentNetwork} {stepLimit : Option Int}
    {p : Plan} {s s' : State} (hprep : prepare net stepLimit = .ok p)
    (h : Halts (schedulerStep d p) .initial s .allBlocked s') :
    (Quiet p s' ∧ NoSend s') ↔ ¬ Woken p s := by
  have hp := prepare_sound hprep
  have hinv := Conserved.reaches hp h.reaches
  obtain ⟨hready,rfl,hstatus⟩ := allBlocked_turn hp h.last
  have hstall := round_stalled hp.distinct hinv.carries.ok (hp.producers_nodup s) hstatus
  have hproducer : ∀ id e, s.emitters id = some e → id ∈ producers p s := fun id e he =>
    mem_producers.mpr ⟨hinv.scheduled id e he,by simp [he]⟩
  have hqueue : ∀ w ∈ p.connections,
      ((s.passed (round (producers p s) s.emitters s.buffers)).buffers.queue w.id ≠ [] ↔
        s.buffers.queue w.id ≠ [] ∨
          ∃ e, s.emitters w.source = some e ∧ w ∈ e.frontier s.buffers) := by
    intro w hw
    by_cases hin : w.source ∈ producers p s
    · exact hstall.woken w hw hin
    · have hidle : s.emitters w.source = none := by
        cases he : s.emitters w.source with
        | none => rfl
        | some e => exact absurd (hproducer _ e he) hin
      have hframe := hstall.frame w hw hin
      simp [State.passed,hframe,hidle]
  constructor
  · intro hgood hwoken
    obtain ⟨c,hc,hidle,hwired,hfed⟩ := hwoken
    cases hgood.1 c hc ((hstall.idle c.id).mpr hidle) with
    | inl hspent => exact hwired hspent.1
    | inr hwait =>
      obtain ⟨k,hk,hempty⟩ := hwait
      exact (hqueue k (mem_incoming.mp hk).1).mpr (hfed k hk) hempty
  · intro hnot
    refine ⟨fun c hc hidle => ?_,fun id e' he' => ?_⟩
    · have hidle' := (hstall.idle c.id).mp hidle
      have hunready : ¬ Ready p s c := fun hr => by
        have hin := mem_ready.mpr ⟨hc,hr⟩
        simp [hready] at hin
      by_cases hsource : p.incoming c.id = []
      · refine .inl ⟨hsource,?_⟩
        by_contra hspent
        have hnone := wired_nil.mpr hsource
        exact hunready ⟨hidle',fun _ => hspent,by simp [hnone]⟩
      · by_contra hwait
        simp only [not_or,not_exists,not_and] at hwait
        exact hnot ⟨c,hc,hidle',hsource,fun k hk =>
          (hqueue k (mem_incoming.mp hk).1).mp (hwait.2 k hk)⟩
    · have hin : id ∈ producers p s := by
        cases he : s.emitters id with
        | none =>
          rw [show (s.passed (round (producers p s) s.emitters s.buffers)).emitters id = none from
            (hstall.idle id).mpr he] at he'
          cases he'
        | some e => exact hproducer id e he
      have hstuck := (hstall.stuck id hin e' he').step
      exact ⟨congrArg Stepped.status hstuck,congrArg Stepped.buffers hstuck⟩

/-- Two sources fan out to a sink each and to `d`; the output of `c` is what `d` waits for. -/
def crossing : ComponentNetwork :=
  .mk [part "a" [] ["o"] ["o"],part "z" [] ["o"] ["o"],part "b" ["s","t"] [] [],
      part "c" ["p"] ["y"] ["y"],part "d" ["v","x","y"] [] []]
    [⟨"a","o","b","s",1⟩,⟨"a","o","c","p",1⟩,⟨"a","o","d","x",1⟩,
      ⟨"z","o","b","t",1⟩,⟨"z","o","d","v",1⟩,⟨"c","y","d","y",1⟩] []

def crossingPlan : Plan := ⟨crossing,schedule crossing,connectionsOf crossing.edges,512⟩

/-- `c` drops the first packet and answers the second with two. -/
def crossingDriver : Driver := .ofFunction fun r =>
  let value := match r.task,r.args.get "p" with
    | "a",_ => .list [.int 1,.int 2]
    | "z",_ => .list [.int 1,.int 2]
    | "c",some (.int 1) => .list []
    | "c",_ => .list [.int 7,.int 8]
    | _,_ => .null
  .ok ⟨true,value,none⟩

theorem crossing_halts :
    ∃ s s', Halts (schedulerStep crossingDriver crossingPlan) .initial s .allBlocked s' ∧
      (ready crossingPlan s').map (·.id) = ["c","b"] := by
  have hrun : ((runLoop crossingDriver crossingPlan).map fun e =>
      (e.verdict,(ready crossingPlan e.final).map (·.id))) = some (.allBlocked,["c","b"]) := by
    decide
  cases he : runLoop crossingDriver crossingPlan with
  | none => simp [he] at hrun
  | some e =>
    simp only [he,Option.map_some,Option.some.injEq,Prod.mk.injEq] at hrun
    have hhalts := run_halts he
    rw [hrun.1] at hhalts
    exact ⟨e.last,e.final,hhalts,hrun.2⟩

theorem allBlocked_quiet_iff_crossing :
    ∃ s s', Halts (schedulerStep crossingDriver crossingPlan) .initial s .allBlocked s' ∧
      ((Quiet crossingPlan s' ∧ NoSend s') ↔ ¬ Woken crossingPlan s) := by
  have hprep : prepare crossing none = .ok crossingPlan := rfl
  obtain ⟨s,s',hhalts,_⟩ := crossing_halts
  exact ⟨s,s',hhalts,allBlocked_quiet_iff hprep hhalts⟩

/-- The deadlock is reported while `b` and `c` have all their packets. -/
theorem allBlocked_not_quiet :
    ∃ s s', prepare crossing none = .ok crossingPlan ∧
      Halts (schedulerStep crossingDriver crossingPlan) .initial s .allBlocked s' ∧
      ¬ Quiet crossingPlan s' := by
  obtain ⟨s,s',hhalts,hready⟩ := crossing_halts
  refine ⟨s,s',rfl,hhalts,fun hquiet => ?_⟩
  cases hlist : ready crossingPlan s' with
  | nil => simp [hlist] at hready
  | cons c rest =>
    obtain ⟨hc,hr⟩ := mem_ready.mp (hlist ▸ List.mem_cons_self : c ∈ ready crossingPlan s')
    cases hquiet c hc hr.idle with
    | inl hspent => exact hr.unspent (wired_nil.mpr hspent.1) hspent.2
    | inr hwait =>
      obtain ⟨k,hk,hempty⟩ := hwait
      exact hr.fed k (mem_wired.mpr (mem_incoming.mp hk)) hempty

end AgentCentric.Flow

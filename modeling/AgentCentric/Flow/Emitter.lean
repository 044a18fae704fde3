import AgentCentric.Flow.Connection
import AgentCentric.Library.Machine

namespace AgentCentric.Flow
open Network

abbrev Targets := List (Connection × ValueType)

/-- One stream of an emitter: the connections its elements fan out to, and what is
left of its iterator. -/
structure OutStream where
  targets : Targets
  elements : Stream'.Seq Value

/-- `_Emitter`: the streams still to drain, and the element in flight with the
connections that have not received it yet. -/
structure Emitter where
  streams : List OutStream
  pending : Option (Value × Targets)

def Emitter.isEmpty (e : Emitter) : Bool := e.streams.isEmpty && e.pending.isNone

/-- What became of the element in flight; `rest` are the connections it has not
reached. -/
inductive Flush where
  | sent : Buffers → Flush
  | blocked : Buffers → Targets → Flush
  | mismatch : String → Buffers → Targets → Flush

/-- The inner loop of `step`: the element goes to one connection after the other
until a full one blocks it. -/
def flush (v : Value) : Targets → Buffers → Flush
  | [], b => .sent b
  | (c,required) :: rest, b =>
      if b.isFull c then .blocked b ((c,required) :: rest)
      else if valueMatchesType v required then flush v rest (b.put c v)
      else .mismatch (mismatchText c.text required) b ((c,required) :: rest)

/-- `next(iterator)` of the first stream that has an element; exhausted streams are
dropped. -/
def pull : List OutStream → Option (Value × Targets × List OutStream)
  | [] => none
  | s :: rest =>
      match s.elements.destruct with
      | none => pull rest
      | some (v,elements) => some (v,s.targets,⟨s.targets,elements⟩ :: rest)

inductive Status where
  | progress : Status
  | blocked : Status
  | done : Status
  | mismatch : String → Status
  deriving DecidableEq, Repr

structure Stepped where
  status : Status
  emitter : Emitter
  buffers : Buffers

def resume (streams : List OutStream) (v : Value) (targets : Targets) (b : Buffers) : Stepped :=
  match flush v targets b with
  | .sent b' => ⟨.progress,⟨streams,none⟩,b'⟩
  | .blocked b' rest => ⟨.blocked,⟨streams,some (v,rest)⟩,b'⟩
  | .mismatch message b' rest => ⟨.mismatch message,⟨streams,some (v,rest)⟩,b'⟩

/-- The element in flight, after `next` where there is none. -/
def Emitter.front (e : Emitter) : Option (Value × Targets × List OutStream) :=
  match e.pending with
  | some (v,targets) => some (v,targets,e.streams)
  | none => pull e.streams

def Emitter.step (e : Emitter) (b : Buffers) : Stepped :=
  match e.front with
  | none => ⟨.done,⟨[],none⟩,b⟩
  | some (v,targets,streams) => resume streams v targets b

def Targets.has (ts : Targets) (w : Connection) : Bool := w ∈ ts.map Prod.fst

variable {w : Connection} {ts : Targets}

theorem Targets.has_eq_true : ts.has w = true ↔ w ∈ ts.map Prod.fst := by
  simp [Targets.has]

theorem Targets.has_cons {c w : Connection} {required : ValueType} :
    Targets.has ((c,required) :: ts) w = (decide (w = c) || ts.has w) := by
  rw [Bool.eq_iff_iff]
  simp [Targets.has]

theorem Targets.has_append {done rest : Targets} :
    Targets.has (done ++ rest) w = (done.has w || rest.has w) := by
  rw [Bool.eq_iff_iff]
  simp [Targets.has]

/-- The connections a stream of component `id` may fan out to. -/
structure TargetsOk (wires : List Connection) (id : String) (ts : Targets) : Prop where
  nodup : (ts.map Prod.fst).Nodup
  wire : ∀ c ∈ ts.map Prod.fst, c ∈ wires ∧ c.source = id

variable {wires : List Connection} {id : String}

theorem TargetsOk.left {done rest : Targets}
    (h : TargetsOk wires id (done ++ rest)) : TargetsOk wires id done := by
  have hnodup := h.nodup
  simp only [List.map_append,List.nodup_append] at hnodup
  exact ⟨hnodup.1,fun c hc => h.wire c (by simp only [List.map_append,List.mem_append]; exact .inl hc)⟩

theorem TargetsOk.right {done rest : Targets}
    (h : TargetsOk wires id (done ++ rest)) : TargetsOk wires id rest := by
  have hnodup := h.nodup
  simp only [List.map_append,List.nodup_append] at hnodup
  exact ⟨hnodup.2.1,fun c hc => h.wire c (by simp only [List.map_append,List.mem_append]; exact .inr hc)⟩

theorem TargetsOk.tail {t : Connection × ValueType}
    {rest : Targets} (h : TargetsOk wires id (t :: rest)) : TargetsOk wires id rest := by
  have hsplit : TargetsOk wires id ([t] ++ rest) := h
  exact hsplit.right

theorem TargetsOk.id_ne {c w : Connection}
    {required : ValueType} {rest : Targets} (hids : DistinctIds wires)
    (h : TargetsOk wires id ((c,required) :: rest)) (hw : w ∈ wires) (hne : w ≠ c) :
    w.id ≠ c.id := by
  have hc := h.wire c (by simp)
  exact fun heq => hne (hids w hw c hc.1 heq)

variable {b : Buffers} {v : Value}

theorem TargetsOk.isFull_put {c : Connection}
    {t : Connection × ValueType} {required : ValueType} {rest : Targets}
    (hids : DistinctIds wires) (h : TargetsOk wires id ((c,required) :: rest)) (ht : t ∈ rest) :
    (b.put c v).isFull t.1 = b.isFull t.1 := by
  have hnodup := h.nodup
  simp only [List.map_cons,List.nodup_cons] at hnodup
  have hin : t.1 ∈ rest.map Prod.fst := List.mem_map_of_mem ht
  have hne : t.1 ≠ c := fun heq => hnodup.1 (heq ▸ hin)
  exact Buffers.isFull_put_ne v (h.id_ne hids (h.tail.wire t.1 hin).1 hne)

def putAll (v : Value) (done : Targets) (b : Buffers) : Buffers :=
  done.foldl (fun acc t => acc.put t.1 v) b

@[simp] theorem putAll_taken (v : Value) (done : Targets) (b : Buffers) :
    (putAll v done b).taken = b.taken := by
  induction done generalizing b with
  | nil => rfl
  | cons t done ih => simp only [putAll,List.foldl_cons] at *; rw [ih]; rfl

theorem putAll_queue {done : Targets}
    (v : Value) (b : Buffers) (hids : DistinctIds wires) (hok : TargetsOk wires id done)
    (hw : w ∈ wires) :
    (putAll v done b).queue w.id = b.queue w.id ++ if done.has w then [v] else [] := by
  induction done generalizing b with
  | nil => simp [putAll,Targets.has]
  | cons t done ih =>
    obtain ⟨c,required⟩ := t
    have hrest := ih (b.put c v) hok.tail
    have hnodup := hok.nodup
    simp only [List.map_cons,List.nodup_cons] at hnodup
    change (putAll v done (b.put c v)).queue w.id = _
    rw [hrest,Buffers.queue_put]
    by_cases hc : w = c
    · subst hc
      have hnot : Targets.has done w = false := by simpa [Targets.has] using hnodup.1
      simp [hnot,Targets.has_cons]
    · have hne := hok.id_ne hids hw hc
      simp [Targets.has_cons,hne,hc]

theorem putAll_history {done : Targets}
    (v : Value) (b : Buffers) (hids : DistinctIds wires) (hok : TargetsOk wires id done)
    (hw : w ∈ wires) :
    (putAll v done b).history w = b.history w ++ if done.has w then [v] else [] := by
  simp [Buffers.history,putAll_queue v b hids hok hw]

def Room (v : Value) (b : Buffers) (done : Targets) : Prop :=
  ∀ t ∈ done, b.isFull t.1 = false ∧ valueMatchesType v t.2 = true

/-- The three ways an attempt to deliver an element ends; the targets it has reached all
had room. -/
inductive Landed (v : Value) (ts : Targets) (b : Buffers) : Flush → Prop where
  | sent : Room v b ts → Landed v ts b (.sent (putAll v ts b))
  | blocked (done : Targets) (t : Connection × ValueType) (rest : Targets) :
      ts = done ++ t :: rest → Room v b done → b.isFull t.1 = true →
      Landed v ts b (.blocked (putAll v done b) (t :: rest))
  | mismatch (message : String) (done : Targets) (t : Connection × ValueType) (rest : Targets) :
      ts = done ++ t :: rest → Room v b done → b.isFull t.1 = false →
      valueMatchesType v t.2 = false →
      Landed v ts b (.mismatch message (putAll v done b) (t :: rest))

theorem Room.cons {wires : List Connection} {id : String} {done : Targets} {b : Buffers}
    {v : Value} {c : Connection} {required : ValueType} (hids : DistinctIds wires)
    (hok : TargetsOk wires id ((c,required) :: done)) (hc : b.isFull c = false)
    (hfits : valueMatchesType v required = true) (h : Room v (b.put c v) done) :
    Room v b ((c,required) :: done) := by
  intro t ht
  cases List.mem_cons.mp ht with
  | inl heq => exact heq ▸ ⟨hc,hfits⟩
  | inr hmem =>
    rw [← hok.isFull_put hids hmem]
    exact h t hmem

theorem flush_landed (v : Value)
    (b : Buffers) (hids : DistinctIds wires) (hok : TargetsOk wires id ts) :
    Landed v ts b (flush v ts b) := by
  induction ts generalizing b with
  | nil => exact .sent (by simp [Room])
  | cons t ts ih =>
    obtain ⟨c,required⟩ := t
    unfold flush
    split
    · rename_i hfull
      exact .blocked [] (c,required) ts rfl (by simp [Room]) hfull
    · rename_i hroom
      simp only [Bool.not_eq_true] at hroom
      split
      · rename_i hfits
        have hrest := ih (b.put c v) hok.tail
        generalize flush v ts (b.put c v) = result at hrest
        cases hrest with
        | sent h => exact .sent (h.cons hids hok hroom hfits)
        | blocked done t rest hts h hfull =>
          subst hts
          have hlater := hok
          rw [← List.cons_append] at hlater
          rw [hok.isFull_put hids (by simp)] at hfull
          exact .blocked ((c,required) :: done) t rest rfl
            (h.cons hids hlater.left hroom hfits) hfull
        | mismatch message done t rest hts h hfree hbad =>
          subst hts
          have hlater := hok
          rw [← List.cons_append] at hlater
          rw [hok.isFull_put hids (by simp)] at hfree
          exact .mismatch message ((c,required) :: done) t rest rfl
            (h.cons hids hlater.left hroom hfits) hfree hbad
      · rename_i hbad
        simp only [Bool.not_eq_true] at hbad
        exact .mismatch _ [] (c,required) ts rfl (by simp [Room]) hroom hbad

def owed (streams : List OutStream) (w : Connection) : Stream'.Seq Value :=
  Feed.catenate ((streams.filter (·.targets.has w)).map (·.elements))

namespace Emitter

structure Ok (wires : List Connection) (id : String) (e : Emitter) : Prop where
  streams : ∀ s ∈ e.streams, TargetsOk wires id s.targets
  pending : ∀ v ts, e.pending = some (v,ts) → TargetsOk wires id ts

/-- The retained element, when the emitter is suspended with `w` still to serve. -/
def inFlight (e : Emitter) (w : Connection) : List Value :=
  match e.pending with
  | some (v,ts) => if Targets.has ts w then [v] else []
  | none => []

def remaining (e : Emitter) (w : Connection) : Stream'.Seq Value :=
  (Stream'.Seq.ofList (e.inFlight w)).append (owed e.streams w)

/-- The connections the element in flight can still reach before a full one. -/
def frontier (e : Emitter) (b : Buffers) : List Connection :=
  match e.front with
  | some (_,ts,_) => (ts.map Prod.fst).takeWhile fun c => !b.isFull c
  | none => []

end Emitter

theorem owed_cons (s : OutStream) (streams : List OutStream) (w : Connection) :
    owed (s :: streams) w =
      if s.targets.has w then s.elements.append (owed streams w) else owed streams w := by
  by_cases h : s.targets.has w = true
  · simp [owed,h]
  · simp [owed,h]

theorem pull_none {streams : List OutStream} (h : pull streams = none) (w : Connection) :
    owed streams w = Stream'.Seq.nil := by
  induction streams with
  | nil => rfl
  | cons s rest ih =>
    unfold pull at h
    split at h
    · rename_i hend
      have hnil := Stream'.Seq.destruct_eq_none hend
      simp [owed_cons,hnil,ih h]
    · cases h

theorem pull_some {streams streams' : List OutStream}
    (h : pull streams = some (v,ts,streams')) (w : Connection) : owed streams w =
      (Stream'.Seq.ofList (if ts.has w then [v] else [])).append (owed streams' w) := by
  induction streams with
  | nil => cases h
  | cons s rest ih =>
    unfold pull at h
    split at h
    · rename_i hend
      have hnil := Stream'.Seq.destruct_eq_none hend
      simp [owed_cons,hnil,ih h]
    · rename_i x elements hnext
      cases h
      have hcons := Stream'.Seq.destruct_eq_cons hnext
      by_cases hw : s.targets.has w = true
      · simp [owed_cons,hcons,hw]
      · simp [owed_cons,hw]

theorem pull_ok {streams streams' : List OutStream}
    (hok : ∀ s ∈ streams, TargetsOk wires id s.targets) (h : pull streams = some (v,ts,streams')) :
    TargetsOk wires id ts ∧ ∀ s ∈ streams', TargetsOk wires id s.targets := by
  induction streams with
  | nil => cases h
  | cons s rest ih =>
    unfold pull at h
    split at h
    · exact ih (fun s hs => hok s (by simp [hs])) h
    · cases h
      have hs := hok s (by simp)
      refine ⟨hs,fun s' hs' => ?_⟩
      cases List.mem_cons.mp hs' with
      | inl heq => simpa [heq] using hs
      | inr hmem => exact hok s' (by simp [hmem])

variable {e : Emitter}

namespace Emitter

theorem front_ok
    {streams : List OutStream} (hok : e.Ok wires id) (h : e.front = some (v,ts,streams)) :
    TargetsOk wires id ts ∧ ∀ s ∈ streams, TargetsOk wires id s.targets := by
  unfold front at h
  split at h
  · rename_i v' ts' hpending
    cases h
    exact ⟨hok.pending v ts hpending,hok.streams⟩
  · exact pull_ok hok.streams h

theorem front_remaining {streams : List OutStream}
    (h : e.front = some (v,ts,streams)) (w : Connection) : e.remaining w =
      (Stream'.Seq.ofList (if ts.has w then [v] else [])).append (owed streams w) := by
  unfold front at h
  split at h
  · rename_i v' ts' hpending
    cases h
    simp [remaining,inFlight,hpending]
  · rename_i hpending
    simp [remaining,inFlight,hpending,pull_some h w]

theorem front_none (h : e.front = none) (w : Connection) : e.remaining w = Stream'.Seq.nil := by
  unfold front at h
  split at h
  · cases h
  · rename_i hpending
    simp [remaining,inFlight,hpending,pull_none h w]

/-- The outcomes of a step: with nothing left the emitter is done; else it delivers the
element at its front to some of the connections in line, and keeps the others. -/
inductive Moved (e : Emitter) (b : Buffers) : Stepped → Prop where
  | done : e.front = none → Moved e b ⟨.done,⟨[],none⟩,b⟩
  | progress (v : Value) (ts : Targets) (streams : List OutStream) :
      e.front = some (v,ts,streams) → Room v b ts →
      Moved e b ⟨.progress,⟨streams,none⟩,putAll v ts b⟩
  | blocked (v : Value) (done : Targets) (t : Connection × ValueType) (rest : Targets)
      (streams : List OutStream) :
      e.front = some (v,done ++ t :: rest,streams) → Room v b done → b.isFull t.1 = true →
      Moved e b ⟨.blocked,⟨streams,some (v,t :: rest)⟩,putAll v done b⟩
  | mismatch (message : String) (v : Value) (done : Targets) (t : Connection × ValueType)
      (rest : Targets) (streams : List OutStream) :
      e.front = some (v,done ++ t :: rest,streams) → Room v b done → b.isFull t.1 = false →
      valueMatchesType v t.2 = false →
      Moved e b ⟨.mismatch message,⟨streams,some (v,t :: rest)⟩,putAll v done b⟩

theorem step_moved (b : Buffers)
    (hids : DistinctIds wires) (hok : e.Ok wires id) : Moved e b (e.step b) := by
  unfold step
  split
  · rename_i hfront
    exact .done hfront
  · rename_i v ts streams hfront
    have hland := flush_landed v b hids (front_ok hok hfront).1
    unfold resume
    generalize flush v ts b = result at hland
    cases hland with
    | sent hroom => exact .progress v ts streams hfront hroom
    | blocked done t rest hts hroom hfull =>
      subst hts
      exact .blocked v done t rest streams hfront hroom hfull
    | mismatch message done t rest hts hroom hfree hbad =>
      subst hts
      exact .mismatch message v done t rest streams hfront hroom hfree hbad

end Emitter

theorem TargetsOk.has_split {done rest : Targets}
    (h : TargetsOk wires id (done ++ rest)) (v : Value) (w : Connection) :
    (if Targets.has (done ++ rest) w then [v] else []) =
      (if done.has w then [v] else []) ++ if rest.has w then [v] else [] := by
  have hnodup := h.nodup
  simp only [List.map_append,List.nodup_append] at hnodup
  obtain ⟨_,_,hdisj⟩ := hnodup
  by_cases hd : done.has w = true
  · have hr : rest.has w = false := by
      rw [Bool.eq_false_iff]
      exact fun hr => hdisj w (Targets.has_eq_true.mp hd) w (Targets.has_eq_true.mp hr) rfl
    simp [Targets.has_append,hd,hr]
  · simp [Targets.has_append,hd]

variable {st : Stepped}

namespace Emitter

/-- Nothing is lost, duplicated or overtaken: what a wire has had and what it is still owed
stay the same sequence. -/
theorem Moved.conserves (h : Moved e b st) (hids : DistinctIds wires)
    (hok : e.Ok wires id) (hw : w ∈ wires) :
    (Stream'.Seq.ofList (st.buffers.history w)).append (st.emitter.remaining w) =
      (Stream'.Seq.ofList (b.history w)).append (e.remaining w) := by
  cases h with
  | done hfront =>
    rw [front_none hfront]
    simp [remaining,inFlight,owed]
  | progress v ts streams hfront _ =>
    have hts := (front_ok hok hfront).1
    rw [putAll_history v b hids hts hw,front_remaining hfront,Feed.ofList_append_append]
    simp [remaining,inFlight]
  | blocked v done t rest streams hfront _ _ =>
    have hts := (front_ok hok hfront).1
    rw [putAll_history v b hids hts.left hw,front_remaining hfront,hts.has_split,
      Feed.ofList_append_append,Feed.ofList_append_append]
    rfl
  | mismatch message v done t rest streams hfront _ _ _ =>
    have hts := (front_ok hok hfront).1
    rw [putAll_history v b hids hts.left hw,front_remaining hfront,hts.has_split,
      Feed.ofList_append_append,Feed.ofList_append_append]
    rfl

theorem Moved.ok (h : Moved e b st) (hok : e.Ok wires id) : st.emitter.Ok wires id := by
  cases h with
  | done _ => exact ⟨by simp,by simp⟩
  | progress v ts streams hfront _ => exact ⟨(front_ok hok hfront).2,by simp⟩
  | blocked v done t rest streams hfront _ _ =>
    have hfacts := front_ok hok hfront
    exact ⟨hfacts.2,fun v' ts hpending => by cases hpending; exact hfacts.1.right⟩
  | mismatch message v done t rest streams hfront _ _ _ =>
    have hfacts := front_ok hok hfront
    exact ⟨hfacts.2,fun v' ts hpending => by cases hpending; exact hfacts.1.right⟩

theorem Moved.taken (h : Moved e b st) : st.buffers.taken = b.taken := by
  cases h <;> simp

theorem bounded_putAll {done : Targets}
    (v : Value) (hids : DistinctIds wires) (hok : TargetsOk wires id done)
    (hw : w ∈ wires) (hroom : Room v b done) (hle : (b.queue w.id).length ≤ w.capacity) :
    ((putAll v done b).queue w.id).length ≤ w.capacity := by
  rw [putAll_queue v b hids hok hw]
  by_cases hd : Targets.has done w = true
  · rw [Targets.has_eq_true] at hd
    obtain ⟨t,ht,rfl⟩ := List.mem_map.mp hd
    have hfree := (hroom t ht).1
    simp [Buffers.isFull] at hfree
    rw [List.length_append]
    split <;> simp <;> omega
  · simpa [hd] using hle

theorem Moved.bounded (h : Moved e b st) (hids : DistinctIds wires)
    (hok : e.Ok wires id) (hw : w ∈ wires) (hle : (b.queue w.id).length ≤ w.capacity) :
    (st.buffers.queue w.id).length ≤ w.capacity := by
  cases h with
  | done _ => exact hle
  | progress v ts streams hfront hroom =>
    exact bounded_putAll v hids (front_ok hok hfront).1 hw hroom hle
  | blocked v done t rest streams hfront hroom _ =>
    exact bounded_putAll v hids (front_ok hok hfront).1.left hw hroom hle
  | mismatch message v done t rest streams hfront hroom _ _ =>
    exact bounded_putAll v hids (front_ok hok hfront).1.left hw hroom hle

theorem putAll_elsewhere {done : Targets} (v : Value) (hids : DistinctIds wires)
    (hok : TargetsOk wires id done) (hw : w ∈ wires) (hne : w.source ≠ id) :
    (putAll v done b).queue w.id = b.queue w.id := by
  have hnot : Targets.has done w = false := by
    rw [Bool.eq_false_iff]
    exact fun h => hne (hok.wire w (Targets.has_eq_true.mp h)).2
  simp [putAll_queue v b hids hok hw,hnot]

theorem Moved.elsewhere (h : Moved e b st) (hids : DistinctIds wires)
    (hok : e.Ok wires id) (hw : w ∈ wires) (hne : w.source ≠ id) :
    st.buffers.queue w.id = b.queue w.id := by
  cases h with
  | done _ => rfl
  | progress v ts streams hfront _ =>
    exact putAll_elsewhere v hids (front_ok hok hfront).1 hw hne
  | blocked v done t rest streams hfront _ _ =>
    exact putAll_elsewhere v hids (front_ok hok hfront).1.left hw hne
  | mismatch message v done t rest streams hfront _ _ _ =>
    exact putAll_elsewhere v hids (front_ok hok hfront).1.left hw hne

end Emitter

end AgentCentric.Flow

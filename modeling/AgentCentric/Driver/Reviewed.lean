import AgentCentric.Driver.Review

namespace AgentCentric.Durable

namespace ReviewItem

theorem floatOf_confidence (item : ReviewItem) :
    floatOf (.decimal item.confidence) = some item.confidence := if_pos item.bounded

theorem new_fields (item : ReviewItem) :
    new item.correlationId item.domain (.decimal item.confidence) item.provenance = .ok item := by
  rw [new,if_neg (by simp),dif_neg item.identified,dif_neg item.named,
    if_neg (by simp [Json.isNumber]),item.floatOf_confidence]
  simp only [dif_pos item.bounded,dif_neg item.stated]

theorem fromDict_toDict (item : ReviewItem) : fromDict item.toDict.canonical = .ok item := by
  have htexts : Json.canonicalList (item.provenance.map Json.str) =
      item.provenance.map Json.str := by
    induction item.provenance with
    | nil => rfl
    | cons s texts ih => simp [Json.canonicalList,ih,Json.canonical]
  have hentries : (item.provenance.map Json.str).map Json.text = item.provenance := by
    rw [List.map_map]
    exact List.map_id _
  rw [toDict,Json.canonical_dict,fromDict]
  simp only [Json.lookup_sorted,Dict.lookup,if_true,Option.map_some,expect,bind,Except.bind]
  simp [Json.canonical,htexts,hentries,new_fields]

end ReviewItem

variable {item : ReviewItem}

namespace ReviewQueue
variable {sha256 : List Char → HexDigest} {queue : ReviewQueue} {items : List ReviewItem}

def rowsFrom (sha256 : List Char → HexDigest) : Nat → List ReviewItem → List ItemRow
  | _, [] => []
  | n, item :: items =>
    ⟨n + 1,item.itemHash sha256,item.toDict.dumps⟩ :: rowsFrom sha256 (n + 1) items

theorem rowsFrom_hashes (n : Nat) (items : List ReviewItem) :
    (rowsFrom sha256 n items).map ItemRow.itemHash = items.map (ReviewItem.itemHash sha256) := by
  induction items generalizing n with
  | nil => rfl
  | cons item items ih => rw [rowsFrom,List.map_cons,List.map_cons,ih]

theorem rowsFrom_seqs (n : Nat) (items : List ReviewItem) :
    (rowsFrom sha256 n items).map ItemRow.seq = List.range' (n + 1) items.length := by
  induction items generalizing n with
  | nil => rfl
  | cons item items ih =>
    rw [rowsFrom,List.map_cons,ih,List.length_cons,List.range'_succ]

theorem rowsFrom_concat (n : Nat) (items : List ReviewItem) (item : ReviewItem) :
    rowsFrom sha256 n (items ++ [item]) = rowsFrom sha256 n items ++
      [⟨n + items.length + 1,item.itemHash sha256,item.toDict.dumps⟩] := by
  induction items generalizing n with
  | nil => rfl
  | cons first items ih =>
    rw [List.cons_append,rowsFrom,ih,rowsFrom,List.cons_append,List.length_cons,
      show n + 1 + items.length = n + (items.length + 1) by omega]

theorem rowsFrom_read (n : Nat) (items : List ReviewItem) :
    ((rowsFrom sha256 n items).mapM fun row => do
      let document ← expect (Json.loads row.document) "Expecting value"
      ReviewItem.fromDict document) = .ok items := by
  induction items generalizing n with
  | nil => rfl
  | cons item items ih =>
    rw [rowsFrom,List.mapM_cons,ih]
    simp [expect,Json.loads_dumps,bind,Except.bind,ReviewItem.fromDict_toDict,pure,Except.pure]

structure Holds (sha256 : List Char → HexDigest) (queue : ReviewQueue) (items : List ReviewItem) :
    Prop where
  rows : queue.items = rowsFrom sha256 0 items
  last : queue.seqItems = items.length
  unique : (items.map (ReviewItem.itemHash sha256)).Nodup
  resolved : ∀ row ∈ queue.resolutions, row.itemHash ∈ items.map (ReviewItem.itemHash sha256)

theorem Holds.hashes (h : Holds sha256 queue items) :
    queue.items.map ItemRow.itemHash = items.map (ReviewItem.itemHash sha256) := by
  rw [h.rows,rowsFrom_hashes]

def unresolved (sha256 : List Char → HexDigest) (queue : ReviewQueue) (items : List ReviewItem) :
    List ReviewItem :=
  items.filter fun item =>
    item.itemHash sha256 ∉ queue.resolutions.map ResolutionRow.itemHash

theorem Holds.pending (h : Holds sha256 queue items) :
    queue.pending sha256 = .ok (unresolved sha256 queue items) := by
  have hsorted : (rowsFrom sha256 0 items).Pairwise fun a b => a.seq ≤ b.seq := by
    have hnumbers : ((rowsFrom sha256 0 items).map ItemRow.seq).Pairwise (· ≤ ·) := by
      rw [rowsFrom_seqs]
      exact (List.pairwise_lt_range' 1).imp fun h => le_of_lt h
    exact List.pairwise_map.1 hnumbers
  rw [ReviewQueue.pending,allItems,h.rows,hsorted.insertionSort_eq,rowsFrom_read]
  rfl

theorem Holds.reopen (h : Holds sha256 queue items) : Holds sha256 queue.reopen items where
  rows := h.rows
  last := by
    rw [ReviewQueue.reopen,h.rows,rowsFrom_seqs]
    exact foldr_max_numbered items.length
  unique := h.unique
  resolved := h.resolved

theorem Holds.resolve (h : Holds sha256 queue items) (itemHash resolution resolver : String) :
    Holds sha256 (queue.resolve sha256 itemHash resolution resolver).2 items := by
  unfold ReviewQueue.resolve
  split
  · exact h
  · rename_i hknown
    rw [not_not,h.hashes] at hknown
    split
    · exact h
    · simp only
      split
      · exact h
      · refine ⟨h.rows,h.last,h.unique,fun row hrow => ?_⟩
        rcases List.mem_append.1 hrow with hrow | hrow
        · exact h.resolved row hrow
        · rw [List.mem_singleton.1 hrow]
          exact hknown

theorem Holds.enqueue_known (h : Holds sha256 queue items)
    (hknown : item.itemHash sha256 ∈ items.map (ReviewItem.itemHash sha256)) :
    (queue.enqueue sha256 item).2 = queue := by
  rw [← h.hashes,List.mem_map] at hknown
  obtain ⟨row,hrow,hhash⟩ := hknown
  rw [enqueue]
  simp only
  split
  · rfl
  · rename_i hnone
    exact absurd hhash (by simpa using List.find?_eq_none.1 hnone row hrow)

theorem Holds.enqueue_new (h : Holds sha256 queue items)
    (hnew : item.itemHash sha256 ∉ items.map (ReviewItem.itemHash sha256)) :
    Holds sha256 (queue.enqueue sha256 item).2 (items ++ [item]) ∧
      unresolved sha256 (queue.enqueue sha256 item).2 (items ++ [item]) =
        unresolved sha256 queue items ++ [item] := by
  have hnone : queue.items.find? (fun row => row.itemHash = item.itemHash sha256) = none := by
    rw [List.find?_eq_none]
    intro row hrow
    rw [decide_eq_true_eq]
    intro hhash
    rw [← h.hashes,← hhash] at hnew
    exact hnew (List.mem_map_of_mem hrow)
  have hqueue : (queue.enqueue sha256 item).2 = ⟨queue.items ++ [⟨queue.seqItems + 1,
      item.itemHash sha256,item.toDict.dumps⟩],queue.resolutions,queue.seqItems + 1,
        queue.seqResolutions⟩ := by
    rw [enqueue]
    simp only [hnone]
  rw [hqueue]
  constructor
  · refine ⟨?_,?_,?_,?_⟩
    · rw [rowsFrom_concat,← h.rows,h.last,Nat.zero_add]
    · rw [List.length_append,h.last]
      rfl
    · rw [List.map_append,List.nodup_append]
      refine ⟨h.unique,by simp,?_⟩
      rintro hash hhash hash' hhash' rfl
      rw [List.map_cons,List.map_nil,List.mem_singleton] at hhash'
      exact hnew (hhash' ▸ hhash)
    · intro row hrow
      rw [List.map_append]
      exact List.mem_append_left _ (h.resolved row hrow)
  · have hunresolved : item.itemHash sha256 ∉ queue.resolutions.map ResolutionRow.itemHash := by
      intro hmem
      obtain ⟨row,hrow,hhash⟩ := List.mem_map.1 hmem
      exact hnew (hhash ▸ h.resolved row hrow)
    rw [unresolved,List.filter_append]
    simp only [unresolved,List.filter_cons,List.filter_nil,if_pos (decide_eq_true hunresolved)]

end ReviewQueue

theorem floatOf_bounded {value : Json} {float : Decimal} (h : floatOf value = some float) :
    0 ≤ float.value ∧ float.value ≤ 1 := by
  have hzero : zeroFloat.value = 0 := by decide +kernel
  have hone : oneFloat.value = 1 := by decide +kernel
  cases value with
  | int n =>
    rw [floatOf] at h
    split at h
    · cases h
      rw [hzero]
      exact ⟨le_rfl,zero_le_one⟩
    · split at h
      · cases h
        rw [hone]
        exact ⟨zero_le_one,le_rfl⟩
      · cases h
  | decimal d =>
    rw [floatOf] at h
    split at h
    · cases h
      assumption
    · cases h
  | _ => cases h

theorem floatOf_validated {msg : Response} (h : validateResponse msg = .ok ())
    (hconfidence : msg.confidence ≠ .null) :
    msg.confidence.isNumber = true ∧ ∃ float, floatOf msg.confidence = some float := by
  obtain ⟨id,kind,value,verified,node,error,source,sources,confidence,record⟩ := msg
  simp only [validateResponse,bind_ok,require_ok] at h
  obtain ⟨-,-,-,-,-,-,-,-,-,hnumber,-,hrange,-⟩ := h
  refine ⟨hnumber,?_⟩
  cases confidence with
  | int n =>
    rw [confidenceInRange,decide_eq_true_eq] at hrange
    exact ⟨zeroFloat,if_pos hrange⟩
  | decimal d =>
    rw [confidenceInRange,decide_eq_true_eq] at hrange
    have hone : d.value ≤ 1 := hrange.2.trans (by rw [maxModelConfidence]; norm_num)
    exact ⟨d,if_pos ⟨hrange.1,hone⟩⟩
  | _ => cases hrange

theorem provenanceOf_stated (response : Response) : "" ∉ provenanceOf response := by
  intro hmem
  have happend (a b : String) (ha : a ≠ "") : "" ≠ a ++ b := by
    intro h
    exact ha (String.append_eq_empty_iff.1 h.symm).1
  simp only [provenanceOf,List.mem_append] at hmem
  rcases hmem with (hmem | hmem) | hmem <;> split at hmem
  · exact happend _ _ (by decide) (List.mem_singleton.1 hmem)
  · cases hmem
  · exact happend _ _ (by decide) (List.mem_singleton.1 hmem)
  · cases hmem
  · exact happend _ _ (by decide) (List.mem_singleton.1 hmem)
  · cases hmem

theorem stamped (number : Nat) (answer : Answer) :
    (Reviewed.responseTo number answer).confidence.isNumber = true ∧
      ∃ float, floatOf (Reviewed.responseTo number answer).confidence = some float := by
  by_cases hnull : answer.response.confidence = .null
  · have hvalue : (Reviewed.responseTo number answer).confidence =
        .decimal (if answer.response.verified.truthy then oneFloat else zeroFloat) := by
      rw [Reviewed.responseTo,stampConfidence]
      simp only [hnull]
    rw [hvalue]
    split
    · exact ⟨rfl,oneFloat,by decide +kernel⟩
    · exact ⟨rfl,zeroFloat,by decide +kernel⟩
  · have hvalue : (Reviewed.responseTo number answer).confidence = answer.response.confidence := by
      rw [Reviewed.responseTo,stampConfidence]
      split
      · exact absurd ‹_› hnull
      · rfl
    rw [hvalue]
    exact floatOf_validated answer.valid hnull

theorem itemFor_ok (number : Nat) (answer : Answer) (domain : String) :
    (∃ item, itemFor (Reviewed.responseTo number answer) domain = .ok item) ↔ domain ≠ "" := by
  obtain ⟨hnumber,float,hfloat⟩ := stamped number answer
  have hid : (Reviewed.responseTo number answer).correlationId ≠ "" := by
    rw [Reviewed.responseTo,stampConfidence]
    have hne : "run-" ++ toString number ≠ "" := by
      intro h
      exact absurd (String.append_eq_empty_iff.1 h).1 (by decide)
    split <;> exact hne
  have hitem : itemFor (Reviewed.responseTo number answer) domain =
      ReviewItem.new (Reviewed.responseTo number answer).correlationId domain
        (Reviewed.responseTo number answer).confidence
        (provenanceOf (Reviewed.responseTo number answer)) := by
    unfold itemFor
    split
    · rename_i hnull
      rw [hnull] at hnumber
      cases hnumber
    · rfl
  rw [hitem,ReviewItem.new,if_neg (by simp),dif_neg hid]
  constructor
  · rintro ⟨item,h⟩ hdomain
    rw [dif_pos hdomain] at h
    cases h
  · intro hdomain
    rw [dif_neg hdomain,if_neg (by simp [hnumber]),hfloat]
    simp only [dif_pos (floatOf_bounded hfloat),dif_neg (provenanceOf_stated _)]
    exact ⟨_,rfl⟩

theorem reviewed_eq (number : Nat) (answer : Answer) :
    needsReview (Reviewed.responseTo number answer).verified
      (Reviewed.responseTo number answer).confidence = answer.reviewed := by
  rw [Answer.reviewed,Reviewed.responseTo,stampConfidence,stampConfidence]
  cases answer.response.confidence <;> rfl

variable {s : Reviewed}

namespace Reviewed
variable {sha256 : List Char → HexDigest}

/-- Every run that needs review leaves an item of its own. -/
def AllLeft (sha256 : List Char → HexDigest) (s : Reviewed) (events : List Event) : Prop :=
  ∀ before task answer after, events = before ++ .run task answer :: after →
    Left sha256 (s.play sha256 before) task answer

theorem allLeft_cons {e : Event} {events : List Event} :
    AllLeft sha256 s (e :: events) ↔ (∀ task answer, e = .run task answer →
      Left sha256 s task answer) ∧ AllLeft sha256 (s.step sha256 e) events := by
  constructor
  · intro h
    refine ⟨fun task answer he => h [] task answer events (by rw [he]; rfl),?_⟩
    intro before task answer after heq
    exact h (e :: before) task answer after (by rw [heq]; rfl)
  · rintro ⟨hfirst,hrest⟩ before task answer after heq
    cases before with
    | nil =>
      obtain ⟨he,-⟩ := List.cons.inj heq
      exact hfirst task answer he
    | cons b before =>
      obtain ⟨rfl,hevents⟩ := List.cons.inj heq
      exact hrest before task answer after hevents

theorem holds_start : start.queue.Holds sha256 [] :=
  ⟨rfl,rfl,List.nodup_nil,fun _ hrow => absurd hrow List.not_mem_nil⟩

theorem step_run (s : Reviewed) (task : Json) (answer : Answer) :
    (s.step sha256 (.run task answer)).queue =
      (enqueueForReview sha256 s.queue (responseTo (s.seq + 1) answer) (domainOf task)).2 := rfl

theorem step_unreviewed {task : Json} {answer : Answer}
    (h : ¬answer.reviewed = true) : (s.step sha256 (.run task answer)).queue = s.queue := by
  rw [step_run,enqueueForReview,reviewed_eq,if_neg h]

theorem step_reviewed {task : Json} {answer : Answer} (h : answer.reviewed = true)
    (hitem : itemFor (responseTo (s.seq + 1) answer) (domainOf task) = .ok item) :
    (s.step sha256 (.run task answer)).queue = (s.queue.enqueue sha256 item).2 := by
  rw [step_run,enqueueForReview,reviewed_eq,if_pos h,hitem]

theorem left_iff {items : List ReviewItem} (h : s.queue.Holds sha256 items)
    {task : Json} {answer : Answer} (hreviewed : answer.reviewed = true)
    (hitem : itemFor (responseTo (s.seq + 1) answer) (domainOf task) = .ok item) :
    Left sha256 s task answer ↔ item.itemHash sha256 ∉ items.map (ReviewItem.itemHash sha256) := by
  simp only [Left,reviewed_eq,hreviewed,true_imp_iff,hitem,step_reviewed hreviewed hitem,h.pending,
    Except.ok.injEq]
  constructor
  · rintro ⟨_,_,rfl,rfl,hpending⟩ hknown
    rw [h.enqueue_known hknown,h.pending,Except.ok.injEq] at hpending
    have hlength := congrArg List.length hpending
    rw [List.length_append,List.length_singleton] at hlength
    omega
  · intro hnew
    obtain ⟨hholds,hunresolved⟩ := h.enqueue_new hnew
    exact ⟨item,_,rfl,rfl,by rw [hholds.pending,hunresolved]⟩

theorem nodup_next {items after : List ReviewItem}
    (h : ((items ++ item :: after).map (ReviewItem.itemHash sha256)).Nodup) :
    item.itemHash sha256 ∉ items.map (ReviewItem.itemHash sha256) := by
  rw [List.map_append,List.map_cons,List.nodup_append] at h
  intro hmem
  exact h.2.2 _ hmem _ List.mem_cons_self rfl

/-- The items of the runs are all left exactly if they have domains and are written apart from one
another, and from what the queue holds. -/
theorem allLeft_iff {items : List ReviewItem} {events : List Event}
    (h : s.queue.Holds sha256 items) : AllLeft sha256 s events ↔
      (∀ task answer, .run task answer ∈ events → answer.reviewed = true → domainOf task ≠ "") ∧
      ((items ++ toReview s.seq events).map (ReviewItem.itemHash sha256)).Nodup := by
  induction events generalizing s items with
  | nil =>
    refine iff_of_true ?_ ⟨by simp,by simpa [toReview] using h.unique⟩
    intro before task answer after heq
    cases before <;> cases heq
  | cons e events ih =>
    rw [allLeft_cons]
    cases e with
    | driver =>
      simp only [reduceCtorEq,false_imp_iff,implies_true,true_and,List.mem_cons,false_or]
      exact ih (s := s.step sha256 .driver) h.reopen
    | other =>
      simp only [reduceCtorEq,false_imp_iff,implies_true,true_and,List.mem_cons,false_or]
      exact ih (s := s.step sha256 .other) h
    | resolve itemHash resolution resolver =>
      simp only [reduceCtorEq,false_imp_iff,implies_true,true_and,List.mem_cons,false_or]
      exact ih (s := s.step sha256 (.resolve itemHash resolution resolver))
        (h.resolve itemHash resolution resolver)
    | run task answer =>
      have hfirst : (∀ task' answer', Event.run task answer = .run task' answer' →
          Left sha256 s task' answer') ↔ Left sha256 s task answer :=
        ⟨fun h => h _ _ rfl,fun h _ _ heq => by cases heq; exact h⟩
      have hnames : (∀ task' answer', Event.run task' answer' ∈ Event.run task answer :: events →
          answer'.reviewed = true → domainOf task' ≠ "") ↔
          (answer.reviewed = true → domainOf task ≠ "") ∧
          ∀ task' answer', Event.run task' answer' ∈ events → answer'.reviewed = true →
            domainOf task' ≠ "" := by
        simp only [List.mem_cons,Event.run.injEq,or_imp,forall_and,and_imp]
        exact and_congr_left fun _ => ⟨fun h => h _ _ rfl rfl,
          fun h _ _ htask hanswer => by subst htask hanswer; exact h⟩
      rw [hfirst,hnames]
      by_cases hreviewed : answer.reviewed = true
      · by_cases hdomain : domainOf task = ""
        · -- `ReviewItem` raises, and nothing is left to review
          refine iff_of_false ?_ fun hall => hall.1.1 hreviewed hdomain
          rintro ⟨hleft,-⟩
          rw [Left] at hleft
          simp only [reviewed_eq,hreviewed,true_imp_iff] at hleft
          obtain ⟨item,-,hitem,-⟩ := hleft
          exact (itemFor_ok _ _ _).1 ⟨item,hitem⟩ hdomain
        · obtain ⟨item,hitem⟩ := (itemFor_ok (s.seq + 1) answer _).2 hdomain
          have htoReview : toReview s.seq (.run task answer :: events) =
              item :: toReview (s.seq + 1) events := by
            rw [toReview,if_pos hreviewed,hitem]
            rfl
          rw [left_iff h hreviewed hitem,htoReview]
          constructor
          · rintro ⟨hnew,hall⟩
            have hholds := (h.enqueue_new hnew).1
            rw [← step_reviewed hreviewed hitem] at hholds
            obtain ⟨hnamed,hapart⟩ := (ih hholds).1 hall
            rw [List.append_assoc] at hapart
            exact ⟨⟨fun _ => hdomain,hnamed⟩,hapart⟩
          · rintro ⟨⟨-,hnamed⟩,hapart⟩
            have hnew := nodup_next hapart
            have hholds := (h.enqueue_new hnew).1
            rw [← step_reviewed hreviewed hitem] at hholds
            refine ⟨hnew,(ih hholds).2 ⟨hnamed,?_⟩⟩
            rw [List.append_assoc]
            exact hapart
      · have hleft : Left sha256 s task answer := by
          rw [Left]
          simp only [reviewed_eq]
          exact fun hreviewed' => absurd hreviewed' hreviewed
        have hholds : (s.step sha256 (.run task answer)).queue.Holds sha256 items := by
          rw [step_unreviewed hreviewed]
          exact h
        rw [toReview,if_neg hreviewed,ih hholds]
        exact ⟨fun ⟨_,hnamed,hapart⟩ => ⟨⟨fun hreviewed' => absurd hreviewed' hreviewed,hnamed⟩,
          hapart⟩,fun ⟨⟨_,hnamed⟩,hapart⟩ => ⟨hleft,hnamed,hapart⟩⟩

end Reviewed

/-- Over the sessions that share a queue, every run that needs review leaves an item of its own,
exactly if such runs have domains and no two of them are written alike. -/
theorem review_left_iff (sha256 : List Char → HexDigest) (events : List Event) :
    Reviewed.AllLeft sha256 .start events ↔ Distinct sha256 events := by
  rw [Reviewed.allLeft_iff Reviewed.holds_start]
  exact ⟨fun h => ⟨h.1,h.2⟩,fun h => ⟨h.named,h.apart⟩⟩

def failed : Answer := ⟨.failure "run-1" "root" "no such task",by decide⟩

def failedItem : ReviewItem :=
  ⟨"run-1","report",zeroFloat,["node:root"],by decide,by decide,by decide +kernel,by decide⟩

/-- The second failure is written as the first one, which is resolved, and is not queued. -/
theorem resolved_hides : ¬∃ sha256 : List Char → HexDigest, Reviewed.AllLeft sha256 .start
    [.driver,.run (.str "report") failed,.resolve (failedItem.itemHash sha256) "accepted" "human",
      .driver,.run (.str "report") failed] := by
  rintro ⟨sha256,hall⟩
  have hreviewed : failed.reviewed = true := by decide
  have hconfidence : (Reviewed.responseTo 1 failed).confidence = .decimal zeroFloat := by rfl
  have hitem : itemFor (Reviewed.responseTo 1 failed) "report" = .ok failedItem := by
    rw [itemFor,hconfidence]
    exact failedItem.new_fields
  have htoReview : toReview 0 [.driver,.run (.str "report") failed,
      .resolve (failedItem.itemHash sha256) "accepted" "human",.driver,
      .run (.str "report") failed] = [failedItem,failedItem] := by
    simp only [toReview,hreviewed,if_true,Nat.zero_add,Reviewed.domainOf,hitem]
    rfl
  have hapart := ((Reviewed.allLeft_iff Reviewed.holds_start).1 hall).2
  rw [Reviewed.start,htoReview] at hapart
  simp at hapart

end AgentCentric.Durable

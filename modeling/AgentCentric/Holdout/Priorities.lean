import AgentCentric.Holdout.Decide

namespace AgentCentric.Holdout
open Double

def ScenarioRuns.shape (s : ScenarioRuns) : String × Priority := (s.scenarioId,s.priority)

theorem lookup_byId (scenarios : List ScenarioRuns) (id : String) :
    Dict.lookup (byId scenarios) id = scenarios.reverse.find? (·.scenarioId = id) := by
  induction scenarios using List.reverseRecOn with
  | nil => rfl
  | append_singleton scenarios s ih =>
    have hbyId : byId (scenarios ++ [s]) = Dict.insert (byId scenarios) s.scenarioId s := by
      simp [byId]
    rw [hbyId,Dict.lookup_insert,ih,List.reverse_append,List.reverse_singleton,
      List.singleton_append,List.find?_cons]
    by_cases hid : s.scenarioId = id <;> simp [hid]

theorem priorityOf_shape (scenarios : List ScenarioRuns) (id : String) : priorityOf scenarios id =
      ((scenarios.map ScenarioRuns.shape).reverse.find? (·.1 = id)).map Prod.snd := by
  rw [priorityOf,lookup_byId,← List.map_reverse,List.find?_map,Option.map_map]
  rfl

theorem priorityOf_congr {ss ss' : List ScenarioRuns}
    (h : ss'.map ScenarioRuns.shape = ss.map ScenarioRuns.shape) (id : String) :
    priorityOf ss' id = priorityOf ss id := by
  rw [priorityOf_shape,priorityOf_shape,h]

variable {ss : List ScenarioRuns}

theorem mem_of_priorityOf {id : String} {p : Priority}
    (h : priorityOf ss id = some p) : ∃ s ∈ ss, s.scenarioId = id ∧ s.priority = p := by
  rw [priorityOf,lookup_byId,Option.map_eq_some_iff] at h
  obtain ⟨s,hs,hp⟩ := h
  have hid : s.scenarioId = id := by simpa using List.find?_some hs
  exact ⟨s,List.mem_reverse.1 (List.mem_of_find?_eq_some hs),hid,hp⟩

theorem priorityOf_mem {s : ScenarioRuns} (h : s ∈ ss) :
    priorityOf ss s.scenarioId = some .high ∨ priorityOf ss s.scenarioId = some .normal := by
  have hsome : (ss.reverse.find? (·.scenarioId = s.scenarioId)).isSome = true := by
    rw [List.find?_isSome]
    exact ⟨s,List.mem_reverse.2 h,by simp⟩
  obtain ⟨l,hl⟩ := Option.isSome_iff_exists.1 hsome
  rw [priorityOf,lookup_byId,hl]
  cases hp : l.priority <;> simp [hp]

def counted (scenarios : List ScenarioRuns) : List ScenarioRuns :=
  scenarios.filter fun s => priorityOf scenarios s.scenarioId = some .normal

variable {t : Rat}

theorem decide_green (ht : t ≤ 1) : (decide ss t).green = true ↔ ss ≠ [] ∧
      (∀ s ∈ ss, priorityOf ss s.scenarioId = some .high → s.Passes) ∧
      (counted ss = [] ∨ t ≤ trueDiv (passing (counted ss)).length (counted ss).length) := by
  unfold decide
  by_cases hnil : ss = []
  · simp [hnil]
  have hnormals : (ss.map fun s => (s.scenarioId,s.evaluate)).filter
      (fun r => priorityOf ss r.1 = some .normal) =
        (counted ss).map fun s => (s.scenarioId,s.evaluate) := by
    rw [counted,List.filter_map]
    rfl
  have hshare : share ((counted ss).map fun s => (s.scenarioId,s.evaluate)) =
      trueDiv (passing (counted ss)).length (counted ss).length := by
    rw [share,List.filter_map,List.length_map,List.length_map]
    rfl
  have hhigh : (ss.map fun s => (s.scenarioId,s.evaluate)).any
        (fun r => priorityOf ss r.1 = some .high && r.2 ≠ .pass) = false ↔
      ∀ s ∈ ss, priorityOf ss s.scenarioId = some .high → s.Passes := by
    simp only [List.any_map,List.any_eq_false,Function.comp_apply,ne_eq,decide_not,
      Bool.and_eq_true,decide_eq_true_eq,Bool.not_eq_true',decide_eq_false_iff_not,not_and,
      not_not,ScenarioRuns.evaluate_pass]
  simp only [hnil,if_false,Bool.and_eq_true,Bool.not_eq_true',hhigh,hnormals,hshare,
    decide_eq_true_eq,List.map_eq_nil_iff,ne_eq,not_false_eq_true,true_and]
  refine and_congr_right fun _ => ?_
  split
  · next hcounted => simp [hcounted,ht]
  · next hcounted => simp [hcounted]

structure Unshadowed (ss : List ScenarioRuns) : Prop where
  high : ∀ s ∈ ss, s.priority = .high → priorityOf ss s.scenarioId = some .high
  normal : (∀ s ∈ ss, s.priority = .normal → priorityOf ss s.scenarioId = some .normal) ∨
    (normals ss).length ≤ 1

theorem Unshadowed.congr {ss ss' : List ScenarioRuns} (h : Unshadowed ss)
    (hshape : ss'.map ScenarioRuns.shape = ss.map ScenarioRuns.shape) : Unshadowed ss' := by
  have hmem : ∀ s' ∈ ss', ∃ s ∈ ss, s.shape = s'.shape := by
    intro s' hs'
    have hshape' := List.mem_map_of_mem (f := ScenarioRuns.shape) hs'
    rw [hshape] at hshape'
    exact List.mem_map.1 hshape'
  have hsame : ∀ p, (∀ s ∈ ss, s.priority = p → priorityOf ss s.scenarioId = some p) →
      ∀ s ∈ ss', s.priority = p → priorityOf ss' s.scenarioId = some p := by
    intro p hall s' hs' hp
    obtain ⟨s,hs,heq⟩ := hmem s' hs'
    have hid : s.scenarioId = s'.scenarioId := congrArg Prod.fst heq
    have hown : s.priority = s'.priority := congrArg Prod.snd heq
    rw [priorityOf_congr hshape,← hid]
    exact hall s hs (hown.trans hp)
  have hlength : (normals ss').length = (normals ss).length := by
    have hcount : ∀ l : List ScenarioRuns, (normals l).length =
        ((l.map ScenarioRuns.shape).filter fun x => x.2 = Priority.normal).length := by
      intro l
      rw [List.filter_map,List.length_map]
      rfl
    rw [hcount,hcount,hshape]
  exact ⟨hsame .high h.high,by rw [hlength]; exact h.normal.imp_left (hsame .normal)⟩

theorem Unshadowed.counted_eq (h : Unshadowed ss)
    (hnormal : ∀ s ∈ ss, s.priority = .normal → priorityOf ss s.scenarioId = some .normal) :
    counted ss = normals ss := by
  unfold counted normals
  refine List.filter_congr fun s hs => ?_
  cases hp : s.priority with
  | high => simp [h.high s hs hp]
  | normal => simp [hnormal s hs hp]

theorem green_of_unshadowed (h : Unshadowed ss) (hpos : 0 < t)
    (ht : t ≤ 1) : (decide ss t).green = true ↔ Green ss t := by
  rw [decide_green ht]
  rcases em (∀ s ∈ ss, s.priority = .normal → priorityOf ss s.scenarioId = some .normal)
    with hnormal | hhidden
  · rw [h.counted_eq hnormal]
    constructor
    · rintro ⟨hsome,hhigh,henough⟩
      exact ⟨hsome,fun s hs hp => hhigh s hs (h.high s hs hp),henough⟩
    · rintro ⟨hsome,hhigh,henough⟩
      refine ⟨hsome,fun s hs hp => hhigh s hs ?_,henough⟩
      cases hown : s.priority with
      | high => rfl
      | normal => simp [hnormal s hs hown] at hp
  · -- the only normal scenario is taken for a high one
    obtain ⟨s,hs⟩ : ∃ s, normals ss = [s] := by
      have hsome := hhidden
      push Not at hsome
      obtain ⟨s,hs,hp,-⟩ := hsome
      have hmem : s ∈ normals ss := List.mem_filter.2 ⟨hs,by simp [hp]⟩
      have hlength := h.normal.resolve_left hhidden
      have hpos := List.length_pos_of_mem hmem
      exact List.length_eq_one_iff.1 (by omega)
    have honly : ∀ s' ∈ ss, s'.priority = .normal → s' = s := by
      intro s' hs' hp
      have hmem : s' ∈ normals ss := List.mem_filter.2 ⟨hs',by simp [hp]⟩
      rw [hs] at hmem
      exact List.mem_singleton.1 hmem
    have hnone : ∀ s' ∈ ss, priorityOf ss s'.scenarioId ≠ some .normal := by
      intro s' hs' hp
      obtain ⟨l,hl,hid,hown⟩ := mem_of_priorityOf hp
      apply hhidden
      intro s'' hs'' hp''
      rw [honly s'' hs'' hp'',← honly l hl hown,hid]
      exact hp
    have hcounted : counted ss = [] :=
      List.filter_eq_nil_iff.2 fun s' hs' => by simpa using hnone s' hs'
    have henough : (normals ss = [] ∨
        t ≤ trueDiv (passing (normals ss)).length (normals ss).length) ↔ s.Passes := by
      have hone : trueDiv 1 1 = 1 := by decide +kernel
      by_cases hpass : s.Passes
      · simp [hs,passing,ScenarioRuns.evaluate_pass,hpass,hone,ht]
      · simp [hs,passing,ScenarioRuns.evaluate_pass,hpass,hpos]
    have hmem : s ∈ ss := (List.mem_filter.1 (by rw [normals] at hs; rw [hs]; simp)).1
    constructor
    · rintro ⟨hsome,hhigh,-⟩
      have hall : ∀ s' ∈ ss, s'.Passes := fun s' hs' =>
        hhigh s' hs' ((priorityOf_mem hs').resolve_right (hnone s' hs'))
      exact ⟨hsome,fun s' hs' _ => hall s' hs',henough.2 (hall s hmem)⟩
    · rintro ⟨hsome,hhigh,hnormal⟩
      refine ⟨hsome,fun s' hs' _ => ?_,.inl hcounted⟩
      cases hown : s'.priority with
      | high => exact hhigh s' hs' hown
      | normal =>
        rw [honly s' hs' hown]
        exact henough.1 hnormal

namespace ScenarioRuns

def cleared (s : ScenarioRuns) : ScenarioRuns := { s with runs := [.pass,.pass,.pass] }

def spoiled (s : ScenarioRuns) : ScenarioRuns := { s with runs := [.fail,.fail,.fail] }

theorem cleared_passes (s : ScenarioRuns) : s.cleared.Passes := by
  unfold Passes
  cases hp : s.cleared.priority <;> simp [cleared,runCount,supermajority,decisive]

theorem spoiled_fails (s : ScenarioRuns) : ¬ s.spoiled.Passes := by
  unfold Passes
  cases hp : s.spoiled.priority <;> simp [spoiled,decisive]

end ScenarioRuns

def spoil (front : List ScenarioRuns) (s : ScenarioRuns) (back : List ScenarioRuns) :
    List ScenarioRuns :=
  front.map ScenarioRuns.cleared ++ s.spoiled :: back.map ScenarioRuns.cleared

section
variable {front back : List ScenarioRuns} {s : ScenarioRuns}

theorem spoil_shape : (spoil front s back).map ScenarioRuns.shape =
    (front ++ s :: back).map ScenarioRuns.shape := by
  have hcleared : ∀ ss : List ScenarioRuns,
      (ss.map ScenarioRuns.cleared).map ScenarioRuns.shape = ss.map ScenarioRuns.shape := by
    intro ss
    rw [List.map_map]
    rfl
  rw [spoil,List.map_append,List.map_cons,hcleared,hcleared,List.map_append,List.map_cons]
  rfl

theorem mem_spoil {s' : ScenarioRuns} (h : s' ∈ spoil front s back) :
    s' = s.spoiled ∨ s'.Passes := by
  simp only [spoil,List.mem_append,List.mem_map,List.mem_cons] at h
  rcases h with ⟨l,-,rfl⟩ | rfl | ⟨l,-,rfl⟩
  · exact .inr l.cleared_passes
  · exact .inl rfl
  · exact .inr l.cleared_passes

theorem spoil_passing : passing (spoil front s back) =
    (front ++ back).map ScenarioRuns.cleared := by
  have hall : ∀ ss : List ScenarioRuns, (ss.map ScenarioRuns.cleared).filter
      (fun s => s.evaluate = .pass) = ss.map ScenarioRuns.cleared := by
    intro ss
    refine List.filter_eq_self.2 fun s' hs' => ?_
    obtain ⟨l,-,rfl⟩ := List.mem_map.1 hs'
    simpa [ScenarioRuns.evaluate_pass] using l.cleared_passes
  rw [passing,spoil,List.filter_append,List.filter_cons,hall,hall,List.map_append]
  simp [ScenarioRuns.evaluate_pass,s.spoiled_fails]

theorem spoil_share (select : ScenarioRuns → Bool)
    (hselect : ∃ l ∈ front ++ back, select l.cleared = true) :
    0 < trueDiv (passing ((spoil front s back).filter select)).length
        ((spoil front s back).filter select).length ∧
      trueDiv (passing ((spoil front s back).filter select)).length
        ((spoil front s back).filter select).length ≤ 1 := by
  obtain ⟨l,hl,hselected⟩ := hselect
  have hle : (passing ((spoil front s back).filter select)).length ≤
      ((spoil front s back).filter select).length := List.length_filter_le _ _
  have hmem : l.cleared ∈ passing ((spoil front s back).filter select) := by
    rw [passing,List.filter_comm]
    have hpassing := List.mem_map_of_mem (f := ScenarioRuns.cleared) hl
    rw [← spoil_passing (s := s),passing] at hpassing
    exact List.mem_filter.2 ⟨hpassing,hselected⟩
  exact ⟨trueDiv_pos (List.length_pos_of_mem hmem) hle,trueDiv_le_one hle⟩

theorem hidden_high (hp : s.priority = .high)
    (hhidden : priorityOf (front ++ s :: back) s.scenarioId = some .normal)
    (ht : t = trueDiv (passing (counted (spoil front s back))).length
      (counted (spoil front s back)).length) :
    0 < t ∧ t ≤ 1 ∧ (decide (spoil front s back) t).green = true ∧
      ¬ Green (spoil front s back) t := by
  have hlast : ∀ id, priorityOf (spoil front s back) id = priorityOf (front ++ s :: back) id :=
    priorityOf_congr spoil_shape
  obtain ⟨l,hl,hid,hown⟩ := mem_of_priorityOf hhidden
  have hother : l ∈ front ++ back := by
    rw [List.mem_append,List.mem_cons] at hl
    rcases hl with hl | rfl | hl
    · exact List.mem_append_left _ hl
    · rw [hp] at hown
      cases hown
    · exact List.mem_append_right _ hl
  have hcounted : priorityOf (spoil front s back) l.cleared.scenarioId = some .normal := by
    rw [hlast]
    exact hid ▸ hhidden
  obtain ⟨hpos,hle⟩ := spoil_share (s := s)
    (fun s' => priorityOf (spoil front s back) s'.scenarioId = some .normal)
    ⟨l,hother,by simpa using hcounted⟩
  have hgreen : (decide (spoil front s back) t).green = true := by
    refine (decide_green (by rw [ht]; exact hle)).2 ⟨by simp [spoil],fun s' hs' hhigh => ?_,?_⟩
    · rcases mem_spoil hs' with rfl | hpass
      · rw [hlast] at hhigh
        exact absurd (hhidden.symm.trans hhigh) (by simp)
      · exact hpass
    · exact .inr (by rw [ht])
  refine ⟨by rw [ht]; exact hpos,by rw [ht]; exact hle,hgreen,fun h => ?_⟩
  exact s.spoiled_fails (h.high s.spoiled (by simp [spoil]) hp)

theorem hidden_normal (hp : s.priority = .normal)
    (hhidden : priorityOf (front ++ s :: back) s.scenarioId = some .high)
    (hmore : 1 < (normals (front ++ s :: back)).length)
    (ht : t = trueDiv (passing (normals (spoil front s back))).length
      (normals (spoil front s back)).length) :
    0 < t ∧ t ≤ 1 ∧ (decide (spoil front s back) t).green = false ∧
      Green (spoil front s back) t := by
  obtain ⟨l,hl,hown⟩ : ∃ l ∈ front ++ back, l.priority = .normal := by
    have hlength : 0 < (normals (front ++ back)).length := by
      simp only [normals,List.filter_append,List.filter_cons,hp,List.length_append,
        List.length_cons,decide_true,if_true] at hmore ⊢
      omega
    obtain ⟨l,hl⟩ := List.exists_mem_of_length_pos hlength
    obtain ⟨hl,hown⟩ := List.mem_filter.1 hl
    exact ⟨l,hl,by simpa using hown⟩
  obtain ⟨hpos,hle⟩ := spoil_share (s := s) (fun s' => s'.priority = .normal)
    ⟨l,hl,decide_eq_true hown⟩
  refine ⟨by rw [ht]; exact hpos,by rw [ht]; exact hle,?_,by simp [spoil],fun s' hs' hhigh => ?_,?_⟩
  · rw [Bool.eq_false_iff,ne_eq,decide_green (by rw [ht]; exact hle)]
    rintro ⟨-,hhigh,-⟩
    refine s.spoiled_fails (hhigh s.spoiled (by simp [spoil]) ?_)
    rw [priorityOf_congr spoil_shape]
    exact hhidden
  · rcases mem_spoil hs' with rfl | hpass
    · exact absurd (hp.symm.trans hhigh) (by simp)
    · exact hpass
  · exact .inr (by rw [ht])

end

/-- The gate is exact for all runs of a list of scenarios, and every threshold, exactly when no
priority is hidden. -/
theorem decide_exact (ss : List ScenarioRuns) :
    (∀ ss' t, ss'.map ScenarioRuns.shape = ss.map ScenarioRuns.shape → 0 < t → t ≤ 1 →
      ((decide ss' t).green = true ↔ Green ss' t)) ↔ Unshadowed ss := by
  constructor
  · intro hexact
    constructor
    · intro s hs hp
      by_contra hhidden
      obtain ⟨front,back,rfl⟩ := List.append_of_mem hs
      obtain ⟨hpos,hle,hgreen,hbad⟩ :=
        hidden_high hp ((priorityOf_mem hs).resolve_left hhidden) rfl
      exact hbad ((hexact _ _ spoil_shape hpos hle).1 hgreen)
    · by_contra hnot
      obtain ⟨hsome,hmore⟩ := not_or.1 hnot
      push Not at hsome
      obtain ⟨s,hs,hp,hhidden⟩ := hsome
      obtain ⟨front,back,rfl⟩ := List.append_of_mem hs
      obtain ⟨hpos,hle,hred,hgood⟩ :=
        hidden_normal hp ((priorityOf_mem hs).resolve_right hhidden) (by omega) rfl
      rw [(hexact _ _ spoil_shape hpos hle).2 hgood] at hred
      cases hred
  · intro h ss' t hshape hpos ht
    exact green_of_unshadowed (h.congr hshape) hpos ht

def RunOutcome.text : RunOutcome → String
  | .pass => "pass"
  | .fail => "fail"
  | .error => "error"

def Priority.text : Priority → String
  | .high => "high"
  | .normal => "normal"

def ScenarioRuns.toJson (s : ScenarioRuns) : Json :=
  .dict [("id",.str s.scenarioId),("priority",.str s.priority.text),
    ("runs",.list (s.runs.map fun run => .str run.text))]

def documentOf (ss : List ScenarioRuns) : Json :=
  .dict [("scenarios",.list (ss.map ScenarioRuns.toJson))]

theorem parseScenario_toJson (s : ScenarioRuns) : parseScenario s.toJson = .ok s := by
  have hpriority : Priority.ofText (textOf (.str s.priority.text)) = .ok s.priority := by
    cases s.priority <;> rfl
  have hruns : (s.runs.map fun run => Json.str run.text).mapM
      (fun value => RunOutcome.ofText (textOf value)) = .ok s.runs := by
    have hrun : ∀ run : RunOutcome, RunOutcome.ofText run.text = .ok run := by
      intro run
      cases run <;> rfl
    rw [List.mapM_map,mapM_ok (g := id) fun run _ => by simpa [textOf] using hrun run,List.map_id]
  have hfields : parseFields [("id",.str s.scenarioId),("priority",.str s.priority.text),
      ("runs",.list (s.runs.map fun run => .str run.text))] = .ok s := by
    simp only [parseFields,bind_ok]
    exact ⟨.str s.scenarioId,by simp [member,Dict.lookup],.str s.priority.text,
      by simp [member,Dict.lookup],s.priority,hpriority,
      .list (s.runs.map fun run => .str run.text),by simp [member,Dict.lookup],_,rfl,s.runs,hruns,
      rfl⟩
  rw [ScenarioRuns.toJson,parseScenario,hfields]

instance : Std.Total fun a b : ScenarioRuns => inOrder a b = true :=
  ⟨fun a b => by simpa [inOrder] using le_total a.scenarioId b.scenarioId⟩

instance : IsTrans ScenarioRuns fun a b => inOrder a b = true :=
  ⟨fun a b c hab hbc => by
    simp only [inOrder,decide_eq_true_eq] at hab hbc ⊢
    exact hab.trans hbc⟩

theorem parse_sorted {document : Json}
    (h : parseDecideScenarios document = .ok ss) : ss.Pairwise fun a b => inOrder a b := by
  unfold parseDecideScenarios at h
  split at h
  · split at h
    · obtain ⟨scenarios,-,h⟩ := bind_ok.1 h
      cases h
      exact List.pairwise_insertionSort (fun a b => inOrder a b = true) scenarios
    · cases h
  · cases h

theorem parse_documentOf (h : ss.Pairwise fun a b => inOrder a b) :
    parseDecideScenarios (documentOf ss) = .ok ss := by
  have hparse : (ss.map ScenarioRuns.toJson).mapM parseScenario = .ok ss := by
    rw [List.mapM_map,mapM_ok (f := parseScenario ∘ ScenarioRuns.toJson) (g := id) fun s _ =>
      parseScenario_toJson s,List.map_id]
  have hlookup : Dict.lookup [("scenarios",Json.list (ss.map ScenarioRuns.toJson))] "scenarios" =
      some (.list (ss.map ScenarioRuns.toJson)) := by
    simp [Dict.lookup]
  simp only [documentOf,parseDecideScenarios,hlookup,hparse]
  exact congrArg Except.ok h.insertionSort_eq

theorem pairwise_shape {ss ss' : List ScenarioRuns} (h : ss.Pairwise fun a b => inOrder a b)
    (hshape : ss'.map ScenarioRuns.shape = ss.map ScenarioRuns.shape) :
    ss'.Pairwise fun a b => inOrder a b := by
  have hpair : ∀ l : List ScenarioRuns, (l.Pairwise fun a b => inOrder a b) ↔
      (l.map ScenarioRuns.shape).Pairwise fun a b => a.1 ≤ b.1 := by
    intro l
    simp [List.pairwise_map,inOrder,ScenarioRuns.shape]
  rw [hpair,hshape,← hpair]
  exact h

/-- The gate is exact for all the runs that are accepted for a list of scenarios, and every
threshold, exactly when no priority is hidden. -/
theorem gate_exact {document : Json} {ss : List ScenarioRuns}
    (h : parseDecideScenarios document = .ok ss) :
    (∀ document' ss' t, parseDecideScenarios document' = .ok ss' →
      ss'.map ScenarioRuns.shape = ss.map ScenarioRuns.shape → 0 < t → t ≤ 1 →
      ((decide ss' t).green = true ↔ Green ss' t)) ↔ Unshadowed ss := by
  rw [← decide_exact]
  constructor
  · intro hall ss' t hshape
    exact hall _ ss' t (parse_documentOf (pairwise_shape (parse_sorted h) hshape)) hshape
  · intro hall document' ss' t _ hshape
    exact hall ss' t hshape

def hiddenRuns : List ScenarioRuns :=
  [⟨"HO-1",.high,[.fail,.fail,.fail]⟩,⟨"HO-1",.normal,[.pass,.pass,.pass]⟩]

theorem gate_exact_hidden :
    (∀ document' ss' t, parseDecideScenarios document' = .ok ss' →
      ss'.map ScenarioRuns.shape = hiddenRuns.map ScenarioRuns.shape → 0 < t → t ≤ 1 →
      ((decide ss' t).green = true ↔ Green ss' t)) ↔ Unshadowed hiddenRuns :=
  @gate_exact (documentOf hiddenRuns) hiddenRuns (parse_documentOf (by decide))

/-- The merge is allowed at the threshold one half. -/
theorem hidden_green : parseDecideScenarios (documentOf hiddenRuns) = .ok hiddenRuns ∧
    (decide hiddenRuns (1 / 2)).green = true ∧ ¬ Green hiddenRuns (1 / 2) := by
  refine ⟨parse_documentOf (by decide),by decide +kernel,fun h => ?_⟩
  have hpasses := h.high ⟨"HO-1",.high,[.fail,.fail,.fail]⟩ (by simp [hiddenRuns]) rfl
  exact absurd hpasses (by decide)

end AgentCentric.Holdout

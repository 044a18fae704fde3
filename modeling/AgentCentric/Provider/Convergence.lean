import AgentCentric.Library.Replay
import AgentCentric.Provider.Runtime

namespace AgentCentric.Provider

namespace ResourceKey

theorem le_iff {a b : ResourceKey} :
    a.le b = true ↔ a.kind < b.kind ∨ a.kind = b.kind ∧ a.name ≤ b.name := by simp [le]

instance : Std.Total fun a b : ResourceKey => a.le b = true where
  total a b := by
    rw [le_iff,le_iff]
    rcases lt_trichotomy a.kind b.kind with h | h | h
    · exact .inl (.inl h)
    · rcases le_total a.name b.name with hname | hname
      · exact .inl (.inr ⟨h,hname⟩)
      · exact .inr (.inr ⟨h.symm,hname⟩)
    · exact .inr (.inl h)

instance : IsTrans ResourceKey fun a b => a.le b = true where
  trans a b c hab hbc := by
    rw [le_iff] at *
    rcases hab with hab | ⟨hkind,hab⟩
    · rcases hbc with hbc | ⟨hkind,-⟩
      · exact .inl (lt_trans hab hbc)
      · exact .inl (hkind ▸ hab)
    · rw [hkind]
      exact hbc.imp_right fun h => ⟨h.1,le_trans hab h.2⟩

theorem eq_of_le_of_le {a b : ResourceKey} (hab : a.le b = true) (hba : b.le a = true) : a = b := by
  rw [le_iff] at *
  have hkind : a.kind = b.kind := by
    rcases hab with hab | hab
    · rcases hba with hba | hba
      · exact absurd hba (lt_asymm hab)
      · exact hba.1.symm
    · exact hab.1
  have hname : a.name = b.name := by
    rcases hab with hab | hab
    · exact absurd hkind (ne_of_lt hab)
    · rcases hba with hba | hba
      · exact absurd hkind (ne_of_gt hba)
      · exact le_antisymm hab.2 hba.2
  cases a
  cases b
  simp_all

end ResourceKey

section
variable {α : Type} {key : α → ResourceKey}

theorem byKey_ok {what : String} {xs : List α} {d d' : Dict ResourceKey α} :
    byKey key what xs d = .ok d' ↔ (d.keys ++ xs.map key).Nodup ∧
      d'.entries = d.entries ++ xs.map fun x => (key x,x) := by
  induction xs generalizing d with
  | nil =>
    simp only [byKey,List.map_nil,List.append_nil,Except.ok.injEq]
    constructor
    · rintro rfl
      exact ⟨d.nodup,rfl⟩
    · rintro ⟨-,hentries⟩
      exact Dict.ext hentries.symm
  | cons x xs ih =>
    unfold byKey
    by_cases hx : key x ∈ d.keys
    · have hsome : (d.get (key x)).isSome = true := (Dict.lookup_isSome _ _).2 hx
      rw [if_pos hsome]
      constructor
      · intro h
        cases h
      · rintro ⟨hnodup,-⟩
        exact absurd rfl ((List.nodup_append.1 hnodup).2.2 (key x) hx (key x) (by simp))
    · have hnone : ¬ (d.get (key x)).isSome = true := fun h => hx ((Dict.lookup_isSome _ _).1 h)
      have hset : (d.set (key x) x).entries = d.entries ++ [(key x,x)] := Dict.insert_of_notMem x hx
      have hkeys : (d.set (key x) x).keys = d.keys ++ [key x] := by
        simp only [Dict.keys,hset,List.map_append,List.map_cons,List.map_nil]
      rw [if_neg hnone,ih,hkeys,hset]
      simp only [List.append_assoc,List.singleton_append,List.map_cons]

theorem byKey_empty_ok {what : String} {xs : List α} {d : Dict ResourceKey α} :
    byKey key what xs Dict.empty = .ok d ↔ (xs.map key).Nodup ∧
      d.entries = xs.map fun x => (key x,x) := byKey_ok

variable {d : Dict ResourceKey α}

theorem sortedKeys_perm (d : Dict ResourceKey α) : (sortedKeys d).Perm d.keys :=
  List.perm_insertionSort _ _

theorem mem_sortedKeys {k : ResourceKey} : k ∈ sortedKeys d ↔ (d.get k).isSome = true := by
  rw [(sortedKeys_perm d).mem_iff]
  exact (Dict.lookup_isSome d.entries k).symm

theorem nodup_sortedKeys (d : Dict ResourceKey α) : (sortedKeys d).Nodup :=
  (sortedKeys_perm d).nodup_iff.2 d.nodup

theorem get_of_entries {xs : List α} (h : d.entries = xs.map fun x => (key x,x)) {k : ResourceKey}
    {x : α} : d.get k = some x ↔ x ∈ xs ∧ key x = k := by
  have hmem : d.get k = some x ↔ (k,x) ∈ d.entries := Dict.lookup_eq_some_iff d.nodup
  rw [hmem,h,List.mem_map]
  constructor
  · rintro ⟨y,hy,heq⟩
    cases heq
    exact ⟨hy,rfl⟩
  · rintro ⟨hx,rfl⟩
    exact ⟨x,hx,rfl⟩

theorem inKeyOrder_perm {xs : List α} (h : d.entries = xs.map fun x => (key x,x)) :
    (inKeyOrder d).Perm xs := by
  have hkeys : d.keys = xs.map key := by
    simp only [Dict.keys,h,List.map_map,Function.comp_def]
  have hget : (xs.map key).filterMap d.get = xs := by
    rw [List.filterMap_map]
    calc xs.filterMap (d.get ∘ key) = xs.filterMap some :=
          List.filterMap_congr fun x hx => (get_of_entries h).2 ⟨hx,rfl⟩
      _ = xs := List.filterMap_some
  have hperm := (sortedKeys_perm d).filterMap d.get
  rwa [hkeys,hget] at hperm

theorem sortedKeys_congr {d' : Dict ResourceKey α} (h : d.entries.Perm d'.entries) :
    sortedKeys d = sortedKeys d' :=
  insertionSort_congr (fun a b : ResourceKey => a.le b = true) (h.map Prod.fst)
    fun _ _ _ _ => ResourceKey.eq_of_le_of_le

theorem get_congr {d' : Dict ResourceKey α} (h : d.entries.Perm d'.entries) : d.get = d'.get :=
  funext fun k => Dict.lookup_perm h d.nodup k

end

namespace PlanStep

def edit (s : PlanStep) : Edit ResourceKey Digest :=
  ⟨s.key,if s.action = .delete then none else s.digest⟩

end PlanStep

section
variable (sha256 : List Char → Digest) (cloud : Bool) {desired : Dict ResourceKey ResourceSpec}
  {observed : Dict ResourceKey ObservedResource} {xs : List ResourceSpec}
  {os : List ObservedResource}

theorem desiredStep_key (current : Option ObservedResource) (r : ResourceSpec) :
    (desiredStep sha256 cloud current r).key = r.key := by
  unfold desiredStep
  cases current with
  | none => rfl
  | some o =>
    simp only
    split <;> rfl

theorem desiredStep_mutating (current : Option ObservedResource) (r : ResourceSpec) :
    (desiredStep sha256 cloud current r).action.isMutating = true ↔
      current.map ObservedResource.resourceHash ≠ some (r.hash sha256) := by
  unfold desiredStep
  cases current with
  | none => simp [PlanStep.change,PlanAction.isMutating]
  | some o =>
    by_cases h : o.resourceHash = r.hash sha256 <;>
      simp [h,PlanStep.change,PlanStep.noop,PlanAction.isMutating]

theorem desiredStep_value (current : Option ObservedResource) (r : ResourceSpec)
    (h : (desiredStep sha256 cloud current r).action.isMutating = true) :
    (desiredStep sha256 cloud current r).edit.value = some (r.hash sha256) := by
  unfold desiredStep at h ⊢
  cases current with
  | none => simp [PlanStep.edit,PlanStep.change]
  | some o =>
    by_cases hsame : o.resourceHash = r.hash sha256
    · simp [hsame,PlanStep.noop,PlanAction.isMutating] at h
    · simp [hsame,PlanStep.edit,PlanStep.change]

def surplus (desired : Dict ResourceKey ResourceSpec) (observed : Dict ResourceKey ObservedResource) :
    List ObservedResource :=
  ((sortedKeys observed).filter fun key => (desired.get key).isNone).filterMap observed.get

variable (hdesired : desired.entries = xs.map fun r => (r.key,r))
  (hobserved : observed.entries = os.map fun r => (r.key,r))

include hobserved

theorem mem_surplus {o : ObservedResource} :
    o ∈ surplus desired observed ↔ o ∈ os ∧ desired.get o.key = none := by
  simp only [surplus,List.mem_filterMap,List.mem_filter,mem_sortedKeys,Option.isNone_iff_eq_none]
  constructor
  · rintro ⟨k,⟨-,hnone⟩,hget⟩
    obtain ⟨ho,rfl⟩ := (get_of_entries hobserved).1 hget
    exact ⟨ho,hnone⟩
  · rintro ⟨ho,hnone⟩
    have hget := (get_of_entries hobserved).2 ⟨ho,rfl⟩
    exact ⟨o.key,⟨by simp [hget],hnone⟩,hget⟩

theorem surplus_keys : ((surplus desired observed).map ObservedResource.key).Nodup := by
  have hkeys : ((surplus desired observed).map ObservedResource.key).Sublist
      ((sortedKeys observed).filterMap fun k => (observed.get k).map ObservedResource.key) := by
    rw [surplus,List.map_filterMap]
    exact List.Sublist.filterMap _ List.filter_sublist
  apply hkeys.nodup
  have hsame : ((sortedKeys observed).filterMap fun k => (observed.get k).map ObservedResource.key) =
      sortedKeys observed := by
    calc (sortedKeys observed).filterMap (fun k => (observed.get k).map ObservedResource.key)
        = (sortedKeys observed).filterMap some := by
          apply List.filterMap_congr
          intro k hk
          obtain ⟨o,ho⟩ := Option.isSome_iff_exists.1 (mem_sortedKeys.1 hk)
          rw [ho,Option.map_some,((get_of_entries hobserved).1 ho).2]
      _ = sortedKeys observed := List.filterMap_some
  rw [hsame]
  exact nodup_sortedKeys observed

include hdesired

theorem planSteps_keys : ((planSteps sha256 cloud desired observed).map PlanStep.key).Nodup := by
  have hchanges : ((inKeyOrder desired).map fun r =>
      (desiredStep sha256 cloud (observed.get r.key) r).key) = (inKeyOrder desired).map ResourceSpec.key :=
    List.map_congr_left fun r _ => desiredStep_key sha256 cloud _ r
  have hnodup : ((inKeyOrder desired).map ResourceSpec.key).Nodup := by
    rw [((inKeyOrder_perm hdesired).map ResourceSpec.key).nodup_iff]
    have hkeys : desired.keys = xs.map ResourceSpec.key := by
      simp only [Dict.keys,hdesired,List.map_map,Function.comp_def]
    exact hkeys ▸ desired.nodup
  have hdelete : (PlanStep.key ∘ PlanStep.delete) = ObservedResource.key := rfl
  simp only [planSteps,List.map_append,List.map_map]
  rw [List.nodup_append,hdelete]
  refine ⟨by rwa [Function.comp_def,hchanges],surplus_keys hobserved,?_⟩
  intro a ha b hb hab
  rw [Function.comp_def,hchanges] at ha
  obtain ⟨r,hr,rfl⟩ := List.mem_map.1 ha
  obtain ⟨o,ho,rfl⟩ := List.mem_map.1 hb
  have hnone := ((mem_surplus hobserved).1 ho).2
  have hsome := (get_of_entries hdesired).2 ⟨(inKeyOrder_perm hdesired).mem_iff.1 hr,rfl⟩
  rw [← hab,hsome] at hnone
  cases hnone

theorem planSteps_leads : Edit.Leads (fun k => (observed.get k).map ObservedResource.resourceHash)
      (fun k => (desired.get k).map (ResourceSpec.hash sha256))
      (((planSteps sha256 cloud desired observed).filter fun s => s.action.isMutating).map
        PlanStep.edit) where
  nodup := by
    rw [List.map_map]
    have hkey : Edit.key ∘ PlanStep.edit = PlanStep.key := rfl
    rw [hkey]
    exact (List.filter_sublist.map PlanStep.key).nodup
      (planSteps_keys sha256 cloud hdesired hobserved)
  right := by
    intro e he
    obtain ⟨s,hs,rfl⟩ := List.mem_map.1 he
    obtain ⟨hs,hmutating⟩ := List.mem_filter.1 hs
    rcases List.mem_append.1 hs with hs | hs
    · obtain ⟨r,hr,rfl⟩ := List.mem_map.1 hs
      have hget := (get_of_entries hdesired).2 ⟨(inKeyOrder_perm hdesired).mem_iff.1 hr,rfl⟩
      have hkey : (desiredStep sha256 cloud (observed.get r.key) r).edit.key = r.key :=
        desiredStep_key sha256 cloud _ r
      rw [desiredStep_value sha256 cloud _ r hmutating,hkey,hget]
      rfl
    · obtain ⟨o,ho,rfl⟩ := List.mem_map.1 hs
      have hnone : desired.get o.key = none := ((mem_surplus hobserved).1 ho).2
      have hkey : (PlanStep.delete o).edit.key = o.key := rfl
      rw [hkey,hnone]
      rfl
  rest := by
    intro k hk
    have hno : ∀ s ∈ planSteps sha256 cloud desired observed, s.key = k →
        ¬ s.action.isMutating = true := by
      intro s hs hkey hmutating
      apply hk
      rw [List.map_map]
      exact List.mem_map.2 ⟨s,List.mem_filter.2 ⟨hs,hmutating⟩,hkey⟩
    cases hd : desired.get k with
    | some r =>
      obtain ⟨hr,rfl⟩ := (get_of_entries hdesired).1 hd
      have hstep := hno (desiredStep sha256 cloud (observed.get r.key) r)
        (List.mem_append_left _ (List.mem_map_of_mem ((inKeyOrder_perm hdesired).mem_iff.2 hr)))
        (desiredStep_key sha256 cloud _ r)
      rw [desiredStep_mutating,not_not] at hstep
      exact hstep
    | none =>
      cases ho : observed.get k with
      | none => rfl
      | some o =>
        obtain ⟨hmem,rfl⟩ := (get_of_entries hobserved).1 ho
        exact absurd rfl (hno (PlanStep.delete o) (List.mem_append_right _
          (List.mem_map_of_mem ((mem_surplus hobserved).2 ⟨hmem,hd⟩))) rfl)

end

theorem Hosted.perform_get (state : Hosted) (c : Change) : (state.perform c).get =
      Edit.apply state.get ⟨c.key,if c.action = .delete then none else some c.digest⟩ := by
  funext k
  unfold perform Edit.apply
  by_cases hdelete : c.action = .delete
  · simp only [hdelete,if_true,Dict.get_erase]
  · simp only [hdelete,if_false,Dict.get_set]

theorem PlanStep.toChange_ok {s : PlanStep} (h : s.action.isMutating = true) :
    ∃ c, s.toChange = .ok c ∧ s.edit = ⟨c.key,if c.action = .delete then none else some c.digest⟩ := by
  unfold toChange edit
  split
  · rename_i digest hdigest
    refine ⟨_,rfl,?_⟩
    simp only [hdigest]
    rfl
  · rename_i hnone
    rw [s.pinned,hnone] at h
    cases h

theorem mapM_toChange {steps : List PlanStep} (h : ∀ s ∈ steps, s.action.isMutating = true) :
    ∃ changes, steps.mapM PlanStep.toChange = .ok changes ∧ ∀ state : Hosted,
      (changes.foldl Hosted.perform state).get = Edit.applyAll state.get (steps.map PlanStep.edit) := by
  induction steps with
  | nil => exact ⟨[],rfl,fun _ => rfl⟩
  | cons s steps ih =>
    obtain ⟨c,hc,hedit⟩ := PlanStep.toChange_ok (h s List.mem_cons_self)
    obtain ⟨changes,hchanges,hall⟩ := ih fun t ht => h t (List.mem_cons_of_mem s ht)
    refine ⟨c :: changes,?_,?_⟩
    · rw [List.mapM_cons,hc,hchanges]
      rfl
    · intro state
      rw [List.foldl_cons,hall,Hosted.perform_get,List.map_cons,Edit.applyAll_cons,hedit]

theorem update_entries {α β : Type} {key : α → ResourceKey} {xs : List α} {d : Dict ResourceKey α}
    (h : d.entries = xs.map fun x => (key x,x)) (f : α → β) (k : ResourceKey) :
    (Dict.empty.update (xs.map fun x => (key x,f x))).get k = (d.get k).map f := by
  have hkeys : (xs.map fun x => (key x,f x)).map Prod.fst = xs.map key := by
    simp only [List.map_map,Function.comp_def]
  have hnodup : (xs.map key).Nodup := by
    have hd := d.nodup
    simpa only [h,List.map_map,Function.comp_def] using hd
  cases hget : d.get k with
  | some x =>
    obtain ⟨hx,rfl⟩ := (get_of_entries h).1 hget
    exact Dict.get_update_of_mem _ _ (hkeys.symm ▸ hnodup) (List.mem_map.2 ⟨x,hx,rfl⟩)
  | none =>
    apply Dict.get_update_of_notMem
    rw [hkeys]
    intro hk
    obtain ⟨x,hx,rfl⟩ := List.mem_map.1 hk
    rw [(get_of_entries h).2 ⟨hx,rfl⟩] at hget
    cases hget

theorem seed_observed (state : Hosted) (k : ResourceKey) :
    (Hosted.seed Dict.empty state.observed).get k = state.get k := by
  have hperm : (state.observed.map fun r => (r.key,r.resourceHash)).Perm state.entries := by
    have hsame : (state.observed.map fun r => (r.key,r.resourceHash)) =
        state.entries.insertionSort fun a b => a.1.le b.1 := by
      simp only [Hosted.observed,List.map_map,Function.comp_def,ObservedResource.key,List.map_id']
    rw [hsame]
    exact List.perm_insertionSort _ _
  have hnodup : ((state.observed.map fun r => (r.key,r.resourceHash)).map Prod.fst).Nodup :=
    (hperm.map Prod.fst).nodup_iff.2 state.nodup
  cases hget : state.get k with
  | some digest =>
    have hmem : (k,digest) ∈ state.entries := (Dict.lookup_eq_some_iff state.nodup).1 hget
    exact Dict.get_update_of_mem _ _ hnodup (hperm.mem_iff.2 hmem)
  | none =>
    apply Dict.get_update_of_notMem
    rw [(hperm.map Prod.fst).mem_iff,← Dict.lookup_isSome]
    intro hsome
    have hnone : Dict.lookup state.entries k = none := hget
    rw [hnone] at hsome
    cases hsome

theorem observed_keys (state : Hosted) : (state.observed.map ObservedResource.key).Nodup := by
  have hkeys : state.observed.map ObservedResource.key =
      (state.entries.insertionSort fun a b => a.1.le b.1).map Prod.fst := by
    simp only [Hosted.observed,List.map_map,Function.comp_def,ObservedResource.key]
  rw [hkeys,((List.perm_insertionSort _ _).map Prod.fst).nodup_iff]
  exact state.nodup

section
variable {sha256 : List Char → Digest} {provider : String} {target : ProviderTarget}
  {desired desired' : List ResourceSpec} {observed observed' : List ObservedResource}
  {plan : ProviderPlan}

theorem planProvider_ok :
    planProvider sha256 provider desired observed target = .ok plan ↔ provider ≠ "" ∧
      ∃ D O, ((desired.map ResourceSpec.key).Nodup ∧ D.entries = desired.map fun r => (r.key,r)) ∧
        ((observed.map ObservedResource.key).Nodup ∧ O.entries = observed.map fun r => (r.key,r)) ∧
        plan = ProviderPlan.new provider target (sha256 (desiredDocument D).bytes)
          (planSteps sha256 (target = .cloud) D O) := by
  simp only [planProvider,bind_ok,require_ok,byKey_empty_ok,decide_eq_true_eq]
  constructor
  · rintro ⟨-,hprovider,D,hD,O,hO,hplan⟩
    cases hplan
    exact ⟨hprovider,D,O,hD,hO,rfl⟩
  · rintro ⟨hprovider,D,O,hD,hO,rfl⟩
    exact ⟨(),hprovider,D,hD,O,hO,rfl⟩

theorem mutatingSteps_perm (digest : Digest) (steps : List PlanStep) :
    (ProviderPlan.new provider target digest steps).mutatingSteps.Perm
      (steps.filter fun s => s.action.isMutating) :=
  (List.perm_insertionSort _ steps).filter _

theorem plan_leads (h : planProvider sha256 provider desired observed target = .ok plan) :
    Edit.Leads (Hosted.seed Dict.empty observed).get (Hosted.ofDesired sha256 desired).get
      (plan.mutatingSteps.map PlanStep.edit) := by
  obtain ⟨-,D,O,hD,hO,rfl⟩ := planProvider_ok.1 h
  have hleads := planSteps_leads sha256 (target = .cloud) hD.2 hO.2
  have hobserved : (Hosted.seed Dict.empty observed).get =
      fun k => (O.get k).map ObservedResource.resourceHash := funext (update_entries hO.2 _)
  have hdesired : (Hosted.ofDesired sha256 desired).get =
      fun k => (D.get k).map (ResourceSpec.hash sha256) := funext (update_entries hD.2 _)
  rw [hobserved,hdesired]
  exact hleads.perm ((mutatingSteps_perm _ _).map PlanStep.edit)

theorem plan_isConverged (h : planProvider sha256 provider desired observed target = .ok plan) :
    plan.isConverged = true ↔
      (Hosted.seed Dict.empty observed).get = (Hosted.ofDesired sha256 desired).get := by
  have hleads := plan_leads h
  constructor
  · intro hconverged
    rw [ProviderPlan.isConverged,List.isEmpty_iff] at hconverged
    rw [hconverged] at hleads
    exact hleads.applyAll
  · intro hsame
    obtain ⟨-,D,O,hD,hO,rfl⟩ := planProvider_ok.1 h
    rw [ProviderPlan.isConverged,List.isEmpty_iff]
    apply List.eq_nil_iff_forall_not_mem.2
    intro s hs
    obtain ⟨hs,hmutating⟩ := List.mem_filter.1 ((mutatingSteps_perm _ _).mem_iff.1 hs)
    have hk : ∀ k, (O.get k).map ObservedResource.resourceHash =
        (D.get k).map (ResourceSpec.hash sha256) := by
      intro k
      have hget := congrFun hsame k
      rwa [Hosted.seed,Hosted.ofDesired,update_entries hO.2,update_entries hD.2] at hget
    rcases List.mem_append.1 hs with hs | hs
    · obtain ⟨r,hr,rfl⟩ := List.mem_map.1 hs
      have hget := (get_of_entries hD.2).2 ⟨(inKeyOrder_perm hD.2).mem_iff.1 hr,rfl⟩
      apply (desiredStep_mutating sha256 _ _ r).1 hmutating
      rw [hk,hget]
      rfl
    · obtain ⟨o,ho,rfl⟩ := List.mem_map.1 hs
      obtain ⟨hmem,hnone⟩ := (mem_surplus hO.2).1 ho
      have hget := hk o.key
      rw [(get_of_entries hO.2).2 ⟨hmem,rfl⟩,hnone] at hget
      cases hget

theorem plan_perm (hdesired : desired'.Perm desired) (hobserved : observed'.Perm observed)
    (h : planProvider sha256 provider desired observed target = .ok plan) :
    planProvider sha256 provider desired' observed' target = .ok plan := by
  obtain ⟨hprovider,D,O,hD,hO,rfl⟩ := planProvider_ok.1 h
  have hD' := (hdesired.map ResourceSpec.key).nodup_iff.2 hD.1
  have hO' := (hobserved.map ObservedResource.key).nodup_iff.2 hO.1
  let D' : Dict ResourceKey ResourceSpec := ⟨desired'.map fun r => (r.key,r),by
    simpa only [List.map_map,Function.comp_def] using hD'⟩
  let O' : Dict ResourceKey ObservedResource := ⟨observed'.map fun r => (r.key,r),by
    simpa only [List.map_map,Function.comp_def] using hO'⟩
  have hDperm : D'.entries.Perm D.entries := hD.2 ▸ hdesired.map _
  have hOperm : O'.entries.Perm O.entries := hO.2 ▸ hobserved.map _
  have hDkeys := sortedKeys_congr hDperm
  have hOkeys := sortedKeys_congr hOperm
  have hDget := get_congr hDperm
  have hOget := get_congr hOperm
  refine planProvider_ok.2 ⟨hprovider,D',O',⟨hD',rfl⟩,⟨hO',rfl⟩,?_⟩
  simp only [desiredDocument,planSteps,inKeyOrder,hDkeys,hOkeys,hDget,hOget]

structure Reconciles (sha256 : List Char → Digest) (provider : String) (target : ProviderTarget)
    (desired : List ResourceSpec) (observed : List ObservedResource) (plan : ProviderPlan) : Prop where
  /-- Its mutating steps, in any order, lead to the desired state, where nothing is left to do. -/
  reaches : ∀ steps : List PlanStep, steps.Perm plan.mutatingSteps →
    ∃ changes, steps.mapM PlanStep.toChange = .ok changes ∧
      (∀ key, (changes.foldl Hosted.perform (Hosted.seed Dict.empty observed)).get key =
        (Hosted.ofDesired sha256 desired).get key) ∧
      ∃ again, planProvider sha256 provider desired
          (changes.foldl Hosted.perform (Hosted.seed Dict.empty observed)).observed target =
            .ok again ∧ again.isConverged = true
  converged : plan.isConverged = true ↔ ∀ key, (Hosted.seed Dict.empty observed).get key =
    (Hosted.ofDesired sha256 desired).get key
  perm : ∀ desired' observed', desired'.Perm desired → observed'.Perm observed →
    ∃ plan', planProvider sha256 provider desired' observed' target = .ok plan' ∧
      plan'.hash sha256 = plan.hash sha256

/-- A plan leads from any observed state to the desired one, whatever the order of its steps;
planning again finds nothing to do, and a plan is converged exactly if nothing was to be done. -/
theorem plan_reconciles (sha256 : List Char → Digest) (target : ProviderTarget)
    (hprovider : provider ≠ "") (hdesired : (desired.map ResourceSpec.key).Nodup)
    (hobserved : (observed.map ObservedResource.key).Nodup) :
    ∃ plan, planProvider sha256 provider desired observed target = .ok plan ∧
      Reconciles sha256 provider target desired observed plan := by
  have hplan : ∀ {os : List ObservedResource}, (os.map ObservedResource.key).Nodup →
      ∃ plan, planProvider sha256 provider desired os target = .ok plan := by
    intro os hos
    refine ⟨_,planProvider_ok.2 ⟨hprovider,⟨desired.map fun r => (r.key,r),?_⟩,
      ⟨os.map fun r => (r.key,r),?_⟩,⟨hdesired,rfl⟩,⟨hos,rfl⟩,rfl⟩⟩
    · simpa only [List.map_map,Function.comp_def] using hdesired
    · simpa only [List.map_map,Function.comp_def] using hos
  obtain ⟨plan,h⟩ := hplan hobserved
  refine ⟨plan,h,?_,?_,?_⟩
  · intro steps hperm
    have hmutating : ∀ s ∈ steps, s.action.isMutating = true := fun s hs =>
      (List.mem_filter.1 (hperm.mem_iff.1 hs)).2
    obtain ⟨changes,hchanges,hall⟩ := mapM_toChange hmutating
    have hreached := (plan_leads h).perm (hperm.map PlanStep.edit)
    have hget := (hall (Hosted.seed Dict.empty observed)).trans hreached.applyAll
    obtain ⟨again,hagain⟩ := hplan
      (observed_keys (changes.foldl Hosted.perform (Hosted.seed Dict.empty observed)))
    refine ⟨changes,hchanges,congrFun hget,again,hagain,(plan_isConverged hagain).2 ?_⟩
    rw [funext (seed_observed _),hget]
  · rw [plan_isConverged h]
    exact ⟨congrFun,funext⟩
  · intro desired' observed' hd ho
    exact ⟨plan,plan_perm hd ho h,rfl⟩

/-- One resource that is changed, and one that is not desired. -/
theorem plan_reconciles_pair :
    let desired : List ResourceSpec := [⟨"db","main",[("size",.int 1)],by decide,by decide⟩]
    let observed : List ObservedResource := [⟨"db","main",.ofNat 7,by decide,by decide⟩,
      ⟨"db","old",.ofNat 9,by decide,by decide⟩]
    ∃ plan, planProvider Digest.ofChars "local" desired observed .localTarget = .ok plan ∧
      Reconciles Digest.ofChars "local" .localTarget desired observed plan :=
  plan_reconciles Digest.ofChars .localTarget (by decide) (by decide) (by decide)

end

end AgentCentric.Provider

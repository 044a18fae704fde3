import Mathlib.Data.List.Nodup
import Mathlib.Data.List.Perm.Basic

namespace AgentCentric

instance lawfulChars : LawfulBEq (List Char) := inferInstance

/-- An insertion-ordered dictionary: each key is bound once. -/
@[ext] structure Dict (κ α : Type) where
  entries : List (κ × α)
  nodup : (entries.map Prod.fst).Nodup

variable {κ α : Type}

namespace Dict

def lookup {κ α : Type} [DecidableEq κ] : List (κ × α) → κ → Option α
  | [], _ => none
  | (k,v) :: es, x => if k = x then some v else lookup es x

/-- An existing key keeps its place and takes the new value, a new key goes last. -/
def insert {κ α : Type} [DecidableEq κ] : List (κ × α) → κ → α → List (κ × α)
  | [], k, v => [(k,v)]
  | (k',v') :: es, k, v => if k' = k then (k,v) :: es else (k',v') :: insert es k v

attribute [grind =] lookup insert

theorem lookup_insert [DecidableEq κ] (es : List (κ × α)) (k x : κ) (v : α) :
    lookup (insert es k v) x = if k = x then some v else lookup es x := by
  induction es with
  | nil => simp [insert,lookup]
  | cons e es ih =>
    obtain ⟨k',v'⟩ := e
    by_cases hk : k' = k
    · subst hk
      by_cases hx : k' = x <;> simp [insert,lookup,hx]
    · by_cases hx : k' = x
      · subst hx
        have hne : ¬ k = k' := fun h => hk h.symm
        simp [insert,lookup,hk,hne]
      · simp [insert,lookup,hk,hx,ih]

theorem insert_of_notMem [DecidableEq κ] {es : List (κ × α)} {k : κ} (v : α)
    (h : k ∉ es.map Prod.fst) : insert es k v = es ++ [(k,v)] := by
  induction es with
  | nil => rfl
  | cons e es ih =>
    simp only [List.map_cons,List.mem_cons,not_or] at h
    have hne : ¬ e.1 = k := fun heq => h.1 heq.symm
    simp only [insert,hne,if_false,ih h.2,List.cons_append]

theorem mem_keys_insert [DecidableEq κ] (es : List (κ × α)) (k x : κ) (v : α) :
    x ∈ (insert es k v).map Prod.fst ↔ x = k ∨ x ∈ es.map Prod.fst := by
  induction es with
  | nil => simp [insert]
  | cons e es ih =>
    obtain ⟨k',v'⟩ := e
    by_cases hk : k' = k
    · simp [insert,hk]
    · simp only [insert,hk,if_false,List.map_cons,List.mem_cons,ih]
      tauto

theorem nodup_insert [DecidableEq κ] (es : List (κ × α)) (k : κ) (v : α)
    (h : (es.map Prod.fst).Nodup) : ((insert es k v).map Prod.fst).Nodup := by
  induction es with
  | nil => simp [insert]
  | cons e es ih =>
    obtain ⟨k',v'⟩ := e
    simp only [List.map_cons,List.nodup_cons] at h
    by_cases hk : k' = k
    · subst hk
      simpa [insert] using h
    · have hmem : ¬ k' ∈ (insert es k v).map Prod.fst := by
        rw [mem_keys_insert]
        rintro (heq | hin)
        · exact hk heq
        · exact h.1 hin
      simp only [insert,hk,if_false,List.map_cons,List.nodup_cons]
      exact ⟨hmem,ih h.2⟩

theorem lookup_eq_some_iff [DecidableEq κ] {es : List (κ × α)}
    (h : (es.map Prod.fst).Nodup) {k : κ} {v : α} : lookup es k = some v ↔ (k,v) ∈ es := by
  induction es with
  | nil => simp [lookup]
  | cons e es ih =>
    obtain ⟨k',v'⟩ := e
    simp only [List.map_cons,List.nodup_cons] at h
    by_cases hk : k' = k
    · subst hk
      have hout : (k',v) ∉ es := fun hmem => h.1 (List.mem_map.2 ⟨_,hmem,rfl⟩)
      simp [lookup,hout,eq_comm]
    · have hne : ¬ k = k' := fun heq => hk heq.symm
      simp [lookup,hk,hne,ih h.2]

/-- The order of the items does not matter. -/
theorem lookup_perm [DecidableEq κ] {es fs : List (κ × α)} (hperm : es.Perm fs)
    (h : (es.map Prod.fst).Nodup) (k : κ) : lookup es k = lookup fs k := by
  have h' : (fs.map Prod.fst).Nodup := (hperm.map Prod.fst).nodup_iff.1 h
  apply Option.ext
  intro v
  rw [lookup_eq_some_iff h,lookup_eq_some_iff h',hperm.mem_iff]

theorem lookup_isSome [DecidableEq κ] (es : List (κ × α)) (k : κ) :
    (lookup es k).isSome = true ↔ k ∈ es.map Prod.fst := by
  induction es with
  | nil => simp [lookup]
  | cons e es ih =>
    by_cases hk : e.1 = k
    · simp [lookup,hk]
    · have hk' : ¬ k = e.1 := fun h => hk h.symm
      simp only [lookup,hk,if_false,List.map_cons,List.mem_cons,hk',false_or,ih]

theorem lookup_map {κ α β : Type} [DecidableEq κ] (f : α → β) (es : List (κ × α)) (k : κ) :
    lookup (es.map fun e => (e.1,f e.2)) k = (lookup es k).map f := by
  induction es with
  | nil => rfl
  | cons e es ih => by_cases hk : e.1 = k <;> simp [lookup,hk,ih]

theorem lookup_eq_head [DecidableEq κ] (es : List (κ × α)) (k : κ) :
    lookup es k = ((es.filter fun e => e.1 = k).head?).map Prod.snd := by
  induction es with
  | nil => rfl
  | cons e es ih => by_cases hk : e.1 = k <;> simp [lookup,hk,ih]

def empty {κ α : Type} : Dict κ α := ⟨[],by simp⟩

def get {κ α : Type} [DecidableEq κ] (d : Dict κ α) (k : κ) : Option α := lookup d.entries k

def set {κ α : Type} [DecidableEq κ] (d : Dict κ α) (k : κ) (v : α) : Dict κ α :=
  ⟨insert d.entries k v,nodup_insert d.entries k v d.nodup⟩

/-- `d.pop(k, None)`, of which only what stays is kept. -/
def erase {κ α : Type} [DecidableEq κ] (d : Dict κ α) (k : κ) : Dict κ α :=
  ⟨d.entries.filter (fun e => e.1 ≠ k),(d.nodup.sublist (List.filter_sublist.map Prod.fst))⟩

/-- `d.update(items)`: every item in turn overrides what was bound. -/
def update {κ α : Type} [DecidableEq κ] (d : Dict κ α) (items : List (κ × α)) : Dict κ α :=
  items.foldl (fun acc item => acc.set item.1 item.2) d

def keys {κ α : Type} (d : Dict κ α) : List κ := d.entries.map Prod.fst

@[simp] theorem get_empty [DecidableEq κ] (k : κ) : (empty : Dict κ α).get k = none := rfl

theorem get_set [DecidableEq κ] (d : Dict κ α) (k x : κ) (v : α) :
    (d.set k v).get x = if k = x then some v else d.get x :=
  lookup_insert d.entries k x v

@[simp] theorem get_set_self [DecidableEq κ] (d : Dict κ α) (k : κ) (v : α) :
    (d.set k v).get k = some v := by simp [get_set]

theorem get_set_ne [DecidableEq κ] (d : Dict κ α) {k x : κ} (v : α)
    (h : k ≠ x) : (d.set k v).get x = d.get x := by simp [get_set,h]

theorem insert_of_lookup [DecidableEq κ] {es : List (κ × α)} {k : κ} {v : α}
    (h : lookup es k = some v) : insert es k v = es := by
  induction es with
  | nil => cases h
  | cons e es ih =>
    obtain ⟨k',v'⟩ := e
    by_cases hk : k' = k
    · simp only [lookup,hk,if_true,Option.some.injEq] at h
      simp only [insert,hk,if_true,h]
    · simp only [lookup,hk,if_false] at h
      simp only [insert,hk,if_false,ih h]

/-- What is bound already is not bound anew. -/
theorem set_of_get [DecidableEq κ] {d : Dict κ α} {k : κ} {v : α}
    (h : d.get k = some v) : d.set k v = d := Dict.ext (insert_of_lookup h)

theorem lookup_filter [DecidableEq κ] (es : List (κ × α)) (k x : κ) :
    lookup (es.filter (fun e => e.1 ≠ k)) x = if k = x then none else lookup es x := by
  induction es with
  | nil => simp [lookup]
  | cons e es ih =>
    obtain ⟨k',v'⟩ := e
    by_cases hk : k' = k
    · subst hk
      by_cases hx : k' = x <;> simp_all [lookup]
    · by_cases hx : k' = x
      · subst hx
        have hne : ¬ k = k' := fun h => hk h.symm
        simp [lookup,hk,hne]
      · simp only [ne_eq,hk,not_false_eq_true,decide_true,List.filter_cons_of_pos,lookup,hx,
          if_false]
        exact ih

theorem get_erase [DecidableEq κ] (d : Dict κ α) (k x : κ) :
    (d.erase k).get x = if k = x then none else d.get x := lookup_filter d.entries k x

@[simp] theorem update_nil [DecidableEq κ] (d : Dict κ α) : d.update [] = d := rfl

theorem update_cons [DecidableEq κ] (d : Dict κ α) (item : κ × α) (items : List (κ × α)) :
    d.update (item :: items) = (d.set item.1 item.2).update items := rfl

theorem get_update_of_notMem [DecidableEq κ] (d : Dict κ α)
    (items : List (κ × α)) (k : κ) (h : k ∉ items.map Prod.fst) :
    (d.update items).get k = d.get k := by
  induction items generalizing d with
  | nil => rfl
  | cons item items ih =>
    simp only [List.map_cons,List.mem_cons,not_or] at h
    rw [update_cons,ih _ h.2,get_set_ne _ _ (Ne.symm h.1)]

/-- Among items with distinct keys, each key ends up bound to its own item. -/
theorem get_update_of_mem [DecidableEq κ] (d : Dict κ α)
    (items : List (κ × α)) (hnodup : (items.map Prod.fst).Nodup) {k : κ} {v : α}
    (h : (k,v) ∈ items) : (d.update items).get k = some v := by
  induction items generalizing d with
  | nil => simp at h
  | cons item items ih =>
    simp only [List.map_cons,List.nodup_cons] at hnodup
    rw [update_cons]
    cases List.mem_cons.mp h with
    | inl heq =>
      subst heq
      rw [get_update_of_notMem _ _ _ hnodup.1,get_set_self]
    | inr hmem => exact ih _ hnodup.2 hmem

/-- After an update a key is bound by one of its items, or as before if it has none. -/
theorem get_update_cases [DecidableEq κ] (d : Dict κ α) (items : List (κ × α))
    (k : κ) : (k ∉ items.map Prod.fst ∧ (d.update items).get k = d.get k) ∨
      ∃ v, (k,v) ∈ items ∧ (d.update items).get k = some v := by
  induction items generalizing d with
  | nil => exact .inl ⟨by simp,rfl⟩
  | cons item items ih =>
    rw [update_cons]
    cases ih (d.set item.1 item.2) with
    | inl hout =>
      by_cases hk : item.1 = k
      · refine .inr ⟨item.2,by simp [← hk],?_⟩
        rw [hout.2,← hk,get_set_self]
      · refine .inl ⟨?_,by rw [hout.2,get_set_ne _ _ hk]⟩
        simp only [List.map_cons,List.mem_cons,not_or]
        exact ⟨fun h => hk h.symm,hout.1⟩
    | inr hin =>
      obtain ⟨v,hv,hget⟩ := hin
      exact .inr ⟨v,List.mem_cons_of_mem item hv,hget⟩

/-- A key whose items all agree ends up bound to their value. -/
theorem get_update_of_agree [DecidableEq κ] (d : Dict κ α) {items : List (κ × α)}
    {k : κ} {v : α} (h : (k,v) ∈ items) (hagree : ∀ w, (k,w) ∈ items → w = v) :
    (d.update items).get k = some v := by
  induction items generalizing d with
  | nil => cases h
  | cons item items ih =>
    rw [update_cons]
    by_cases hin : (k,v) ∈ items
    · exact ih _ hin fun w hw => hagree w (List.mem_cons_of_mem item hw)
    · obtain rfl : item = (k,v) := by
        cases List.mem_cons.mp h with
        | inl heq => exact heq.symm
        | inr hmem => exact absurd hmem hin
      have hnew : k ∉ items.map Prod.fst := by
        intro hk
        obtain ⟨⟨k',w⟩,hw,rfl⟩ := List.mem_map.mp hk
        exact hin (hagree w (List.mem_cons_of_mem _ hw) ▸ hw)
      rw [get_update_of_notMem _ _ _ hnew,get_set_self]

theorem lookup_map_keys [DecidableEq κ] (f : κ → α) {ks : List κ} {k : κ}
    (h : k ∈ ks) : lookup (ks.map fun k => (k,f k)) k = some (f k) := by
  induction ks with
  | nil => cases h
  | cons x ks ih =>
    by_cases hx : x = k
    · simp [lookup,hx]
    · have hmem : k ∈ ks := by
        cases List.mem_cons.mp h with
        | inl heq => exact absurd heq.symm hx
        | inr hmem => exact hmem
      simpa only [List.map_cons,lookup,hx,if_false] using ih hmem

/-- Items with new and distinct keys are appended. -/
theorem update_fresh [DecidableEq κ] (d : Dict κ α) (items : List (κ × α))
    (h : ((d.entries ++ items).map Prod.fst).Nodup) : d.update items = ⟨d.entries ++ items,h⟩ := by
  induction items generalizing d with
  | nil =>
    apply Dict.ext
    exact (List.append_nil d.entries).symm
  | cons item items ih =>
    have hnew : item.1 ∉ d.entries.map Prod.fst := by
      rw [List.map_append,List.nodup_append] at h
      exact fun hin => h.2.2 _ hin _ (by simp) rfl
    have hset : (d.set item.1 item.2).entries = d.entries ++ [item] :=
      insert_of_notMem item.2 hnew
    have hkeys : (((d.set item.1 item.2).entries ++ items).map Prod.fst).Nodup := by
      rw [hset,List.append_assoc]
      exact h
    apply Dict.ext
    calc (d.update (item :: items)).entries
        = ((d.set item.1 item.2).update items).entries := rfl
      _ = (d.set item.1 item.2).entries ++ items := by rw [ih _ hkeys]
      _ = d.entries ++ item :: items := by rw [hset,List.append_assoc]; rfl

theorem update_empty [DecidableEq κ] (d : Dict κ α) : empty.update d.entries = d :=
  update_fresh empty d.entries d.nodup

def mapValues {κ α β : Type} (f : α → β) (d : Dict κ α) : Dict κ β :=
  ⟨d.entries.map fun e => (e.1,f e.2),by simpa [Function.comp_def] using d.nodup⟩

theorem get_mapValues {κ α β : Type} [DecidableEq κ] (f : α → β) (d : Dict κ α) (k : κ) :
    (d.mapValues f).get k = (d.get k).map f := lookup_map f d.entries k

end Dict
end AgentCentric

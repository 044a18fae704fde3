import AgentCentric.Library.Json

namespace AgentCentric.JsonScan
open Json

/-- Outside of strings, in one, or after a backslash in one, under so many open brackets. -/
inductive State where
  | outside : Nat → State
  | inside : Nat → State
  | escaped : Nat → State

def step : State → Char → Option State
  | .outside 0, c => if blank c then some (.outside 0) else none
  | .outside (d + 1), c =>
    if c = '"' then some (.inside (d + 1))
    else if c = '\\' then none
    else if c = '{' ∨ c = '[' then some (.outside (d + 2))
    else if c = '}' ∨ c = ']' then some (.outside d)
    else some (.outside (d + 1))
  | .inside d, c =>
    if c = '"' then some (.outside d)
    else if c = '\\' then some (.escaped d)
    else some (.inside d)
  | .escaped d, _ => some (.inside d)

def scan : State → List Char → Option State
  | s, [] => some s
  | s, c :: cs => (step s c).bind fun t => scan t cs

theorem scan_append (s : State) (xs ys : List Char) :
    scan s (xs ++ ys) = (scan s xs).bind fun t => scan t ys := by
  induction xs generalizing s with
  | nil => rfl
  | cons c xs ih =>
    rw [List.cons_append,scan,scan]
    cases step s c with
    | none => rfl
    | some t => exact ih t

/-- The text up to `rest` leads from one state to the other. -/
def Passage (s t : State) (cs rest : List Char) : Prop :=
  ∃ front, cs = front ++ rest ∧ scan s front = some t

theorem Passage.refl (s : State) (cs : List Char) : Passage s s cs cs := ⟨[],rfl,rfl⟩

theorem Passage.cons {s t u : State} {c : Char} {cs rest : List Char} (hstep : step s c = some t)
    (h : Passage t u cs rest) : Passage s u (c :: cs) rest := by
  obtain ⟨front,rfl,hscan⟩ := h
  exact ⟨c :: front,rfl,by rw [scan,hstep]; exact hscan⟩

theorem Passage.trans {s t u : State} {xs ys zs : List Char} (h : Passage s t xs ys)
    (h' : Passage t u ys zs) : Passage s u xs zs := by
  obtain ⟨front,rfl,hscan⟩ := h
  obtain ⟨middle,rfl,hscan'⟩ := h'
  exact ⟨front ++ middle,by rw [List.append_assoc],by rw [scan_append,hscan]; exact hscan'⟩

/-- A character that means nothing outside of strings. -/
def plain (c : Char) : Bool := c ∉ ['"','\\','{','[','}',']']

variable {c : Char}

theorem step_plain (h : plain c = true) (d : Nat) :
    step (.outside (d + 1)) c = some (.outside (d + 1)) := by
  simp only [plain,decide_eq_true_eq,List.mem_cons,List.not_mem_nil,or_false,not_or] at h
  simp [step,h]

theorem passage_plain {front : List Char} (rest : List Char) (h : front.all plain = true)
    (d : Nat) : Passage (.outside (d + 1)) (.outside (d + 1)) (front ++ rest) rest := by
  induction front with
  | nil => exact Passage.refl _ _
  | cons c front ih =>
    rw [List.all_cons,Bool.and_eq_true] at h
    exact Passage.cons (step_plain h.1 d) (ih h.2)

theorem plain_of_blank (h : blank c = true) : plain c = true := by
  simp only [blank,Bool.or_eq_true,decide_eq_true_eq] at h
  rcases h with ((rfl | rfl) | rfl) | rfl <;> decide

theorem plain_of_number (h : numberChar c = true) : plain c = true := by
  by_contra hplain
  simp only [plain,decide_eq_true_eq,not_not,List.mem_cons,List.not_mem_nil,or_false] at hplain
  rcases hplain with rfl | rfl | rfl | rfl | rfl | rfl <;> revert h <;> decide

theorem passage_skip (cs : List Char) (d : Nat) :
    Passage (.outside (d + 1)) (.outside (d + 1)) cs (skip cs) := by
  have hsplit : cs.takeWhile blank ++ skip cs = cs := List.takeWhile_append_dropWhile
  have hplain : (cs.takeWhile blank).all plain = true :=
    List.all_eq_true.2 fun c hc => plain_of_blank (List.all_eq_true.1 List.all_takeWhile c hc)
  have hpassage := passage_plain (skip cs) hplain d
  rwa [hsplit] at hpassage

variable {n : Nat}

theorem plain_of_unhex (h : unhex c = some n) : c ≠ '"' ∧ c ≠ '\\' := by
  have hquote : unhex '"' = none := by decide
  have hslash : unhex '\\' = none := by decide
  constructor
  · rintro rfl
    rw [hquote] at h
    cases h
  · rintro rfl
    rw [hslash] at h
    cases h

theorem passage_unhex4 {a b c d : Char} (h : unhex4 a b c d = some n)
    (depth : Nat) (rest : List Char) :
    Passage (.inside depth) (.inside depth) (a :: b :: c :: d :: rest) rest := by
  simp only [unhex4,Option.bind_eq_bind,Option.bind_eq_some_iff] at h
  obtain ⟨_,ha,_,hb,_,hc,_,hd,-⟩ := h
  have hstep : ∀ {x : Char} {m : Nat}, unhex x = some m →
      step (.inside depth) x = some (.inside depth) := by
    intro x m hx
    obtain ⟨hquote,hslash⟩ := plain_of_unhex hx
    simp [step,hquote,hslash]
  exact Passage.cons (hstep ha) (Passage.cons (hstep hb) (Passage.cons (hstep hc)
    (Passage.cons (hstep hd) (Passage.refl _ _))))

variable {cs rest : List Char}

/-- The rest of a string leads out of it. -/
theorem passage_units {units : List Nat} (h : parseUnits cs = some (units,rest)) (d : Nat) :
    Passage (.inside d) (.outside d) cs rest := by
  induction cs using parseUnits.induct generalizing units rest with
  | case1 => simp [parseUnits] at h
  | case2 tail =>
    simp only [parseUnits,Option.some.injEq,Prod.mk.injEq] at h
    obtain ⟨-,rfl⟩ := h
    exact Passage.cons (by simp [step]) (Passage.refl _ _)
  | case3 a b c e tail ih =>
    simp only [parseUnits,Option.bind_eq_bind,Option.bind_eq_some_iff] at h
    obtain ⟨n,hn,⟨units',rest'⟩,htail,hrest⟩ := h
    cases hrest
    have hslash : step (.inside d) '\\' = some (.escaped d) := by simp [step]
    exact Passage.cons hslash (Passage.cons rfl ((passage_unhex4 hn d tail).trans (ih htail)))
  | case4 c tail hcase ih =>
    rw [parseUnits] at h
    · simp only [Option.bind_eq_bind,Option.bind_eq_some_iff] at h
      obtain ⟨x,-,⟨units',rest'⟩,htail,hrest⟩ := h
      cases hrest
      have hslash : step (.inside d) '\\' = some (.escaped d) := by simp [step]
      exact Passage.cons hslash (Passage.cons rfl (ih htail))
    · exact hcase
  | case5 c tail hquote hunit hslash ih =>
    have hc : c ≠ '"' := hquote
    by_cases hescape : c = '\\'
    · subst hescape
      have htail : tail = [] := by
        cases tail with
        | nil => rfl
        | cons x xs => exact (hslash x xs rfl rfl).elim
      subst htail
      simp [parseUnits] at h
    · rw [parseUnits_plain tail hc hescape,Option.map_eq_some_iff] at h
      obtain ⟨⟨units',rest'⟩,htail,hrest⟩ := h
      cases hrest
      exact Passage.cons (by simp [step,hc,hescape]) (ih htail)

theorem passage_chars {cs rest text : List Char} (h : parseChars cs = some (text,rest)) (d : Nat) :
    Passage (.inside d) (.outside d) cs rest := by
  unfold parseChars at h
  obtain ⟨⟨units,rest'⟩,hunits,hrest⟩ := Option.map_eq_some_iff.1 h
  cases hrest
  exact passage_units hunits d

variable {j : Json}

theorem passage_number (h : parseNumber cs = some (j,rest))
    (d : Nat) : Passage (.outside (d + 1)) (.outside (d + 1)) cs rest := by
  have hrest : rest = cs.dropWhile numberChar := by
    unfold parseNumber at h
    simp only at h
    split at h
    · cases h
      rfl
    · obtain ⟨n,-,hn⟩ := Option.map_eq_some_iff.1 h
      cases hn
      rfl
  have hplain : (cs.takeWhile numberChar).all plain = true :=
    List.all_eq_true.2 fun c hc => plain_of_number (List.all_eq_true.1 List.all_takeWhile c hc)
  have hpassage := passage_plain rest hplain d
  rwa [hrest,List.takeWhile_append_dropWhile,← hrest] at hpassage

theorem step_quote (d : Nat) : step (.outside (d + 1)) '"' = some (.inside (d + 1)) := by
  simp [step]

theorem step_open (h : c = '{' ∨ c = '[') (d : Nat) :
    step (.outside (d + 1)) c = some (.outside (d + 2)) := by
  rcases h with rfl | rfl <;> simp [step]

theorem step_close (h : c = '}' ∨ c = ']') (d : Nat) :
    step (.outside (d + 1)) c = some (.outside d) := by
  rcases h with rfl | rfl <;> simp [step]

/-- A value leaves the brackets as they are, what follows an open one closes it. -/
structure Read (n : Nat) : Prop where
  value : ∀ cs j rest, parseValue n cs = some (j,rest) →
    ∀ d, Passage (.outside (d + 1)) (.outside (d + 1)) cs rest
  elements : ∀ cs xs rest, parseElements n cs = some (xs,rest) →
    ∀ d, Passage (.outside (d + 1)) (.outside d) cs rest
  members : ∀ cs items rest, parseMembers n cs = some (items,rest) →
    ∀ d, Passage (.outside (d + 1)) (.outside d) cs rest

theorem Read.elements_succ (hread : Read n) {xs : List Json}
    (h : parseElements (n + 1) cs = some (xs,rest)) (d : Nat) :
    Passage (.outside (d + 1)) (.outside d) cs rest := by
  rw [parseElements,Option.bind_eq_bind,Option.bind_eq_some_iff] at h
  obtain ⟨⟨x,tail⟩,hx,h⟩ := h
  have htail := (hread.value cs x tail hx d).trans (passage_skip tail d)
  simp only at h
  split at h
  · next r heq =>
    cases h
    rw [heq] at htail
    exact htail.trans (Passage.cons (step_close (.inr rfl) d) (Passage.refl _ _))
  · next r heq =>
    rw [Option.bind_eq_bind,Option.bind_eq_some_iff] at h
    obtain ⟨⟨ys,r'⟩,hys,h⟩ := h
    cases h
    rw [heq] at htail
    exact htail.trans (Passage.cons (step_plain (by decide) d) (hread.elements _ _ _ hys d))
  · cases h

theorem Read.members_succ (hread : Read n)
    {items : List (String × Json)} (h : parseMembers (n + 1) cs = some (items,rest)) (d : Nat) :
    Passage (.outside (d + 1)) (.outside d) cs rest := by
  rw [parseMembers] at h
  have hstart := passage_skip cs d
  split at h
  · next r heq =>
    rw [heq] at hstart
    rw [Option.bind_eq_bind,Option.bind_eq_some_iff] at h
    obtain ⟨⟨k,r₁⟩,hk,h⟩ := h
    have hkey := (hstart.trans (Passage.cons (step_quote d) (passage_chars hk (d + 1)))).trans
      (passage_skip r₁ d)
    simp only at h
    split at h
    · next r₂ heq =>
      rw [heq] at hkey
      rw [Option.bind_eq_bind,Option.bind_eq_some_iff] at h
      obtain ⟨⟨v,r₃⟩,hv,h⟩ := h
      have hvalue := (hkey.trans (Passage.cons (step_plain (by decide) d)
        (hread.value _ _ _ hv d))).trans (passage_skip r₃ d)
      simp only at h
      split at h
      · next r₄ heq =>
        cases h
        rw [heq] at hvalue
        exact hvalue.trans (Passage.cons (step_close (.inl rfl) d) (Passage.refl _ _))
      · next r₄ heq =>
        rw [Option.bind_eq_bind,Option.bind_eq_some_iff] at h
        obtain ⟨⟨items',r₅⟩,hitems,h⟩ := h
        cases h
        rw [heq] at hvalue
        exact hvalue.trans (Passage.cons (step_plain (by decide) d) (hread.members _ _ _ hitems d))
      · cases h
    · cases h
  · cases h

theorem Read.value_succ (hread : Read n) (h : parseValue (n + 1) cs = some (j,rest)) (d : Nat) :
    Passage (.outside (d + 1)) (.outside (d + 1)) cs rest := by
  have hstart := passage_skip cs d
  have hliteral : ∀ (front : List Char) {r : List Char}, front.all plain = true →
      skip cs = front ++ r → Passage (.outside (d + 1)) (.outside (d + 1)) cs r := by
    intro front r hplain heq
    rw [heq] at hstart
    exact hstart.trans (passage_plain r hplain d)
  rw [parseValue] at h
  split at h
  · next r heq =>
    cases h
    exact hliteral ['n','u','l','l'] (by decide) heq
  · next r heq =>
    cases h
    exact hliteral ['t','r','u','e'] (by decide) heq
  · next r heq =>
    cases h
    exact hliteral ['f','a','l','s','e'] (by decide) heq
  · next r heq =>
    cases h
    exact hliteral ['N','a','N'] (by decide) heq
  · next r heq =>
    cases h
    exact hliteral ['I','n','f','i','n','i','t','y'] (by decide) heq
  · next r heq =>
    cases h
    exact hliteral ['-','I','n','f','i','n','i','t','y'] (by decide) heq
  · next r heq =>
    rw [heq] at hstart
    obtain ⟨⟨text,r'⟩,htext,hr⟩ := Option.map_eq_some_iff.1 h
    cases hr
    exact hstart.trans (Passage.cons (step_quote d) (passage_chars htext (d + 1)))
  · next r heq =>
    rw [heq] at hstart
    have hopen := hstart.trans (Passage.cons (step_open (.inr rfl) d) (passage_skip r (d + 1)))
    split at h
    · next r' heq =>
      cases h
      rw [heq] at hopen
      exact hopen.trans (Passage.cons (step_close (.inr rfl) (d + 1)) (Passage.refl _ _))
    · obtain ⟨⟨xs,r'⟩,hxs,hr⟩ := Option.map_eq_some_iff.1 h
      cases hr
      exact hopen.trans (hread.elements _ _ _ hxs (d + 1))
  · next r heq =>
    rw [heq] at hstart
    have hopen := hstart.trans (Passage.cons (step_open (.inl rfl) d) (passage_skip r (d + 1)))
    split at h
    · next r' heq =>
      cases h
      rw [heq] at hopen
      exact hopen.trans (Passage.cons (step_close (.inl rfl) (d + 1)) (Passage.refl _ _))
    · obtain ⟨⟨items,r'⟩,hitems,hr⟩ := Option.map_eq_some_iff.1 h
      cases hr
      exact hopen.trans (hread.members _ _ _ hitems (d + 1))
  · exact hstart.trans (passage_number h d)

theorem read : ∀ n, Read n
  | 0 => by
    constructor
    · intro cs j rest h
      simp [parseValue] at h
    · intro cs xs rest h
      simp [parseElements] at h
    · intro cs items rest h
      simp [parseMembers] at h
  | n + 1 =>
    ⟨fun _ _ _ h => (read n).value_succ h,fun _ _ _ h => (read n).elements_succ h,
      fun _ _ _ h => (read n).members_succ h⟩

theorem scan_blank {cs : List Char} (h : skip cs = []) : scan (.outside 0) cs = some (.outside 0) ∧
    ∀ d, scan (.outside (d + 1)) cs = some (.outside (d + 1)) := by
  have hall : ∀ c ∈ cs, blank c = true := by
    intro c hc
    have hdrop := List.dropWhile_eq_nil_iff.1 h c hc
    simpa [blank] using hdrop
  clear h
  induction cs with
  | nil => exact ⟨rfl,fun _ => rfl⟩
  | cons c cs ih =>
    have hc := hall c List.mem_cons_self
    obtain ⟨hover,hopen⟩ := ih fun x hx => hall x (List.mem_cons_of_mem c hx)
    constructor
    · rw [scan,step,if_pos hc]
      exact hover
    · intro d
      rw [scan,step_plain (plain_of_blank hc) d]
      exact hopen d

theorem loads_ofList {text : List Char} (h : loads (String.ofList text) = some j) :
    ∃ rest, parseValue (text.length + 1) text = some (j,rest) ∧ skip rest = [] := by
  unfold loads at h
  rw [String.toList_ofList,String.length_ofList] at h
  split at h
  · next j' rest heq =>
    split at h
    · next hrest =>
      cases h
      exact ⟨rest,heq,hrest⟩
    · cases h
  · cases h

/-- Under an open bracket a text that can be read changes nothing. -/
theorem scan_loads {text : List Char} (h : loads (String.ofList text) = some j)
    (d : Nat) : scan (.outside (d + 1)) text = some (.outside (d + 1)) := by
  obtain ⟨rest,hvalue,hrest⟩ := loads_ofList h
  obtain ⟨front,rfl,hscan⟩ := (read _).value _ _ _ hvalue d
  rw [scan_append,hscan]
  exact (scan_blank hrest).2 d

/-- The text of a mapping closes the brace that it begins with, and nothing follows. -/
theorem scan_loads_dict {text : List Char} {items : List (String × Json)}
    (h : loads (String.ofList text) = some (.dict items)) :
    ∃ body, skip text = '{' :: body ∧ scan (.outside 1) body = some (.outside 0) := by
  obtain ⟨rest,hvalue,hrest⟩ := loads_ofList h
  have hover : ∀ {body : List Char}, Passage (.outside 1) (.outside 0) body rest →
      scan (.outside 1) body = some (.outside 0) := by
    rintro body ⟨front,rfl,hscan⟩
    rw [scan_append,hscan]
    exact (scan_blank hrest).1
  rw [parseValue] at hvalue
  split at hvalue
  iterate 6 · cases hvalue
  · obtain ⟨⟨_,_⟩,_,hr⟩ := Option.map_eq_some_iff.1 hvalue
    cases hr
  · split at hvalue
    · cases hvalue
    · obtain ⟨⟨_,_⟩,_,hr⟩ := Option.map_eq_some_iff.1 hvalue
      cases hr
  · next body heq =>
    refine ⟨body,heq,hover ?_⟩
    have hstart := passage_skip body 0
    split at hvalue
    · next r heq =>
      cases hvalue
      rw [heq] at hstart
      exact hstart.trans (Passage.cons (step_close (.inl rfl) 0) (Passage.refl _ _))
    · obtain ⟨⟨items',r⟩,hitems,hr⟩ := Option.map_eq_some_iff.1 hvalue
      cases hr
      exact hstart.trans ((read _).members _ _ _ hitems 0)
  · unfold parseNumber at hvalue
    simp only at hvalue
    split at hvalue
    · cases hvalue
    · obtain ⟨n,-,hn⟩ := Option.map_eq_some_iff.1 hvalue
      cases hn

/-- One reader is in a string where the other one is not. -/
inductive Flipped : State → State → Prop where
  | inside (a b : Nat) : Flipped (.outside a) (.inside b)
  | outside (a b : Nat) : Flipped (.inside a) (.outside b)

theorem Flipped.step {s t s' t' : State} (h : Flipped s t) (hs : step s c = some s')
    (ht : step t c = some t') : Flipped s' t' := by
  have hpair : ∀ {a b : Nat} {u v : State}, JsonScan.step (.outside a) c = some u →
      JsonScan.step (.inside b) c = some v →
        (∃ a' b', u = .outside a' ∧ v = .inside b') ∨ ∃ a' b', u = .inside a' ∧ v = .outside b' := by
    intro a b u v hu hv
    cases a with
    | zero =>
      simp only [JsonScan.step] at hu
      split at hu
      · next hblank =>
        have hplain := plain_of_blank hblank
        simp only [plain,decide_eq_true_eq,List.mem_cons,List.not_mem_nil,or_false,not_or] at hplain
        simp only [JsonScan.step,hplain,if_false] at hv
        cases hu
        cases hv
        exact .inl ⟨_,_,rfl,rfl⟩
      · cases hu
    | succ a =>
      simp only [JsonScan.step] at hu hv
      by_cases hquote : c = '"'
      · rw [if_pos hquote] at hu hv
        cases hu
        cases hv
        exact .inr ⟨_,_,rfl,rfl⟩
      rw [if_neg hquote] at hu hv
      by_cases hslash : c = '\\'
      · rw [if_pos hslash] at hu
        cases hu
      rw [if_neg hslash] at hu hv
      cases hv
      split at hu
      · cases hu
        exact .inl ⟨_,_,rfl,rfl⟩
      split at hu <;> cases hu <;> exact .inl ⟨_,_,rfl,rfl⟩
  cases h with
  | inside a b =>
    rcases hpair hs ht with ⟨_,_,rfl,rfl⟩ | ⟨_,_,rfl,rfl⟩
    · exact .inside _ _
    · exact .outside _ _
  | outside a b =>
    rcases hpair ht hs with ⟨_,_,rfl,rfl⟩ | ⟨_,_,rfl,rfl⟩
    · exact .outside _ _
    · exact .inside _ _

theorem Flipped.scan {s t s' t' : State} (h : Flipped s t) {cs : List Char}
    (hs : scan s cs = some s') (ht : scan t cs = some t') : Flipped s' t' := by
  induction cs generalizing s t with
  | nil =>
    cases hs
    cases ht
    exact h
  | cons c cs ih =>
    rw [JsonScan.scan,Option.bind_eq_some_iff] at hs ht
    obtain ⟨u,hu,hs⟩ := hs
    obtain ⟨v,hv,ht⟩ := ht
    exact ih (h.step hu hv) hs ht

/-- A text that is not blank, and then the text of a mapping: no mapping can be read. -/
theorem loads_glued {tail body : List Char} (htail : skip tail ≠ [])
    (h : loads (String.ofList ('{' :: body)) = some j) (items : List (String × Json)) :
    loads (String.ofList (tail ++ '{' :: body)) ≠ some (.dict items) := by
  intro hdict
  obtain ⟨rest,hrest,hscan⟩ := scan_loads_dict hdict
  have hskip : skip (tail ++ '{' :: body) = skip tail ++ '{' :: body := by
    obtain ⟨c,cs,hcs⟩ := List.exists_cons_of_ne_nil htail
    unfold skip at hcs ⊢
    rw [List.dropWhile_append,hcs]
    simp
  obtain ⟨c,cs,hcs⟩ := List.exists_cons_of_ne_nil htail
  rw [hskip,hcs,List.cons_append,List.cons.injEq] at hrest
  rw [← hrest.2,scan_append,Option.bind_eq_some_iff] at hscan
  obtain ⟨s,-,hscan⟩ := hscan
  have hplain := scan_loads h
  cases s with
  | outside d =>
    cases d with
    | zero => simp [scan,step,blank] at hscan
    | succ d =>
      rw [hplain d] at hscan
      cases hscan
  | inside d =>
    cases (Flipped.inside 1 d).scan (hplain 0) hscan
  | escaped d =>
    -- the brace is escaped, and what follows is still in the string
    have hfirst := hplain 0
    rw [scan,step_open (.inl rfl) 0] at hfirst
    rw [scan] at hscan
    cases (Flipped.inside 2 d).scan hfirst hscan

end AgentCentric.JsonScan

import AgentCentric.Library.JsonLines
import AgentCentric.Library.JsonText
import AgentCentric.Library.Regex

namespace AgentCentric.Chat
open Json JsonText Regex
open JsonLines (isSpace)

def backtick : Char := Char.ofNat 96

def codeFence : List Char := [backtick,backtick,backtick]

def spaces : Pattern := .many (.set isSpace)

def jsonFence : Pattern :=
  .all [literally codeFence,(literally ['j','s','o','n']).optional,spaces,shortest 1,spaces,
    literally codeFence]

def strip (text : List Char) : List Char :=
  ((text.dropWhile isSpace).reverse.dropWhile isSpace).reverse

/-- What the loop of `repair_json` keeps: where the last object began and ended, and how many braces
are open. -/
structure Clip where
  start : Int
  last : Int
  depth : Nat

def Clip.new : Clip := ⟨-1,-1,0⟩

def Clip.step (c : Clip) (i : Nat) (ch : Char) : Clip :=
  if ch = '{' then ⟨if c.depth = 0 then i else c.start,c.last,c.depth + 1⟩
  else if ch = '}' then
    if 0 < c.depth then ⟨c.start,if c.depth - 1 = 0 then i else c.last,c.depth - 1⟩ else c
  else c

def Clip.run : Nat → Clip → List Char → Clip
  | _,c,[] => c
  | i,c,ch :: rest => Clip.run (i + 1) (c.step i ch) rest

/-- `text[start:last + 1]`. -/
def slice (text : List Char) (start last : Int) : List Char :=
  (text.take (last + 1).toNat).drop start.toNat

def repairJson (text : List Char) : List Char :=
  match search jsonFence text with
  | some fence => strip (fence.group 1)
  | none =>
    let c := Clip.run 0 .new text
    if c.start ≠ -1 ∧ c.start ≤ c.last then strip (slice text c.start c.last) else []

inductive PayloadError where
  | missing
  | invalid
  | notObject (typeName : String)

def parseJsonObject (F : Floats) (text : List Char) :
    Except PayloadError (List (String × Json)) :=
  let cleaned := strip (repairJson text)
  if cleaned = [] then .error .missing
  else
    match loads F cleaned with
    | none => .error .invalid
    | some (.dict items) => .ok items
    | some other => .error (.notObject other.typeName)

def Fenced (text : List Char) : Prop := ∃ a b, text = a ++ codeFence ++ b

def FencedTwice (text : List Char) : Prop :=
  ∃ a b c, text = a ++ codeFence ++ b ++ codeFence ++ c

structure Bare (text : List Char) : Prop where
  opening : '{' ∉ text
  closing : '}' ∉ text
  fence : ¬ Fenced text

/-- The braces are balanced at the end of the text and not before, those in its strings counted as
well. -/
def Balanced (text : List Char) : Prop :=
  text.count '{' = text.count '}' ∧ ∀ front rest, text = front ++ rest → front ≠ [] → rest ≠ [] →
    front.count '}' < front.count '{'

theorem strip_split (text : List Char) : ∃ a b, text = a ++ strip text ++ b := by
  have hfront : text.takeWhile isSpace ++ text.dropWhile isSpace = text :=
    List.takeWhile_append_dropWhile
  generalize hmiddle : text.dropWhile isSpace = middle at hfront
  have hback : middle.reverse.takeWhile isSpace ++ middle.reverse.dropWhile isSpace =
      middle.reverse := List.takeWhile_append_dropWhile
  have hreverse := congrArg List.reverse hback
  rw [List.reverse_append,List.reverse_reverse] at hreverse
  refine ⟨text.takeWhile isSpace,(middle.reverse.takeWhile isSpace).reverse,?_⟩
  rw [strip,hmiddle,List.append_assoc,hreverse,hfront]

theorem strip_bounded {c e : Char} {middle : List Char} (hc : isSpace c = false)
    (he : isSpace e = false) : strip (c :: middle ++ [e]) = c :: middle ++ [e] := by
  have hfirst : (c :: middle ++ [e]).dropWhile isSpace = c :: middle ++ [e] :=
    List.dropWhile_cons_of_neg (by rw [hc]; decide)
  have hlast : (c :: middle ++ [e]).reverse = e :: (c :: middle).reverse := by simp
  have hkept : (e :: (c :: middle).reverse).dropWhile isSpace = e :: (c :: middle).reverse :=
    List.dropWhile_cons_of_neg (by rw [he]; decide)
  rw [strip,hfirst,hlast,hkept]
  simp

theorem strip_braces (middle : List Char) :
    strip ('{' :: middle ++ ['}']) = '{' :: middle ++ ['}'] := strip_bounded (by decide) (by decide)

theorem parse_ok_iff (F : Floats) {text : List Char} {items : List (String × Json)} :
    parseJsonObject F text = .ok items ↔
      strip (repairJson text) ≠ [] ∧ loads F (strip (repairJson text)) = some (.dict items) := by
  unfold parseJsonObject
  dsimp only
  split
  · rename_i hempty
    simp [hempty]
  · rename_i hne
    cases hloads : loads F (strip (repairJson text)) with
    | none => simp
    | some j => cases j <;> simp [hne]

variable {F : Floats} {items : List (String × Json)} {p s q : List Char}

theorem piece_whole (hs : Serialises F items s) {a x b text : List Char}
    (hx : s = a ++ x ++ b) (hrepair : repairJson text = strip x)
    (hparse : parseJsonObject F text = .ok items) : a = [] ∧ b = [] := by
  obtain ⟨-,hloads⟩ := (parse_ok_iff F).1 hparse
  rw [hrepair] at hloads
  obtain ⟨l,r,hstrip⟩ := strip_split x
  obtain ⟨l',r',hstrip'⟩ := strip_split (strip x)
  have hwhole := hs.whole (a := a ++ l ++ l') (x := strip (strip x)) (b := r' ++ r ++ b)
    (by
      rw [hx]
      conv_lhs => rw [hstrip,hstrip']
      simp) hloads
  simp only [List.append_eq_nil_iff] at hwhole
  exact ⟨hwhole.1.1.1,hwhole.2.2⟩

theorem parse_whole (hs : Serialises F items s) {text : List Char} (hrepair : repairJson text = s) :
    parseJsonObject F text = .ok items := by
  obtain ⟨middle,hmiddle⟩ := hs.ends
  rw [parse_ok_iff,hrepair]
  have hstrip : strip s = s := by rw [hmiddle]; exact strip_braces middle
  rw [hstrip]
  exact ⟨by rw [hmiddle]; simp,hs.loads⟩

namespace Clip

theorem run_append (i : Nat) (c : Clip) (xs ys : List Char) :
    run i c (xs ++ ys) = run (i + xs.length) (run i c xs) ys := by
  induction xs generalizing i c with
  | nil => rfl
  | cons x xs ih =>
    rw [List.cons_append,run,run,ih,List.length_cons]
    congr 1
    omega

theorem step_other {ch : Char} (hopen : ch ≠ '{') (hclose : ch ≠ '}') (c : Clip) (i : Nat) :
    c.step i ch = c := by simp [step,hopen,hclose]

theorem run_bare {text : List Char} (h : Bare text) (i : Nat) (c : Clip) : run i c text = c := by
  have hopen := h.opening
  have hclose := h.closing
  clear h
  induction text generalizing i with
  | nil => rfl
  | cons ch text ih =>
    simp only [List.mem_cons,not_or] at hopen hclose
    rw [run,step_other (Ne.symm hopen.1) (Ne.symm hclose.1)]
    exact ih (i + 1) hopen.2 hclose.2

theorem run_places (i : Nat) (c : Clip) (text : List Char) : ((run i c text).start = c.start ∨
        (i : Int) ≤ (run i c text).start ∧ (run i c text).start < i + text.length) ∧
      ((run i c text).last = c.last ∨
        (i : Int) ≤ (run i c text).last ∧ (run i c text).last < i + text.length) := by
  induction text generalizing i c with
  | nil => exact ⟨.inl rfl,.inl rfl⟩
  | cons ch text ih =>
    have hrest := ih (i + 1) (c.step i ch)
    have hstart : (c.step i ch).start = c.start ∨ (c.step i ch).start = i := by
      unfold step
      repeat' split
      all_goals simp
    have hlast : (c.step i ch).last = c.last ∨ (c.step i ch).last = i := by
      unfold step
      repeat' split
      all_goals simp
    rw [run,List.length_cons]
    omega

theorem run_reopened {text : List Char} (h : '{' ∈ text) (i : Nat) (a b : Int) :
    (i : Int) ≤ (run i ⟨a,b,0⟩ text).start := by
  induction text generalizing i with
  | nil => cases h
  | cons ch text ih =>
    rw [run]
    by_cases hopen : ch = '{'
    · have hplaces := (run_places (i + 1) ((⟨a,b,0⟩ : Clip).step i ch) text).1
      have hstart : ((⟨a,b,0⟩ : Clip).step i ch).start = i := by simp [step,hopen]
      omega
    · have hsame : (⟨a,b,0⟩ : Clip).step i ch = ⟨a,b,0⟩ := by simp [step,hopen]
      have hmem : '{' ∈ text := (List.mem_cons.1 h).resolve_left fun heq => hopen heq.symm
      have hrest := ih hmem (i + 1)
      rw [hsame]
      omega

theorem run_closed {text : List Char} (h : '{' ∉ text) (i : Nat) (a b : Int) :
    run i ⟨a,b,0⟩ text = ⟨a,b,0⟩ := by
  induction text generalizing i with
  | nil => rfl
  | cons ch text ih =>
    simp only [List.mem_cons,not_or] at h
    have hsame : (⟨a,b,0⟩ : Clip).step i ch = ⟨a,b,0⟩ := by simp [step,Ne.symm h.1]
    rw [run,hsame]
    exact ih h.2 (i + 1)

/-- With so many braces open, the last one closes at the end and not before. -/
def closes : Nat → List Char → Bool
  | _, [] => false
  | d, ch :: rest =>
    if ch = '{' then closes (d + 1) rest
    else if ch = '}' then if d = 1 then rest = [] else closes (d - 1) rest
    else closes d rest

theorem run_whole {text : List Char} {d i : Nat} {a b : Int} (hd : 0 < d) (ha : a < i)
    (hb : b < i) : ((run i ⟨a,b,d⟩ text).start = a ∧ text ≠ [] ∧
      (run i ⟨a,b,d⟩ text).last = i + text.length - 1) ↔ closes d text = true := by
  induction text generalizing d i b with
  | nil => simp [closes]
  | cons ch text ih =>
    have hlength : ((i + 1 : Nat) : Int) + text.length - 1 = i + (ch :: text).length - 1 := by
      simp
      omega
    have hnext : ∀ {d' : Nat}, 0 < d' → (⟨a,b,d⟩ : Clip).step i ch = ⟨a,b,d'⟩ →
        closes d (ch :: text) = closes d' text → (((run i ⟨a,b,d⟩ (ch :: text)).start = a ∧
          ch :: text ≠ [] ∧ (run i ⟨a,b,d⟩ (ch :: text)).last = i + (ch :: text).length - 1) ↔
            closes d (ch :: text) = true) := by
      intro d' hd' hstep hcloses
      have hrest := @ih d' (i + 1) b hd' (by omega) (by omega)
      rw [run,hstep,hcloses,← hrest,hlength]
      cases text with
      | nil => simp [run]; omega
      | cons x text => simp
    by_cases hopen : ch = '{'
    · have hne : d ≠ 0 := by omega
      exact hnext (Nat.succ_pos d) (by simp [step,hopen,hne]) (by simp [closes,hopen])
    by_cases hclose : ch = '}'
    · by_cases hone : d = 1
      · subst hone
        subst hclose
        have hstep : (⟨a,b,1⟩ : Clip).step i '}' = ⟨a,i,0⟩ := by simp [step]
        rw [run,hstep]
        by_cases hmem : '{' ∈ text
        · have hstart := run_reopened hmem (i + 1) a i
          have hne : text ≠ [] := List.ne_nil_of_mem hmem
          simp [closes,hne]
          omega
        · rw [run_closed hmem]
          cases text <;> simp [closes]
          omega
      · have hpos : 0 < d - 1 := by omega
        have hne : d - 1 ≠ 0 := by omega
        exact hnext hpos (by simp [step,hclose,hd,hne]) (by simp [closes,hclose,hone])
    · exact hnext hd (step_other hopen hclose _ i) (by simp [closes,hopen,hclose])

end Clip

theorem fronts_cons {ch : Char} {text : List Char} {P : List Char → Prop} :
    (∀ front rest, ch :: text = front ++ rest → rest ≠ [] → P front) ↔
      P [] ∧ ∀ front rest, text = front ++ rest → rest ≠ [] → P (ch :: front) := by
  constructor
  · intro h
    exact ⟨h [] _ rfl (by simp),fun front rest htext hrest => h (ch :: front) rest
      (by rw [htext]; rfl) hrest⟩
  · rintro ⟨hnil,hcons⟩ front rest htext hrest
    cases front with
    | nil => exact hnil
    | cons c front =>
      rw [List.cons_append,List.cons.injEq] at htext
      obtain ⟨rfl,htext⟩ := htext
      exact hcons front rest htext hrest

theorem closes_iff {text : List Char} {d : Nat} (hd : 0 < d) : Clip.closes d text = true ↔
    d + text.count '{' = text.count '}' ∧ ∀ front rest, text = front ++ rest → rest ≠ [] →
      front.count '}' < d + front.count '{' := by
  induction text generalizing d with
  | nil =>
    simp [Clip.closes]
    omega
  | cons ch text ih =>
    rw [fronts_cons]
    by_cases hopen : ch = '{'
    · subst hopen
      have hrest := ih (Nat.succ_pos d)
      simp only [Clip.closes,if_true,hrest,List.count_cons_self,List.count_nil,ne_eq,
        Char.reduceEq,not_false_eq_true,List.count_cons_of_ne]
      simp only [Nat.add_assoc,Nat.add_comm 1,Nat.succ_eq_add_one]
      simp [hd]
    by_cases hclose : ch = '}'
    · subst hclose
      by_cases hone : d = 1
      · subst hone
        simp only [Clip.closes,Char.reduceEq,if_false,if_true,decide_eq_true_eq,
          List.count_cons_self,List.count_nil,ne_eq,not_false_eq_true,List.count_cons_of_ne]
        constructor
        · rintro rfl
          simp
        · rintro ⟨-,-,hfronts⟩
          by_contra hne
          have hnil := hfronts [] text rfl hne
          simp at hnil
      · have hrest := @ih (d - 1) (by omega)
        simp only [Clip.closes,Char.reduceEq,if_false,if_true,hone,hrest,
          List.count_cons_self,List.count_nil,ne_eq,not_false_eq_true,List.count_cons_of_ne]
        constructor
        · rintro ⟨hcount,hfronts⟩
          refine ⟨by omega,by omega,fun front rest htext hne => ?_⟩
          have hfront := hfronts front rest htext hne
          omega
        · rintro ⟨hcount,-,hfronts⟩
          refine ⟨by omega,fun front rest htext hne => ?_⟩
          have hfront := hfronts front rest htext hne
          omega
    · have hrest := ih hd
      simp only [Clip.closes,hopen,hclose,if_false,hrest,List.count_nil,ne_eq,
        not_false_eq_true,List.count_cons_of_ne,Nat.add_zero,hd,true_and]

theorem balanced_iff {body : List Char} : Balanced ('{' :: body) ↔ Clip.closes 1 body = true := by
  rw [closes_iff Nat.one_pos,Balanced]
  simp only [List.count_cons_self,ne_eq,Char.reduceEq,not_false_eq_true,List.count_cons_of_ne]
  have hfronts : (∀ front rest, '{' :: body = front ++ rest → ¬ front = [] → ¬ rest = [] →
      front.count '}' < front.count '{') ↔ ∀ front rest, body = front ++ rest → ¬ rest = [] →
        front.count '}' < 1 + front.count '{' := by
    constructor
    · intro h front rest hbody hrest
      have hfront := h ('{' :: front) rest (by rw [hbody]; rfl) (by simp) hrest
      simp at hfront
      omega
    · intro h front rest hbody hfront hrest
      cases front with
      | nil => exact absurd rfl hfront
      | cons c front =>
        rw [List.cons_append,List.cons.injEq] at hbody
        obtain ⟨rfl,hbody⟩ := hbody
        have hshort := h front rest hbody hrest
        simp
        omega
  rw [hfronts]
  constructor
  · rintro ⟨hcount,h⟩
    exact ⟨by omega,h⟩
  · rintro ⟨hcount,h⟩
    exact ⟨by omega,h⟩

theorem parse_unfenced (hs : Serialises F items s) (hp : Bare p) (hq : Bare q)
    (hsearch : search jsonFence (p ++ s ++ q) = none) :
    parseJsonObject F (p ++ s ++ q) = .ok items ↔ Balanced s := by
  obtain ⟨middle,hmiddle⟩ := hs.ends
  obtain ⟨body,rfl⟩ : ∃ body, s = '{' :: body := ⟨middle ++ ['}'],hmiddle⟩
  have hbody : body ≠ [] := by
    rintro rfl
    simp at hmiddle
  have hrun : Clip.run 0 .new (p ++ '{' :: body ++ q) =
      Clip.run (p.length + 1) ⟨p.length,-1,1⟩ body := by
    rw [Clip.run_append,Clip.run_append,Clip.run_bare hq,Clip.run_bare hp,Clip.run]
    congr 1
    · simp
    · simp [Clip.step,Clip.new]
  have hrepair : repairJson (p ++ '{' :: body ++ q) =
      (let c := Clip.run (p.length + 1) ⟨p.length,-1,1⟩ body
      if c.start ≠ -1 ∧ c.start ≤ c.last then
        strip (slice (p ++ '{' :: body ++ q) c.start c.last) else []) := by
    unfold repairJson
    rw [hsearch,hrun]
  have hwhole := @Clip.run_whole body 1 (p.length + 1) p.length (-1) Nat.one_pos (by omega)
    (by omega)
  have hplaces := Clip.run_places (p.length + 1) ⟨p.length,-1,1⟩ body
  rw [balanced_iff,← hwhole]
  generalize Clip.run (p.length + 1) ⟨p.length,-1,1⟩ body = c at hrepair hplaces
  dsimp only at hrepair hplaces
  have hnonneg : (p.length : Int) ≤ c.start := by omega
  constructor
  · intro hparse
    by_cases hkept : c.start ≠ -1 ∧ c.start ≤ c.last
    · rw [if_pos hkept] at hrepair
      obtain ⟨u,hu⟩ : ∃ u : Nat, c.start = p.length + u := ⟨(c.start - p.length).toNat,by omega⟩
      obtain ⟨v,hv⟩ : ∃ v : Nat, c.last = p.length + v := ⟨(c.last - p.length).toNat,by omega⟩
      have hv' : v < ('{' :: body).length := by
        rw [List.length_cons]
        omega
      have hslice : slice (p ++ '{' :: body ++ q) c.start c.last =
          (('{' :: body).take (v + 1)).drop u := by
        have hlast : (c.last + 1).toNat = p.length + (v + 1) := by omega
        have hstart : c.start.toNat = p.length + u := by omega
        rw [slice,hlast,hstart,List.append_assoc,List.take_length_add_append,
          List.drop_length_add_append,List.take_append_of_le_length (by omega)]
      rw [hslice] at hrepair
      have hpiece : '{' :: body = ('{' :: body).take u ++ (('{' :: body).take (v + 1)).drop u ++
          ('{' :: body).drop (v + 1) := by
        have huv : u ≤ v + 1 := by omega
        have hfront : ('{' :: body).take u = (('{' :: body).take (v + 1)).take u := by
          rw [List.take_take,Nat.min_eq_left huv]
        rw [hfront,List.take_append_drop,List.take_append_drop]
      obtain ⟨hfirst,hlast⟩ := piece_whole hs hpiece hrepair hparse
      have hu' : u = 0 := by
        rcases List.take_eq_nil_iff.1 hfirst with h | h
        · exact h
        · cases h
      have hlength : ('{' :: body).length ≤ v + 1 := List.drop_eq_nil_iff.1 hlast
      rw [List.length_cons] at hlength hv'
      refine ⟨by omega,hbody,?_⟩
      push_cast
      omega
    · rw [if_neg hkept] at hrepair
      obtain ⟨hne,-⟩ := (parse_ok_iff F).1 hparse
      rw [hrepair] at hne
      exact absurd rfl hne
  · rintro ⟨hstart,-,hlast⟩
    apply parse_whole hs
    rw [hrepair,if_pos (by push_cast at hlast; omega),hstart,slice]
    have hstop : (c.last + 1).toNat = p.length + ('{' :: body).length := by
      rw [List.length_cons]
      omega
    rw [hstop,Int.toNat_natCast,List.append_assoc,List.take_length_add_append,
      List.drop_left,List.take_left,hmiddle]
    exact strip_braces middle

theorem fence_before {c r rest : List Char} {e : Char} (he : e ≠ backtick)
    (h : codeFence ++ r = c ++ e :: rest) : ∃ d, c = codeFence ++ d := by
  match c with
  | [] =>
    simp only [codeFence,List.cons_append,List.nil_append,List.cons.injEq] at h
    exact absurd h.1.symm he
  | [a] =>
    simp only [codeFence,List.cons_append,List.nil_append,List.cons.injEq] at h
    exact absurd h.2.1.symm he
  | [a,b] =>
    simp only [codeFence,List.cons_append,List.nil_append,List.cons.injEq] at h
    exact absurd h.2.2.1.symm he
  | a :: b :: x :: d =>
    simp only [codeFence,List.cons_append,List.nil_append,List.cons.injEq] at h
    obtain ⟨rfl,rfl,rfl,-⟩ := h
    exact ⟨d,rfl⟩

theorem fence_inside (hs : Serialises F items s) (hp : Bare p) (hq : Bare q)
    {x r : List Char} (h : p ++ s ++ q = x ++ codeFence ++ r) :
    ∃ x' r', s = x' ++ codeFence ++ r' ∧ x = p ++ x' ∧ r = r' ++ q := by
  obtain ⟨middle,hmiddle⟩ := hs.ends
  rw [List.append_assoc,List.append_assoc] at h
  rcases List.append_eq_append_iff.1 h with ⟨x',hx,hrest⟩ | ⟨c,hpc,hrest⟩
  · rw [← List.append_assoc] at hrest
    rcases List.append_eq_append_iff.1 hrest with ⟨c,hc,hqc⟩ | ⟨r',hs',hr⟩
    · -- the fence ends in the text that follows
      have hreverse := congrArg List.reverse hc
      rw [hmiddle] at hreverse
      simp only [List.reverse_append,List.reverse_cons,List.reverse_nil,List.nil_append,
        List.singleton_append] at hreverse
      obtain ⟨d,hd⟩ := fence_before (e := '}') (by decide) hreverse
      have hcd : c = d.reverse ++ codeFence := by
        have := congrArg List.reverse hd
        simpa [codeFence] using this
      exact absurd ⟨d.reverse,r,by rw [hqc,hcd]⟩ hq.fence
    · exact ⟨x',r',by rw [hs'],hx,hr⟩
  · rw [hmiddle,List.cons_append,List.cons_append] at hrest
    obtain ⟨d,hd⟩ := fence_before (e := '{') (by decide) hrest
    exact absurd ⟨x,d,by rw [hpc,hd,List.append_assoc]⟩ hp.fence

theorem fence_ways {before after : List Char} {t : Spot}
    (h : t ∈ ways jsonFence ⟨before,after,[]⟩) :
    ∃ word y z, after = codeFence ++ (word ++ (y ++ (t.group 1 ++ (z ++ (codeFence ++ t.after))))) ∧
      (word = ['j','s','o','n'] ∨ word = []) ∧ (∀ c ∈ y, isSpace c = true) ∧
        ∀ c ∈ z, isSpace c = true := by
  obtain ⟨t₁,h₁,h⟩ := mem_ways_all_cons.1 h
  obtain ⟨t₂,h₂,h⟩ := mem_ways_all_cons.1 h
  obtain ⟨t₃,h₃,h⟩ := mem_ways_all_cons.1 h
  obtain ⟨t₄,h₄,h⟩ := mem_ways_all_cons.1 h
  obtain ⟨t₅,h₅,h⟩ := mem_ways_all_cons.1 h
  obtain ⟨t₆,h₆,h⟩ := mem_ways_all_cons.1 h
  rw [List.mem_singleton.1 h]
  obtain ⟨hm₁,-⟩ := moves_literally h₁
  obtain ⟨hm₂,-⟩ := moves_optional h₂
  obtain ⟨y,hy,hm₃,-⟩ := moves_many h₃
  obtain ⟨z,hz,hm₅,hg₅⟩ := moves_many h₅
  obtain ⟨hm₆,hg₆⟩ := moves_literally h₆
  obtain ⟨before₃,after₃,groups₃⟩ := t₃
  rw [ways_shortest] at h₄
  obtain ⟨k,-,rfl⟩ := List.mem_map.1 h₄
  have hgroup : t₆.group 1 = after₃.take k := by
    rw [Spot.group,hg₆,hg₅]
    rfl
  have htail : after₃ = after₃.take k ++ (z ++ (codeFence ++ t₆.after)) := by
    have hdrop : after₃.drop k = z ++ t₅.after := hm₅.after
    rw [hm₆.after] at hdrop
    rw [← hdrop,List.take_append_drop]
  have hspaces : t₂.after = y ++ after₃ := hm₃.after
  have hstart : after = codeFence ++ t₁.after := hm₁.after
  rw [hgroup]
  rcases hm₂ with hm₂ | rfl
  · refine ⟨_,y,z,?_,.inl rfl,hy,hz⟩
    rw [← htail,← hspaces,← hm₂.after,hstart]
  · refine ⟨[],y,z,?_,.inr rfl,hy,hz⟩
    rw [← htail,← hspaces,hstart,List.nil_append]

theorem ways_of_fences (before : List Char) (middle rest : List Char) :
    ways jsonFence ⟨before,codeFence ++ (middle ++ (codeFence ++ rest)),[]⟩ ≠ [] := by
  have hways : (⟨codeFence.reverse ++ (middle.reverse ++ (codeFence.reverse ++ before)),rest,
      [(1,middle)]⟩ : Spot) ∈
        ways jsonFence ⟨before,codeFence ++ (middle ++ (codeFence ++ rest)),[]⟩ := by
    refine mem_ways_all_cons.2 ⟨_,by rw [ways_literally]; exact List.mem_cons_self,?_⟩
    refine mem_ways_all_cons.2 ⟨_,mem_optional _ _,?_⟩
    refine mem_ways_all_cons.2 ⟨_,mem_many _ _,?_⟩
    refine mem_ways_all_cons.2 ⟨⟨middle.reverse ++ (codeFence.reverse ++ before),codeFence ++ rest,
      [(1,middle)]⟩,?_,?_⟩
    · rw [ways_shortest]
      refine List.mem_map.2 ⟨middle.length,List.mem_range.2 ?_,?_⟩
      · rw [List.length_append]
        omega
      · rw [List.take_left,List.drop_left]
    · refine mem_ways_all_cons.2 ⟨_,mem_many _ _,?_⟩
      refine mem_ways_all_cons.2 ⟨_,by rw [ways_literally]; exact List.mem_cons_self,?_⟩
      exact List.mem_singleton.2 rfl
  exact List.ne_nil_of_mem hways

theorem search_iff (hs : Serialises F items s) (hp : Bare p) (hq : Bare q) {t : Spot}
    (h : search jsonFence (p ++ s ++ q) = some t) :
    ∃ a b, s = a ++ t.group 1 ++ b ∧ a ≠ [] ∧ FencedTwice s := by
  obtain ⟨xs,ys,htext,hfirst,-⟩ := search_some h
  obtain ⟨word,y,z,hys,-⟩ := fence_ways hfirst.mem
  have hopening : p ++ s ++ q = xs ++ codeFence ++
      (word ++ (y ++ (t.group 1 ++ (z ++ (codeFence ++ t.after))))) := by
    rw [htext,hys,List.append_assoc]
  have hclosing : p ++ s ++ q = (xs ++ codeFence ++ (word ++ (y ++ (t.group 1 ++ z)))) ++
      codeFence ++ t.after := by
    rw [hopening]
    simp
  obtain ⟨x',r',-,hx,-⟩ := fence_inside hs hp hq hopening
  obtain ⟨x₂,r₂,hs₂,hx₂,-⟩ := fence_inside hs hp hq hclosing
  rw [hx,List.append_assoc,List.append_assoc,List.append_cancel_left_eq] at hx₂
  rw [← hx₂] at hs₂
  refine ⟨x' ++ codeFence ++ word ++ y,z ++ codeFence ++ r₂,?_,?_,
    x',word ++ (y ++ (t.group 1 ++ z)),r₂,?_⟩
  · rw [hs₂]
    simp
  · simp [codeFence]
  · rw [hs₂]
    simp

theorem repair_fenced {text : List Char} {t : Spot} (h : search jsonFence text = some t) :
    repairJson text = strip (t.group 1) := by
  unfold repairJson
  rw [h]

/-- Without a fence around it, the dictionary is parsed if its own strings hold no two fences and
only balanced braces. -/
theorem parse_plain_iff (hs : Serialises F items s) (hp : Bare p) (hq : Bare q) :
    parseJsonObject F (p ++ s ++ q) = .ok items ↔ ¬ FencedTwice s ∧ Balanced s := by
  cases hsearch : search jsonFence (p ++ s ++ q) with
  | none =>
    have hnone : ¬ FencedTwice s := by
      rintro ⟨a,b,c,htwice⟩
      have htext : p ++ s ++ q = (p ++ a) ++ (codeFence ++ (b ++ (codeFence ++ (c ++ q)))) := by
        rw [htwice]
        simp
      obtain ⟨t,ht⟩ := search_isSome htext (ways_of_fences _ b (c ++ q))
      rw [hsearch] at ht
      cases ht
    rw [parse_unfenced hs hp hq hsearch]
    exact ⟨fun h => ⟨hnone,h⟩,fun h => h.2⟩
  | some t =>
    obtain ⟨a,b,hpiece,ha,htwice⟩ := search_iff hs hp hq hsearch
    constructor
    · intro hparse
      exact absurd (piece_whole hs hpiece (repair_fenced hsearch) hparse).1 ha
    · rintro ⟨hnot,-⟩
      exact absurd htwice hnot

def fencedBlock (s : List Char) : List Char :=
  codeFence ++ ['j','s','o','n','\n'] ++ s ++ ['\n'] ++ codeFence

theorem fence_within {c r rest : List Char} (hne : c ≠ []) (hlast : c.getLast? ≠ some backtick)
    (h : codeFence ++ r = c ++ rest) : ∃ d, c = codeFence ++ d := by
  match c with
  | [] => exact absurd rfl hne
  | [a] =>
    simp only [codeFence,List.cons_append,List.nil_append,List.cons.injEq] at h
    exact absurd (by rw [← h.1]; rfl) hlast
  | [a,b] =>
    simp only [codeFence,List.cons_append,List.nil_append,List.cons.injEq] at h
    exact absurd (by rw [← h.2.1]; rfl) hlast
  | a :: b :: x :: d =>
    simp only [codeFence,List.cons_append,List.nil_append,List.cons.injEq] at h
    obtain ⟨rfl,rfl,rfl,-⟩ := h
    exact ⟨d,rfl⟩

theorem found_before {text as bs xs : List Char}
    (htext : text = as ++ bs) (hways : ways jsonFence ⟨as.reverse,bs,[]⟩ ≠ [])
    (hnone : ∀ as bs, text = as ++ bs → as.length < xs.length →
      ways jsonFence ⟨as.reverse,bs,[]⟩ = []) : xs.length ≤ as.length := by
  by_contra hlt
  exact hways (hnone as bs htext (by omega))

theorem ways_closing (before middle rest : List Char) (groups : List (Nat × List Char))
    (h : ∀ c ∈ middle, isSpace c = true) :
    ways (.all [spaces,literally codeFence]) ⟨before,middle ++ (codeFence ++ rest),groups⟩ ≠
      [] := by
  have hhead : ∀ c ∈ (codeFence ++ rest).head?, isSpace c = false := by
    intro c hc
    obtain rfl : backtick = c := Option.some.inj hc
    decide
  have hmany := @first_many isSpace before middle (codeFence ++ rest) groups h hhead
  have hfence : Regex.First (.all [literally codeFence])
      ⟨middle.reverse ++ before,codeFence ++ rest,groups⟩
      ⟨codeFence.reverse ++ (middle.reverse ++ before),rest,groups⟩ :=
    Regex.First.all_cons (by rw [Regex.First,ways_literally]; rfl) first_all_nil
  exact List.ne_nil_of_mem (Regex.First.mem (Regex.First.all_cons hmany hfence))

theorem first_block (before s rest : List Char) {t : Spot} (hopens : s.head? = some '{')
    (h : Regex.First jsonFence ⟨before,codeFence ++ (['j','s','o','n'] ++ (['\n'] ++ (s ++
      ('\n' :: codeFence ++ rest)))),[]⟩ t) : ∃ k ≤ s.length, t.group 1 = s.take k ∧
      (∃ z, (∀ c ∈ z, isSpace c = true) ∧
        s.drop k ++ ('\n' :: codeFence ++ rest) = z ++ (codeFence ++ t.after)) ∧
      ∀ a b, s = a ++ codeFence ++ b → k ≤ a.length := by
  generalize hafter : s ++ ('\n' :: codeFence ++ rest) = after at h
  generalize hplace :
    ['\n'].reverse ++ (['j','s','o','n'].reverse ++ (codeFence.reverse ++ before)) = place
  have hlength : s.length ≤ after.length := by
    rw [← hafter,List.length_append]
    omega
  have hread : ∀ k ≤ s.length, after.drop k = s.drop k ++ ('\n' :: codeFence ++ rest) :=
    fun k hk => by rw [← hafter,List.drop_append_of_le_length hk]
  have hwhole : ways (.all [spaces,literally codeFence])
      ⟨(after.take s.length).reverse ++ place,after.drop s.length,[(1,after.take s.length)]⟩ ≠
        [] := by
    rw [hread s.length le_rfl,List.drop_length]
    exact ways_closing _ ['\n'] rest _ (List.all_eq_true.1 (by decide))
  obtain ⟨k,u,-,hfirst,hmem,hshort⟩ := first_shortest ⟨s.length,hlength,hwhole⟩
  have hk : k ≤ s.length := by
    by_contra hlt
    exact hwhole (hshort s.length (by omega))
  have hhead : ∀ c ∈ after.head?, isSpace c = false := by
    intro c hc
    rw [← hafter,List.head?_append,hopens] at hc
    obtain rfl : '{' = c := Option.some.inj hc
    decide
  have hspaces := @first_many isSpace (['j','s','o','n'].reverse ++ (codeFence.reverse ++ before))
    ['\n'] after [] (List.all_eq_true.1 (by decide)) hhead
  have hword : Regex.First (literally ['j','s','o','n'])
      ⟨codeFence.reverse ++ before,['j','s','o','n'] ++ (['\n'] ++ after),[]⟩
      ⟨['j','s','o','n'].reverse ++ (codeFence.reverse ++ before),['\n'] ++ after,[]⟩ := by
    rw [Regex.First,ways_literally]
    rfl
  have hfence : Regex.First (literally codeFence)
      ⟨before,codeFence ++ (['j','s','o','n'] ++ (['\n'] ++ after)),[]⟩
      ⟨codeFence.reverse ++ before,['j','s','o','n'] ++ (['\n'] ++ after),[]⟩ := by
    rw [Regex.First,ways_literally]
    rfl
  have hclosing : Regex.First (.all [shortest 1,spaces,literally codeFence]) ⟨place,after,[]⟩ u := hfirst
  rw [← hplace] at hclosing
  have hall := Regex.First.all_cons hfence (Regex.First.all_cons hword.optional
    (Regex.First.all_cons hspaces hclosing))
  obtain rfl := h.unique hall
  obtain ⟨t₅,h₅,hclose⟩ := mem_ways_all_cons.1 hmem
  obtain ⟨t₆,h₆,hend⟩ := mem_ways_all_cons.1 hclose
  obtain rfl := List.mem_singleton.1 hend
  obtain ⟨z,hz,hm₅,hg₅⟩ := moves_many h₅
  obtain ⟨hm₆,hg₆⟩ := moves_literally h₆
  refine ⟨k,hk,?_,⟨z,hz,?_⟩,?_⟩
  · rw [Spot.group,hg₆,hg₅,← hafter,List.take_append_of_le_length hk]
    rfl
  · rw [← hread k hk,← hm₆.after]
    exact hm₅.after
  · intro a b hs
    by_contra hlt
    have hnone := hshort a.length (by omega)
    have ha : a.length ≤ s.length := by omega
    have hdrop : s.drop a.length = codeFence ++ b := by
      rw [hs,List.append_assoc,List.drop_left]
    rw [hread a.length ha,hdrop,List.append_assoc] at hnone
    exact ways_closing _ [] _ _ (by simp) hnone

theorem strip_head {c : Char} (hc : isSpace c = false) (cs : List Char) :
    ∃ rest, strip (c :: cs) = c :: rest := by
  have hfirst : (c :: cs).dropWhile isSpace = c :: cs :=
    List.dropWhile_cons_of_neg (by rw [hc]; decide)
  have hlast : [c].dropWhile isSpace = [c] := List.dropWhile_cons_of_neg (by rw [hc]; decide)
  rw [strip,hfirst,List.reverse_cons,List.dropWhile_append,hlast]
  split
  · exact ⟨[],rfl⟩
  · exact ⟨_,by rw [List.reverse_append]; rfl⟩

theorem loads_head {c : Char} (hc : isSpace c = false) (hbrace : c ≠ '{') (cs : List Char) :
    loads F (c :: cs) ≠ some (.dict items) := by
  intro h
  obtain ⟨w,inner,rest,raw,hsplit,-,hblank,-⟩ := loads_dict h
  cases w with
  | nil =>
    rw [List.nil_append,List.cons.injEq] at hsplit
    exact hbrace hsplit.1
  | cons x w =>
    rw [List.cons_append,List.cons.injEq] at hsplit
    have hx := hblank x List.mem_cons_self
    rw [← hsplit.1] at hx
    simp only [blank,Bool.or_eq_true,decide_eq_true_eq] at hx
    rcases hx with ((rfl | rfl) | rfl) | rfl <;> exact absurd hc (by decide)

theorem parse_head {text : List Char} {c : Char} (hc : isSpace c = false) (hbrace : c ≠ '{')
    {cs : List Char} (hrepair : repairJson text = strip (c :: cs)) :
    parseJsonObject F text ≠ .ok items := by
  intro hparse
  obtain ⟨-,hloads⟩ := (parse_ok_iff F).1 hparse
  obtain ⟨rest,hrest⟩ := strip_head hc cs
  obtain ⟨rest',hrest'⟩ := strip_head hc rest
  rw [hrepair,hrest,hrest'] at hloads
  exact loads_head hc hbrace rest' hloads

theorem search_block (hp : Bare p) (hlast : p.getLast? ≠ some backtick) (s q : List Char) :
    ∃ t, search jsonFence (p ++ fencedBlock s ++ q) = some t ∧
      Regex.First jsonFence ⟨p.reverse,codeFence ++ (['j','s','o','n'] ++ (['\n'] ++ (s ++
        ('\n' :: codeFence ++ q)))),[]⟩ t := by
  have htext : p ++ fencedBlock s ++ q = p ++ (codeFence ++ (['j','s','o','n'] ++ (['\n'] ++ (s ++
      ('\n' :: codeFence ++ q))))) := by simp [fencedBlock]
  have hways : ways jsonFence ⟨p.reverse,codeFence ++ (['j','s','o','n'] ++ (['\n'] ++ (s ++
      ('\n' :: codeFence ++ q)))),[]⟩ ≠ [] := by
    have hfences := ways_of_fences p.reverse (['j','s','o','n','\n'] ++ s ++ ['\n']) q
    simpa using hfences
  obtain ⟨t,ht⟩ := search_isSome htext hways
  obtain ⟨xs,ys,hsplit,hfirst,hnone⟩ := search_some ht
  have hle := found_before htext hways hnone
  obtain ⟨word,y,z,hys,-⟩ := fence_ways hfirst.mem
  refine ⟨t,ht,?_⟩
  rw [htext] at hsplit
  rcases List.append_eq_append_iff.1 hsplit with ⟨a,hxs,hrest⟩ | ⟨c,hpc,hrest⟩
  · have ha : a = [] := by
      rw [hxs,List.length_append] at hle
      exact List.length_eq_zero_iff.1 (by omega)
    subst ha
    rw [List.append_nil] at hxs
    rw [List.nil_append] at hrest
    rw [hxs,← hrest] at hfirst
    exact hfirst
  · by_cases hc : c = []
    · subst hc
      rw [List.append_nil] at hpc
      rw [List.nil_append] at hrest
      rw [hrest,← hpc] at hfirst
      exact hfirst
    · have hcLast : c.getLast? ≠ some backtick := by
        rw [hpc,List.getLast?_append_of_ne_nil _ hc] at hlast
        exact hlast
      rw [hys] at hrest
      obtain ⟨d,hd⟩ := fence_within hc hcLast hrest
      exact absurd ⟨xs,d,by rw [hpc,hd,List.append_assoc]⟩ hp.fence

theorem parse_block (hs : Serialises F items s) (hp : Bare p)
    (hlast : p.getLast? ≠ some backtick) (q : List Char) :
    parseJsonObject F (p ++ fencedBlock s ++ q) = .ok items ↔ ¬ Fenced s := by
  obtain ⟨middle,hmiddle⟩ := hs.ends
  obtain ⟨t,ht,hfirst⟩ := search_block hp hlast s q
  obtain ⟨k,hk,hgroup,⟨z,hz,hclose⟩,hshort⟩ := first_block _ _ _ hs.opens hfirst
  have hrepair := repair_fenced ht
  rw [hgroup] at hrepair
  constructor
  · rintro hparse ⟨a,b,hab⟩
    have hpiece : s = [] ++ s.take k ++ s.drop k := by simp
    have hrest := (piece_whole hs hpiece hrepair hparse).2
    have hlength := List.drop_eq_nil_iff.1 hrest
    have hka := hshort a b hab
    have htotal := congrArg List.length hab
    simp [codeFence] at htotal
    omega
  · intro hnone
    apply parse_whole hs
    rw [hrepair]
    by_cases hall : k = s.length
    · rw [hall,List.take_length,hmiddle]
      exact strip_braces middle
    · -- what is left of the dictionary would begin with the fence
      exfalso
      have hu : s.drop k ≠ [] := by
        rw [Ne,List.drop_eq_nil_iff]
        omega
      have hulast : (s.drop k).getLast? = some '}' := by
        rw [List.getLast?_drop,if_neg (by omega),hmiddle]
        exact List.getLast?_concat
      rcases List.append_eq_append_iff.1 hclose with ⟨a,hza,-⟩ | ⟨c,huc,hrest⟩
      · have hmem : '}' ∈ z := by
          rw [hza]
          exact List.mem_append_left _ (List.mem_of_getLast? hulast)
        exact absurd (hz _ hmem) (by decide)
      · by_cases hc : c = []
        · have hmem : '}' ∈ z := by
            rw [hc,List.append_nil] at huc
            rw [← huc]
            exact List.mem_of_getLast? hulast
          exact absurd (hz _ hmem) (by decide)
        · have hclast : c.getLast? ≠ some backtick := by
            rw [huc,List.getLast?_append_of_ne_nil _ hc] at hulast
            rw [hulast]
            decide
          obtain ⟨d,hd⟩ := fence_within hc hclast hrest
          refine hnone ⟨s.take k ++ z,d,?_⟩
          have hwhole : s = s.take k ++ s.drop k := (List.take_append_drop k s).symm
          rw [huc,hd] at hwhole
          rw [List.append_assoc,List.append_assoc]
          exact hwhole

theorem parse_ticked (hp : Bare p) (hlast : p.getLast? = some backtick) (s q : List Char) :
    parseJsonObject F (p ++ fencedBlock s ++ q) ≠ .ok items := by
  obtain ⟨p₀,rfl⟩ : ∃ p₀, p = p₀ ++ [backtick] := List.getLast?_eq_some_iff.1 hlast
  have htext : p₀ ++ [backtick] ++ fencedBlock s ++ q = p₀ ++ (codeFence ++ (backtick ::
      (['j','s','o','n','\n'] ++ (s ++ (['\n'] ++ (codeFence ++ q)))))) := by
    simp [fencedBlock,codeFence]
  have hways : ways jsonFence ⟨p₀.reverse,codeFence ++ (backtick ::
      (['j','s','o','n','\n'] ++ (s ++ (['\n'] ++ (codeFence ++ q))))),[]⟩ ≠ [] := by
    have hfences := ways_of_fences p₀.reverse
      (backtick :: (['j','s','o','n','\n'] ++ s ++ ['\n'])) q
    simpa using hfences
  obtain ⟨t,ht⟩ := search_isSome htext hways
  obtain ⟨xs,ys,hsplit,hfirst,hnone⟩ := search_some ht
  have hle := found_before htext hways hnone
  obtain ⟨word,y,z,hys,hword,hy,hz⟩ := fence_ways hfirst.mem
  have hrepair := repair_fenced ht
  -- between the place of the match and the fence of the block there are at most two backticks
  obtain ⟨ticks,hticks,hread⟩ : ∃ ticks : List Char, (ticks = [] ∨ ticks = [backtick]) ∧
      ys = codeFence ++ (ticks ++ backtick :: (['j','s','o','n','\n'] ++
        (s ++ (['\n'] ++ (codeFence ++ q))))) := by
    rw [htext] at hsplit
    rcases List.append_eq_append_iff.1 hsplit with ⟨a,hxs,hrest⟩ | ⟨c,hpc,hrest⟩
    · have ha : a = [] := by
        rw [hxs,List.length_append] at hle
        exact List.length_eq_zero_iff.1 (by omega)
      subst ha
      exact ⟨[],.inl rfl,by rw [List.nil_append] at hrest; rw [← hrest]; rfl⟩
    · have hfence : ¬ ∃ d, c ++ [backtick] = codeFence ++ d := by
        rintro ⟨d,hd⟩
        exact hp.fence ⟨xs,d,by rw [hpc,List.append_assoc,hd,List.append_assoc]⟩
      have hstart := hrest
      rw [hys] at hstart
      match c with
      | [] => exact ⟨[],.inl rfl,by rw [hrest]; rfl⟩
      | [a] =>
        simp only [codeFence,List.cons_append,List.nil_append,List.cons.injEq] at hstart
        obtain ⟨rfl,-⟩ := hstart
        exact ⟨[backtick],.inr rfl,by rw [hrest]; rfl⟩
      | [a,b] =>
        simp only [codeFence,List.cons_append,List.nil_append,List.cons.injEq] at hstart
        obtain ⟨rfl,rfl,-⟩ := hstart
        exact absurd ⟨[],rfl⟩ hfence
      | a :: b :: e :: d =>
        simp only [codeFence,List.cons_append,List.nil_append,List.cons.injEq] at hstart
        obtain ⟨rfl,rfl,rfl,-⟩ := hstart
        exact absurd ⟨d ++ [backtick],rfl⟩ hfence
  rw [hys,List.append_cancel_left_eq] at hread
  have hspace : isSpace backtick = false := by decide
  have hnospace : ∀ {v : List Char} {c : Char} {l r : List Char}, (∀ x ∈ v, isSpace x = true) →
      isSpace c = false → v ++ l = c :: r → v = [] := by
    intro v c l r hv hc h
    cases v with
    | nil => rfl
    | cons x v =>
      rw [List.cons_append,List.cons.injEq] at h
      have hx := hv x List.mem_cons_self
      rw [h.1,hc] at hx
      cases hx
  obtain ⟨rest,hstart⟩ : ∃ rest, ticks ++ backtick :: (['j','s','o','n','\n'] ++
      (s ++ (['\n'] ++ (codeFence ++ q)))) = backtick :: rest := by
    rcases hticks with rfl | rfl <;> exact ⟨_,rfl⟩
  have hnoword : word = [] := by
    rcases hword with rfl | rfl
    · rw [hstart] at hread
      simp [backtick] at hread
    · rfl
  rw [hnoword,List.nil_append] at hread
  have hnoy : y = [] := by
    rw [hstart] at hread
    exact hnospace hy hspace hread
  rw [hnoy,List.nil_append] at hread
  cases hgroup : t.group 1 with
  | nil =>
    rw [hgroup,List.nil_append] at hread
    have hnoz : z = [] := by
      rw [hstart] at hread
      exact hnospace hz hspace hread
    rw [hnoz,List.nil_append] at hread
    rcases hticks with rfl | rfl <;> simp [codeFence,backtick] at hread
  | cons c cs =>
    rw [hgroup,hstart,List.cons_append,List.cons.injEq] at hread
    rw [hgroup,hread.1] at hrepair
    exact parse_head hspace (by decide) hrepair

/-- Between texts without braces and fences, the dictionary is parsed from any text of it, if and
only if its strings hold no two fences and only balanced braces; and from a fenced block, if and
only if its strings hold no fence and the block does not stand behind a backtick. -/
theorem parse_isolates_iff (hs : Serialises F items s) (hp : Bare p) (hq : Bare q) :
    (parseJsonObject F (p ++ s ++ q) = .ok items ↔ ¬ FencedTwice s ∧ Balanced s) ∧
      (parseJsonObject F (p ++ fencedBlock s ++ q) = .ok items ↔
        ¬ Fenced s ∧ p.getLast? ≠ some backtick) := by
  refine ⟨parse_plain_iff hs hp hq,?_⟩
  by_cases hlast : p.getLast? = some backtick
  · exact ⟨fun h => absurd h (parse_ticked hp hlast s q),fun h => absurd hlast h.2⟩
  · rw [parse_block hs hp hlast q]
    exact ⟨fun h => ⟨h,hlast⟩,fun h => h.1⟩

namespace Payload

def tokens : Floats where
  read token :=
    if h : token.all numberChar = true ∧ token.any fractionChar = true then
      .decimal ⟨token,h.1,h.2⟩
    else .infinity
  float token := by split <;> rfl

def text : List Char := ['{','"','a','"',':','"','}','"','}']
def value : List (String × Json) := [("a",.str "\x7d")]

theorem serialises : Serialises tokens value text where
  opens := rfl
  read := rfl
  distinct := by decide

theorem bare : Bare [] where
  opening := List.not_mem_nil
  closing := List.not_mem_nil
  fence := by
    rintro ⟨a,b,h⟩
    simp [codeFence] at h

end Payload

theorem isolates_payload : (parseJsonObject Payload.tokens ([] ++ Payload.text ++ []) =
      .ok Payload.value ↔ ¬ FencedTwice Payload.text ∧ Balanced Payload.text) ∧
    (parseJsonObject Payload.tokens ([] ++ fencedBlock Payload.text ++ []) = .ok Payload.value ↔
      ¬ Fenced Payload.text ∧ ([] : List Char).getLast? ≠ some backtick) :=
  parse_isolates_iff Payload.serialises Payload.bare Payload.bare

/-- The brace in the string ends the object. -/
theorem payload_cut : ¬ ∀ (F : Floats) (items : List (String × Json)) (p s q : List Char),
    Serialises F items s → Bare p → Bare q → parseJsonObject F (p ++ s ++ q) = .ok items ∧
      parseJsonObject F (p ++ fencedBlock s ++ q) = .ok items := by
  intro h
  obtain ⟨hparse,-⟩ := h Payload.tokens Payload.value [] Payload.text [] Payload.serialises
    Payload.bare Payload.bare
  obtain ⟨-,hbalanced⟩ :=
    (parse_plain_iff Payload.serialises Payload.bare Payload.bare).1 hparse
  exact absurd hbalanced.1 (by decide)

end AgentCentric.Chat

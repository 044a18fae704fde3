import AgentCentric.Bills.Sources
import AgentCentric.Bills.Stored

namespace AgentCentric.BillsLoop
open Json Regex

variable {t : Tables} {message : List (String × Json)} {draft : Json}

theorem due_length {text due : List Char} (h : found (dueRe t) 1 text = some due) :
    due.length = 10 := by
  obtain ⟨spot,hspot,rfl⟩ := Option.map_eq_some_iff.mp h
  obtain ⟨before,after,hways⟩ := search_ways hspot
  -- past the introduction, to the group
  obtain ⟨s₁,-,hways⟩ := mem_ways_all_cons.mp hways
  obtain ⟨s₂,-,hways⟩ := mem_ways_all_cons.mp hways
  obtain ⟨s₃,-,hways⟩ := mem_ways_all_cons.mp hways
  obtain ⟨s₄,-,hways⟩ := mem_ways_all_cons.mp hways
  obtain ⟨s₅,-,hways⟩ := mem_ways_all_cons.mp hways
  obtain ⟨s₆,hgroup,hways⟩ := mem_ways_all_cons.mp hways
  obtain ⟨s₇,hedge,hend⟩ := mem_ways_all_cons.mp hways
  have hend : spot = s₇ := List.mem_singleton.mp hend
  have hedge : s₇ = s₆ := by
    rw [Tables.edge,ways] at hedge
    split at hedge
    · exact List.mem_singleton.mp hedge
    · cases hedge
  have hwidth : Fixed (.all [digit,digit,digit,digit,.set (· = '-'),digit,digit,.set (· = '-'),
      digit,digit]) 10 :=
    fixed_set.all_cons (fixed_set.all_cons (fixed_set.all_cons (fixed_set.all_cons
      (fixed_set.all_cons (fixed_set.all_cons (fixed_set.all_cons (fixed_set.all_cons
        (fixed_set.all_cons (fixed_set.all_cons fixed_all_nil)))))))))
  rw [hend,hedge]
  exact hwidth.group_length hgroup

theorem textOf_some {value : Json} {s : String} :
    textOf value = some s ↔ value = .str s ∧ s ≠ "" := by
  constructor
  · exact BillsAgent.textOf_ne
  · rintro ⟨rfl,hne⟩
    rw [textOf,if_neg hne]

theorem draftFromIntake_draft {fields : Parsed} {id : String} (hid : id ≠ "")
    (hcomplete : fields.incomplete = false) (hdue : fields.dueDate.length = 10) :
    draftFromIntake (fields.draft id) = .ok (.dict (fields.draft id)) := by
  obtain ⟨vendor,amountCents,dueDate⟩ := fields
  simp only [Parsed.incomplete,Bool.or_eq_false_iff,decide_eq_false_iff_not] at hcomplete
  obtain ⟨⟨hvendor,hamount⟩,-⟩ := hcomplete
  cases amountCents with
  | none => cases hamount
  | some amount =>
    have hvendor : String.ofList vendor ≠ "" := by simpa using hvendor
    simp [draftFromIntake,Parsed.draft,get,Dict.lookup,textOf,stringOf,isNonnegative,hid,hvendor,
      hdue,expect,require,bind,Except.bind,pure,Except.pure]

def parsed (t : Tables) (message : List (String × Json)) : Parsed :=
  emailParsed t (emailText message)

def idWith (t : Tables) (message : List (String × Json)) (id : String) : String :=
  id ++ ":" ++ String.ofList (parsed t message).dueDate

theorem draftFromEmail_ok : draftFromEmail t message = .ok draft ↔
    ∃ folder id, textOf (get message "folder") = some folder ∧
      textOf (get message "id") = some id ∧ (parsed t message).incomplete = false ∧
      draft = .dict ((parsed t message).draft (idWith t message id)) := by
  have hintake (id : String) (hcomplete : (parsed t message).incomplete = false) :
      draftFromIntake ((parsed t message).draft (idWith t message id)) =
        .ok (.dict ((parsed t message).draft (idWith t message id))) := by
    refine draftFromIntake_draft ?_ hcomplete ?_
    · intro hempty
      have hchars := congrArg String.toList hempty
      simp [idWith] at hchars
    · cases hfound : found (dueRe t) 1 (emailText message) with
      | none => simp [Parsed.incomplete,parsed,emailParsed,hfound] at hcomplete
      | some due => simpa [parsed,emailParsed,hfound] using due_length hfound
  rw [draftFromEmail]
  simp only [bind_ok,expect_ok,require_ok,Bool.not_eq_true']
  constructor
  · rintro ⟨folder,hfolder,id,hid,-,hcomplete,hdraft⟩
    have hsame := (hintake id hcomplete).symm.trans hdraft
    exact ⟨folder,id,hfolder,hid,hcomplete,(Except.ok.inj hsame).symm⟩
  · rintro ⟨folder,id,hfolder,hid,hcomplete,rfl⟩
    exact ⟨folder,hfolder,id,hid,(),hcomplete,hintake id hcomplete⟩

def place (message : List (String × Json)) : Json × Json :=
  (get message "folder",get message "id")

def draftId : Json → Json
  | .dict items => get items "id"
  | _ => .null

def Spares (W : Type) (draft other : Json) : Prop :=
  ∀ (b : BillsAgent W) (d : Directive) (w : W) (id : String), draftId other = .str id →
    (b.opAccept d w [("draft",draft)]).agent.table.bind (stored · id) = b.table.bind (stored · id)

theorem get_acceptDraft {items bill : List (String × Json)} (h : acceptDraft items = .ok bill) :
    get bill "id" = get items "id" := by
  simp only [acceptDraft,item,bind_ok,expect_ok,require_ok] at h
  obtain ⟨-,-,id,hid,vendor,-,amount,-,due,-,h⟩ := h
  obtain rfl := Except.ok.inj h
  simp [get,Dict.lookup,hid]

theorem opAccept_spares {W : Type} {other : Json} (h : draftId draft ≠ draftId other) :
    Spares W draft other := by
  intro b d w id hid
  have hdraft : get [("draft",draft)] "draft" = draft := rfl
  rw [BillsAgent.opAccept,hdraft]
  cases draft with
  | dict items =>
    dsimp only
    rw [BillsAgent.promote.eq_def]
    split
    · rfl
    · rfl
    · rename_i bill hbill
      have hkey := get_acceptDraft hbill
      split
      · rfl
      · rename_i child hstore
        have hput : (b.storeSet d child (get bill "id") (.dict bill)).2.table.bind (stored · id) =
            b.table.bind (stored · id) := by
          rcases BillsAgent.storeSet_table (d := d) hstore (get bill "id") (.dict bill) with
            hsame | ⟨name,hname,before,fingerprint,hbefore,-,hafter⟩
          · rw [hsame]
          · rw [hafter,hbefore]
            change stored (before.set name ⟨Json.dumps (.dict bill),fingerprint⟩) id =
              stored before id
            rw [stored_set,if_neg]
            rintro rfl
            exact h ((hkey.symm.trans hname).trans hid.symm)
        dsimp only
        split
        · exact hput
        · exact hput
  | _ => rfl

theorem draftId_email (h : draftFromEmail t message = .ok draft) :
    ∃ id due, get message "id" = .str id ∧ found (dueRe t) 1 (emailText message) = some due ∧
      draftId draft = .str (id ++ ":" ++ String.ofList due) := by
  obtain ⟨folder,id,-,hid,hcomplete,rfl⟩ := draftFromEmail_ok.mp h
  cases hfound : found (dueRe t) 1 (emailText message) with
  | none => simp [Parsed.incomplete,parsed,emailParsed,hfound] at hcomplete
  | some due =>
    refine ⟨id,due,(textOf_some.mp hid).1,rfl,?_⟩
    simp [draftId,Parsed.draft,get,Dict.lookup,idWith,parsed,emailParsed,hfound]

theorem idWith_inj {id name : String} {due date : List Char} (hdue : due.length = 10)
    (hdate : date.length = 10) :
    id ++ ":" ++ String.ofList due = name ++ ":" ++ String.ofList date ↔
      id = name ∧ due = date := by
  constructor
  · intro h
    have hchars := congrArg String.toList h
    simp only [String.toList_append,String.toList_ofList] at hchars
    obtain ⟨hid,hsame⟩ := List.append_inj' hchars (hdue.trans hdate.symm)
    exact ⟨String.toList_inj.mp (List.append_inj_left' hid rfl),hsame⟩
  · rintro ⟨rfl,rfl⟩
    rfl

/-- The drafts of messages at different places have different ids, and none replaces the other in
the registry, except where the messages differ in the folder only, and name the same date. -/
theorem draft_ids_differ_iff {m n : List (String × Json)} {draft other : Json}
    (hm : draftFromEmail t m = .ok draft) (hn : draftFromEmail t n = .ok other) :
    (place m ≠ place n → draftId draft ≠ draftId other ∧
      ∀ W : Type, Spares W draft other ∧ Spares W other draft) ↔
    get m "folder" = get n "folder" ∨ get m "id" ≠ get n "id" ∨
      found (dueRe t) 1 (emailText m) ≠ found (dueRe t) 1 (emailText n) := by
  obtain ⟨id,due,hid,hdue,hdraft⟩ := draftId_email hm
  obtain ⟨name,date,hname,hdate,hother⟩ := draftId_email hn
  have hsame : draftId draft = draftId other ↔ id = name ∧ due = date := by
    rw [hdraft,hother,Json.str.injEq,idWith_inj (due_length hdue) (due_length hdate)]
  rw [hid,hname,hdue,hdate]
  constructor
  · intro h
    by_contra hnot
    push Not at hnot
    obtain ⟨hfolder,hids,hdues⟩ := hnot
    have hplace : place m ≠ place n := fun heq => hfolder (congrArg Prod.fst heq)
    exact (h hplace).1 (hsame.mpr ⟨Json.str.inj hids,Option.some.inj hdues⟩)
  · intro h hplace
    have hne : draftId draft ≠ draftId other := by
      intro heq
      obtain ⟨rfl,rfl⟩ := hsame.mp heq
      rcases h with hfolder | hids | hdues
      · exact hplace (by rw [place,place,hfolder,hid,hname])
      · exact hids rfl
      · exact hdues rfl
    exact ⟨hne,fun W => ⟨opAccept_spares hne,opAccept_spares hne.symm⟩⟩

namespace EmailExample

def ascii : Tables := .ascii

def mail (folder body : String) : List (String × Json) :=
  [("folder",.str folder),("id",.str "2"),("subject",.str "from A"),("body",.str body)]

def january : List (String × Json) := mail "inbox" "total: 5.00 due 2024-01-01"
def february : List (String × Json) := mail "gas" "total: 7.00 due 2024-02-01"
def copy : List (String × Json) := mail "gas" "total: 7.00 due 2024-01-01"

theorem returns {m : List (String × Json)} (h : (draftFromEmail ascii m).isOk = true) :
    ∃ draft, draftFromEmail ascii m = .ok draft := by
  cases hdraft : draftFromEmail ascii m with
  | error e =>
    rw [hdraft] at h
    cases h
  | ok draft => exact ⟨draft,rfl⟩

end EmailExample

open EmailExample in
theorem draft_ids_differ_other_date : ∃ draft other, draftFromEmail ascii january = .ok draft ∧
    draftFromEmail ascii february = .ok other ∧ draftId draft ≠ draftId other := by
  obtain ⟨draft,hdraft⟩ := @returns january (by decide +kernel)
  obtain ⟨other,hother⟩ := @returns february (by decide +kernel)
  have hdates : found (dueRe ascii) 1 (emailText january) ≠
      found (dueRe ascii) 1 (emailText february) := by decide +kernel
  refine ⟨draft,other,hdraft,hother,?_⟩
  refine ((draft_ids_differ_iff hdraft hother).mpr (.inr (.inr hdates)) ?_).1
  intro heq
  have hfolder : Json.str "inbox" = .str "gas" := congrArg Prod.fst heq
  simp at hfolder

open EmailExample in
/-- The folder is no part of the id of a draft. -/
theorem folder_not_in_draft_id : ¬∀ (t : Tables) (m n : List (String × Json)) (draft other : Json),
    draftFromEmail t m = .ok draft → draftFromEmail t n = .ok other → place m ≠ place n →
      draftId draft ≠ draftId other := by
  intro h
  obtain ⟨draft,hdraft⟩ := @returns january (by decide +kernel)
  obtain ⟨other,hother⟩ := @returns copy (by decide +kernel)
  have hplace : place january ≠ place copy := by
    intro heq
    have hfolder : Json.str "inbox" = .str "gas" := congrArg Prod.fst heq
    simp at hfolder
  obtain ⟨id,due,hid,hdue,hidraft⟩ := draftId_email hdraft
  obtain ⟨name,date,hname,hdate,hiother⟩ := draftId_email hother
  have hsame : found (dueRe ascii) 1 (emailText january) =
      found (dueRe ascii) 1 (emailText copy) := by decide +kernel
  have hdues : due = date := Option.some.inj (hdue.symm.trans (hsame.trans hdate))
  have hids : id = name := Json.str.inj (hid.symm.trans hname)
  exact h ascii _ _ draft other hdraft hother hplace (by rw [hidraft,hiother,hdues,hids])

end AgentCentric.BillsLoop

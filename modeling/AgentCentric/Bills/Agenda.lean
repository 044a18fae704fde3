import AgentCentric.Bills.Registry

namespace AgentCentric.Bills
open IsoDate Json

def dayOf (date : IsoDate) : Nat := (fromIsoFormat date.1).get date.2

theorem fromIsoFormat_day (date : IsoDate) : fromIsoFormat date.1 = some (dayOf date) :=
  (Option.some_get date.2).symm

def Chosen (first last : Nat) (includePaid : Bool) (bill : RegistryBill) : Prop :=
  first ≤ dayOf bill.dueDate ∧ dayOf bill.dueDate ≤ last ∧
    statusIncluded bill.status includePaid = true

def RegistryBill.entry (bill : RegistryBill) : AgendaEntry :=
  ⟨bill.dueDate,bill.id,bill.vendor,bill.amountCents,bill.status⟩

def AgendaEntry.Before (a b : AgendaEntry) : Prop :=
  dayOf a.dueDate < dayOf b.dueDate ∨ dayOf a.dueDate = dayOf b.dueDate ∧ a.billId.1 ≤ b.billId.1

structure IsAgenda (registry : BillsRegistry) (includePaid : Bool)
    (projection : CalendarProjection) : Prop where
  bills : ∀ entry, entry ∈ projection.entries ↔ ∃ bill ∈ registry.bills,
    Chosen (dayOf projection.fromDate) (dayOf projection.toDate) includePaid bill ∧
      bill.entry = entry
  once : (projection.entries.map AgendaEntry.billId).Nodup
  chronological : projection.entries.Pairwise AgendaEntry.Before
  total : projection.totalOutstandingCents = (projection.entries.map AgendaEntry.amountCents).sum

/-- Of two bills that are chosen, the one whose due date has the smaller text is due earlier, or on
the same day and its id is no greater. -/
def SpelledInOrder (registry : BillsRegistry) (first last : Nat) (includePaid : Bool) : Prop :=
  ∀ a ∈ registry.bills, ∀ b ∈ registry.bills, Chosen first last includePaid a →
    Chosen first last includePaid b → a.dueDate.1 < b.dueDate.1 →
      dayOf a.dueDate < dayOf b.dueDate ∨ dayOf a.dueDate = dayOf b.dueDate ∧ a.id.1 ≤ b.id.1

namespace AgendaEntry

theorem le_iff {a b : AgendaEntry} : a.le b = true ↔
    a.dueDate.1 < b.dueDate.1 ∨ a.dueDate.1 = b.dueDate.1 ∧ a.billId.1 ≤ b.billId.1 := by
  simp [le]

instance : Std.Total fun a b : AgendaEntry => a.le b = true where
  total a b := by
    rw [le_iff,le_iff]
    rcases lt_trichotomy a.dueDate.1 b.dueDate.1 with h | h | h
    · exact .inl (.inl h)
    · rcases le_total a.billId.1 b.billId.1 with hid | hid
      · exact .inl (.inr ⟨h,hid⟩)
      · exact .inr (.inr ⟨h.symm,hid⟩)
    · exact .inr (.inl h)

instance : IsTrans AgendaEntry fun a b => a.le b = true where
  trans a b c hab hbc := by
    rw [le_iff] at hab hbc ⊢
    rcases hab with hab | ⟨hab,hid⟩
    · rcases hbc with hbc | ⟨hbc,-⟩
      · exact .inl (hab.trans hbc)
      · exact .inl (hbc ▸ hab)
    · rcases hbc with hbc | ⟨hbc,hid'⟩
      · exact .inl (hab ▸ hbc)
      · exact .inr ⟨hab.trans hbc,hid.trans hid'⟩

theorem le_antisymm {a b : AgendaEntry} (hab : a.le b = true) (hba : b.le a = true) :
    a.billId = b.billId := by
  rw [le_iff] at hab hba
  rcases hab with hab | ⟨hab,hid⟩
  · rcases hba with hba | ⟨hba,-⟩
    · exact absurd (hab.trans hba) (lt_irrefl _)
    · exact absurd (hba ▸ hab) (lt_irrefl _)
  · rcases hba with hba | ⟨-,hid'⟩
    · exact absurd (hab ▸ hba) (lt_irrefl _)
    · exact Subtype.ext (hid.antisymm hid')

end AgendaEntry

theorem parseDate_ok {value : Json} {date : IsoDate} {day : Nat}
    (h : parseDate value = .ok (date,day)) : value = .str date.1 ∧ day = dayOf date := by
  cases value with
  | str s =>
    rw [parseDate.eq_def] at h
    dsimp only at h
    split at h
    · rename_i day' hday
      obtain ⟨hdate,hsame⟩ := Prod.mk.inj (Except.ok.inj h)
      subst hdate hsame
      have hsome : (fromIsoFormat s).isSome := by rw [hday]; rfl
      exact ⟨rfl,Option.some.inj (hday.symm.trans (fromIsoFormat_day ⟨s,hsome⟩))⟩
    · cases h
  | _ => cases h

instance (first last : Nat) (includePaid : Bool) (bill : RegistryBill) :
    Decidable (Chosen first last includePaid bill) :=
  inferInstanceAs (Decidable (_ ∧ _ ∧ _))

theorem projectCalendar_ok {registry : BillsRegistry} {fromDate toDate includePaid : Json}
    {projection : CalendarProjection}
    (h : projectCalendar registry fromDate toDate includePaid = .ok projection) :
    fromDate = .str projection.fromDate.1 ∧ toDate = .str projection.toDate.1 ∧
      projection.entries = ((registry.bills.filter fun bill =>
        Chosen (dayOf projection.fromDate) (dayOf projection.toDate) includePaid.truthy bill).map
          RegistryBill.entry).insertionSort (AgendaEntry.le · ·) ∧
      projection.totalOutstandingCents = (projection.entries.map AgendaEntry.amountCents).sum := by
  obtain ⟨⟨from',first⟩,hfrom,h⟩ := bind_ok.mp h
  obtain ⟨⟨to',last⟩,hto,h⟩ := bind_ok.mp h
  obtain ⟨_,-,h⟩ := bind_ok.mp h
  obtain rfl := Except.ok.inj h
  obtain ⟨rfl,rfl⟩ := parseDate_ok hfrom
  obtain ⟨rfl,rfl⟩ := parseDate_ok hto
  have hchosen : (registry.bills.filter fun bill => (fromIsoFormat bill.dueDate.1).any
      (fun due => dayOf from' ≤ due && due ≤ dayOf to') &&
        statusIncluded bill.status includePaid.truthy) =
      registry.bills.filter fun bill =>
        Chosen (dayOf from') (dayOf to') includePaid.truthy bill := by
    refine List.filter_congr fun bill _ => ?_
    rw [fromIsoFormat_day,Bool.eq_iff_iff,decide_eq_true_iff,Bool.and_eq_true,Option.any_some,
      Bool.and_eq_true,decide_eq_true_iff,decide_eq_true_iff,and_assoc]
    rfl
  refine ⟨rfl,rfl,?_,rfl⟩
  dsimp only
  rw [hchosen]
  rfl

theorem mem_entries {registry : BillsRegistry} {first last : Nat} {includePaid : Bool}
    {entry : AgendaEntry} : entry ∈ ((registry.bills.filter fun bill =>
      Chosen first last includePaid bill).map RegistryBill.entry) ↔
        ∃ bill ∈ registry.bills, Chosen first last includePaid bill ∧ bill.entry = entry := by
  simp [and_assoc]

theorem entries_of_projectCalendar {registry : BillsRegistry} {fromDate toDate includePaid : Json}
    {projection : CalendarProjection}
    (h : projectCalendar registry fromDate toDate includePaid = .ok projection) :
    (∀ entry, entry ∈ projection.entries ↔ ∃ bill ∈ registry.bills,
      Chosen (dayOf projection.fromDate) (dayOf projection.toDate) includePaid.truthy bill ∧
        bill.entry = entry) ∧ (projection.entries.map AgendaEntry.billId).Nodup ∧
    (projection.entries.Pairwise AgendaEntry.Before ↔
      SpelledInOrder registry (dayOf projection.fromDate) (dayOf projection.toDate)
        includePaid.truthy) := by
  obtain ⟨-,-,hentries,-⟩ := projectCalendar_ok h
  let chosen := (registry.bills.filter fun bill =>
    Chosen (dayOf projection.fromDate) (dayOf projection.toDate) includePaid.truthy bill).map
      RegistryBill.entry
  have hperm : projection.entries.Perm chosen := hentries ▸ List.perm_insertionSort _ chosen
  have hids : (chosen.map AgendaEntry.billId).Nodup := by
    have hsame : chosen.map AgendaEntry.billId = (registry.bills.filter fun bill =>
        Chosen (dayOf projection.fromDate) (dayOf projection.toDate) includePaid.truthy bill).map
          RegistryBill.id := by
      rw [List.map_map]
      rfl
    rw [hsame]
    exact (List.filter_sublist.map RegistryBill.id).nodup registry.unique
  have hanti : ∀ a ∈ chosen, ∀ b ∈ chosen, a.le b = true → b.le a = true → a = b :=
    fun a ha b hb hab hba => List.inj_on_of_nodup_map hids ha hb (AgendaEntry.le_antisymm hab hba)
  have hsorted : projection.entries.Pairwise AgendaEntry.Before ↔
      ∀ a ∈ chosen, ∀ b ∈ chosen, a ≠ b → a.le b = true → a.Before b :=
    hentries ▸ pairwise_insertionSort_iff hids.of_map hanti
  refine ⟨fun entry => hperm.mem_iff.trans mem_entries,
    (hperm.map AgendaEntry.billId).nodup_iff.mpr hids,hsorted.trans ⟨?_,?_⟩⟩
  · intro hbefore a ha b hb hchosen hchosen' hlt
    have hne : a.entry ≠ b.entry := by
      intro heq
      have hdate := congrArg (fun entry : AgendaEntry => entry.dueDate.1) heq
      exact absurd (hdate ▸ hlt : b.dueDate.1 < b.dueDate.1) (lt_irrefl _)
    exact hbefore a.entry (mem_entries.mpr ⟨a,ha,hchosen,rfl⟩) b.entry
      (mem_entries.mpr ⟨b,hb,hchosen',rfl⟩) hne (AgendaEntry.le_iff.mpr (.inl hlt))
  · intro hspelled a ha b hb _ hle
    obtain ⟨bill,hbill,hchosen,rfl⟩ := mem_entries.mp ha
    obtain ⟨bill',hbill',hchosen',rfl⟩ := mem_entries.mp hb
    rcases AgendaEntry.le_iff.mp hle with hlt | ⟨hsame,hid⟩
    · exact hspelled bill hbill bill' hbill' hchosen hchosen' hlt
    · exact .inr ⟨congrArg dayOf (Subtype.ext hsame),hid⟩

/-- A projection is the agenda of its window if and only if the due dates of the chosen bills are
spelled in order. -/
theorem projectCalendar_agenda_iff {registry : BillsRegistry} {fromDate toDate includePaid : Json}
    {projection : CalendarProjection}
    (h : projectCalendar registry fromDate toDate includePaid = .ok projection) :
    (fromDate = .str projection.fromDate.1 ∧ toDate = .str projection.toDate.1 ∧
      IsAgenda registry includePaid.truthy projection) ↔
    SpelledInOrder registry (dayOf projection.fromDate) (dayOf projection.toDate)
      includePaid.truthy := by
  obtain ⟨hfrom,hto,-,htotal⟩ := projectCalendar_ok h
  obtain ⟨hbills,honce,hsorted⟩ := entries_of_projectCalendar h
  constructor
  · rintro ⟨-,-,hagenda⟩
    exact hsorted.mp hagenda.chronological
  · intro hspelled
    exact ⟨hfrom,hto,hbills,honce,hsorted.mpr hspelled,htotal⟩

namespace Agenda

def january : IsoDate := ⟨"20260101",by decide +kernel⟩
def december : IsoDate := ⟨"2026-12-01",by decide +kernel⟩

def water (date : IsoDate) : RegistryBill :=
  ⟨⟨"b1",by decide⟩,⟨"WaterCo",by decide⟩,2000,date,.due,""⟩

def power (date : IsoDate) : RegistryBill :=
  ⟨⟨"b2",by decide⟩,⟨"PowerCo",by decide⟩,5000,date,.due,""⟩

/-- Two bills, due on one day or in the order given. -/
def registry (date date' : IsoDate) : BillsRegistry where
  bills := [water date,power date']
  description := ""
  nonempty := by simp
  unique := by simp [water,power]

def project (date date' : IsoDate) : Except Raised CalendarProjection :=
  projectCalendar (registry date date') (.str "2026-01-01") (.str "2026-12-31") (.bool false)

theorem returns (date date' : IsoDate) (h : (project date date').toBool = true) :
    ∃ projection, project date date' = .ok projection := by
  cases hproject : project date date' with
  | error e =>
    rw [hproject] at h
    cases h
  | ok projection => exact ⟨projection,rfl⟩

theorem day_of_text {date : IsoDate} {text : String} {day : Nat} (hdate : date.1 = text)
    (hday : fromIsoFormat text = some day) : dayOf date = day :=
  Option.some.inj ((fromIsoFormat_day date).symm.trans (hdate ▸ hday))

end Agenda

theorem projectCalendar_agenda_one_month : ∃ projection,
    Agenda.project Agenda.december Agenda.december = .ok projection ∧
      IsAgenda (Agenda.registry Agenda.december Agenda.december) false projection := by
  obtain ⟨projection,hproject⟩ := Agenda.returns Agenda.december Agenda.december
    (by decide +kernel)
  refine ⟨projection,hproject,((projectCalendar_agenda_iff hproject).mpr ?_).2.2⟩
  intro a ha b hb _ _ hlt
  have hsame : ∀ bill ∈ (Agenda.registry Agenda.december Agenda.december).bills,
      bill.dueDate = Agenda.december := by
    intro bill hbill
    simp only [Agenda.registry,List.mem_cons,List.not_mem_nil,or_false] at hbill
    rcases hbill with rfl | rfl <;> rfl
  rw [hsame a ha,hsame b hb] at hlt
  exact absurd hlt (lt_irrefl _)

/-- A dash is smaller than a digit: a day of December comes before one of January. -/
theorem december_before_january : ¬∀ (registry : BillsRegistry) (fromDate toDate includePaid : Json)
    (projection : CalendarProjection),
    projectCalendar registry fromDate toDate includePaid = .ok projection →
      IsAgenda registry includePaid.truthy projection := by
  intro h
  obtain ⟨projection,hproject⟩ := Agenda.returns Agenda.january Agenda.december
    (by decide +kernel)
  have hagenda := h _ _ _ _ _ hproject
  obtain ⟨hfrom,hto,-,-⟩ := projectCalendar_ok hproject
  have hfirst : dayOf projection.fromDate = 739617 :=
    Agenda.day_of_text (Json.str.inj hfrom).symm (by decide +kernel)
  have hlast : dayOf projection.toDate = 739981 :=
    Agenda.day_of_text (Json.str.inj hto).symm (by decide +kernel)
  have hjanuary : dayOf Agenda.january = 739617 := Agenda.day_of_text rfl (by decide +kernel)
  have hdecember : dayOf Agenda.december = 739951 := Agenda.day_of_text rfl (by decide +kernel)
  have hspelled := (entries_of_projectCalendar hproject).2.2.mp hagenda.chronological
  rw [hfirst,hlast] at hspelled
  have horder := hspelled (Agenda.power Agenda.december) (by simp [Agenda.registry])
    (Agenda.water Agenda.january) (by simp [Agenda.registry]) ⟨?_,?_,rfl⟩ ⟨?_,?_,rfl⟩ (by decide)
  · have hpower : dayOf (Agenda.power Agenda.december).dueDate = 739951 := hdecember
    have hwater : dayOf (Agenda.water Agenda.january).dueDate = 739617 := hjanuary
    omega
  all_goals simp only [Agenda.power,Agenda.water]
  all_goals omega

end AgentCentric.Bills

import FlexQuery.Library.Calendar

/-!
# What a crontab line says

* `Crontab` — the five fields; each is `*` or a list of items.
* `Crontab.Fits` — the moments at which a line fires: day of month and day of week combine by OR
  when both are restricted, and 7 is another name of Sunday.
* `Crontab.Weekly` — the same, read without the day of month, the month and the weekday 7.
* `weekly_iff` — for which lines the two are the same.

Schedulers differ on whether a field such as `*/2` is a restricted one, so `restricted` is a
parameter.
-/

set_option autoImplicit false

namespace Crontab

/-! ## Fields -/

inductive Item where
  /-- `*/n`. -/
  | every (n : ℤ)
  /-- `a-b`. -/
  | range (a b : ℤ)
  /-- A number. -/
  | value (a : ℤ)
  deriving DecidableEq, Repr

/-- The item selects the value, in a field whose least value is `least`. -/
def Item.Selects (least : ℤ) : Item → ℤ → Prop
  | every n, v => (v - least) % n = 0
  | range a b, v => a ≤ v ∧ v ≤ b
  | value a, v => v = a

/-- A field; none is `*`. -/
abbrev Field := Option (List Item)

def Field.Selects (least : ℤ) : Field → ℤ → Prop
  | none, _ => True
  | some items, v => ∃ item ∈ items, item.Selects least v

instance (least : ℤ) (item : Item) (v : ℤ) : Decidable (item.Selects least v) := by
  cases item <;> unfold Item.Selects <;> exact inferInstance

instance (least : ℤ) (field : Field) (v : ℤ) : Decidable (field.Selects least v) := by
  cases field <;> unfold Field.Selects <;> exact inferInstance

/-- A line. -/
structure Line where
  minute : Field
  hour : Field
  dayOfMonth : Field
  month : Field
  dayOfWeek : Field
  deriving DecidableEq, Repr

/-! ## Moments -/

/-- What a calendar and a clock show; weekday 0 is Sunday. -/
structure Moment where
  minute : ℤ
  hour : ℤ
  day : ℤ
  month : ℤ
  weekday : ℤ
  deriving DecidableEq, Repr

/-- A date that some years have. -/
def DateInYear (month day : ℤ) : Prop :=
  1 ≤ month ∧ month ≤ 12 ∧ 1 ≤ day ∧ day ≤ Calendar.daysInMonth true month.toNat

structure Moment.Valid (m : Moment) : Prop where
  minute : 0 ≤ m.minute ∧ m.minute < 60
  hour : 0 ≤ m.hour ∧ m.hour < 24
  date : DateInYear m.month m.day
  weekday : 0 ≤ m.weekday ∧ m.weekday < 7

namespace Line

variable (restricted : Field → Bool) (c : Line)

/-- The weekday is named, Sunday as 0 or 7. -/
def OnWeekday (w : ℤ) : Prop :=
  c.dayOfWeek.Selects 0 w ∨ w = 0 ∧ c.dayOfWeek.Selects 0 7

/-- Both day fields are restricted. -/
def EitherDay : Prop := restricted c.dayOfMonth = true ∧ restricted c.dayOfWeek = true

/-- The line fires on the date. -/
def OnDate (month day w : ℤ) : Prop :=
  c.month.Selects 1 month ∧
    (c.EitherDay restricted → c.dayOfMonth.Selects 1 day ∨ c.OnWeekday w) ∧
    (¬ c.EitherDay restricted → c.dayOfMonth.Selects 1 day ∧ c.OnWeekday w)

/-- The line fires at the moment. -/
def Fits (m : Moment) : Prop :=
  c.minute.Selects 0 m.minute ∧ c.hour.Selects 0 m.hour ∧ c.OnDate restricted m.month m.day m.weekday

/-- The line read without its day of month, its month and the weekday 7. -/
def Weekly (m : Moment) : Prop :=
  c.minute.Selects 0 m.minute ∧ c.hour.Selects 0 m.hour ∧ c.dayOfWeek.Selects 0 m.weekday

/-! ## When nothing is lost -/

/-- No minute or no hour is named. -/
def Timeless : Prop :=
  (∀ v, 0 ≤ v → v < 60 → ¬ c.minute.Selects 0 v) ∨ ∀ v, 0 ≤ v → v < 24 → ¬ c.hour.Selects 0 v

/-- No date of any year is named by month and day of month. -/
def Dateless : Prop :=
  ∀ month day, DateInYear month day → c.month.Selects 1 month → ¬ c.dayOfMonth.Selects 1 day

/-- Some weekday is named by 0 to 6. -/
def NamesWeekday : Prop := ∃ w, 0 ≤ w ∧ w < 7 ∧ c.dayOfWeek.Selects 0 w

/-- A line with a weekday: Sunday is not named by 7 alone, every month is named, and the day of
month says nothing beside the weekdays. -/
structure ByWeekday : Prop where
  sunday : c.dayOfWeek.Selects 0 7 → c.dayOfWeek.Selects 0 0
  months : ∀ m, 1 ≤ m → m ≤ 12 → c.month.Selects 1 m
  everyDay : ¬ c.EitherDay restricted → ∀ d, 1 ≤ d → d ≤ 31 → c.dayOfMonth.Selects 1 d
  noDay : c.EitherDay restricted → (∀ w, 0 ≤ w → w < 7 → c.dayOfWeek.Selects 0 w) ∨
    ∀ d, 1 ≤ d → d ≤ 31 → ¬ c.dayOfMonth.Selects 1 d

/-- A line without a weekday: it never fires. -/
structure Never : Prop where
  both : ¬ c.EitherDay restricted → ¬ c.dayOfWeek.Selects 0 7 ∨ c.Dateless
  either : c.EitherDay restricted → c.Dateless ∧
    (c.dayOfWeek.Selects 0 7 → ∀ m, 1 ≤ m → m ≤ 12 → ¬ c.month.Selects 1 m)

/-- Nothing is lost by reading the line without its day of month, its month and the weekday 7. -/
def NothingLost : Prop :=
  c.Timeless ∨ c.NamesWeekday ∧ c.ByWeekday restricted ∨ ¬ c.NamesWeekday ∧ c.Never restricted

instance (w : ℤ) : Decidable (c.OnWeekday w) := by unfold OnWeekday; exact inferInstance

instance : Decidable (c.EitherDay restricted) := by unfold EitherDay; exact inferInstance

instance (month day w : ℤ) : Decidable (c.OnDate restricted month day w) := by
  unfold OnDate; exact inferInstance

instance (m : Moment) : Decidable (c.Fits restricted m) := by unfold Fits; exact inferInstance

end Line

/-! ## The proof -/

section
variable {restricted : Field → Bool} {c : Line}

theorem dateInYear_january {day : ℤ} (h₁ : 1 ≤ day) (h₂ : day ≤ 31) : DateInYear 1 day := by
  have hlen : Calendar.daysInMonth true (1 : ℤ).toNat = 31 := by decide
  exact ⟨le_rfl, by omega, h₁, by omega⟩

theorem dateInYear_first {month : ℤ} (h₁ : 1 ≤ month) (h₂ : month ≤ 12) :
    DateInYear month 1 := by
  refine ⟨h₁, h₂, le_rfl, ?_⟩
  interval_cases month <;> decide

theorem DateInYear.day_le {month day : ℤ} (h : DateInYear month day) : day ≤ 31 := by
  obtain ⟨h₁, h₂, _, h₄⟩ := h
  have hle : ∀ m : ℕ, m < 13 → Calendar.daysInMonth true m ≤ 31 := by decide
  have := hle month.toNat (by omega)
  omega

/-- On every date the weekday alone decides. -/
def SameDates (restricted : Field → Bool) (c : Line) : Prop :=
  ∀ month day w, DateInYear month day → 0 ≤ w → w < 7 →
    (c.dayOfWeek.Selects 0 w ↔ c.OnDate restricted month day w)

theorem onDate_either (h : c.EitherDay restricted) {month day w : ℤ} :
    c.OnDate restricted month day w ↔
      c.month.Selects 1 month ∧ (c.dayOfMonth.Selects 1 day ∨ c.OnWeekday w) := by
  simp [Line.OnDate, h]

theorem onDate_both (h : ¬ c.EitherDay restricted) {month day w : ℤ} :
    c.OnDate restricted month day w ↔
      c.month.Selects 1 month ∧ c.dayOfMonth.Selects 1 day ∧ c.OnWeekday w := by
  simp [Line.OnDate, h]

theorem byWeekday_of_same (h : SameDates restricted c) (hnames : c.NamesWeekday) :
    c.ByWeekday restricted := by
  obtain ⟨w, hw₀, hw₇, hw⟩ := hnames
  have hfires : ∀ month day, DateInYear month day → c.OnDate restricted month day w :=
    fun month day hdate => (h month day w hdate hw₀ hw₇).mp hw
  have hmonths : ∀ m, 1 ≤ m → m ≤ 12 → c.month.Selects 1 m :=
    fun m h₁ h₂ => (hfires m 1 (dateInYear_first h₁ h₂)).1
  have hjanuary : DateInYear 1 1 := dateInYear_first le_rfl (by omega)
  refine ⟨?_, hmonths, ?_, ?_⟩
  · intro hseven
    -- On a Sunday the line fires too, by its weekday 7.
    apply (h 1 1 0 hjanuary le_rfl (by omega)).mpr
    have hsunday : c.OnWeekday 0 := Or.inr ⟨rfl, hseven⟩
    by_cases heither : c.EitherDay restricted
    · exact (onDate_either heither).mpr ⟨hmonths 1 le_rfl (by omega), Or.inr hsunday⟩
    · exact (onDate_both heither).mpr ⟨hmonths 1 le_rfl (by omega),
        ((onDate_both heither).mp (hfires 1 1 hjanuary)).2.1, hsunday⟩
  · intro heither d h₁ h₂
    exact ((onDate_both heither).mp (hfires 1 d (dateInYear_january h₁ h₂))).2.1
  · intro heither
    by_contra hneither
    rw [not_or] at hneither
    obtain ⟨hweekday, hday⟩ := hneither
    push Not at hweekday hday
    obtain ⟨v, hv₀, hv₇, hv⟩ := hweekday
    obtain ⟨d, hd₁, hd₂, hd⟩ := hday
    apply hv
    exact (h 1 d v (dateInYear_january hd₁ hd₂) hv₀ hv₇).mpr
      ((onDate_either heither).mpr ⟨hmonths 1 le_rfl (by omega), Or.inl hd⟩)

theorem never_of_same (h : SameDates restricted c) (hnames : ¬ c.NamesWeekday) :
    c.Never restricted := by
  have hnot : ∀ month day w, DateInYear month day → 0 ≤ w → w < 7 →
      ¬ c.OnDate restricted month day w :=
    fun month day w hdate h₀ h₇ hfires =>
      hnames ⟨w, h₀, h₇, (h month day w hdate h₀ h₇).mpr hfires⟩
  constructor
  · intro heither
    by_contra hneither
    rw [not_or, not_not] at hneither
    obtain ⟨hseven, hdates⟩ := hneither
    unfold Line.Dateless at hdates
    push Not at hdates
    obtain ⟨month, day, hdate, hmonth, hday⟩ := hdates
    exact hnot month day 0 hdate le_rfl (by omega)
      ((onDate_both heither).mpr ⟨hmonth, hday, Or.inr ⟨rfl, hseven⟩⟩)
  · intro heither
    constructor
    · intro month day hdate hmonth hday
      exact hnot month day 0 hdate le_rfl (by omega)
        ((onDate_either heither).mpr ⟨hmonth, Or.inl hday⟩)
    · intro hseven m h₁ h₂ hmonth
      exact hnot m 1 0 (dateInYear_first h₁ h₂) le_rfl (by omega)
        ((onDate_either heither).mpr ⟨hmonth, Or.inr (Or.inr ⟨rfl, hseven⟩)⟩)

theorem same_of_byWeekday (h : c.ByWeekday restricted) : SameDates restricted c := by
  intro month day w hdate hw₀ hw₇
  have hmonth := h.months month hdate.1 hdate.2.1
  have hweekday : c.OnWeekday w ↔ c.dayOfWeek.Selects 0 w := by
    refine ⟨?_, Or.inl⟩
    rintro (hw | ⟨rfl, hseven⟩)
    · exact hw
    · exact h.sunday hseven
  by_cases heither : c.EitherDay restricted
  · rw [onDate_either heither, hweekday]
    refine ⟨fun hw => ⟨hmonth, Or.inr hw⟩, ?_⟩
    rintro ⟨_, hday | hw⟩
    · rcases h.noDay heither with hall | hnone
      · exact hall w hw₀ hw₇
      · exact absurd hday (hnone day hdate.2.2.1 hdate.day_le)
    · exact hw
  · rw [onDate_both heither, hweekday]
    exact ⟨fun hw => ⟨hmonth, h.everyDay heither day hdate.2.2.1 hdate.day_le, hw⟩,
      fun hw => hw.2.2⟩

theorem same_of_never (hnames : ¬ c.NamesWeekday) (h : c.Never restricted) :
    SameDates restricted c := by
  intro month day w hdate hw₀ hw₇
  have hw : ¬ c.dayOfWeek.Selects 0 w := fun hw => hnames ⟨w, hw₀, hw₇, hw⟩
  refine iff_of_false hw ?_
  by_cases heither : c.EitherDay restricted
  · rw [onDate_either heither]
    obtain ⟨hdates, hmonths⟩ := h.either heither
    rintro ⟨hmonth, hday | hw' | ⟨_, hseven⟩⟩
    · exact hdates month day hdate hmonth hday
    · exact hw hw'
    · exact hmonths hseven month hdate.1 hdate.2.1 hmonth
  · rw [onDate_both heither]
    rintro ⟨hmonth, hday, hw' | ⟨_, hseven⟩⟩
    · exact hw hw'
    · rcases h.both heither with hnot | hdates
      · exact hnot hseven
      · exact hdates month day hdate hmonth hday

theorem sameDates_iff : SameDates restricted c ↔
    c.NamesWeekday ∧ c.ByWeekday restricted ∨ ¬ c.NamesWeekday ∧ c.Never restricted := by
  constructor
  · intro h
    by_cases hnames : c.NamesWeekday
    · exact Or.inl ⟨hnames, byWeekday_of_same h hnames⟩
    · exact Or.inr ⟨hnames, never_of_same h hnames⟩
  · rintro (⟨_, h⟩ | ⟨hnames, h⟩)
    · exact same_of_byWeekday h
    · exact same_of_never hnames h

/-- **The weekly reading** is the line's at every moment exactly when nothing is lost. -/
theorem weekly_iff :
    (∀ m : Moment, m.Valid → (c.Weekly m ↔ c.Fits restricted m)) ↔ c.NothingLost restricted := by
  unfold Line.NothingLost
  rw [← sameDates_iff]
  constructor
  · intro h
    by_cases htime : c.Timeless
    · exact Or.inl htime
    · unfold Line.Timeless at htime
      push Not at htime
      obtain ⟨⟨minute, hm₀, hm₁, hm⟩, hour, hh₀, hh₁, hh⟩ := htime
      refine Or.inr ?_
      intro month day w hdate hw₀ hw₇
      have := h ⟨minute, hour, day, month, w⟩ ⟨⟨hm₀, hm₁⟩, ⟨hh₀, hh₁⟩, hdate, hw₀, hw₇⟩
      simpa [Line.Weekly, Line.Fits, hm, hh] using this
  · rintro h m ⟨⟨hm₀, hm₁⟩, ⟨hh₀, hh₁⟩, hdate, hw₀, hw₇⟩
    unfold Line.Weekly Line.Fits
    rcases h with (hminute | hhour) | hsame
    · simp [hminute _ hm₀ hm₁]
    · simp [hhour _ hh₀ hh₁]
    · rw [hsame _ _ _ hdate hw₀ hw₇]

end

end Crontab

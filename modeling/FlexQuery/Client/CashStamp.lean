import FlexQuery.Client.CashParser
import FlexQuery.Client.TradeDate

/-!
# The stamp of a cash row and the time of day

* `Writes` — a calendar date written in a text that is accepted.
* `cashTs_timed` — the two ISO formats with a time are tried on nineteen characters, so that they
  keep the time; the one in digits is cut to its date.
* `midnight_iff` — a row is stamped with a date alone unless one of those two read a time.
* `renderedAlike_iff` — the formats agree on a transaction exactly when it is at midnight.
-/

set_option autoImplicit false

namespace FlexQuery

/-- The table, in its order. -/
theorem cashTsFormats_eq : CASH_TS_FORMATS =
    [(compactTimed.1, 8), (compactDay.1, 8), (letterTimed.1, 19), (blankTimed.1, 19),
      (dashedDay.1, 10)] := rfl

/-- What a format reads of its slice of the text. -/
def cashReads (f : (List Directive × String) × ℕ) (s : String) : Option DateTime :=
  (strptime f.1.1 f.1.2 (slice s f.2)).toOption

/-- A calendar date written in a text that is accepted: a format reads it, or, when none reads the
text, eight digits in a row. -/
def Writes (s : String) (d : Date) : Prop :=
  (∃ f ∈ CASH_TS_FORMATS, ∃ dt, cashReads f s = some dt ∧ dt.date = d) ∨
    ((∀ f ∈ CASH_TS_FORMATS, cashReads f s = none) ∧
      ∃ digits, searchEightDigits s = some digits ∧ strptimeYmd digits = .ok d)

/-- The stamp is midnight of a date that is written in the text. -/
def DateOnly (s : String) (ts : DateTime) : Prop := ∃ d, Writes s d ∧ ts = .midnight d

/-- What the two ISO formats with a time read in the text is midnight. -/
def NoTimeOfDay (s : String) : Prop :=
  ∀ f ∈ [(letterTimed.1, 19), (blankTimed.1, 19)], ∀ dt, cashReads f s = some dt → dt.sec = 0

/-! ## One format -/

theorem cashReads_some {f : (List Directive × String) × ℕ} {s : String} {dt : DateTime} :
    cashReads f s = some dt ↔ strptime f.1.1 f.1.2 (slice s f.2) = .ok dt := by
  unfold cashReads
  cases strptime f.1.1 f.1.2 (slice s f.2) <;> simp [Except.toOption]

theorem cashReads_none {f : (List Directive × String) × ℕ} {s : String}
    (h : ∀ dt, strptime f.1.1 f.1.2 (slice s f.2) ≠ .ok dt) : cashReads f s = none := by
  rw [Option.eq_none_iff_forall_ne_some]
  intro dt hread
  exact h dt (cashReads_some.mp hread)

/-- One of its characters is in none of the directives. -/
theorem cashReads_unreadable {f : (List Directive × String) × ℕ} {s : String} {x : Char}
    (hx : x ∈ s.toList.take f.2) (h : ∀ dir ∈ f.1.1, ¬ dir.reads x) : cashReads f s = none := by
  apply cashReads_none
  intro dt hread
  obtain ⟨dir, hdir, hreads⟩ := (strptime_fits hread).1 x (by rwa [slice_toList])
  exact h dir hdir hreads

/-- One of the directives has none of its characters. -/
theorem cashReads_absent {f : (List Directive × String) × ℕ} {s : String} (dir : Directive)
    (hdir : dir ∈ f.1.1) (h : ∀ x ∈ s.toList.take f.2, ¬ dir.reads x) : cashReads f s = none := by
  apply cashReads_none
  intro dt hread
  obtain ⟨x, hx, hreads⟩ := (strptime_fits hread).2 dir hdir
  rw [slice_toList] at hx
  exact h x hx hreads

theorem Directive.rest_lt {dir : Directive} {s : List Char} {m : ℕ × List Char}
    (h : m ∈ dir.matches s) : m.2.length < s.length := by
  obtain ⟨_, taken, hs, hne, _, _⟩ := Directive.took_some h
  have hpos := List.length_pos_of_ne_nil hne
  rw [hs, List.length_append]
  omega

theorem matchYear_rest {s t : List Char} {n : ℕ} (h : matchYear s = some (n, t)) :
    s.length = t.length + 4 := by
  unfold matchYear at h
  split at h
  · split at h
    · cases h
      rfl
    · cases h
  · cases h

/-- Eight characters are too few for a date and a time. -/
theorem compactTimed_never (s : String) : cashReads (compactTimed.1, 8) s = none := by
  apply cashReads_none
  intro dt hread
  obtain ⟨r, hmem, _⟩ := strptime_match hread
  obtain ⟨⟨y, s₁⟩, hy, hmem⟩ := mem_matchFormat_cons hmem
  obtain ⟨x₂, h₂, hmem⟩ := mem_matchFormat_cons hmem
  obtain ⟨x₃, h₃, hmem⟩ := mem_matchFormat_cons hmem
  obtain ⟨x₄, h₄, hmem⟩ := mem_matchFormat_cons hmem
  obtain ⟨x₅, h₅, hmem⟩ := mem_matchFormat_cons hmem
  obtain ⟨x₆, h₆, hmem⟩ := mem_matchFormat_cons hmem
  obtain ⟨x₇, h₇, _⟩ := mem_matchFormat_cons hmem
  have hyear := matchYear_rest (Option.mem_toList.mp hy)
  have l₂ := Directive.rest_lt h₂
  have l₃ := Directive.rest_lt h₃
  have l₄ := Directive.rest_lt h₄
  have l₅ := Directive.rest_lt h₅
  have l₆ := Directive.rest_lt h₆
  have l₇ := Directive.rest_lt h₇
  have hlen : (slice s 8).toList.length ≤ 8 := by
    rw [slice_toList, List.length_take]
    omega
  simp only at l₂ hyear hlen
  omega

/-- A format without a clock leaves the clock as it was. -/
theorem matchFormat_clock {fmt : List Directive} {r : Reading} {s : List Char}
    {m : Reading × List Char} (hfmt : ∀ dir ∈ fmt, dir ∉ [Directive.hour, .minute, .second])
    (h : m ∈ matchFormat fmt r s) :
    m.1.hour = r.hour ∧ m.1.minute = r.minute ∧ m.1.second = r.second := by
  induction fmt generalizing r s with
  | nil =>
    rw [matchFormat, List.mem_singleton] at h
    subst h
    exact ⟨rfl, rfl, rfl⟩
  | cons dir ds ih =>
    obtain ⟨x, _, hm⟩ := mem_matchFormat_cons h
    have hrest := ih (fun d hd => hfmt d (List.mem_cons_of_mem _ hd)) hm
    have hdir := hfmt dir List.mem_cons_self
    cases dir <;> first | exact hrest | exact absurd (by decide) hdir

theorem strptime_untimed {fmt : List Directive} {name s : String} {dt : DateTime}
    (hfmt : ∀ dir ∈ fmt, dir ∉ [Directive.hour, .minute, .second])
    (h : strptime fmt name s = .ok dt) : dt.sec = 0 := by
  obtain ⟨r, hmem, hcivil⟩ := strptime_match h
  obtain ⟨hhour, hminute, hsecond⟩ := matchFormat_clock hfmt hmem
  simp only at hhour hminute hsecond
  rw [hhour, hminute, hsecond] at hcivil
  unfold DateTime.ofCivil at hcivil
  split at hcivil
  · cases hcivil
  · simp only [Nat.ofNat_pos, and_self, dite_true, Except.ok.injEq] at hcivil
    rw [← hcivil]

/-! ## Which format reads a text -/

theorem compactDay_refuses {s : String} (h : '-' ∈ s.toList.take 8) :
    cashReads (compactDay.1, 8) s = none :=
  cashReads_unreadable h (by decide)

/-- A format that asks for a dash after the year is not the one in digits. -/
theorem dash_of_reading {f : (List Directive × String) × ℕ} {ds : List Directive} {s : String}
    {dt : DateTime} (hf : f.1.1 = .year :: .lit '-' :: ds) (hwide : 8 ≤ f.2)
    (h : cashReads f s = some dt) : '-' ∈ s.toList.take 8 := by
  have hread := cashReads_some.mp h
  rw [hf] at hread
  have hmem := strptime_dash hread
  rwa [slice_toList, List.take_take, Nat.min_eq_left hwide] at hmem

theorem toLower_t {c : Char} (h : c.toLower = 't') : c = 't' ∨ c = 'T' := by
  by_cases hc : c.isUpper = true
  · right
    rw [Char.toLower_eq_of_isUpper hc] at h
    simp only [Char.isUpper, UInt32.le_iff_toNat_le, ge_iff_le, decide_eq_true_eq] at hc
    have hval : c.val.toNat = c.toNat := rfl
    have hZ : 'Z'.val.toNat = 90 := rfl
    have hnat := congrArg Char.toNat h
    rw [Char.toNat_ofNat, if_pos (by left; omega)] at hnat
    have ht : 't'.toNat = 116 := rfl
    have hT : 'T'.toNat = 84 := rfl
    exact Char.toNat_inj.mp (by omega)
  · left
    rwa [Char.toLower_eq_of_not_isUpper hc] at h

/-- A text with a `T` in it has no blank where the other format asks for one. -/
theorem blankTimed_refuses {s : String} {dt : DateTime}
    (h : cashReads (letterTimed.1, 19) s = some dt) : cashReads (blankTimed.1, 19) s = none := by
  obtain ⟨x, hx, hreads⟩ := (strptime_fits (cashReads_some.mp h)).2 (.lit 'T') (by decide)
  rw [slice_toList] at hx
  refine cashReads_unreadable hx ?_
  rcases toLower_t hreads with rfl | rfl
  · decide
  · decide

/-- What `ts_parsed` is. -/
theorem cashTs_eq (s : String) : cashTs s =
    (CASH_TS_FORMATS.findSome? (cashReads · s)).or
      ((searchEightDigits s).bind fun digits =>
        (strptimeYmd digits).toOption.map DateTime.midnight) := rfl

theorem cashTs_letter {s : String} {dt : DateTime} (h : cashReads (letterTimed.1, 19) s = some dt) :
    cashTs s = some dt := by
  have hdash := dash_of_reading rfl (by decide) h
  rw [cashTs_eq, cashTsFormats_eq]
  simp only [List.findSome?_cons, compactTimed_never, compactDay_refuses hdash, h, Option.some_or]

theorem cashTs_blank {s : String} {dt : DateTime} (hletter : cashReads (letterTimed.1, 19) s = none)
    (h : cashReads (blankTimed.1, 19) s = some dt) : cashTs s = some dt := by
  have hdash := dash_of_reading rfl (by decide) h
  rw [cashTs_eq, cashTsFormats_eq]
  simp only [List.findSome?_cons, compactTimed_never, compactDay_refuses hdash, hletter, h,
    Option.some_or]

/-- The other formats read a date alone, and so do eight digits. -/
theorem cashTs_untimed {s : String} {ts : DateTime} (h : cashTs s = some ts)
    (hletter : cashReads (letterTimed.1, 19) s = none)
    (hblank : cashReads (blankTimed.1, 19) s = none) : ts.sec = 0 := by
  rw [cashTs_eq, cashTsFormats_eq] at h
  simp only [List.findSome?_cons, List.findSome?_nil, compactTimed_never, hletter, hblank] at h
  cases hday : cashReads (compactDay.1, 8) s with
  | some dt =>
    rw [hday, Option.some_or, Option.some.injEq] at h
    rw [← h]
    exact strptime_untimed (by decide) (cashReads_some.mp hday)
  | none =>
    cases hdashed : cashReads (dashedDay.1, 10) s with
    | some dt =>
      rw [hday, hdashed, Option.some_or, Option.some.injEq] at h
      rw [← h]
      exact strptime_untimed (by decide) (cashReads_some.mp hdashed)
    | none =>
      rw [hday, hdashed, Option.none_or] at h
      obtain ⟨digits, _, hdigits⟩ := Option.bind_eq_some_iff.mp h
      obtain ⟨d, _, rfl⟩ := Option.map_eq_some_iff.mp hdigits
      rfl

/-! ## The date that is written -/

/-- A stamp has the date that is written in the text. -/
theorem writes_of_cashTs {s : String} {ts : DateTime} (h : cashTs s = some ts) :
    Writes s ts.date := by
  rw [cashTs_eq] at h
  cases hfind : CASH_TS_FORMATS.findSome? (cashReads · s) with
  | some dt =>
    rw [hfind, Option.some_or, Option.some.injEq] at h
    obtain ⟨f, hf, hread⟩ := List.exists_of_findSome?_eq_some hfind
    exact Or.inl ⟨f, hf, dt, hread, by rw [h]⟩
  | none =>
    rw [hfind, Option.none_or] at h
    obtain ⟨digits, hsearch, hdigits⟩ := Option.bind_eq_some_iff.mp h
    obtain ⟨d, hd, rfl⟩ := Option.map_eq_some_iff.mp hdigits
    refine Or.inr ⟨List.findSome?_eq_none_iff.mp hfind, digits, hsearch, ?_⟩
    cases hread : strptimeYmd digits with
    | error e =>
      rw [hread] at hd
      cases hd
    | ok d' =>
      rw [hread] at hd
      exact congrArg Except.ok (Option.some.inj hd)

theorem dateOnly_of_cashTs {s : String} {ts : DateTime} (h : cashTs s = some ts) :
    DateOnly s ts ↔ ts.sec = 0 := by
  constructor
  · rintro ⟨d, _, rfl⟩
    rfl
  · intro hsec
    refine ⟨ts.date, writes_of_cashTs h, ?_⟩
    obtain ⟨date, sec, hlt⟩ := ts
    simp only at hsec
    subst hsec
    rfl

/-- A text is stamped with a date alone exactly when neither ISO format reads a time in it. -/
theorem cashTs_midnight {s : String} {ts : DateTime} (h : cashTs s = some ts) :
    DateOnly s ts ↔ NoTimeOfDay s := by
  rw [dateOnly_of_cashTs h]
  unfold NoTimeOfDay
  simp only [List.forall_mem_cons, List.not_mem_nil, false_imp_iff, implies_true, and_true]
  cases hletter : cashReads (letterTimed.1, 19) s with
  | some dt =>
    have hts := cashTs_letter hletter
    rw [h, Option.some.injEq] at hts
    rw [hts]
    simp [blankTimed_refuses hletter]
  | none =>
    cases hblank : cashReads (blankTimed.1, 19) s with
    | some dt =>
      have hts := cashTs_blank hletter hblank
      rw [h, Option.some.injEq] at hts
      rw [hts]
      simp
    | none => simp [cashTs_untimed h hletter hblank]

/-! ## Two renderings of a transaction -/

/-- The formats a date can be given in. -/
def ACCEPTED_FORMATS : List (List Directive × String) :=
  [compactDay.1, compactTimed.1, letterTimed.1, blankTimed.1, dashedDay.1]

/-- The element gives the reading `d` in one of the formats. -/
def Renders (d : DateTime) (elem : Element) : Prop :=
  ∃ f ∈ ACCEPTED_FORMATS, cashDateTime elem = strftime f.1 d

/-- Whichever formats two elements give it in, their rows have one stamp. -/
def RenderedAlike (d : DateTime) : Prop :=
  ∀ acct elem elem' row row', Renders d elem → Renders d elem' →
    cashRow acct elem = some row → cashRow acct elem' = some row' → row.ts = row'.ts

theorem slice_written {fmt : List Directive} {d : DateTime} {n : ℕ}
    (h : (strftime fmt d).toList.length ≤ n) : slice (strftime fmt d) n = strftime fmt d := by
  unfold slice
  rw [List.take_of_length_le h, String.ofList_toList]

/-- Neither a blank nor the date alone writes a `T`. -/
theorem letterTimed_refuses (d : DateTime) {fmt : List Directive}
    (hfmt : fmt = blankTimed.1.1 ∨ fmt = dashedDay.1.1) :
    cashReads (letterTimed.1, 19) (strftime fmt d) = none := by
  refine cashReads_absent (.lit 'T') (by decide) fun x hx => ?_
  have hx := mem_strftime (List.mem_of_mem_take hx)
  have hnone : ∀ x ∈ letters fmt, ¬ x.toLower = 't' := by
    rcases hfmt with rfl | rfl <;>
      simp [letters, blankTimed, dashedDay, digitChars_eq, Directive.letter, or_imp, forall_and]
  exact hnone x hx

theorem letterTimed_length (d : DateTime) : (strftime letterTimed.1.1 d).toList.length = 19 :=
  flexFormats_length d letterTimed (by decide)

theorem blankTimed_length (d : DateTime) : (strftime blankTimed.1.1 d).toList.length = 19 :=
  flexFormats_length d blankTimed (by decide)

theorem compactDay_length (d : DateTime) : (strftime compactDay.1.1 d).toList.length = 8 :=
  flexFormats_length d compactDay (by decide)

theorem dashedDay_length (d : DateTime) : (strftime dashedDay.1.1 d).toList.length = 10 :=
  flexFormats_length d dashedDay (by decide)

/-- A text that begins with its day in eight digits. -/
theorem cashTs_ymd {s : String} {d : DateTime} {rest : List Char}
    (h : s.toList = (strftime compactDay.1.1 d).toList ++ rest) :
    cashTs s = some (.midnight d.date) := by
  have hslice := slice_of_append h
  rw [compactDay_length] at hslice
  have hread : cashReads (compactDay.1, 8) s = some (.midnight d.date) := by
    rw [cashReads_some]
    simp only [hslice]
    exact strptime_strftime_date rfl rfl _
  rw [cashTs_eq, cashTsFormats_eq]
  simp only [List.findSome?_cons, compactTimed_never, hread, Option.some_or]

theorem cashTs_letterTimed (d : DateTime) : cashTs (strftime letterTimed.1.1 d) = some d := by
  refine cashTs_letter (cashReads_some.mpr ?_)
  simp only [slice_written (letterTimed_length d).le]
  exact strptime_strftime rfl rfl _

theorem cashTs_blankTimed (d : DateTime) : cashTs (strftime blankTimed.1.1 d) = some d := by
  refine cashTs_blank ?_ (cashReads_some.mpr ?_)
  · exact letterTimed_refuses d (Or.inl rfl)
  · simp only [slice_written (blankTimed_length d).le]
    exact strptime_strftime rfl rfl _

theorem cashTs_dashedDay (d : DateTime) :
    cashTs (strftime dashedDay.1.1 d) = some (.midnight d.date) := by
  have hdash : '-' ∈ (strftime dashedDay.1.1 d).toList.take 8 :=
    dash_mem (List.append_nil _).symm (by decide)
  have hletter : cashReads (letterTimed.1, 19) (strftime dashedDay.1.1 d) = none :=
    letterTimed_refuses d (Or.inr rfl)
  have hblank : cashReads (blankTimed.1, 19) (strftime dashedDay.1.1 d) = none := by
    refine cashReads_absent .blank (by decide) fun x hx => ?_
    show ¬ isSpace x = true
    rw [Bool.not_eq_true]
    exact strftime_visible (by decide) d x (List.mem_of_mem_take hx)
  have hread : cashReads (dashedDay.1, 10) (strftime dashedDay.1.1 d) =
      some (.midnight d.date) := by
    rw [cashReads_some]
    simp only [slice_written (dashedDay_length d).le]
    exact strptime_strftime_date rfl rfl _
  rw [cashTs_eq, cashTsFormats_eq]
  simp only [List.findSome?_cons, compactTimed_never, compactDay_refuses hdash, hletter, hblank,
    hread, Option.some_or]

/-- Only the two ISO formats with a time keep it. -/
theorem cashTs_written (d : DateTime) {f : List Directive × String} (hf : f ∈ ACCEPTED_FORMATS) :
    cashTs (strftime f.1 d) = some d ∨ cashTs (strftime f.1 d) = some (.midnight d.date) := by
  simp only [ACCEPTED_FORMATS, List.mem_cons, List.not_mem_nil, or_false] at hf
  rcases hf with rfl | rfl | rfl | rfl | rfl
  · exact Or.inr (cashTs_ymd (List.append_nil _).symm)
  · right
    apply cashTs_ymd
    rw [strftime_toList, strftime_toList, ← List.flatMap_append]
    rfl
  · exact Or.inl (cashTs_letterTimed d)
  · exact Or.inl (cashTs_blankTimed d)
  · exact Or.inr (cashTs_dashedDay d)

theorem cashRow_ts {acct : String} {elem : Element} {row : FlexCash}
    (h : cashRow acct elem = some row) : cashTs (cashDateTime elem) = some row.ts := by
  obtain ⟨ts, hts, rfl⟩ := cashRow_some h
  exact hts

/-- A transaction whose `dateTime` is written as given. -/
def datedElement (text : String) : Element :=
  .mk "CashTransaction" [("accountId", "U1"), ("dateTime", text), ("amount", "12.34")] none []

theorem strip_written {f : List Directive × String} (hf : f ∈ ACCEPTED_FORMATS) (d : DateTime) :
    strip (strftime f.1 d) = strftime f.1 d := by
  have hends : f.1.head?.any Directive.visible = true ∧
      f.1.getLast?.any Directive.visible = true := by
    simp only [ACCEPTED_FORMATS, List.mem_cons, List.not_mem_nil, or_false] at hf
    rcases hf with rfl | rfl | rfl | rfl | rfl <;> exact ⟨rfl, rfl⟩
  obtain ⟨rest, hrest, hs⟩ := strip_strftime hends.1 hends.2 d ""
  rw [List.prefix_nil.mp hrest, List.append_nil, String.append_empty] at hs
  exact String.toList_injective hs

theorem datedElement_dateTime {f : List Directive × String} (hf : f ∈ ACCEPTED_FORMATS)
    (d : DateTime) : cashDateTime (datedElement (strftime f.1 d)) = strftime f.1 d := by
  have hempty : cashTs "" = none := by decide
  have hne : strftime f.1 d ≠ "" := by
    intro hnil
    rcases cashTs_written d hf with h | h
    · rw [hnil, hempty] at h
      cases h
    · rw [hnil, hempty] at h
      cases h
  have hfield : cashField (datedElement (strftime f.1 d)) ["dateTime", "DateTime", "settleDate"]
      ["dateTime", "settleDate"] = strftime f.1 d := by
    simp [cashField, firstGiven, datedElement, Element.childText, Element.get, Element.attrib,
      Element.children, orNone, hne]
  unfold cashDateTime
  rw [hfield, strip_written hf]

/-- It is a row, with the stamp that is read of the text. -/
theorem datedElement_row {f : List Directive × String} (hf : f ∈ ACCEPTED_FORMATS)
    {d ts : DateTime} (h : cashTs (strftime f.1 d) = some ts) :
    ∃ row, cashRow "" (datedElement (strftime f.1 d)) = some row ∧ row.ts = ts := by
  have haccount : cashAccount "" (datedElement (strftime f.1 d)) = "U1" := by
    simp [cashAccount, cashOwnAccount, cashField, firstGiven, datedElement, Element.childText,
      Element.get, Element.attrib, Element.children, orNone]
  simp [cashRow, haccount, datedElement_dateTime hf, h, cashOf]

/-- The formats agree on a transaction exactly when it is at midnight. -/
theorem renderedAlike_iff (d : DateTime) : RenderedAlike d ↔ d.sec = 0 := by
  constructor
  · intro h
    have hday : compactDay.1 ∈ ACCEPTED_FORMATS := by simp [ACCEPTED_FORMATS]
    have hletter : letterTimed.1 ∈ ACCEPTED_FORMATS := by simp [ACCEPTED_FORMATS]
    obtain ⟨row, hrow, hts⟩ := datedElement_row hletter (cashTs_letterTimed d)
    obtain ⟨row', hrow', hts'⟩ := datedElement_row hday (cashTs_ymd (List.append_nil _).symm)
    have heq := h "" _ _ row row' ⟨_, hletter, datedElement_dateTime hletter d⟩
      ⟨_, hday, datedElement_dateTime hday d⟩ hrow hrow'
    rw [hts, hts'] at heq
    rw [heq]
    rfl
  · intro hsec acct elem elem' row row' ⟨f, hf, htext⟩ ⟨g, hg, htext'⟩ hrow hrow'
    have hmid : d = .midnight d.date := by
      obtain ⟨date, sec, hlt⟩ := d
      simp only at hsec
      subst hsec
      rfl
    have hts : ∀ {f : List Directive × String}, f ∈ ACCEPTED_FORMATS →
        cashTs (strftime f.1 d) = some d := by
      intro f hf
      rcases cashTs_written d hf with h | h
      · exact h
      · rwa [← hmid] at h
    have h₁ := cashRow_ts hrow
    have h₂ := cashRow_ts hrow'
    rw [htext, hts hf] at h₁
    rw [htext', hts hg] at h₂
    rw [← Option.some.inj h₁, ← Option.some.inj h₂]

/-- **A stamp is a date alone** exactly when neither ISO format reads a time of day in the row's
text, and the accepted formats agree on a transaction exactly when it is at midnight. -/
theorem stamp_iff {acct : String} {elem : Element} {row : FlexCash}
    (h : cashRow acct elem = some row) (d : DateTime) :
    (DateOnly (cashDateTime elem) row.ts ↔ NoTimeOfDay (cashDateTime elem)) ∧
      (RenderedAlike d ↔ d.sec = 0) :=
  ⟨cashTs_midnight (cashRow_ts h), renderedAlike_iff d⟩

/-- The text in digits is cut to its date. -/
theorem stamp_compact : ∃ row, cashRow "" (datedElement "20260904;202000") = some row ∧
    (DateOnly "20260904;202000" row.ts ↔ NoTimeOfDay "20260904;202000") ∧
      (RenderedAlike eveningFill ↔ eveningFill.sec = 0) := by
  have hdate : cashDateTime (datedElement "20260904;202000") = "20260904;202000" := by decide
  obtain ⟨row, hrow⟩ : ∃ row, cashRow "" (datedElement "20260904;202000") = some row :=
    Option.isSome_iff_exists.mp (by decide +kernel)
  have hout := stamp_iff hrow eveningFill
  rw [hdate] at hout
  exact ⟨row, hrow, hout⟩

/-- The same evening in ISO form keeps its time, and is another key than its day. -/
theorem iso_keeps_time :
    (¬ ∀ acct elem row, cashRow acct elem = some row → DateOnly (cashDateTime elem) row.ts) ∧
      (cashRow "" (datedElement "2026-09-04T20:20:00")).map FlexCash.ts = some eveningFill ∧
      (cashRow "" (datedElement "20260904;202000")).map FlexCash.ts =
        some (.midnight eveningFill.date) := by
  have hrun : (cashRow "" (datedElement "2026-09-04T20:20:00")).map FlexCash.ts =
        some eveningFill ∧
      (cashRow "" (datedElement "20260904;202000")).map FlexCash.ts =
        some (.midnight eveningFill.date) := by
    decide +kernel
  refine ⟨fun h => ?_, hrun⟩
  obtain ⟨row, hrow, hts⟩ := Option.map_eq_some_iff.mp hrun.1
  have hmid := (dateOnly_of_cashTs (cashRow_ts hrow)).mp (h _ _ _ hrow)
  rw [hts] at hmid
  cases hmid

end FlexQuery

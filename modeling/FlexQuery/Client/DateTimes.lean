import FlexQuery.Client.Report
import FlexQuery.Python.Strftime
import FlexQuery.Python.ZoneInfo

/-!
# `dateTime`, format by format

* `readAs` — what one format of the table makes of a text; `readAs_written`, `readAs_absent` and
  `readAs_unreadable` say when it reads it and when it refuses.
* `parseFlexDatetime_strftime` — each format reads what it wrote, on the local clock.
* `timedText`, `time_kept_iff` — the ways to write a day and a time, and those that keep the time.
-/

set_option autoImplicit false

namespace FlexQuery

open Calendar WallClock

/-! ## One format -/

/-- A row of the table. -/
abbrev FlexFormat := (List Directive × String) × ℕ × Bool

def compactTimed : FlexFormat :=
  (([.year, .month, .day, .lit ';', .hour, .minute, .second], "%Y%m%d;%H%M%S"), 15, false)

def letterTimed : FlexFormat :=
  (([.year, .lit '-', .month, .lit '-', .day, .lit 'T', .hour, .lit ':', .minute, .lit ':',
    .second], "%Y-%m-%dT%H:%M:%S"), 19, false)

def blankTimed : FlexFormat :=
  (([.year, .lit '-', .month, .lit '-', .day, .blank, .hour, .lit ':', .minute, .lit ':',
    .second], "%Y-%m-%d %H:%M:%S"), 19, false)

def compactDay : FlexFormat := (([.year, .month, .day], "%Y%m%d"), 8, true)

def dashedDay : FlexFormat := (([.year, .lit '-', .month, .lit '-', .day], "%Y-%m-%d"), 10, true)

/-- The table, in its order. -/
theorem flexFormats_eq :
    FLEX_DATETIME_FORMATS = [compactTimed, letterTimed, blankTimed, compactDay, dashedDay] := rfl

/-- What a format makes of a text. -/
def readAs (f : FlexFormat) (s : String) : Option (DateTime × Bool) :=
  if s.toList.length < f.2.1 then none
  else (strptime f.1.1 f.1.2 (slice s f.2.1)).toOption.map (·, f.2.2)

theorem firstReading_eq (s : String) :
    firstReading s = FLEX_DATETIME_FORMATS.findSome? (readAs · s) := rfl

theorem readAs_none {f : FlexFormat} {s : String}
    (h : ∀ d, strptime f.1.1 f.1.2 (slice s f.2.1) ≠ .ok d) : readAs f s = none := by
  unfold readAs
  split
  · rfl
  · cases hread : strptime f.1.1 f.1.2 (slice s f.2.1) with
    | error e => rfl
    | ok d => exact absurd hread (h d)

theorem slice_toList (s : String) (n : ℕ) : (slice s n).toList = s.toList.take n :=
  String.toList_ofList

/-- One of its characters is in none of the directives. -/
theorem readAs_unreadable {f : FlexFormat} {s : String} {x : Char} (hx : x ∈ s.toList.take f.2.1)
    (h : ∀ dir ∈ f.1.1, ¬ dir.reads x) : readAs f s = none := by
  apply readAs_none
  intro d hread
  obtain ⟨dir, hdir, hreads⟩ := (strptime_fits hread).1 x (by rwa [slice_toList])
  exact h dir hdir hreads

/-- One of the directives has none of its characters. -/
theorem readAs_absent {f : FlexFormat} {s : String} (dir : Directive) (hdir : dir ∈ f.1.1)
    (h : ∀ x ∈ s.toList.take f.2.1, ¬ dir.reads x) : readAs f s = none := by
  apply readAs_none
  intro d hread
  obtain ⟨x, hx, hreads⟩ := (strptime_fits hread).2 dir hdir
  rw [slice_toList] at hx
  exact h x hx hreads

theorem slice_of_append {s t : String} {rest : List Char} (hs : s.toList = t.toList ++ rest) :
    slice s t.toList.length = t := by
  unfold slice
  rw [hs, List.take_left, String.ofList_toList]

theorem strftime_toList (fmt : List Directive) (d : DateTime) :
    (strftime fmt d).toList = fmt.flatMap (Directive.render d) := String.toList_ofList

/-- A row of the table writes as many characters as it consumes. -/
theorem flexFormats_length (d : DateTime) :
    ∀ f ∈ FLEX_DATETIME_FORMATS, (strftime f.1.1 d).toList.length = f.2.1 := by
  rw [flexFormats_eq]
  simp only [List.mem_cons, List.not_mem_nil, or_false, strftime_toList]
  rintro f (rfl | rfl | rfl | rfl | rfl) <;> rfl

/-- A text that begins with what the format wrote. -/
theorem readAs_written {f : FlexFormat} (hf : f ∈ FLEX_DATETIME_FORMATS) {s : String} {d : DateTime}
    {rest : List Char} (hs : s.toList = (strftime f.1.1 d).toList ++ rest) :
    readAs f s = some (if f.2.2 then .midnight d.date else d, f.2.2) := by
  have hlen := flexFormats_length d f hf
  have hslice := slice_of_append hs
  rw [hlen] at hslice
  have hlong : ¬ s.toList.length < f.2.1 := by
    rw [hs, List.length_append]
    omega
  unfold readAs
  rw [if_neg hlong, hslice]
  rw [flexFormats_eq] at hf
  simp only [List.mem_cons, List.not_mem_nil, or_false] at hf
  rcases hf with rfl | rfl | rfl | rfl | rfl
  · rw [strptime_strftime rfl rfl]
    rfl
  · rw [strptime_strftime rfl rfl]
    rfl
  · rw [strptime_strftime rfl rfl]
    rfl
  · rw [strptime_strftime_date rfl rfl]
    rfl
  · rw [strptime_strftime_date rfl rfl]
    rfl

/-! ## What the strip leaves -/

/-- A text that neither begins nor ends with a blank keeps its place before what follows it. -/
theorem strip_append {l : List Char} {x : String} (hfirst : ∀ c ∈ l.head?, isSpace c = false)
    (hlast : ∀ c ∈ l.getLast?, isSpace c = false) (hne : l ≠ []) :
    ∃ rest, rest <+: x.toList ∧ (strip (String.ofList l ++ x)).toList = l ++ rest := by
  have hhead : (l ++ x.toList).dropWhile isSpace = l ++ x.toList := by
    obtain ⟨c, t, rfl⟩ := List.exists_cons_of_ne_nil hne
    rw [List.cons_append, List.dropWhile_cons_of_neg]
    simp [hfirst c rfl]
  have hend : l.reverse.dropWhile isSpace = l.reverse := by
    obtain ⟨t, c, rfl⟩ := (List.eq_nil_or_concat l).resolve_left hne
    rw [List.concat_eq_append, List.reverse_append]
    rw [List.reverse_singleton, List.singleton_append, List.dropWhile_cons_of_neg]
    simp [hlast c (by simp)]
  refine ⟨(x.toList.reverse.dropWhile isSpace).reverse, ?_, ?_⟩
  · rw [← List.reverse_suffix, List.reverse_reverse]
    exact List.dropWhile_suffix _
  · unfold strip
    rw [String.toList_append, String.toList_ofList, String.toList_ofList, hhead,
      List.reverse_append, List.dropWhile_append, hend]
    split
    · rename_i hnil
      rw [List.isEmpty_iff.mp hnil, List.reverse_nil, List.append_nil, List.reverse_reverse]
    · rw [List.reverse_append, List.reverse_reverse]

theorem strip_strftime {fmt : List Directive} (hfirst : fmt.head?.any Directive.visible = true)
    (hlast : fmt.getLast?.any Directive.visible = true) (d : DateTime) (suffix : String) :
    ∃ rest, rest <+: suffix.toList ∧
      (strip (strftime fmt d ++ suffix)).toList = (strftime fmt d).toList ++ rest := by
  obtain ⟨dir, hdir, hvisible⟩ := (Option.any_eq_true _ _).mp hfirst
  obtain ⟨dir', hdir', hvisible'⟩ := (Option.any_eq_true _ _).mp hlast
  obtain ⟨ds, rfl⟩ := List.head?_eq_some_iff.mp hdir
  obtain ⟨ds', hds'⟩ := List.getLast?_eq_some_iff.mp hdir'
  have hne := dir.render_ne_nil d
  have hne' := dir'.render_ne_nil d
  unfold strftime
  rw [String.toList_ofList]
  apply strip_append
  · intro c hc
    rw [List.flatMap_cons, List.head?_append_of_ne_nil _ hne] at hc
    exact Directive.render_visible hvisible d c (List.mem_of_head? hc)
  · intro c hc
    rw [hds', List.flatMap_append, List.flatMap_singleton,
      List.getLast?_append_of_ne_nil _ hne'] at hc
    exact Directive.render_visible hvisible' d c (List.mem_of_getLast? hc)
  · rw [List.flatMap_cons]
    exact List.append_ne_nil_of_left_ne_nil hne _

/-- A text that a format reads is answered with the instant of the reading. -/
theorem parseFlexDatetime_of_reading {zone : Zone} {raw : String} {d : DateTime} {dateOnly : Bool}
    (h : firstReading (strip raw) = some (d, dateOnly)) :
    parseFlexDatetime zone raw = (d.toUtc zone).map fun t => (some t, dateOnly) := by
  have hne : strip raw ≠ "" := by
    intro hnil
    rw [hnil] at h
    cases h
  unfold parseFlexDatetime
  simp only [if_neg hne, h]

/-! ## Each format reads what it wrote -/

theorem readAs_short {f : FlexFormat} {s : String} (h : s.toList.length < f.2.1) :
    readAs f s = none := if_pos h

/-- A dash after the year. -/
theorem dash_mem {s : String} {ds : List Directive} {d : DateTime} {rest : List Char} {n : ℕ}
    (hs : s.toList = (strftime (.year :: .lit '-' :: ds) d).toList ++ rest) (hn : 5 ≤ n) :
    '-' ∈ s.toList.take n := by
  obtain ⟨k, rfl⟩ := Nat.exists_eq_add_of_le' hn
  rw [hs, strftime_toList]
  simp [Directive.render, fourDigits]

theorem compact_refuses_dash {s : String} {ds : List Directive} {d : DateTime} {rest : List Char}
    (hs : s.toList = (strftime (.year :: .lit '-' :: ds) d).toList ++ rest) :
    readAs compactTimed s = none ∧ readAs compactDay s = none := by
  constructor
  · exact readAs_unreadable (dash_mem hs (by decide)) (by decide)
  · exact readAs_unreadable (dash_mem hs (by decide)) (by decide)

/-- The first format to read a text that begins with what one of them wrote; after a date alone
nothing may follow. -/
theorem firstReading_written {f : FlexFormat} (hf : f ∈ FLEX_DATETIME_FORMATS) {s : String}
    {d : DateTime} {rest : List Char} (hs : s.toList = (strftime f.1.1 d).toList ++ rest)
    (hrest : f.2.2 = true → rest = []) :
    firstReading s = some (if f.2.2 then .midnight d.date else d, f.2.2) := by
  have hlen := flexFormats_length d f hf
  have hread := readAs_written hf hs
  rw [firstReading_eq, flexFormats_eq]
  rw [flexFormats_eq] at hf
  simp only [List.mem_cons, List.not_mem_nil, or_false] at hf
  rcases hf with rfl | rfl | rfl | rfl | rfl
  · simp only [List.findSome?_cons, hread]
  · have hcompact := (compact_refuses_dash hs).1
    simp only [List.findSome?_cons, hcompact, hread]
  · have hcompact := (compact_refuses_dash hs).1
    have hletter : readAs letterTimed s = none := by
      have hlen : (strftime blankTimed.1.1 d).toList.length = letterTimed.2.1 := hlen
      refine readAs_absent (.lit 'T') (by decide) ?_
      rw [hs, List.take_left' hlen]
      intro x hx
      have hnone : ∀ x ∈ letters blankTimed.1.1, ¬ x.toLower = 't' := by
        simp [letters, blankTimed, digitChars_eq, Directive.letter, or_imp, forall_and]
      exact hnone x (mem_strftime hx)
    simp only [List.findSome?_cons, hcompact, hletter, hread]
  · rw [hrest rfl, List.append_nil] at hs
    have hshort : ∀ n, 8 < n → s.toList.length < n := by
      intro n hn
      rw [hs, hlen]
      exact hn
    have hcompact := @readAs_short compactTimed s (hshort 15 (by decide))
    have hletter := @readAs_short letterTimed s (hshort 19 (by decide))
    have hblank := @readAs_short blankTimed s (hshort 19 (by decide))
    simp only [List.findSome?_cons, hcompact, hletter, hblank, hread]
  · have hcompact := compact_refuses_dash hs
    rw [hrest rfl, List.append_nil] at hs
    have hletter := @readAs_short letterTimed s (by rw [hs, hlen]; decide)
    have hblank := @readAs_short blankTimed s (by rw [hs, hlen]; decide)
    simp only [List.findSome?_cons, hcompact.1, hcompact.2, hletter, hblank, hread]

/-- Every format begins and ends with a number. -/
theorem flexFormats_visible : ∀ f ∈ FLEX_DATETIME_FORMATS,
    f.1.1.head?.any Directive.visible = true ∧ f.1.1.getLast?.any Directive.visible = true := by
  rw [flexFormats_eq]
  simp only [List.mem_cons, List.not_mem_nil, or_false]
  rintro f (rfl | rfl | rfl | rfl | rfl) <;> exact ⟨rfl, rfl⟩

theorem parseFlexDatetime_written {zone : Zone} {f : FlexFormat} (hf : f ∈ FLEX_DATETIME_FORMATS)
    (d : DateTime) {suffix : String} (hsuffix : f.2.2 = true → suffix = "") :
    parseFlexDatetime zone (strftime f.1.1 d ++ suffix) =
      ((if f.2.2 then .midnight d.date else d).toUtc zone).map fun t => (some t, f.2.2) := by
  obtain ⟨hfirst, hlast⟩ := flexFormats_visible f hf
  obtain ⟨rest, hrest, hs⟩ := strip_strftime hfirst hlast d suffix
  refine parseFlexDatetime_of_reading (firstReading_written hf hs ?_)
  intro hday
  rw [hsuffix hday] at hrest
  exact List.prefix_nil.mp hrest

/-- Days of the years that are not at an end of the calendar. -/
theorem ord_of_year {d : Date} (hfirst : 1000 ≤ d.civil.year) (hlast : d.civil.year ≤ 9998) :
    2 ≤ d.ord ∧ d.ord < 3652059 := by
  have h₁ := d.one_le
  have hyear := toOrdinal_year d.civil_valid.1
  have hord : (toOrdinal d.civil : ℤ) = d.ord := by
    have := toOrdinal_ofOrdinal (n := d.ord.toNat) (by omega)
    unfold Date.civil
    omega
  have hlow := daysBeforeYear_mono (show 999 ≤ d.civil.year - 1 by omega)
  have hhigh := daysBeforeYear_mono hlast
  have hvalues : daysBeforeYear 999 = 364877 ∧ daysBeforeYear 9998 = 3651694 := by decide
  omega

/-- **Round trip.**  Each timed format reads what it wrote, whatever follows it, as the instant the
local clock shows it at; a date alone is local midnight. -/
theorem parseFlexDatetime_strftime {zone : Zone} {jump apart : ℤ} (hzone : zone.Lawful jump apart)
    {d : DateTime} (hfirst : 1000 ≤ d.date.civil.year) (hlast : d.date.civil.year ≤ 9998) :
    (∀ f ∈ FLEX_DATETIME_FORMATS, f.2.2 = false → ∀ suffix, ∃ t,
      parseFlexDatetime zone (strftime f.1.1 d ++ suffix) = .ok (some t, false) ∧
        d.toUtc zone = .ok t ∧
        (¬ Skipped zone.utcoffset d.unix → t + zone.utcoffset t = d.unix)) ∧
      ∀ f ∈ FLEX_DATETIME_FORMATS, f.2.2 = true → ∃ t,
        parseFlexDatetime zone (strftime f.1.1 d) = .ok (some t, true) ∧
          (DateTime.midnight d.date).toUtc zone = .ok t := by
  obtain ⟨hlow, hhigh⟩ := ord_of_year hfirst hlast
  constructor
  · intro f hf htimed suffix
    have hutc := DateTime.toUtc_ok hzone.bound hlow hhigh
    refine ⟨_, ?_, hutc, fun hshown => toUtc_clock hzone hshown hutc⟩
    rw [parseFlexDatetime_written hf d (by simp [htimed]), htimed]
    simp only [Bool.false_eq_true, if_false, hutc]
    rfl
  · intro f hf hday
    have hutc := @DateTime.toUtc_ok zone (.midnight d.date) hzone.bound hlow hhigh
    refine ⟨_, ?_, hutc⟩
    have hread := @parseFlexDatetime_written zone f hf d "" (fun _ => rfl)
    rw [String.append_empty] at hread
    rw [hread, hday]
    simp only [if_true, hutc]
    rfl

/-- 2026-09-04, 20:20. -/
def eveningFill : DateTime :=
  ⟨⟨739863, Date.one_le_september4, Date.september4_le_max⟩, 73200, by decide⟩

/-- In New York. -/
theorem eveningFill_read :
    (∀ f ∈ FLEX_DATETIME_FORMATS, f.2.2 = false → ∀ suffix, ∃ t,
      parseFlexDatetime newYork2026 (strftime f.1.1 eveningFill ++ suffix) = .ok (some t, false) ∧
        eveningFill.toUtc newYork2026 = .ok t ∧
        (¬ Skipped newYork2026.utcoffset eveningFill.unix →
          t + newYork2026.utcoffset t = eveningFill.unix)) ∧
      ∀ f ∈ FLEX_DATETIME_FORMATS, f.2.2 = true → ∃ t,
        parseFlexDatetime newYork2026 (strftime f.1.1 eveningFill) = .ok (some t, true) ∧
          (DateTime.midnight eveningFill.date).toUtc newYork2026 = .ok t :=
  parseFlexDatetime_strftime newYork2026_lawful (by decide) (by decide)

/-! ## Whether the time is kept -/

inductive DateForm where
  | compact
  | dashed
  deriving DecidableEq, Repr

inductive Separator where
  | semicolon
  | comma
  | blank
  | letterT
  | nothing
  deriving DecidableEq, Repr

inductive TimeForm where
  | compact
  | colons
  deriving DecidableEq, Repr

def DateForm.directives : DateForm → List Directive
  | compact => [.year, .month, .day]
  | dashed => [.year, .lit '-', .month, .lit '-', .day]

def Separator.directives : Separator → List Directive
  | semicolon => [.lit ';']
  | comma => [.lit ',']
  | blank => [.blank]
  | letterT => [.lit 'T']
  | nothing => []

def TimeForm.directives : TimeForm → List Directive
  | compact => [.hour, .minute, .second]
  | colons => [.hour, .lit ':', .minute, .lit ':', .second]

def timedForm (date : DateForm) (sep : Separator) (time : TimeForm) : List Directive :=
  date.directives ++ (sep.directives ++ time.directives)

/-- A day and a time, written one after the other. -/
def timedText (date : DateForm) (sep : Separator) (time : TimeForm) (d : DateTime) : String :=
  strftime (timedForm date sep time) d

/-- The three ways the table has. -/
def TIMED_FORMS : List (DateForm × Separator × TimeForm) :=
  [(.compact, .semicolon, .compact), (.dashed, .letterT, .colons), (.dashed, .blank, .colons)]

section Texts
variable {date : DateForm} {sep : Separator} {time : TimeForm} {d : DateTime}

theorem timedText_toList : (timedText date sep time d).toList =
    (strftime date.directives d).toList ++
      (strftime (sep.directives ++ time.directives) d).toList := by
  unfold timedText timedForm
  simp only [strftime_toList, List.flatMap_append]

theorem strip_timedText : strip (timedText date sep time d) = timedText date sep time d := by
  have hfirst : (timedForm date sep time).head?.any Directive.visible = true := by
    cases date <;> rfl
  have hlast : (timedForm date sep time).getLast?.any Directive.visible = true := by
    cases date <;> cases sep <;> cases time <;> rfl
  obtain ⟨rest, hrest, hs⟩ := strip_strftime hfirst hlast d ""
  rw [String.append_empty, List.prefix_nil.mp hrest, List.append_nil] at hs
  exact String.toList_inj.mp hs

/-! ### The letters of a text -/

theorem digitChars_lower : ∀ x ∈ digitChars, x.toLower = x := by
  rw [digitChars_eq]
  simp

theorem letters_lower : ∀ x ∈ ['-', ';', ',', ' ', 'T', ':'], ∀ c ∈ ['-', ';', 'T', ':'],
    x.toLower = c.toLower → x = c := by
  intro x hx c hc
  fin_cases hx <;> fin_cases hc <;> decide

theorem timedForm_letters : ∀ x ∈ (timedForm date sep time).filterMap Directive.letter,
    x ∈ ['-', ';', ',', ' ', 'T', ':'] := by
  cases date <;> cases sep <;> cases time <;>
    simp [timedForm, DateForm.directives, Separator.directives, TimeForm.directives,
      Directive.letter, or_imp, forall_and]

/-- A letter that the form does not write is nowhere in the text. -/
theorem timedText_absent {c : Char} (hc : c ∈ ['-', ';', 'T', ':'])
    (hno : c ∉ (timedForm date sep time).filterMap Directive.letter) :
    ∀ x ∈ (timedText date sep time d).toList, ¬ Directive.reads x (.lit c) := by
  intro x hx hreads
  rcases List.mem_append.mp (mem_strftime hx) with hdigit | hletter
  · have hdigits : ∀ c ∈ ['-', ';', 'T', ':'], c.toLower ∉ digitChars := by
      rw [digitChars_eq]
      simp
    refine hdigits c hc ?_
    rw [← show x.toLower = c.toLower from hreads, digitChars_lower x hdigit]
    exact hdigit
  · have heq := letters_lower x (timedForm_letters x hletter) c hc hreads
    subst heq
    exact hno hletter

theorem refused_of_absent (f : FlexFormat) {c : Char} (hc : c ∈ ['-', ';', 'T', ':'])
    (hf : .lit c ∈ f.1.1) (hno : c ∉ (timedForm date sep time).filterMap Directive.letter) :
    readAs f (timedText date sep time d) = none :=
  readAs_absent _ hf fun x hx => timedText_absent hc hno x (List.mem_of_mem_take hx)

/-! ### The day alone -/

/-- `%Y%m%d;%H%M%S` has no place for a colon. -/
theorem compactTimed_refuses (h : (sep, time) ≠ (.semicolon, .compact)) :
    readAs compactTimed (timedText .compact sep time d) = none := by
  by_cases hsep : sep = .semicolon
  · subst hsep
    cases time with
    | compact => exact absurd rfl h
    | colons =>
      have hcolon : ':' ∈ (timedText .compact .semicolon .colons d).toList.take 15 := by
        unfold timedText
        rw [strftime_toList]
        simp [timedForm, DateForm.directives, Separator.directives, TimeForm.directives,
          Directive.render, fourDigits, twoDigits]
      exact readAs_unreadable hcolon (by decide)
  · refine refused_of_absent compactTimed (by decide : ';' ∈ _) (by decide) ?_
    cases sep <;> first | exact absurd rfl hsep | cases time <;> decide

theorem timed_refuse_compact : readAs letterTimed (timedText .compact sep time d) = none ∧
    readAs blankTimed (timedText .compact sep time d) = none := by
  have hno : '-' ∉ (timedForm .compact sep time).filterMap Directive.letter := by
    cases sep <;> cases time <;> decide
  exact ⟨refused_of_absent letterTimed (by decide : '-' ∈ _) (by decide) hno,
    refused_of_absent blankTimed (by decide : '-' ∈ _) (by decide) hno⟩

theorem timed_refuse_dashed (hletter : (sep, time) ≠ (.letterT, .colons))
    (hblank : (sep, time) ≠ (.blank, .colons)) :
    readAs letterTimed (timedText .dashed sep time d) = none ∧
      readAs blankTimed (timedText .dashed sep time d) = none := by
  cases time with
  | compact =>
    have hno : ':' ∉ (timedForm .dashed sep .compact).filterMap Directive.letter := by
      cases sep <;> decide
    exact ⟨refused_of_absent letterTimed (by decide : ':' ∈ _) (by decide) hno,
      refused_of_absent blankTimed (by decide : ':' ∈ _) (by decide) hno⟩
  | colons =>
    have hno : 'T' ∉ (timedForm .dashed sep .colons).filterMap Directive.letter := by
      cases sep <;> first | exact absurd rfl hletter | decide
    have hvisible : ∀ dir ∈ timedForm .dashed sep .colons, dir.visible = true := by
      cases sep <;> first | exact absurd rfl hblank | decide
    refine ⟨refused_of_absent letterTimed (by decide : 'T' ∈ _) (by decide) hno, ?_⟩
    refine readAs_absent .blank (by decide) ?_
    intro x hx hreads
    have hspace := strftime_visible hvisible d x (List.mem_of_mem_take hx)
    rw [show isSpace x = true from hreads] at hspace
    cases hspace

/-- A text in none of the three ways is read as the day alone. -/
theorem firstReading_untimed (h : (date, sep, time) ∉ TIMED_FORMS) :
    firstReading (timedText date sep time d) = some (.midnight d.date, true) := by
  have hs := @timedText_toList date sep time d
  simp only [TIMED_FORMS, List.mem_cons, List.not_mem_nil, or_false, not_or, Prod.mk.injEq] at h
  rw [firstReading_eq, flexFormats_eq]
  cases date with
  | compact =>
    have hcompact := @compactTimed_refuses sep time d (by simpa using h)
    obtain ⟨hletter, hblank⟩ := @timed_refuse_compact sep time d
    have hday := @readAs_written compactDay (by rw [flexFormats_eq]; decide) _ d _ hs
    simp only [List.findSome?_cons, hcompact, hletter, hblank, hday]
    rfl
  | dashed =>
    obtain ⟨hcompact, hcompactDay⟩ := compact_refuses_dash hs
    obtain ⟨hletter, hblank⟩ := @timed_refuse_dashed sep time d (by simpa using h.2.1)
      (by simpa using h.2.2)
    have hday := @readAs_written dashedDay (by rw [flexFormats_eq]; decide) _ d _ hs
    simp only [List.findSome?_cons, hcompact, hletter, hblank, hcompactDay, hday]
    rfl

theorem firstReading_timed (h : (date, sep, time) ∈ TIMED_FORMS) :
    firstReading (timedText date sep time d) = some (d, false) := by
  simp only [TIMED_FORMS, List.mem_cons, List.not_mem_nil, or_false, Prod.mk.injEq] at h
  rcases h with ⟨rfl, rfl, rfl⟩ | ⟨rfl, rfl, rfl⟩ | ⟨rfl, rfl, rfl⟩
  · exact @firstReading_written compactTimed (by rw [flexFormats_eq]; decide) _ d []
      (List.append_nil _).symm (fun _ => rfl)
  · exact @firstReading_written letterTimed (by rw [flexFormats_eq]; decide) _ d []
      (List.append_nil _).symm (fun _ => rfl)
  · exact @firstReading_written blankTimed (by rw [flexFormats_eq]; decide) _ d []
      (List.append_nil _).symm (fun _ => rfl)

/-! ### The time kept -/

/-- An answer that is not the day alone: the whole reading, or none. -/
def KeepsTime (zone : Zone) (d : DateTime) (answer : Except PyExc (Option ℤ × Bool)) : Prop :=
  ∀ r, answer = .ok r → r.2 = false ∧ ∀ t, r.1 = some t → d.toUtc zone = .ok t

/-- **The time of day.**  It is kept in the three ways the table has; any other is read as the day
alone, unless that day has no midnight in the calendar. -/
theorem time_kept_iff {zone : Zone} : KeepsTime zone d
    (parseFlexDatetime zone (timedText date sep time d)) ↔
      (date, sep, time) ∈ TIMED_FORMS ∨ ∀ t, (DateTime.midnight d.date).toUtc zone ≠ .ok t := by
  by_cases hform : (date, sep, time) ∈ TIMED_FORMS
  · refine iff_of_true ?_ (Or.inl hform)
    rw [parseFlexDatetime_of_reading (by rw [strip_timedText, firstReading_timed hform])]
    intro r hr
    cases hutc : d.toUtc zone with
    | error e =>
      rw [hutc] at hr
      cases hr
    | ok t =>
      rw [hutc] at hr
      cases hr
      exact ⟨rfl, fun _ ht => congrArg Except.ok (Option.some.inj ht)⟩
  · rw [parseFlexDatetime_of_reading (by rw [strip_timedText, firstReading_untimed hform]),
      or_iff_right hform]
    cases hutc : (DateTime.midnight d.date).toUtc zone with
    | error e => exact iff_of_true (by intro r hr; cases hr) (by intro t ht; cases ht)
    | ok t =>
      refine iff_of_false ?_ (fun hnone => hnone t rfl)
      intro hkeeps
      have := (hkeeps (some t, true) rfl).1
      cases this

end Texts

/-- 20:20 after a comma is midnight. -/
theorem comma_drops_time : timedText .compact .comma .compact eveningFill = "20260904,202000" ∧
    parseFlexDatetime newYork2026 "20260904,202000" = .ok (some 1788494400, true) ∧
    ¬ KeepsTime newYork2026 eveningFill (parseFlexDatetime newYork2026 "20260904,202000") := by
  have hread : parseFlexDatetime newYork2026 "20260904,202000" = .ok (some 1788494400, true) := by
    decide +kernel
  refine ⟨by decide +kernel, hread, ?_⟩
  rw [hread]
  intro hkeeps
  have := (hkeeps _ rfl).1
  cases this

end FlexQuery

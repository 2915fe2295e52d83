import FlexQuery.Python.Date

/-!
# `datetime` and `strptime`

* `DateTime` — a naive `datetime` without microseconds.
* `strptime` — Python turns a format into a pattern, takes its first match and then asks that
  nothing is left over; `matchFormat` lists the matches in the order they are tried.
* `Zone` — a `ZoneInfo`: the offset at an instant, and the one a wall-clock reading is given.
* `strptime_ymd` — with the format `%Y%m%d` it is `strptimeYmd`.
-/

set_option autoImplicit false

namespace FlexQuery

open Calendar

/-- A naive `datetime`. -/
structure DateTime where
  date : Date
  sec : ℕ
  sec_lt : sec < 86400
  deriving DecidableEq, Repr

namespace DateTime

/-- Midnight of a day. -/
def midnight (d : Date) : DateTime := ⟨d, 0, by decide⟩

/-- Seconds since 1970 on its own clock. -/
def unix (d : DateTime) : ℤ := 86400 * (d.date.ord - 719163) + d.sec

theorem clock_lt {hour minute second : ℕ} (h : hour < 24 ∧ minute < 60 ∧ second < 60) :
    3600 * hour + 60 * minute + second < 86400 := by
  omega

/-- `datetime(year, month, day, hour, minute, second)`. -/
def ofCivil (c : Civil) (hour minute second : ℕ) : Except PyExc DateTime :=
  match Date.ofCivil c with
  | .error e => .error e
  | .ok d =>
    if h : hour < 24 ∧ minute < 60 ∧ second < 60 then
      .ok ⟨d, 3600 * hour + 60 * minute + second, clock_lt h⟩
    else .error (.valueError "second must be in 0..59")

end DateTime

/-! ## `strptime` -/

/-- What a format is made of; `blank` is white space. -/
inductive Directive where
  | year
  | month
  | day
  | hour
  | minute
  | second
  | lit (c : Char)
  | blank
  deriving DecidableEq, Repr

/-- The fields read so far; a missing one takes its default. -/
structure Reading where
  year : ℕ := 1900
  month : ℕ := 1
  day : ℕ := 1
  hour : ℕ := 0
  minute : ℕ := 0
  second : ℕ := 0
  deriving DecidableEq, Repr

/-- The digit at the head, with one of the given ASCII digits before it. -/
def afterDigit (lo hi : Char) (digit : Char → Option ℕ) : List Char → List (ℕ × List Char)
  | a :: b :: rest =>
    if lo ≤ a ∧ a ≤ hi then ((digit b).map (10 * (a.toNat - 48) + ·, rest)).toList else []
  | _ => []

/-- `\d`. -/
def oneDigit : List Char → List (ℕ × List Char)
  | a :: rest => ((digitValue a).map (·, rest)).toList
  | [] => []

/-- A digit up to `hi`. -/
def digitUpTo (hi : Char) (c : Char) : Option ℕ :=
  if '0' ≤ c ∧ c ≤ hi then some (c.toNat - 48) else none

/-- `\s+`: what is left after each choice of the run, the longest first. -/
def blankMatches (s : List Char) : List (List Char) :=
  ((List.range (s.takeWhile isSpace).length).map fun i => s.drop (i + 1)).reverse

/-- The ways a directive matches a prefix, in the order they are tried. -/
def Directive.matches : Directive → List Char → List (ℕ × List Char)
  | year, s => (matchYear s).toList
  | month, s => monthMatches s
  | day, s => dayMatches s
  | hour, s => afterDigit '2' '2' (digitUpTo '3') s ++ afterDigit '0' '1' digitValue s ++ oneDigit s
  | minute, s => afterDigit '0' '5' digitValue s ++ oneDigit s
  | second, s => afterDigit '6' '6' (digitUpTo '1') s ++ afterDigit '0' '5' digitValue s ++ oneDigit s
  -- The pattern is compiled with `IGNORECASE`.
  | lit c, x :: rest => if x.toLower = c.toLower then [(0, rest)] else []
  | lit _, [] => []
  | blank, s => (blankMatches s).map (0, ·)

def Directive.set : Directive → ℕ → Reading → Reading
  | year, n, r => { r with year := n }
  | month, n, r => { r with month := n }
  | day, n, r => { r with day := n }
  | hour, n, r => { r with hour := n }
  | minute, n, r => { r with minute := n }
  | second, n, r => { r with second := n }
  | _, _, r => r

/-- The matches of a format, in the order they are tried. -/
def matchFormat : List Directive → Reading → List Char → List (Reading × List Char)
  | [], r, s => [(r, s)]
  | d :: ds, r, s => (d.matches s).flatMap fun m => matchFormat ds (d.set m.1 r) m.2

/-- `datetime.strptime(s, fmt)`. -/
def strptime (fmt : List Directive) (name s : String) : Except PyExc DateTime :=
  match (matchFormat fmt {} s.toList).head? with
  | none =>
    .error (.valueError ("time data '" ++ s ++ ("' does not match format '" ++ name ++ "'")))
  | some (r, []) => DateTime.ofCivil ⟨r.year, r.month, r.day⟩ r.hour r.minute r.second
  | some (_, rest) =>
    .error (.valueError ("unconverted data remains: " ++ String.ofList rest))

/-- The first match of `%m%d`, whichever way it is looked for. -/
theorem matchFormat_monthDay (r : Reading) (s : List Char) :
    (matchFormat [.month, .day] r s).head? =
      (matchMonthDay s).map fun x => ({ r with month := x.1, day := x.2.1 }, x.2.2) := by
  unfold matchMonthDay
  simp only [matchFormat, Directive.matches, Directive.set]
  induction monthMatches s with
  | nil => rfl
  | cons m ms ih =>
    rw [List.flatMap_cons, List.findSome?_cons]
    cases hd : dayMatches m.2 with
    | nil => simpa [hd] using ih
    | cons d ds => simp

/-- With the format `%Y%m%d`. -/
theorem strptime_ymd (s : String) :
    strptime [.year, .month, .day] "%Y%m%d" s = (strptimeYmd s).map DateTime.midnight := by
  unfold strptime strptimeYmd
  have hyear : (matchFormat [.year, .month, .day] {} s.toList).head? =
      (matchYear s.toList).bind fun y =>
        (matchMonthDay y.2).map fun x => ({ year := y.1, month := x.1, day := x.2.1 }, x.2.2) := by
    rw [matchFormat]
    cases hy : matchYear s.toList with
    | none => simp [Directive.matches, hy]
    | some y =>
      simp only [Directive.matches, hy, Option.toList_some, List.flatMap_cons, List.flatMap_nil,
        List.append_nil, Option.bind_some]
      rw [matchFormat_monthDay]
      rfl
  have hname : "' does not match format '" ++ "%Y%m%d" ++ "'" =
      "' does not match format '%Y%m%d'" := by decide
  rw [hyear, hname]
  cases matchYear s.toList with
  | none => rfl
  | some y =>
    obtain ⟨y, rest⟩ := y
    simp only [Option.bind_some]
    cases matchMonthDay rest with
    | none => rfl
    | some x =>
      obtain ⟨m, d, rest⟩ := x
      cases rest with
      | cons c rest => rfl
      | nil =>
        simp only [Option.map_some, DateTime.ofCivil]
        cases Date.ofCivil ⟨y, m, d⟩ <;> rfl

/-! ## Zones -/

/-- A `ZoneInfo`, in seconds.  `utcoffset` is the offset at an instant; `localOffset` the one a
wall-clock reading (with `fold=0`) is given. -/
structure Zone where
  utcoffset : ℤ → ℤ
  localOffset : ℤ → ℤ

/-- `d.replace(tzinfo=zone).astimezone(timezone.utc)`, in Unix seconds. -/
def DateTime.toUtc (zone : Zone) (d : DateTime) : Except PyExc ℤ :=
  let utc := d.unix - zone.localOffset d.unix
  if -62135596800 ≤ utc ∧ utc ≤ 253402300799 then .ok utc else .error Date.overflowError

example : (strptime [.year, .lit '-', .month, .lit '-', .day, .blank, .hour, .lit ':', .minute,
    .lit ':', .second] "%Y-%m-%d %H:%M:%S" "2026-09-04 20:20:09").toOption.map DateTime.sec =
    some 73209 := by
  decide +kernel

end FlexQuery

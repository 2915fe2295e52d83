import FlexQuery.Python.Base

/-!
# `int()`, `float()` and `str()` of a float

* `isDigit` — `str.isdigit`, which accepts more than `int()` does.
* `pyInt`, `pyFloat` — the two conversions of a text; a `float` is an IEEE-754 binary64.
* `strFloat` — `str(x)`: the shortest decimal that reads back as `x`.
-/

set_option autoImplicit false

namespace FlexQuery

/-- The characters that are digits to `str.isdigit` but have no decimal value, as ranges. -/
def digitRanges : List (ℕ × ℕ) :=
  [(0xB2, 0xB3), (0xB9, 0xB9), (0x1369, 0x1371), (0x19DA, 0x19DA), (0x2070, 0x2070),
    (0x2074, 0x2079), (0x2080, 0x2089), (0x2460, 0x2468), (0x2474, 0x247C), (0x2488, 0x2490),
    (0x24EA, 0x24EA), (0x24F5, 0x24FD), (0x24FF, 0x24FF), (0x2776, 0x277E), (0x2780, 0x2788),
    (0x278A, 0x2792), (0x10A40, 0x10A43), (0x10E60, 0x10E68), (0x11052, 0x1105A),
    (0x1F100, 0x1F10A)]

/-- `s.isdigit()`. -/
def isDigit (s : String) : Bool :=
  s ≠ "" && s.toList.all fun c =>
    (digitValue c).isSome || digitRanges.any fun r => r.1 ≤ c.toNat && c.toNat ≤ r.2

/-- The number some digits spell. -/
def ofDigits (ds : List ℕ) : ℕ := ds.foldl (fun n d => 10 * n + d) 0

/-- A sign, if there is one: whether it is a minus, and the rest. -/
def splitSign : List Char → Bool × List Char
  | '+' :: rest => (false, rest)
  | '-' :: rest => (true, rest)
  | s => (false, s)

/-- The text without its underscores, each of which stands between two digits. -/
def dropUnderscores (afterDigit : Bool) : List Char → Option (List Char)
  | [] => some []
  | c :: rest =>
    if c = '_' then
      if afterDigit && rest.head?.any fun d => (digitValue d).isSome then
        dropUnderscores false rest
      else none
    else (dropUnderscores (digitValue c).isSome rest).map (c :: ·)

/-! ## `int` -/

/-- `sys.get_int_max_str_digits()`. -/
def INT_MAX_STR_DIGITS : ℕ := 4300

/-- `int(s)`. -/
def pyInt (s : String) : Except PyExc ℤ :=
  let invalid := PyExc.valueError ("invalid literal for int() with base 10: '" ++ s ++ "'")
  let signed := splitSign (strip s).toList
  match (dropUnderscores false signed.2).bind fun body => body.mapM digitValue with
  | none => .error invalid
  | some [] => .error invalid
  | some ds =>
    if ds.length > INT_MAX_STR_DIGITS then
      .error (.valueError ("Exceeds the limit (4300 digits) for integer string conversion: " ++
        "value has " ++ toString ds.length ++ " digits; use sys.set_int_max_str_digits() to " ++
        "increase the limit"))
    else .ok (if signed.1 then -(ofDigits ds : ℤ) else ofDigits ds)

/-! ## `float` -/

abbrev PyFloat := Float.Model

namespace PyFloat

def ofSign (neg : Bool) (x : PyFloat) : PyFloat := if neg then x.neg else x

def inf : PyFloat := .pack (.infinity .positive)

def nan : PyFloat := .pack .notANumber

/-- `x == 0`. -/
def isZero (x : PyFloat) : Bool :=
  match x.unpack with
  | .zero _ => true
  | _ => false

/-- `x >= 0`. -/
def nonneg (x : PyFloat) : Bool :=
  match x.unpack with
  | .zero _ => true
  | .finite .positive _ _ _ => true
  | .infinity .positive => true
  | _ => false

end PyFloat

/-- A run of digits, and what follows it. -/
def digitRun : List Char → List ℕ × List Char
  | [] => ([], [])
  | c :: rest =>
    match digitValue c with
    | none => ([], c :: rest)
    | some d => (d :: (digitRun rest).1, (digitRun rest).2)

/-- The exponent that ends a float literal. -/
def readExponent : List Char → Option ℤ
  | [] => some 0
  | c :: rest =>
    if c = 'e' ∨ c = 'E' then
      let signed := splitSign rest
      match digitRun signed.2 with
      | (d :: ds, []) => some (if signed.1 then -(ofDigits (d :: ds) : ℤ) else ofDigits (d :: ds))
      | _ => none
    else none

/-- The digits before and after the point, and what follows them. -/
def readMantissa (s : List Char) : List ℕ × List ℕ × List Char :=
  match digitRun s with
  | (whole, '.' :: rest) => (whole, digitRun rest)
  | (whole, rest) => (whole, [], rest)

/-- A float literal without blanks or underscores. -/
def readFloat (s : List Char) : Option PyFloat :=
  let signed := splitSign s
  let word := lower (String.ofList signed.2)
  if word = "inf" ∨ word = "infinity" then some (PyFloat.inf.ofSign signed.1)
  else if word = "nan" then some PyFloat.nan
  else
    match readMantissa signed.2 with
    | ([], [], _) => none
    | (whole, frac, rest) =>
      (readExponent rest).map fun e =>
        PyFloat.ofSign signed.1 (.ofScientific (ofDigits (whole ++ frac)) (e - frac.length))

/-- `float(s)`. -/
def pyFloat (s : String) : Except PyExc PyFloat :=
  match (dropUnderscores false (strip s).toList).bind readFloat with
  | none => .error (.valueError ("could not convert string to float: '" ++ s ++ "'"))
  | some x => .ok x

/-- `float(s.replace(",", ""))`, or none when that raises `ValueError`. -/
def commaFloat (s : String) : Option PyFloat :=
  (pyFloat (String.ofList (s.toList.filter (· ≠ ',')))).toOption

/-! ## `str` of a float -/

/-- The position of the decimal point of `num / den`: the least `k` with `num / den < 10 ^ k`. -/
def decimalPoint (num den : ℕ) : ℤ :=
  if den ≤ num then (Nat.toDigits 10 (num / den)).length
  else 1 - (Nat.toDigits 10 ((den - 1) / num)).length

/-- The multiples of `10 ^ (k - n)` next to `num / den`, the nearer one first. -/
def neighbours (num den : ℕ) (k : ℤ) (n : ℕ) : List ℕ :=
  let top := num * 10 ^ (n - k).toNat
  let bottom := den * 10 ^ (k - n).toNat
  let c := top / bottom
  let rem := 2 * (top % bottom)
  if rem < bottom ∨ (rem = bottom ∧ c % 2 = 0) then [c, c + 1] else [c + 1, c]

/-- The shortest digits that read back as `x`, and the exponent of the last one. -/
def shortestDigits (x : PyFloat) (num den : ℕ) : Option (ℕ × ℤ) :=
  let k := decimalPoint num den
  (List.range 17).findSome? fun i =>
    ((neighbours num den k (i + 1)).find? fun c =>
      Float.Model.ofScientific c (k - (i + 1 : ℕ)) = x).map (·, k - (i + 1 : ℕ))

/-- A positive number with digits `ds` and its decimal point after the first `point` of them. -/
def layOut (ds : List Char) (point : ℤ) : String :=
  if -4 < point ∧ point ≤ 16 then
    if point ≤ 0 then "0." ++ String.ofList (List.replicate (-point).toNat '0' ++ ds)
    else if (ds.length : ℤ) ≤ point then
      String.ofList (ds ++ List.replicate (point.toNat - ds.length) '0') ++ ".0"
    else String.ofList (ds.take point.toNat) ++ "." ++ String.ofList (ds.drop point.toNat)
  else
    String.ofList (ds.take 1) ++
      (if ds.length > 1 then "." ++ String.ofList (ds.drop 1) else "") ++
      (if point - 1 < 0 then "e-" else "e+") ++
      (if (point - 1).natAbs < 10 then "0" else "") ++ toString (point - 1).natAbs

def signText : Float.Model.UnpackedFloat.Sign → String
  | .negative => "-"
  | .positive => ""

/-- `str(x)`. -/
def strFloat (x : PyFloat) : String :=
  match x.unpack with
  | .notANumber => "nan"
  | .infinity s => signText s ++ "inf"
  | .zero s => signText s ++ "0.0"
  | .finite s m e _ =>
    match shortestDigits x.abs (m * 2 ^ e.toNat) (2 ^ (-e).toNat) with
    | none => ""
    | some (c, exponent) =>
      let digits := Nat.toDigits 10 c
      let kept := (digits.reverse.dropWhile (· = '0')).reverse
      signText s ++ layOut kept (digits.length + exponent)

example : (pyFloat " 1_50.2_5e0 ").toOption.map strFloat = some "150.25" := by decide +kernel

example : strFloat (.ofScientific 1 (-7)) = "1e-07" := by decide +kernel

end FlexQuery

import Mathlib

/-!
# The Python values the plugin handles

* `PyExc` — a raised exception; the handlers tell `ValueError` from everything else.
* `strip`, `lower`, `slice`, `contains` — the `str` operations the code uses.
* `digitValue` — `\d` of a `str` pattern: a decimal digit of any script.
* `Json`, `Dict` — payloads and jsonb values.
* `truthyFlag` — `_truthy`, `optionalText` — `(payload.get(k) or "").strip() or None`.
-/

set_option autoImplicit false

namespace FlexQuery

/-- A raised exception. -/
inductive PyExc where
  | valueError (msg : String)
  | other (cls msg : String)
  deriving DecidableEq, Repr

/-- `str(e)`. -/
def PyExc.str : PyExc → String
  | .valueError msg => msg
  | .other _ msg => msg

/-! ## Text -/

/-- `str.isspace` of one character. -/
def isSpace (c : Char) : Bool :=
  c.toNat ∈ [0x9, 0xA, 0xB, 0xC, 0xD, 0x1C, 0x1D, 0x1E, 0x1F, 0x20, 0x85, 0xA0, 0x1680, 0x2000,
    0x2001, 0x2002, 0x2003, 0x2004, 0x2005, 0x2006, 0x2007, 0x2008, 0x2009, 0x200A, 0x2028,
    0x2029, 0x202F, 0x205F, 0x3000]

/-- `s.strip()`. -/
def strip (s : String) : String :=
  String.ofList ((s.toList.dropWhile isSpace).reverse.dropWhile isSpace).reverse

/-- `s[:n]`. -/
def slice (s : String) (n : ℕ) : String := String.ofList (s.toList.take n)

/-- `s.lower()`, on the ASCII letters: the code only compares the result with ASCII words. -/
def lower (s : String) : String := String.ofList (s.toList.map Char.toLower)

/-- `s.upper()`, on the ASCII letters: IB's codes and sides are ASCII. -/
def upper (s : String) : String := String.ofList (s.toList.map Char.toUpper)

/-- `sub in s`. -/
def contains (s sub : String) : Bool := decide (sub.toList <:+: s.toList)

theorem strip_strip (s : String) : strip (strip s) = strip s := by
  have htrim : ∀ l : List Char, (l.dropWhile isSpace).rdropWhile isSpace =
      (((l.dropWhile isSpace).rdropWhile isSpace).dropWhile isSpace).rdropWhile isSpace := by
    intro l
    have hhead : ((l.dropWhile isSpace).rdropWhile isSpace).dropWhile isSpace =
        (l.dropWhile isSpace).rdropWhile isSpace := by
      rw [List.dropWhile_eq_self_iff]
      intro hpos hspace
      have hpre := List.rdropWhile_prefix isSpace (l.dropWhile isSpace)
      rw [hpre.getElem hpos] at hspace
      exact List.dropWhile_get_zero_not isSpace l _ hspace
    rw [hhead, List.rdropWhile_idempotent]
  unfold strip
  rw [String.toList_ofList]
  exact congrArg String.ofList (htrim s.toList).symm

theorem strip_eq_empty {s : String} : strip s = "" ↔ ∀ c ∈ s.toList, isSpace c = true := by
  unfold strip
  rw [String.ofList_eq_empty_iff, List.reverse_eq_nil_iff, List.dropWhile_eq_nil_iff]
  simp only [List.mem_reverse]
  constructor
  · intro h c hc
    by_contra hspace
    have hne : s.toList.dropWhile isSpace ≠ [] := by
      intro hnil
      exact hspace (List.dropWhile_eq_nil_iff.mp hnil c hc)
    have hhead := List.head_dropWhile_not isSpace hne
    rw [h _ (List.head_mem hne)] at hhead
    cases hhead
  · intro h c hc
    exact h c ((List.dropWhile_sublist _).mem hc)

/-- What follows a text that says something does not make it blank. -/
theorem strip_append_ne {a : String} (h : strip a ≠ "") (b : String) : strip (a ++ b) ≠ "" := by
  rw [Ne, strip_eq_empty] at h ⊢
  intro hall
  apply h
  intro c hc
  exact hall c (by rw [String.toList_append]; exact List.mem_append_left _ hc)

/-- The code points of the digit zero, one for each script (Unicode category `Nd`). -/
def decimalZeros : List ℕ :=
  [0x30, 0x660, 0x6F0, 0x7C0, 0x966, 0x9E6, 0xA66, 0xAE6, 0xB66, 0xBE6, 0xC66, 0xCE6, 0xD66,
    0xDE6, 0xE50, 0xED0, 0xF20, 0x1040, 0x1090, 0x17E0, 0x1810, 0x1946, 0x19D0, 0x1A80, 0x1A90,
    0x1B50, 0x1BB0, 0x1C40, 0x1C50, 0xA620, 0xA8D0, 0xA900, 0xA9D0, 0xA9F0, 0xAA50, 0xABF0,
    0xFF10, 0x104A0, 0x10D30, 0x11066, 0x110F0, 0x11136, 0x111D0, 0x112F0, 0x11450, 0x114D0,
    0x11650, 0x116C0, 0x11730, 0x118E0, 0x11950, 0x11C50, 0x11D50, 0x11DA0, 0x16A60, 0x16AC0,
    0x16B50, 0x1D7CE, 0x1D7D8, 0x1D7E2, 0x1D7EC, 0x1D7F6, 0x1E140, 0x1E2F0, 0x1E950, 0x1FBF0]

/-- What `\d` matches, as `int()` reads it. -/
def digitValue (c : Char) : Option ℕ :=
  (decimalZeros.find? fun z => z ≤ c.toNat && c.toNat < z + 10).map (c.toNat - ·)

theorem digitValue_digitChar : ∀ d < 10, digitValue (Nat.digitChar d) = some d := by decide

/-! ## Dictionaries -/

/-- A JSON value; a float by its IEEE-754 bits. -/
inductive Json where
  | null
  | bool (b : Bool)
  | int (n : ℤ)
  | float (bits : UInt64)
  | str (s : String)
  | arr (items : List Json)
  | obj (fields : List (String × Json))

/-- `bool(v)`. -/
def Json.truthy : Json → Bool
  | .null => false
  | .bool b => b
  | .int n => n ≠ 0
  | .float bits => bits ≠ 0 && bits ≠ 0x8000000000000000
  | .str s => s ≠ ""
  | .arr items => !items.isEmpty
  | .obj fields => !fields.isEmpty

/-- `_truthy`. -/
def truthyFlag : Json → Bool
  | .str s => lower (strip s) ∉ ["", "0", "false", "no", "off"]
  | v => v.truthy

/-- A dictionary with text keys, in insertion order. -/
abbrev Dict := List (String × Json)

namespace Dict

/-- `d.get(k)`. -/
def get (d : Dict) (k : String) : Option Json := (d.find? fun e => e.1 = k).map (·.2)

/-- `d[k] = v`. -/
def set (d : Dict) (k : String) (v : Json) : Dict :=
  if (d.get k).isSome then d.map fun e => if e.1 = k then (k, v) else e else d ++ [(k, v)]

/-- `d.setdefault(k, v)`. -/
def setdefault (d : Dict) (k : String) (v : Json) : Dict :=
  if (d.get k).isSome then d else d ++ [(k, v)]

/-- `{**d, **e}`. -/
def merge (d e : Dict) : Dict := e.foldl (fun acc f => acc.set f.1 f.2) d

end Dict

/-- `x or None`, for a text. -/
def orNone (s : String) : Option String := if s = "" then none else some s

/-- `(payload.get(k) or "").strip() or None`; a value that is neither falsy nor a text has no
`strip`. -/
def optionalText (payload : Dict) (k : String) : Except PyExc (Option String) :=
  match payload.get k with
  | none => .ok none
  | some (.str s) => .ok (orNone (strip s))
  | some v =>
    if v.truthy then .error (.other "AttributeError" "object has no attribute 'strip'")
    else .ok none

/-- A text argument that is given and not empty. -/
def given : Option String → Bool
  | none => false
  | some s => s ≠ ""

end FlexQuery

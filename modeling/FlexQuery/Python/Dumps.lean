import FlexQuery.Library.PrefixCode
import FlexQuery.Python.FloatRepr

/-!
# `json.dumps` in its canonical form

`json.dumps(data, sort_keys=True, separators=(",", ":"))`, everything but ASCII escaped.

* `dumps` — the text; an object's fields are sorted by their keys at every depth.
* `Json.valid` — a JSON value: no object has a key twice and no float is `NaN` or infinite.
* `Json.same` — equality of JSON values: the fields of an object in any order; a `bool`, an `int`
  and a `float` are never equal, and two floats are when they are the same binary64.
* `dumps_inj_iff` — two JSON values have the same text exactly when they are equal.
-/

set_option autoImplicit false

namespace FlexQuery

open PrefixCode

/-! ## Texts -/

/-- `'{0:04x}'.format(n)`. -/
def hex4 (n : ℕ) : List Char :=
  [Nat.digitChar (n / 4096 % 16), Nat.digitChar (n / 256 % 16), Nat.digitChar (n / 16 % 16),
    Nat.digitChar (n % 16)]

/-- `'\\u{0:04x}'.format(n)`. -/
def escapeUnit (n : ℕ) : List Char := '\\' :: 'u' :: hex4 n

/-- `ESCAPE_DCT`: the letter each character is written with behind a backslash. -/
def ESCAPE_DCT : List (Char × Char) :=
  [('\\', '\\'), ('"', '"'), ('\x08', 'b'), ('\x0c', 'f'), ('\n', 'n'), ('\r', 'r'), ('\t', 't')]

/-- One character of a string; beyond `U+FFFF` as a surrogate pair. -/
def escape (c : Char) : List Char :=
  match ESCAPE_DCT.find? fun e => e.1 = c with
  | some e => ['\\', e.2]
  | none =>
    if ' ' ≤ c ∧ c ≤ '~' then [c]
    else if c.toNat < 0x10000 then escapeUnit c.toNat
    else
      let n := c.toNat - 0x10000
      escapeUnit (0xD800 + n / 0x400) ++ escapeUnit (0xDC00 + n % 0x400)

/-- `encode_basestring_ascii(s)`. -/
def quote (s : String) : List Char := '"' :: (s.toList.flatMap escape ++ ['"'])

/-- `floatstr(x)`. -/
def floatText (x : PyFloat) : String :=
  match x.unpack with
  | .notANumber => "NaN"
  | .infinity s => signText s ++ "Infinity"
  | _ => strFloat x

/-- `sorted(dct.items())`. -/
def sortedItems {α : Type} (items : List (String × α)) : List (String × α) :=
  items.insertionSort fun a b => a.1 ≤ b.1

mutual
/-- `json.dumps(v, sort_keys=True, separators=(",", ":"))`. -/
def dumpsChars : Json → List Char
  | .null => "null".toList
  | .bool true => "true".toList
  | .bool false => "false".toList
  | .int n => (toString n).toList
  | .float bits => (floatText (.ofBits bits)).toList
  | .str s => quote s
  | .arr items => bracketed '[' ',' ']' (dumpsItems items)
  | .obj fields =>
    bracketed '{' ',' '}' ((sortedItems (dumpsFields fields)).map fun e => quote e.1 ++ ':' :: e.2)
/-- The text of each value. -/
def dumpsItems : List Json → List (List Char)
  | [] => []
  | v :: items => dumpsChars v :: dumpsItems items
/-- The text of each field's value. -/
def dumpsFields : List (String × Json) → List (String × List Char)
  | [] => []
  | (k, v) :: fields => (k, dumpsChars v) :: dumpsFields fields
end

def dumps (v : Json) : String := String.ofList (dumpsChars v)

/-! ## JSON values -/

namespace Json

mutual
/-- No object has a key twice, and every float is a number. -/
def valid : Json → Bool
  | .float bits => (Float.Model.ofBits bits).unpack.isFinite
  | .arr items => validItems items
  | .obj fields => decide (fields.map (·.1)).Nodup && validFields fields
  | _ => true
/-- Every value is valid. -/
def validItems : List Json → Bool
  | [] => true
  | v :: items => v.valid && validItems items
/-- The value of every field is valid. -/
def validFields : List (String × Json) → Bool
  | [] => true
  | (_, v) :: fields => v.valid && validFields fields
end

mutual
/-- Equality of JSON values. -/
def same : Json → Json → Bool
  | .null, .null => true
  | .bool a, .bool b => a == b
  | .int m, .int n => m == n
  | .float x, .float y => x == y
  | .str s, .str t => s == t
  | .arr a, .arr b => sameItems a b
  | .obj f, .obj g => f.length == g.length && sameFields f g
  | _, _ => false
/-- Equal one by one. -/
def sameItems : List Json → List Json → Bool
  | [], [] => true
  | v :: a, w :: b => v.same w && sameItems a b
  | _, _ => false
/-- Every field of the first is one of the second. -/
def sameFields : List (String × Json) → Dict → Bool
  | [], _ => true
  | (k, v) :: f, g => (match g.get k with | some w => v.same w | none => false) && sameFields f g
end

end Json

/-! ## Strings read back -/

/-- The value of a hexadecimal digit. -/
def hexValue (c : Char) : ℕ := "0123456789abcdef".toList.idxOf c

/-- Four hexadecimal digits, and what follows them. -/
def readUnit : List Char → Option (ℕ × List Char)
  | a :: b :: c :: d :: rest =>
    some (hexValue a * 4096 + hexValue b * 256 + hexValue c * 16 + hexValue d, rest)
  | _ => none

/-- One character of a string, as `json.loads` reads it, and what follows it. -/
def readChar : List Char → Option (Char × List Char)
  | [] => none
  | c :: rest =>
    if c ≠ '\\' then some (c, rest)
    else
      match rest with
      | [] => none
      | letter :: rest =>
        if letter ≠ 'u' then (ESCAPE_DCT.find? fun e => e.2 = letter).map fun e => (e.1, rest)
        else
          (readUnit rest).bind fun unit =>
            if 0xD800 ≤ unit.1 ∧ unit.1 < 0xDC00 then
              (readUnit (unit.2.drop 2)).map fun low =>
                (Char.ofNat (0x10000 + (unit.1 - 0xD800) * 0x400 + (low.1 - 0xDC00)), low.2)
            else some (Char.ofNat unit.1, unit.2)

theorem hexValue_digitChar : ∀ d < 16, hexValue (Nat.digitChar d) = d := by decide

theorem readUnit_hex4 {n : ℕ} (hn : n < 0x10000) (r : List Char) :
    readUnit (hex4 n ++ r) = some (n, r) := by
  have hdigit : ∀ m, hexValue (Nat.digitChar (m % 16)) = m % 16 :=
    fun m => hexValue_digitChar _ (Nat.mod_lt m (by decide))
  show some (_, r) = some (n, r)
  simp only [hdigit]
  congr 2
  omega

theorem readChar_letter : ∀ e ∈ ESCAPE_DCT,
    e.2 ≠ 'u' ∧ (ESCAPE_DCT.find? fun x => x.2 = e.2) = some e := by decide

theorem readChar_unit {n : ℕ} (hn : n < 0x10000) (r : List Char) :
    readChar (escapeUnit n ++ r) =
      if 0xD800 ≤ n ∧ n < 0xDC00 then
        (readUnit (r.drop 2)).map fun low =>
          (Char.ofNat (0x10000 + (n - 0xD800) * 0x400 + (low.1 - 0xDC00)), low.2)
      else some (Char.ofNat n, r) := by
  have hread := readUnit_hex4 hn r
  unfold escapeUnit
  rw [List.cons_append, List.cons_append, readChar, if_neg (by simp), if_neg (by simp), hread,
    Option.bind_some]

/-- A character is read back from its escape, whatever follows. -/
theorem readChar_escape (c : Char) (r : List Char) : readChar (escape c ++ r) = some (c, r) := by
  unfold escape
  split
  · rename_i e he
    obtain ⟨hu, hfind⟩ := readChar_letter e (List.mem_of_find?_eq_some he)
    have hc : e.1 = c := by simpa using List.find?_some he
    show (if e.2 ≠ 'u' then _ else _) = _
    rw [if_pos hu, hfind]
    simp [hc]
  · rename_i hnone
    have hplain : c ≠ '\\' := by
      rintro rfl
      revert hnone
      decide
    have hvalid := c.valid
    rw [UInt32.isValidChar, Nat.isValidChar] at hvalid
    have hback : Char.ofNat c.toNat = c := Char.ofNat_toNat c
    split
    · show (if c ≠ '\\' then _ else _) = _
      rw [if_pos hplain]
      rfl
    · split
      · rename_i hshort
        rw [readChar_unit hshort, if_neg, hback]
        show ¬(0xD800 ≤ c.val.toNat ∧ c.val.toNat < 0xDC00)
        omega
      · rename_i hlong
        have hhigh : c.toNat < 0x110000 := by
          show c.val.toNat < 0x110000
          omega
        simp only [List.append_assoc]
        rw [readChar_unit (by omega), if_pos (by omega)]
        have hlow := @readUnit_hex4 (0xDC00 + (c.toNat - 0x10000) % 0x400) (by omega) r
        show (readUnit (hex4 _ ++ r)).map _ = _
        rw [hlow, Option.map_some]
        have hvalue : 0x10000 + (0xD800 + (c.toNat - 0x10000) / 0x400 - 0xD800) * 0x400 +
            (0xDC00 + (c.toNat - 0x10000) % 0x400 - 0xDC00) = c.toNat := by omega
        rw [hvalue, hback]

theorem escape_splits (c : Char) : Splits escape (fun _ => True) (fun _ => True) Eq c := by
  intro d _ r r' _ _ h
  have hread := readChar_escape c r
  rw [h, readChar_escape] at hread
  obtain ⟨hc, hr⟩ := Prod.mk.inj (Option.some.inj hread)
  exact ⟨hc.symm, hr.symm⟩

theorem escape_neverOpens (c : Char) : NeverOpens escape '"' c := by
  unfold NeverOpens escape
  split
  · exact ⟨'\\', _, rfl, by decide⟩
  · rename_i hnone
    split
    · refine ⟨c, [], rfl, ?_⟩
      rintro rfl
      revert hnone
      decide
    · split
      · exact ⟨'\\', _, rfl, by decide⟩
      · exact ⟨'\\', _, rfl, by decide⟩

/-- A quoted string ends at its closing quote. -/
theorem quote_inj {s t : String} {r r' : List Char} (h : quote s ++ r = quote t ++ r') :
    s = t ∧ r = r' := by
  have hbody : s.toList.flatMap escape ++ '"' :: r = t.toList.flatMap escape ++ '"' :: r' := by
    simpa [quote] using h
  obtain ⟨hs, hr⟩ := flatMap_inj escape_neverOpens escape_splits hbody
  exact ⟨String.toList_inj.mp hs, hr⟩

/-! ## Scalars read back -/

/-- A character of a number's text. -/
def isNumberChar (c : Char) : Bool := c.isDigit || c ∈ ['-', '+', '.', 'e']

/-- A text of such characters. -/
def Numeral (t : String) : Prop := ∀ c ∈ t.toList, isNumberChar c = true

theorem Numeral.append {a b : String} (ha : Numeral a) (hb : Numeral b) : Numeral (a ++ b) := by
  intro c hc
  rw [String.toList_append] at hc
  rcases List.mem_append.mp hc with hc | hc
  · exact ha c hc
  · exact hb c hc

theorem Numeral.digits {l : List Char} (hl : Digits l) : Numeral (String.ofList l) := by
  intro c hc
  rw [String.toList_ofList] at hc
  unfold isNumberChar
  rw [hl c hc, Bool.true_or]

theorem Numeral.nat (n : ℕ) : Numeral (toString n) := by
  rw [Nat.toString_eq_ofList_toDigits]
  exact Numeral.digits (Digits.toDigits n)

theorem Numeral.signText (s : Float.Model.UnpackedFloat.Sign) : Numeral (signText s) := by
  cases s <;> simp [Numeral, isNumberChar, FlexQuery.signText]

/-- An integer has neither a point nor an exponent. -/
theorem intText_spec (n : ℤ) : (toString n).toList ≠ [] ∧
    ∀ c ∈ (toString n).toList, c.isDigit = true ∨ c = '-' := by
  have hnat : ∀ m : ℕ, (toString m).toList ≠ [] ∧ Digits (toString m).toList := by
    intro m
    rw [Nat.toString_eq_ofList_toDigits, String.toList_ofList]
    exact ⟨Nat.toDigits_ne_nil, Digits.toDigits m⟩
  cases n with
  | ofNat m =>
    obtain ⟨hne, hdigits⟩ := hnat m
    exact ⟨hne, fun c hc => Or.inl (hdigits c hc)⟩
  | negSucc m =>
    have hminus : (toString (Int.negSucc m)).toList = '-' :: (toString (m + 1)).toList := by
      show ("-" ++ toString (m + 1)).toList = _
      simp
    rw [hminus]
    refine ⟨List.cons_ne_nil _ _, ?_⟩
    intro c hc
    rcases List.mem_cons.mp hc with rfl | hc
    · exact Or.inr rfl
    · exact Or.inl ((hnat _).2 c hc)

/-- A float has one or the other. -/
def Marked (t : String) : Prop := '.' ∈ t.toList ∨ 'e' ∈ t.toList

theorem layOut_numeral {ds : List Char} (hds : Digits ds) (point : ℤ) :
    Numeral (layOut ds point) ∧ Marked (layOut ds point) := by
  have hparts : Numeral "0." ∧ Numeral ".0" ∧ Numeral "." ∧ Numeral "e-" ∧ Numeral "e+" ∧
      Numeral "0" ∧ Numeral "" := by
    simp [Numeral, isNumberChar]
  obtain ⟨hzero, hwhole, hpoint, hminus, hplus, hpad, hempty⟩ := hparts
  have htake : ∀ n, Digits (ds.take n) := fun n c hc => hds c (List.mem_of_mem_take hc)
  have hdrop : ∀ n, Digits (ds.drop n) := fun n c hc => hds c (List.mem_of_mem_drop hc)
  unfold layOut
  split
  · split
    · refine ⟨hzero.append (.digits ((Digits.replicate _).append hds)), Or.inl ?_⟩
      simp
    · split
      · refine ⟨(Numeral.digits (hds.append (Digits.replicate _))).append hwhole, Or.inl ?_⟩
        simp
      · refine ⟨((Numeral.digits (htake _)).append hpoint).append (.digits (hdrop _)), Or.inl ?_⟩
        simp
  · refine ⟨((((Numeral.digits (htake _)).append ?_).append ?_).append ?_).append (.nat _),
      Or.inr ?_⟩
    · split
      · exact hpoint.append (.digits (hdrop _))
      · exact hempty
    · split
      · exact hminus
      · exact hplus
    · split
      · exact hpad
      · exact hempty
    · split_ifs <;> simp

theorem floatText_numeral {x : PyFloat} (hx : x.unpack.isFinite = true) :
    floatText x = strFloat x ∧ Numeral (floatText x) ∧ Marked (floatText x) := by
  have htext : floatText x = strFloat x := by
    unfold floatText
    cases hunpack : x.unpack with
    | notANumber => rw [hunpack] at hx; cases hx
    | infinity s => rw [hunpack] at hx; cases hx
    | zero s => rfl
    | finite s m e h => rfl
  rw [htext]
  refine ⟨rfl, ?_⟩
  cases hunpack : x.unpack with
  | notANumber => rw [hunpack] at hx; cases hx
  | infinity s => rw [hunpack] at hx; cases hx
  | zero s =>
    have hzero : strFloat x = signText s ++ "0.0" := by
      unfold strFloat
      rw [hunpack]
    have hbody : Numeral "0.0" := by
      simp [Numeral, isNumberChar]
    rw [hzero]
    exact ⟨(Numeral.signText s).append hbody, Or.inl (by simp)⟩
  | finite s m e h =>
    obtain ⟨ds, point, hlayout, hds, _⟩ := strFloat_finite hunpack
    obtain ⟨hnumeral, hmark⟩ := layOut_numeral hds point
    rw [hlayout]
    refine ⟨(Numeral.signText s).append hnumeral, ?_⟩
    unfold Marked
    rw [String.toList_append]
    exact hmark.imp (List.mem_append_right _) (List.mem_append_right _)

/-- The bracket a value's text opens with; a scalar has none. -/
def Json.opener : Json → Option Char
  | .str _ => some '"'
  | .arr _ => some '['
  | .obj _ => some '{'
  | _ => none

/-- A scalar, as `json.loads` reads it. -/
def readScalar (t : List Char) : Option Json :=
  if t = "null".toList then some .null
  else if t = "true".toList then some (.bool true)
  else if t = "false".toList then some (.bool false)
  else if '.' ∈ t ∨ 'e' ∈ t then (readFloat t).map fun x => .float x.toBits
  else (String.ofList t).toInt?.map .int

theorem readScalar_numeral {t : String} (h : Numeral t) : readScalar t.toList =
    if '.' ∈ t.toList ∨ 'e' ∈ t.toList then (readFloat t.toList).map fun x => .float x.toBits
    else t.toInt?.map .int := by
  have hword : ∀ w : String, ∀ c ∈ w.toList, isNumberChar c = false → t.toList ≠ w.toList := by
    intro w c hc hplain hsame
    rw [h c (hsame ▸ hc)] at hplain
    cases hplain
  unfold readScalar
  rw [if_neg (hword "null" 'n' (by simp) (by decide)),
    if_neg (hword "true" 't' (by simp) (by decide)),
    if_neg (hword "false" 'f' (by simp) (by decide)), String.ofList_toList]

theorem intText_numeral (n : ℤ) : Numeral (toString n) := by
  intro c hc
  rcases (intText_spec n).2 c hc with hdigit | rfl
  · unfold isNumberChar
    rw [hdigit, Bool.true_or]
  · rfl

/-- A scalar is read back from its text. -/
theorem readScalar_dumps {v : Json} (hv : v.valid = true) (hscalar : v.opener = none) :
    readScalar (dumpsChars v) = some v := by
  cases v with
  | null => rfl
  | bool b => cases b <;> rfl
  | int n =>
    obtain ⟨_, hchars⟩ := intText_spec n
    have hunmarked : ¬('.' ∈ (toString n).toList ∨ 'e' ∈ (toString n).toList) := by
      rintro (hmark | hmark)
      · simpa using hchars _ hmark
      · simpa using hchars _ hmark
    show readScalar (toString n).toList = _
    rw [readScalar_numeral (intText_numeral n), if_neg hunmarked]
    exact congrArg (Option.map Json.int) (Int.toInt?_repr n)
  | float bits =>
    have hfinite : (Float.Model.ofBits bits).unpack.isFinite = true := hv
    obtain ⟨htext, hnumeral, hmark⟩ := floatText_numeral hfinite
    unfold Marked at hmark
    show readScalar (floatText (.ofBits bits)).toList = _
    rw [readScalar_numeral hnumeral, if_pos hmark, htext, readFloat_strFloat hfinite,
      Option.map_some, Rounding.toBits_ofBits hfinite]
  | str s => cases hscalar
  | arr items => cases hscalar
  | obj fields => cases hscalar

/-! ## Where a value ends -/

/-- The characters that a scalar's text never has. -/
def SPECIALS : List Char := [',', ':', ']', '}', '"', '[', '{']

/-- What may follow a value. -/
def Follows (r : List Char) : Prop := ∀ c ∈ r.head?, c ∈ SPECIALS

theorem numeral_not_special : ∀ c ∈ SPECIALS, isNumberChar c = false := by
  simp [SPECIALS, isNumberChar]

theorem scalar_plain {v : Json} (hv : v.valid = true) (hscalar : v.opener = none) :
    ∀ c ∈ dumpsChars v, decide (c ∉ SPECIALS) = true := by
  have hnumeral : ∀ t : String, Numeral t → ∀ c ∈ t.toList, decide (c ∉ SPECIALS) = true := by
    intro t ht c hc
    refine decide_eq_true fun hspecial => ?_
    have hplain := ht c hc
    rw [numeral_not_special c hspecial] at hplain
    cases hplain
  cases v with
  | null => simp [dumpsChars, SPECIALS]
  | bool b => cases b <;> simp [dumpsChars, SPECIALS]
  | int n => exact hnumeral _ (intText_numeral n)
  | float bits => exact hnumeral _ (floatText_numeral hv).2.1
  | str s => cases hscalar
  | arr items => cases hscalar
  | obj fields => cases hscalar

theorem scalar_ne_nil {v : Json} (hv : v.valid = true) (hscalar : v.opener = none) :
    dumpsChars v ≠ [] := by
  cases v with
  | null => simp [dumpsChars]
  | bool b => cases b <;> simp [dumpsChars]
  | int n => exact (intText_spec n).1
  | float bits =>
    intro hempty
    have hmark := (floatText_numeral hv).2.2
    unfold Marked at hmark
    rw [show (floatText (.ofBits bits)).toList = [] from hempty] at hmark
    simp at hmark
  | str s => cases hscalar
  | arr items => cases hscalar
  | obj fields => cases hscalar

/-- The first character of a text tells whether the value is a scalar, and which bracket it has
otherwise. -/
theorem dumpsChars_head {v : Json} (hv : v.valid = true) : ∃ c text, dumpsChars v = c :: text ∧
    (if c ∈ SPECIALS then some c else none) = v.opener := by
  cases hopener : v.opener with
  | none =>
    obtain ⟨c, text, htext⟩ := List.exists_cons_of_ne_nil (scalar_ne_nil hv hopener)
    have hplain := scalar_plain hv hopener c (by rw [htext]; exact List.mem_cons_self)
    exact ⟨c, text, htext, if_neg (of_decide_eq_true hplain)⟩
  | some c =>
    cases v with
    | str s => cases hopener; exact ⟨_, _, rfl, rfl⟩
    | arr items => cases hopener; exact ⟨_, _, rfl, rfl⟩
    | obj fields => cases hopener; exact ⟨_, _, rfl, rfl⟩
    | _ => cases hopener

theorem opener_eq {v w : Json} {r r' : List Char} (hv : v.valid = true) (hw : w.valid = true)
    (h : dumpsChars v ++ r = dumpsChars w ++ r') : v.opener = w.opener := by
  obtain ⟨c, text, hc, hopener⟩ := dumpsChars_head hv
  obtain ⟨d, text', hd, hopener'⟩ := dumpsChars_head hw
  rw [hc, hd] at h
  rw [← hopener, ← hopener', (List.cons.inj h).1]

/-- No text starts with a closing bracket. -/
theorem dumpsChars_neverOpens {stop : Char} (hspecial : stop ∈ SPECIALS)
    (hstop : ∀ v : Json, v.opener ≠ some stop) {v : Json} (hv : v.valid = true) :
    NeverOpens dumpsChars stop v := by
  obtain ⟨c, text, hc, hopener⟩ := dumpsChars_head hv
  refine ⟨c, text, hc, ?_⟩
  rintro rfl
  rw [if_pos hspecial] at hopener
  exact hstop v hopener.symm

theorem scalar_splits {v : Json} (hv : v.valid = true) (hscalar : v.opener = none) :
    Splits dumpsChars Follows (fun w => w.valid = true) (fun v w => v.same w = true) v := by
  intro w hw r r' hr hr' h
  have hscalar' : w.opener = none := (opener_eq hv hw h).symm.trans hscalar
  obtain ⟨htext, hrest⟩ := run_inj (scalar_plain hv hscalar) (scalar_plain hw hscalar')
    (fun c hc => decide_eq_false (not_not.mpr (hr c hc)))
    (fun c hc => decide_eq_false (not_not.mpr (hr' c hc))) h
  have hread := readScalar_dumps hv hscalar
  rw [htext, readScalar_dumps hw hscalar'] at hread
  obtain rfl := Option.some.inj hread
  refine ⟨?_, hrest⟩
  cases w with
  | null => rfl
  | bool b => simp [Json.same]
  | int n => simp [Json.same]
  | float bits => simp [Json.same]
  | _ => cases hscalar

/-! ## Lists and objects -/

theorem dumpsItems_eq (items : List Json) : dumpsItems items = items.map dumpsChars := by
  induction items with
  | nil => rfl
  | cons v items ih => rw [dumpsItems, ih, List.map_cons]

theorem dumpsFields_eq (fields : List (String × Json)) :
    dumpsFields fields = fields.map (Prod.map id dumpsChars) := by
  induction fields with
  | nil => rfl
  | cons e fields ih =>
    obtain ⟨k, v⟩ := e
    rw [dumpsFields, ih, List.map_cons]
    rfl

theorem sortedItems_map {α β : Type} (f : α → β) (items : List (String × α)) :
    sortedItems (items.map (Prod.map id f)) = (sortedItems items).map (Prod.map id f) := by
  unfold sortedItems
  symm
  apply List.map_insertionSort
  intro a _ b _
  rfl

theorem mem_sortedItems {α : Type} {items : List (String × α)} {e : String × α} :
    e ∈ sortedItems items ↔ e ∈ items :=
  List.mem_insertionSort _

theorem length_sortedItems {α : Type} (items : List (String × α)) :
    (sortedItems items).length = items.length :=
  List.length_insertionSort _ _

/-- The same items in another order are sorted alike, unless a key stands twice. -/
theorem sortedItems_perm {α : Type} {a b : List (String × α)} (hkeys : (a.map (·.1)).Nodup)
    (h : a.Perm b) : sortedItems a = sortedItems b := by
  have htotal : Std.Total fun x y : String × α => x.1 ≤ y.1 := ⟨fun x y => le_total x.1 y.1⟩
  have htrans : IsTrans (String × α) fun x y => x.1 ≤ y.1 := ⟨fun _ _ _ => le_trans⟩
  have hperm : (sortedItems a).Perm (sortedItems b) :=
    (List.perm_insertionSort _ a).trans (h.trans (List.perm_insertionSort _ b).symm)
  refine List.Perm.eq_of_pairwise ?_ (List.pairwise_insertionSort _ a)
    (List.pairwise_insertionSort _ b) hperm
  intro x y hx hy hxy hyx
  have hkey : x.1 = y.1 := le_antisymm hxy hyx
  exact List.inj_on_of_nodup_map hkeys (mem_sortedItems.mp hx)
    (h.mem_iff.mpr (mem_sortedItems.mp hy)) hkey

/-- One field of an object's text. -/
def fieldText (e : String × Json) : List Char := quote e.1 ++ ':' :: dumpsChars e.2

theorem dumpsChars_arr (items : List Json) :
    dumpsChars (.arr items) = bracketed '[' ',' ']' (items.map dumpsChars) := by
  rw [dumpsChars, dumpsItems_eq]

theorem dumpsChars_obj (fields : List (String × Json)) :
    dumpsChars (.obj fields) = bracketed '{' ',' '}' ((sortedItems fields).map fieldText) := by
  rw [dumpsChars, dumpsFields_eq, sortedItems_map, List.map_map]
  rfl

namespace Json

theorem validItems_iff {items : List Json} :
    validItems items = true ↔ ∀ v ∈ items, v.valid = true := by
  induction items with
  | nil => simp [validItems]
  | cons v items ih => simp [validItems, ih]

theorem validFields_iff {fields : List (String × Json)} :
    validFields fields = true ↔ ∀ e ∈ fields, e.2.valid = true := by
  induction fields with
  | nil => simp [validFields]
  | cons e fields ih =>
    obtain ⟨k, v⟩ := e
    simp [validFields, ih]

theorem valid_obj {fields : List (String × Json)} : (obj fields).valid = true ↔
    (fields.map (·.1)).Nodup ∧ ∀ e ∈ fields, e.2.valid = true := by
  rw [valid, Bool.and_eq_true, decide_eq_true_iff, validFields_iff]

theorem sameItems_iff {a b : List Json} :
    sameItems a b = true ↔ List.Forall₂ (fun v w => v.same w = true) a b := by
  induction a generalizing b with
  | nil => cases b <;> simp [sameItems]
  | cons v a ih => cases b <;> simp [sameItems, ih]

theorem sameFields_iff {f : List (String × Json)} {g : Dict} : sameFields f g = true ↔
    ∀ e ∈ f, ∃ w, g.get e.1 = some w ∧ e.2.same w = true := by
  induction f with
  | nil => simp [sameFields]
  | cons e f ih =>
    obtain ⟨k, v⟩ := e
    rw [sameFields, Bool.and_eq_true, ih, List.forall_mem_cons]
    refine and_congr_left fun _ => ?_
    cases hget : g.get k with
    | none => simp
    | some w => simp

end Json

theorem Dict.get_iff {d : Dict} (hkeys : (d.map (·.1)).Nodup) {k : String} {v : Json} :
    d.get k = some v ↔ (k, v) ∈ d := by
  unfold Dict.get
  constructor
  · intro h
    obtain ⟨e, he, rfl⟩ := Option.map_eq_some_iff.mp h
    have hkey : e.1 = k := by simpa using List.find?_some he
    rw [← hkey]
    exact List.mem_of_find?_eq_some he
  · intro hmem
    cases hfind : d.find? fun e => e.1 = k with
    | none => simpa using List.find?_eq_none.mp hfind _ hmem
    | some e =>
      have hkey : e.1 = k := by simpa using List.find?_some hfind
      have he := List.inj_on_of_nodup_map hkeys (List.mem_of_find?_eq_some hfind) hmem hkey
      rw [he]
      rfl

/-- Induction over a value, with the hypothesis for everything directly inside it. -/
@[elab_as_elim]
theorem Json.induct {P : Json → Prop} (null : P .null) (bool : ∀ b, P (.bool b))
    (int : ∀ n, P (.int n)) (float : ∀ bits, P (.float bits)) (str : ∀ s, P (.str s))
    (arr : ∀ items, (∀ v ∈ items, P v) → P (.arr items))
    (obj : ∀ fields, (∀ e ∈ fields, P e.2) → P (.obj fields)) (v : Json) : P v := by
  refine @Json.rec P (fun items => ∀ v ∈ items, P v) (fun fields => ∀ e ∈ fields, P e.2)
    (fun e => P e.2) null bool int float str arr obj ?_ ?_ ?_ ?_ (fun _ _ hv => hv) v
  · intro v hv
    cases hv
  · intro v items hv hitems w hw
    rcases List.mem_cons.mp hw with rfl | hw
    · exact hv
    · exact hitems w hw
  · intro e he
    cases he
  · intro e fields he hfields x hx
    rcases List.mem_cons.mp hx with rfl | hx
    · exact he
    · exact hfields x hx

/-! ## The same text -/

theorem follows_cons {c : Char} (h : c ∈ SPECIALS) (r : List Char) : Follows (c :: r) := by
  intro d hd
  cases hd
  exact h

theorem fieldText_splits {e : String × Json}
    (h : Splits dumpsChars Follows (fun w => w.valid = true) (fun v w => v.same w = true) e.2) :
    Splits fieldText Follows (fun x => x.2.valid = true)
      (fun x y => x.1 = y.1 ∧ x.2.same y.2 = true) e := by
  intro x hx r r' hr hr' htext
  unfold fieldText at htext
  rw [List.append_assoc, List.append_assoc] at htext
  obtain ⟨hkey, hrest⟩ := quote_inj htext
  obtain ⟨hsame, hafter⟩ := h x.2 hx r r' hr hr' (List.cons.inj hrest).2
  exact ⟨⟨hkey, hsame⟩, hafter⟩

/-- Sorted by their keys, the fields of equal objects are equal one by one. -/
theorem same_of_sortedItems {f g : List (String × Json)} (hkeys : (g.map (·.1)).Nodup)
    (h : List.Forall₂ (fun x y => x.1 = y.1 ∧ x.2.same y.2 = true) (sortedItems f)
      (sortedItems g)) : (Json.obj f).same (.obj g) = true := by
  have hlength := h.length_eq
  rw [length_sortedItems, length_sortedItems] at hlength
  rw [Json.same, Bool.and_eq_true, beq_iff_eq, Json.sameFields_iff]
  refine ⟨hlength, ?_⟩
  intro e he
  obtain ⟨i, hi, rfl⟩ := List.getElem_of_mem (mem_sortedItems.mpr he)
  have hi' : i < (sortedItems g).length := h.length_eq ▸ hi
  obtain ⟨hkey, hsame⟩ := (List.forall₂_iff_get.mp h).2 i hi hi'
  have hfield : (sortedItems g)[i] ∈ g := mem_sortedItems.mp (List.getElem_mem hi')
  refine ⟨(sortedItems g)[i].2, (Dict.get_iff hkeys).mpr ?_, hsame⟩
  rw [show (sortedItems f)[i].1 = (sortedItems g)[i].1 from hkey]
  exact hfield

/-- From the text of a value with what follows it, the value can be told, up to equality. -/
theorem dumpsChars_splits {v : Json} (hv : v.valid = true) :
    Splits dumpsChars Follows (fun w => w.valid = true) (fun v w => v.same w = true) v := by
  have hcomma : ∀ r, Follows (',' :: r) := follows_cons (by simp [SPECIALS])
  have hbracket : ∀ r, Follows (']' :: r) := follows_cons (by simp [SPECIALS])
  have hbrace : ∀ r, Follows ('}' :: r) := follows_cons (by simp [SPECIALS])
  induction v using Json.induct with
  | null => exact scalar_splits hv rfl
  | bool b => exact scalar_splits hv rfl
  | int n => exact scalar_splits hv rfl
  | float bits => exact scalar_splits hv rfl
  | str s =>
    intro w hw r r' hr hr' h
    have hopener := opener_eq hv hw h
    cases w with
    | str t =>
      obtain ⟨rfl, hrest⟩ := quote_inj h
      exact ⟨by simp [Json.same], hrest⟩
    | _ => cases hopener
  | arr items ih =>
    intro w hw r r' hr hr' h
    have hopener := opener_eq hv hw h
    cases w with
    | arr items' =>
      rw [dumpsChars_arr, dumpsChars_arr] at h
      have hitems := Json.validItems_iff.mp hv
      obtain ⟨hall, hrest⟩ := bracketed_inj (by decide) hcomma hbracket
        (fun v hv => dumpsChars_neverOpens (by simp [SPECIALS])
          (by rintro ⟨⟩ <;> simp [Json.opener]) hv)
        (fun v hv => ⟨hitems v hv, ih v hv (hitems v hv)⟩) (Json.validItems_iff.mp hw) h
      exact ⟨Json.sameItems_iff.mpr hall, hrest⟩
    | _ => cases hopener
  | obj fields ih =>
    intro w hw r r' hr hr' h
    have hopener := opener_eq hv hw h
    cases w with
    | obj fields' =>
      rw [dumpsChars_obj, dumpsChars_obj] at h
      obtain ⟨_, hfields⟩ := Json.valid_obj.mp hv
      obtain ⟨hkeys', hfields'⟩ := Json.valid_obj.mp hw
      obtain ⟨hall, hrest⟩ := bracketed_inj (by decide) hcomma hbrace
        (fun e _ => ⟨'"', _, rfl, by decide⟩)
        (fun e he => ⟨hfields e (mem_sortedItems.mp he),
          fieldText_splits (ih e (mem_sortedItems.mp he) (hfields e (mem_sortedItems.mp he)))⟩)
        (fun e he => hfields' e (mem_sortedItems.mp he)) h
      exact ⟨same_of_sortedItems hkeys' hall, hrest⟩
    | _ => cases hopener

/-- Equal values have the same text. -/
theorem dumpsChars_of_same {v w : Json} (hv : v.valid = true) (hw : w.valid = true)
    (h : v.same w = true) : dumpsChars v = dumpsChars w := by
  induction v using Json.induct generalizing w with
  | null => cases w <;> simp_all [Json.same]
  | bool b => cases w <;> simp_all [Json.same]
  | int n => cases w <;> simp_all [Json.same]
  | float bits => cases w <;> simp_all [Json.same]
  | str s => cases w <;> simp_all [Json.same]
  | arr items ih =>
    cases w with
    | arr items' =>
      have hall := Json.sameItems_iff.mp h
      rw [Json.valid, Json.validItems_iff] at hv hw
      have htexts : items.map dumpsChars = items'.map dumpsChars := by
        refine List.ext_getElem (by simpa using hall.length_eq) fun i hi hi' => ?_
        rw [List.length_map] at hi hi'
        rw [List.getElem_map, List.getElem_map]
        exact ih _ (List.getElem_mem hi) (hv _ (List.getElem_mem hi)) (hw _ (List.getElem_mem hi'))
          ((List.forall₂_iff_get.mp hall).2 i hi hi')
      rw [dumpsChars_arr, dumpsChars_arr, htexts]
    | _ => cases h
  | obj f ih =>
    cases w with
    | obj g =>
      obtain ⟨hkeys, hfields⟩ := Json.valid_obj.mp hv
      obtain ⟨hkeys', hfields'⟩ := Json.valid_obj.mp hw
      rw [Json.same, Bool.and_eq_true, beq_iff_eq, Json.sameFields_iff] at h
      obtain ⟨hlength, hall⟩ := h
      have hsubset : dumpsFields f ⊆ dumpsFields g := by
        intro x hx
        rw [dumpsFields_eq] at hx ⊢
        obtain ⟨e, he, rfl⟩ := List.mem_map.mp hx
        obtain ⟨w, hget, hsame⟩ := hall e he
        have hfield := (Dict.get_iff hkeys').mp hget
        refine List.mem_map.mpr ⟨(e.1, w), hfield, ?_⟩
        exact Prod.ext rfl (ih e he (hfields e he) (hfields' _ hfield) hsame).symm
      have hkeysText : ((dumpsFields f).map (·.1)).Nodup := by
        rw [dumpsFields_eq, List.map_map]
        exact hkeys
      have hperm : (dumpsFields f).Perm (dumpsFields g) := by
        refine (List.subperm_of_subset hkeysText.of_map hsubset).perm_of_length_le ?_
        rw [dumpsFields_eq, dumpsFields_eq, List.length_map, List.length_map, hlength]
      rw [dumpsChars, dumpsChars, sortedItems_perm hkeysText hperm]
    | _ => cases h

/-- Two JSON values have the same text exactly when they are equal. -/
theorem dumps_inj_iff {v w : Json} (hv : v.valid = true) (hw : w.valid = true) :
    dumps v = dumps w ↔ v.same w = true := by
  have hend : Follows [] := by
    intro c hc
    cases hc
  constructor
  · intro h
    have hchars := String.ofList_injective h
    exact (dumpsChars_splits hv w hw [] [] hend hend (by rw [hchars])).1
  · intro h
    unfold dumps
    rw [dumpsChars_of_same hv hw h]

example : dumps (.obj [("b", .int 1), ("a", .arr [.bool true, .float 0x3FF0000000000000])]) =
    "\x7b\"a\":[true,1.0],\"b\":1\x7d" := by decide +kernel

end FlexQuery

import FlexQuery.Python.Number

/-!
# The values of a YAML file

* `Yaml`, `YamlDict` — what `yaml.safe_load` returns, and a mapping of it.
* `Yaml.toInt`, `Yaml.toDict` — `int()` and `dict()` of such a value.
* `PyEq` — `==`.
-/

set_option autoImplicit false

namespace FlexQuery

/-- A value of a YAML file.  A date is a date or a datetime; a set and `!!pairs` are the sequence of
their items.  Of a mapping only the keys that are texts are kept: no other one is looked up. -/
inductive Yaml where
  | null
  | bool (b : Bool)
  | int (n : ℤ)
  | float (x : PyFloat)
  | str (s : String)
  | bytes (b : List UInt8)
  | date (text : String)
  | seq (items : List Yaml)
  | map (fields : List (String × Yaml))

abbrev YamlDict := List (String × Yaml)

namespace YamlDict

/-- `d.get(k)`. -/
def get : YamlDict → String → Option Yaml
  | [], _ => none
  | (k', v) :: d, k => if k' = k then some v else get d k

/-- `d[k] = v`. -/
def set : YamlDict → String → Yaml → YamlDict
  | [], k, v => [(k, v)]
  | (k', w) :: d, k, v => if k' = k then (k, v) :: d else (k', w) :: set d k v

@[simp] theorem get_set (d : YamlDict) (k : String) (v : Yaml) (k' : String) :
    (d.set k v).get k' = if k = k' then some v else d.get k' := by
  induction d with
  | nil => rfl
  | cons e d ih =>
    obtain ⟨k₀, w⟩ := e
    by_cases hk : k₀ = k
    · subst hk
      by_cases hk' : k₀ = k' <;> simp [set, get, hk']
    · by_cases hk' : k₀ = k'
      · subst hk'
        simp [set, get, hk, Ne.symm hk]
      · simp [set, get, hk, hk', ih]

end YamlDict

namespace Yaml

/-- `bool(v)`. -/
def truthy : Yaml → Bool
  | null => false
  | bool b => b
  | int n => n ≠ 0
  | float x => !x.isZero
  | str s => s ≠ ""
  | bytes b => !b.isEmpty
  | date _ => true
  | seq items => !items.isEmpty
  | map fields => !fields.isEmpty

/-- `int(x)` of a float. -/
def truncate (x : PyFloat) : Except PyExc ℤ :=
  match x.unpack with
  | .notANumber => .error (.valueError "cannot convert float NaN to integer")
  | .infinity _ => .error (.other "OverflowError" "cannot convert float infinity to integer")
  | .zero _ => .ok 0
  | .finite s m e _ =>
    let magnitude := m * 2 ^ e.toNat / 2 ^ (-e).toNat
    .ok (match s with
      | .negative => -(magnitude : ℤ)
      | .positive => magnitude)

/-- The text `int()` reads in bytes: ASCII, where fewer characters are blank. -/
def ascii (b : List UInt8) : String :=
  String.ofList (b.map fun c =>
    if c.toNat < 0x80 ∧ c.toNat ∉ [0x1C, 0x1D, 0x1E, 0x1F] then Char.ofNat c.toNat else '?')

/-- `int(v)`. -/
def toInt : Yaml → Except PyExc ℤ
  | bool b => .ok (if b then 1 else 0)
  | int n => .ok n
  | float x => truncate x
  | str s => pyInt s
  | bytes b => pyInt (ascii b)
  | _ => .error (.other "TypeError"
      "int() argument must be a string, a bytes-like object or a real number")

/-- An item of a sequence that `dict()` is given: its key and value.  A key that is no text is left
out. -/
def pair : Yaml → Except PyExc (Option (String × Yaml))
  | seq [str k, v] => .ok (some (k, v))
  | seq [seq _, _] => .error (.other "TypeError" "unhashable type: 'list'")
  | seq [map _, _] => .error (.other "TypeError" "unhashable type: 'dict'")
  | seq [_, _] => .ok none
  | str s =>
    match s.toList with
    | [k, v] => .ok (some (String.singleton k, str (String.singleton v)))
    | _ => .error (.valueError "dictionary update sequence element has the wrong length")
  | map [(k, _), (v, _)] => .ok (some (k, str v))
  | bytes [_, _] => .ok none
  | seq _ | map _ | bytes _ =>
    .error (.valueError "dictionary update sequence element has the wrong length")
  | _ => .error (.other "TypeError"
      "cannot convert dictionary update sequence element to a sequence")

/-- The dictionary of a sequence of pairs, onto what the ones before have put there. -/
def ofPairs (d : YamlDict) : List Yaml → Except PyExc YamlDict
  | [] => .ok d
  | item :: items =>
    match pair item with
    | .error e => .error e
    | .ok none => ofPairs d items
    | .ok (some (k, v)) => ofPairs (d.set k v) items

/-- `dict(v or {})`. -/
def toDict : Yaml → Except PyExc YamlDict
  | map fields => .ok fields
  | seq items => ofPairs [] items
  | str s => ofPairs [] (s.toList.map fun c => str (String.singleton c))
  | bytes b => ofPairs [] (b.map fun c => int c.toNat)
  | v =>
    if v.truthy then .error (.other "TypeError" "object is not iterable")
    else .ok []

/-- `v or w`, where `v` is what `d.get(k)` gives. -/
def orElse (v : Option Yaml) (w : Yaml) : Yaml :=
  match v with
  | none => w
  | some v => if v.truthy then v else w

/-- The number that a value is. -/
def num : Yaml → Option ℚ
  | bool b => some (if b then 1 else 0)
  | int n => some n
  | float x =>
    match x.unpack with
    | .zero _ => some 0
    | .finite .positive m e _ => some (m * 2 ^ e)
    | .finite .negative m e _ => some (-(m * 2 ^ e))
    | _ => none
  | _ => none

end Yaml

end FlexQuery

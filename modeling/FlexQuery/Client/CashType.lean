import FlexQuery.Client.CashParser
import FlexQuery.Library.Infix

/-!
# The sign and the code of a cash row

* `SignHonoured` — a type that names deposits and withdrawals is told apart by the sign.
* `CodeHonoured` — a type without a keyword leaves it to the code, in any letter case.
* `normalizeType_wordless` — what the code does with a type without a keyword: the code text is
  upper-cased and then searched for lower-case keys, so that only the two comparisons with a
  whole code can succeed.
* `classified_iff` — when `_normalize_type` honours both.
-/

set_option autoImplicit false

namespace FlexQuery

/-- `x < 0`. -/
def PyFloat.negative (x : PyFloat) : Bool :=
  match x.unpack with
  | .finite .negative _ _ _ => true
  | .infinity .negative => true
  | _ => false

theorem PyFloat.nonneg_of_negative {x : PyFloat} (h : x.negative = true) : x.nonneg = false := by
  unfold negative at h
  unfold nonneg
  cases hx : x.unpack with
  | notANumber => rfl
  | zero s => simp [hx] at h
  | infinity s => cases s <;> simp_all
  | finite s m e hm => cases s <;> simp_all

/-! ## What the words say -/

/-- The type names deposits and withdrawals, in any letter case and with any text between. -/
def NamesBoth (flexType : String) : Prop :=
  contains (lower flexType) "deposits" = true ∧ contains (lower flexType) "withdrawals" = true

/-- The words looked for in a type. -/
def TYPE_KEYWORDS : List String := ["deposit", "withdraw", "transfer", "internal", "dividend"]

def NamesNone (flexType : String) : Prop :=
  ∀ k ∈ TYPE_KEYWORDS, contains (lower flexType) k = false

/-- The keys of a code and what each means, in the order they count. -/
def CODE_KEYS : List (String × CashType) :=
  [ ("DEP", .deposit), ("WTH", .withdrawal), ("TRA", .transfer), ("DIV", .dividend),
    ("DVD", .dividend) ]

/-- The type a code means, in any letter case. -/
def codeType (code : String) : CashType :=
  ((CODE_KEYS.find? fun e => contains (upper code) e.1).map (·.2)).getD .other

structure SignHonoured (flexType code : String) (amount : PyFloat) : Prop where
  deposit : NamesBoth flexType → amount.nonneg = true →
    normalizeType flexType code amount = .deposit
  withdrawal : NamesBoth flexType → amount.negative = true →
    normalizeType flexType code amount = .withdrawal

def CodeHonoured (flexType code : String) (amount : PyFloat) : Prop :=
  NamesNone flexType → normalizeType flexType code amount = codeType code

/-- The two ways of joining the words that `_normalize_type` knows. -/
def Joined (flexType : String) : Prop :=
  contains (lower flexType) "deposits/withdrawals" = true ∨
    contains (lower flexType) "deposits and withdrawals" = true

instance (flexType : String) : Decidable (Joined flexType) :=
  inferInstanceAs (Decidable (_ ∨ _))

/-- The whole code is one of the two that are compared in the right case, or it has no key. -/
def CodeReadable (code : String) : Prop :=
  upper (strip code) = "DEP" ∨ upper (strip code) = "WTH" ∨
    ∀ e ∈ CODE_KEYS, contains (upper code) e.1 = false

/-! ## Blanks around a text, and its letter case -/

theorem letter_of_isSpace {c : Char} (h : isSpace c = true) : c.isAlpha = false := by
  have hval : c.val.toNat = c.toNat := rfl
  have hA : 'A'.val.toNat = 65 := rfl
  have hZ : 'Z'.val.toNat = 90 := rfl
  have ha : 'a'.val.toNat = 97 := rfl
  have hz : 'z'.val.toNat = 122 := rfl
  simp only [isSpace, List.mem_cons, List.not_mem_nil, or_false, decide_eq_true_eq] at h
  simp only [Char.isAlpha, Char.isUpper, Char.isLower, UInt32.le_iff_toNat_le, ge_iff_le,
    Bool.or_eq_false_iff, decide_eq_false_iff_not, Bool.and_eq_false_iff]
  omega

theorem infix_map_dropWhile {p : Char → Bool} {f : Char → Char} {k l : List Char} (hk : k ≠ [])
    (hp : ∀ c, p c = true → k.head? ≠ some (f c)) :
    k <:+: (l.dropWhile p).map f ↔ k <:+: l.map f := by
  induction l with
  | nil => rfl
  | cons c l ih =>
    by_cases hc : p c = true
    · rw [List.dropWhile_cons_of_pos hc, ih, List.map_cons,
        Infix.infix_cons_iff_of_head hk (hp c hc)]
    · rw [List.dropWhile_cons_of_neg hc]

/-- Blanks around a text do not hide a word that begins and ends with a letter. -/
theorem infix_map_strip {f : Char → Char} (hf : ∀ c, (f c).isAlpha = c.isAlpha) {s : String}
    {k : List Char} (hhead : ∃ c ∈ k.head?, c.isAlpha = true)
    (hlast : ∃ c ∈ k.getLast?, c.isAlpha = true) :
    k <:+: (strip s).toList.map f ↔ k <:+: s.toList.map f := by
  obtain ⟨a, ha, halpha⟩ := hhead
  obtain ⟨z, hz, hzalpha⟩ := hlast
  have hne : k ≠ [] := by
    rintro rfl
    cases ha
  have hstart : ∀ c, isSpace c = true → k.head? ≠ some (f c) := by
    intro c hc heq
    rw [show k.head? = some a from ha, Option.some.injEq] at heq
    rw [heq, hf, letter_of_isSpace hc] at halpha
    cases halpha
  have hend : ∀ c, isSpace c = true → k.reverse.head? ≠ some (f c) := by
    intro c hc heq
    rw [List.head?_reverse, show k.getLast? = some z from hz, Option.some.injEq] at heq
    rw [heq, hf, letter_of_isSpace hc] at hzalpha
    cases hzalpha
  unfold strip
  rw [String.toList_ofList, List.map_reverse, ← List.reverse_infix, List.reverse_reverse,
    infix_map_dropWhile (by simpa using hne) hend, List.map_reverse, List.reverse_infix,
    infix_map_dropWhile hne hstart]

theorem contains_lower_strip (s : String) {w : String}
    (hhead : ∃ c ∈ w.toList.head?, c.isAlpha = true)
    (hlast : ∃ c ∈ w.toList.getLast?, c.isAlpha = true) :
    contains (lower (strip s)) w = contains (lower s) w := by
  unfold contains lower
  rw [String.toList_ofList, String.toList_ofList, decide_eq_decide]
  exact infix_map_strip Char.isAlpha_toLower_eq_isAlpha hhead hlast

theorem contains_upper_strip (s : String) {w : String}
    (hhead : ∃ c ∈ w.toList.head?, c.isAlpha = true)
    (hlast : ∃ c ∈ w.toList.getLast?, c.isAlpha = true) :
    contains (upper (strip s)) w = contains (upper s) w := by
  unfold contains upper
  rw [String.toList_ofList, String.toList_ofList, decide_eq_decide]
  exact infix_map_strip Char.isAlpha_toUpper_eq_isAlpha hhead hlast

/-- An upper-cased text has no lower-case word in it. -/
theorem not_contains_upper (s : String) {w : String} {c : Char} (hc : c ∈ w.toList)
    (hlow : c.isLower = true) : contains (upper s) w = false := by
  unfold contains upper
  rw [String.toList_ofList, decide_eq_false_iff_not]
  apply Infix.not_infix_of_not_mem hc
  intro hmem
  obtain ⟨d, _, rfl⟩ := List.mem_map.mp hmem
  rw [Char.isLower_toUpper_eq_false] at hlow
  cases hlow

theorem contains_of_within {s w v : String} (hv : v.toList <:+: w.toList)
    (h : contains s w = true) : contains s v = true := by
  unfold contains at h ⊢
  exact decide_eq_true (hv.trans (of_decide_eq_true h))

/-! ## What the chain of tests comes to -/

/-- The tests that can succeed: those on the code with lower-case keys are never true. -/
theorem normalizeType_eq (flexType code : String) (amount : PyFloat) :
    normalizeType flexType code amount =
      if Joined flexType then if amount.nonneg then .deposit else .withdrawal
      else if contains (lower flexType) "deposit" = true ∨ upper (strip code) = "DEP" then .deposit
      else if contains (lower flexType) "withdraw" = true ∨ upper (strip code) = "WTH" then
        .withdrawal
      else if contains (lower flexType) "transfer" = true ∨
        contains (lower flexType) "internal" = true then .transfer
      else if contains (lower flexType) "dividend" = true then .dividend
      else .other := by
  have hword : ∀ w ∈ ["deposits/withdrawals", "deposits and withdrawals", "deposit", "withdraw",
      "withdrawal", "transfer", "internal", "dividend"],
      contains (lower (strip flexType)) w = contains (lower flexType) w := by
    intro w hw
    simp only [List.mem_cons, List.not_mem_nil, or_false] at hw
    rcases hw with rfl | rfl | rfl | rfl | rfl | rfl | rfl | rfl <;>
      exact contains_lower_strip flexType ⟨_, rfl, rfl⟩ ⟨_, rfl, rfl⟩
  have hkey : ∀ w ∈ ["dep", "wth", "tra", "div", "dvd"],
      contains (upper (strip code)) w = false := by
    intro w hw
    simp only [List.mem_cons, List.not_mem_nil, or_false] at hw
    rcases hw with rfl | rfl | rfl | rfl | rfl <;>
      exact not_contains_upper (strip code) List.mem_cons_self rfl
  have hlonger : contains (lower flexType) "withdrawal" = true →
      contains (lower flexType) "withdraw" = true :=
    contains_of_within (by decide)
  simp only [List.forall_mem_cons, List.not_mem_nil, false_imp_iff, implies_true, and_true]
    at hword hkey
  obtain ⟨hslash, hand, hdeposit, hwithdraw, hwithdrawal, htransfer, hinternal, hdividend⟩ := hword
  obtain ⟨hdep, hwth, htra, hdiv, hdvd⟩ := hkey
  unfold normalizeType Joined
  simp only [hslash, hand, hdeposit, hwithdraw, hwithdrawal, htransfer, hinternal, hdividend, hdep,
    hwth, htra, hdiv, hdvd, Bool.or_false, Bool.or_eq_true, decide_eq_true_eq]
  have habsorb : ((contains (lower flexType) "withdraw" = true ∨
      contains (lower flexType) "withdrawal" = true) ∨ upper (strip code) = "WTH") ↔
      (contains (lower flexType) "withdraw" = true ∨ upper (strip code) = "WTH") := by
    constructor
    · rintro ((h | h) | h)
      · exact Or.inl h
      · exact Or.inl (hlonger h)
      · exact Or.inr h
    · rintro (h | h)
      · exact Or.inl (Or.inl h)
      · exact Or.inr h
  simp only [habsorb]
  congr

/-- A type without a keyword leaves only the comparisons with a whole code. -/
theorem normalizeType_wordless {flexType : String} (h : NamesNone flexType) (code : String)
    (amount : PyFloat) : normalizeType flexType code amount =
      if upper (strip code) = "DEP" then .deposit
      else if upper (strip code) = "WTH" then .withdrawal else .other := by
  have hjoined : ¬ Joined flexType := by
    have hno := h "deposit" (by simp [TYPE_KEYWORDS])
    rintro (hj | hj)
    · rw [contains_of_within (by decide) hj] at hno
      cases hno
    · rw [contains_of_within (by decide) hj] at hno
      cases hno
  simp only [NamesNone, TYPE_KEYWORDS, List.forall_mem_cons, List.not_mem_nil, false_imp_iff,
    implies_true, and_true] at h
  obtain ⟨hdeposit, hwithdraw, htransfer, hinternal, hdividend⟩ := h
  rw [normalizeType_eq, if_neg hjoined]
  simp [hdeposit, hwithdraw, htransfer, hinternal, hdividend]

theorem normalizeType_both {flexType : String} (h : NamesBoth flexType) (code : String)
    (amount : PyFloat) : normalizeType flexType code amount =
      if Joined flexType ∧ amount.nonneg = false then .withdrawal else .deposit := by
  have hdeposit : contains (lower flexType) "deposit" = true := contains_of_within (by decide) h.1
  rw [normalizeType_eq]
  by_cases hj : Joined flexType
  · cases hsign : amount.nonneg <;> simp [hj]
  · simp [hj, hdeposit]

theorem codeType_eq_other {code : String} :
    codeType code = .other ↔ ∀ e ∈ CODE_KEYS, contains (upper code) e.1 = false := by
  unfold codeType
  constructor
  · intro h e he
    cases hfind : CODE_KEYS.find? fun e => contains (upper code) e.1 with
    | none => simpa using List.find?_eq_none.mp hfind e he
    | some e' =>
      have hmem := List.mem_of_find?_eq_some hfind
      rw [hfind] at h
      simp only [CODE_KEYS, List.mem_cons, List.not_mem_nil, or_false] at hmem
      rcases hmem with rfl | rfl | rfl | rfl | rfl <;> cases h
  · intro h
    rw [List.find?_eq_none.mpr (by simpa using h)]
    rfl

theorem codeType_deposit {code : String} (h : upper (strip code) = "DEP") :
    codeType code = .deposit := by
  have hdep : contains (upper code) "DEP" = true := by
    rw [← contains_upper_strip code ⟨_, rfl, rfl⟩ ⟨_, rfl, rfl⟩, h]
    decide
  simp [codeType, CODE_KEYS, hdep]

theorem codeType_withdrawal {code : String} (h : upper (strip code) = "WTH") :
    codeType code = .withdrawal := by
  have hdep : contains (upper code) "DEP" = false := by
    rw [← contains_upper_strip code ⟨_, rfl, rfl⟩ ⟨_, rfl, rfl⟩, h]
    decide
  have hwth : contains (upper code) "WTH" = true := by
    rw [← contains_upper_strip code ⟨_, rfl, rfl⟩ ⟨_, rfl, rfl⟩, h]
    decide
  simp [codeType, CODE_KEYS, hdep, hwth]

/-! ## When both are honoured -/

theorem sign_honoured_iff {flexType code : String} {amount : PyFloat} :
    SignHonoured flexType code amount ↔
      (NamesBoth flexType → amount.negative = true → Joined flexType) := by
  constructor
  · intro h hboth hneg
    have hout := h.withdrawal hboth hneg
    rw [normalizeType_both hboth] at hout
    split at hout
    · rename_i hcase
      exact hcase.1
    · cases hout
  · intro h
    constructor
    · intro hboth hpos
      rw [normalizeType_both hboth, hpos]
      simp
    · intro hboth hneg
      rw [normalizeType_both hboth, PyFloat.nonneg_of_negative hneg]
      simp [h hboth hneg]

theorem code_honoured_iff {flexType code : String} {amount : PyFloat} :
    CodeHonoured flexType code amount ↔ (NamesNone flexType → CodeReadable code) := by
  unfold CodeHonoured
  refine imp_congr_right fun hnone => ?_
  rw [normalizeType_wordless hnone]
  by_cases hdep : upper (strip code) = "DEP"
  · simp [CodeReadable, hdep, codeType_deposit hdep]
  · by_cases hwth : upper (strip code) = "WTH"
    · simp [CodeReadable, hwth, codeType_withdrawal hwth]
    · rw [if_neg hdep, if_neg hwth, eq_comm, codeType_eq_other]
      simp [CodeReadable, hdep, hwth]

/-- A row is classified by its sign and its code exactly when a negative row's words are joined as
the code knows them, and a code that decides alone is one it compares in the right case. -/
theorem classified_iff (flexType code : String) (amount : PyFloat) :
    SignHonoured flexType code amount ∧ CodeHonoured flexType code amount ↔
      (NamesBoth flexType → amount.negative = true → Joined flexType) ∧
        (NamesNone flexType → CodeReadable code) :=
  and_congr sign_honoured_iff code_honoured_iff

/-- Money taken out under another joiner is a deposit, and a dividend told by its code alone is of
no type. -/
theorem misclassified :
    (¬ ∀ flexType code amount, SignHonoured flexType code amount ∧
      CodeHonoured flexType code amount) ∧
    normalizeType "Deposits & Withdrawals" "" (Float.Model.ofScientific 100 0).neg = .deposit ∧
    normalizeType "Broker Payment" "DIV" (Float.Model.ofScientific 100 0) = .other ∧
    codeType "DIV" = .dividend := by
  have hrun : normalizeType "Deposits & Withdrawals" "" (Float.Model.ofScientific 100 0).neg =
        .deposit ∧
      normalizeType "Broker Payment" "DIV" (Float.Model.ofScientific 100 0) = .other ∧
      codeType "DIV" = .dividend ∧
      PyFloat.negative (Float.Model.ofScientific 100 0).neg = true := by
    decide +kernel
  refine ⟨fun h => ?_, hrun.1, hrun.2.1, hrun.2.2.1⟩
  have hout := (h "Deposits & Withdrawals" "" (Float.Model.ofScientific 100 0).neg).1.withdrawal
    (by unfold NamesBoth; decide) hrun.2.2.2
  rw [hrun.1] at hout
  cases hout

end FlexQuery

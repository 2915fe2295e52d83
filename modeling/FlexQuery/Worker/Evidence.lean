import FlexQuery.Library.Infix
import FlexQuery.Worker.Retry

/-!
# What a text says about its category

`classify_flex_error` reads codes and markers; the order of its tests is an order on the
categories, and its answer is the greatest category the text has evidence of.

* `classify_isGreatest` — that.
* `Pattern` — codes and markers alike are stretches of the text.
* `classify_union` — a text with the patterns of two texts has the worse of their categories.
* `classify_sep` — so has a text made of two with a separator between them.
* `classify_joined` — joined errors have the category of the worst of them.
* `categoryOf`, `classify_code` — what `[NNNN]` alone comes to.
* `Unmarked` — a text without patterns.
-/

set_option autoImplicit false

namespace FlexQuery

/-! ## The order of the categories -/

/-- How soon `classify_flex_error` looks for the category. -/
def ErrorCategory.rank : ErrorCategory → ℕ
  | unknown => 0
  | transient => 1
  | notReady => 2
  | config => 3
  | throttled => 4

theorem ErrorCategory.rank_injective : Function.Injective ErrorCategory.rank := by
  intro a b h
  cases a <;> cases b <;> first | rfl | cases h

instance : LinearOrder ErrorCategory := LinearOrder.lift' ErrorCategory.rank
  ErrorCategory.rank_injective

theorem ErrorCategory.le_throttled (c : ErrorCategory) : c ≤ throttled := by
  cases c <;> decide

instance : OrderBot ErrorCategory where
  bot := .unknown
  bot_le _ := Nat.zero_le _

/-! ## Evidence -/

/-- The category a code is listed under. -/
def CodeSays (n : ℕ) : ErrorCategory → Prop
  | .throttled => n ∈ THROTTLED_CODES
  | .config => n ∈ CONFIG_CODES
  | .notReady => n ∈ NOT_READY_CODES
  | _ => False

/-- The category a marker is listed under. -/
def MarkerSays (k : String) : ErrorCategory → Prop
  | .config => k ∈ CONFIG_MARKERS
  | .transient => k ∈ TRANSIENT_MARKERS
  | _ => False

def MARKERS : List String := CONFIG_MARKERS ++ TRANSIENT_MARKERS

theorem MarkerSays.mem {k : String} {c : ErrorCategory} (h : MarkerSays k c) : k ∈ MARKERS := by
  cases c with
  | config => exact List.mem_append_left _ h
  | transient => exact List.mem_append_right _ h
  | throttled => cases h
  | notReady => cases h
  | unknown => cases h

/-- The text has evidence of the category; of `unknown` there is always some. -/
def Says (m : String) (c : ErrorCategory) : Prop :=
  c = .unknown ∨ (∃ n ∈ flexErrorCodes m, CodeSays n c) ∨ ∃ k, contains m k = true ∧ MarkerSays k c

theorem says_throttled {m : String} :
    Says m .throttled ↔ (flexErrorCodes m).any (· ∈ THROTTLED_CODES) = true := by
  simp [Says, CodeSays, MarkerSays]

theorem says_config {m : String} : Says m .config ↔
    ((flexErrorCodes m).any (· ∈ CONFIG_CODES) || CONFIG_MARKERS.any (contains m)) = true := by
  simp only [Says, CodeSays, MarkerSays, reduceCtorEq, false_or, Bool.or_eq_true, List.any_eq_true,
    decide_eq_true_eq]
  exact or_congr Iff.rfl (exists_congr fun k => And.comm)

theorem says_notReady {m : String} :
    Says m .notReady ↔ (flexErrorCodes m).any (· ∈ NOT_READY_CODES) = true := by
  simp [Says, CodeSays, MarkerSays]

theorem says_transient {m : String} :
    Says m .transient ↔ TRANSIENT_MARKERS.any (contains m) = true := by
  simp only [Says, CodeSays, MarkerSays, reduceCtorEq, false_or, List.any_eq_true]
  constructor
  · rintro (⟨n, _, h⟩ | ⟨k, hk, hmem⟩)
    · cases h
    · exact ⟨k, hmem, hk⟩
  · rintro ⟨k, hmem, hk⟩
    exact Or.inr ⟨k, hk, hmem⟩

/-- The answer is the greatest category there is evidence of. -/
theorem classify_isGreatest (m : String) : IsGreatest {c | Says m c} (classifyFlexError m) := by
  have hbelow : ∀ (top : ErrorCategory), Says m top →
      (∀ c, top < c → ¬ Says m c) → IsGreatest {c | Says m c} top := by
    intro top hspoken habove
    refine ⟨hspoken, ?_⟩
    intro c hc
    by_contra hle
    exact habove c (not_le.mp hle) hc
  unfold classifyFlexError
  simp only
  split
  · rename_i h
    refine hbelow _ (says_throttled.mpr h) ?_
    intro c hc
    cases c <;> exact absurd hc (by decide)
  · rename_i hthrottled
    rw [← says_throttled] at hthrottled
    split
    · rename_i h
      refine hbelow _ (says_config.mpr h) ?_
      intro c hc
      cases c <;> first | exact hthrottled | exact absurd hc (by decide)
    · rename_i hconfig
      rw [← says_config] at hconfig
      split
      · rename_i h
        refine hbelow _ (says_notReady.mpr h) ?_
        intro c hc
        cases c <;> first | exact hthrottled | exact hconfig | exact absurd hc (by decide)
      · rename_i hnotReady
        rw [← says_notReady] at hnotReady
        split
        · rename_i h
          refine hbelow _ (says_transient.mpr h) ?_
          intro c hc
          cases c <;> first
            | exact hthrottled | exact hconfig | exact hnotReady | exact absurd hc (by decide)
        · rename_i htransient
          rw [← says_transient] at htransient
          refine hbelow _ (Or.inl rfl) ?_
          intro c hc
          cases c <;> first
            | exact hthrottled | exact hconfig | exact hnotReady | exact htransient
            | exact absurd hc (by decide)

/-! ## Patterns -/

/-- The six characters of a quoted code. -/
def Quotes (n : ℕ) (k : List Char) : Prop :=
  ∃ a b c d, ∃ va ∈ digitValue a, ∃ vb ∈ digitValue b, ∃ vc ∈ digitValue c, ∃ vd ∈ digitValue d,
    k = ['[', a, b, c, d, ']'] ∧ n = 1000 * va + 100 * vb + 10 * vc + vd

theorem codeAt_eq_some {l : List Char} {n : ℕ} :
    codeAt l = some n ↔ ∃ k, Quotes n k ∧ k <+: l := by
  constructor
  · intro h
    unfold codeAt at h
    split at h
    · rename_i a b c d rest
      split at h
      · rename_i va vb vc vd ha hb hc hd
        exact ⟨_, ⟨a, b, c, d, va, ha, vb, hb, vc, hc, vd, hd, rfl, (Option.some.inj h).symm⟩,
          ⟨rest, rfl⟩⟩
      · cases h
    · cases h
  · rintro ⟨k, ⟨a, b, c, d, va, ha, vb, hb, vc, hc, vd, hd, rfl, rfl⟩, rest, rfl⟩
    rw [Option.mem_def] at ha hb hc hd
    simp only [List.cons_append, List.nil_append, codeAt, ha, hb, hc, hd]

theorem mem_flexErrorCodes {m : String} {n : ℕ} :
    n ∈ flexErrorCodes m ↔ ∃ k, Quotes n k ∧ k <:+: m.toList := by
  simp only [flexErrorCodes, List.mem_filterMap, List.mem_tails, codeAt_eq_some]
  constructor
  · rintro ⟨l, hl, k, hk, hpre⟩
    exact ⟨k, hk, List.infix_iff_prefix_suffix.mpr ⟨l, hpre, hl⟩⟩
  · rintro ⟨k, hk, hin⟩
    obtain ⟨l, hpre, hl⟩ := List.infix_iff_prefix_suffix.mp hin
    exact ⟨l, hl, k, hk, hpre⟩

/-- What `classify_flex_error` looks for: a quoted code or a marker. -/
def Pattern (k : List Char) : Prop := (∃ n, Quotes n k) ∨ ∃ s ∈ MARKERS, k = s.toList

theorem Pattern.ne_nil {k : List Char} (h : Pattern k) : k ≠ [] := by
  rcases h with ⟨n, a, b, c, d, va, _, vb, _, vc, _, vd, _, rfl, _⟩ | ⟨s, hs, rfl⟩
  · exact List.cons_ne_nil _ _
  · have hall : ∀ s ∈ MARKERS, s.toList ≠ [] := by decide
    exact hall s hs

theorem contains_iff {m k : String} : contains m k = true ↔ k.toList <:+: m.toList :=
  decide_eq_true_iff

/-- A text with the patterns of two. -/
theorem classify_union {m a b : String}
    (h : ∀ k, Pattern k → (k <:+: m.toList ↔ k <:+: a.toList ∨ k <:+: b.toList)) :
    classifyFlexError m = max (classifyFlexError a) (classifyFlexError b) := by
  have hcodes : ∀ n, n ∈ flexErrorCodes m ↔ n ∈ flexErrorCodes a ∨ n ∈ flexErrorCodes b := by
    intro n
    simp only [mem_flexErrorCodes, ← exists_or, ← and_or_left]
    exact exists_congr fun k => and_congr_right fun hk => h k (Or.inl ⟨n, hk⟩)
  have hmarkers : ∀ k ∈ MARKERS,
      contains m k = true ↔ contains a k = true ∨ contains b k = true := by
    intro k hk
    simp only [contains_iff]
    exact h _ (Or.inr ⟨k, hk, rfl⟩)
  have hset : {c | Says m c} = {c | Says a c} ∪ {c | Says b c} := by
    ext c
    simp only [Set.mem_ofPred_eq, Set.mem_union, Says]
    constructor
    · rintro (h | ⟨n, hn, hc⟩ | ⟨k, hk, hc⟩)
      · exact Or.inl (Or.inl h)
      · rcases (hcodes n).mp hn with hn | hn
        · exact Or.inl (Or.inr (Or.inl ⟨n, hn, hc⟩))
        · exact Or.inr (Or.inr (Or.inl ⟨n, hn, hc⟩))
      · rcases (hmarkers k hc.mem).mp hk with hk | hk
        · exact Or.inl (Or.inr (Or.inr ⟨k, hk, hc⟩))
        · exact Or.inr (Or.inr (Or.inr ⟨k, hk, hc⟩))
    · rintro ((h | ⟨n, hn, hc⟩ | ⟨k, hk, hc⟩) | (h | ⟨n, hn, hc⟩ | ⟨k, hk, hc⟩))
      · exact Or.inl h
      · exact Or.inr (Or.inl ⟨n, (hcodes n).mpr (Or.inl hn), hc⟩)
      · exact Or.inr (Or.inr ⟨k, (hmarkers k hc.mem).mpr (Or.inl hk), hc⟩)
      · exact Or.inl h
      · exact Or.inr (Or.inl ⟨n, (hcodes n).mpr (Or.inr hn), hc⟩)
      · exact Or.inr (Or.inr ⟨k, (hmarkers k hc.mem).mpr (Or.inr hk), hc⟩)
  have hgreatest := (classify_isGreatest a).union (classify_isGreatest b)
  rw [← hset] at hgreatest
  exact (classify_isGreatest m).unique hgreatest

/-- No pattern in the text. -/
def Unmarked (m : String) : Prop :=
  flexErrorCodes m = [] ∧ ∀ k ∈ MARKERS, contains m k = false

instance : DecidablePred Unmarked := fun _ => inferInstanceAs (Decidable (_ ∧ _))

theorem Unmarked.classify {m : String} (h : Unmarked m) : classifyFlexError m = .unknown := by
  have hspoken := (classify_isGreatest m).1
  rcases hspoken with hc | ⟨n, hn, _⟩ | ⟨k, hk, hc⟩
  · exact hc
  · rw [h.1] at hn
    cases hn
  · rw [h.2 k hc.mem] at hk
    cases hk

/-- Letters that make no marker. -/
theorem unmarked_of_chars {m : String} (hopen : '[' ∉ m.toList)
    (h : ∀ k ∈ MARKERS, ∃ x ∈ k.toList, x ∉ m.toList) : Unmarked m := by
  constructor
  · rw [List.eq_nil_iff_forall_not_mem]
    intro n hn
    obtain ⟨k, ⟨a, b, c, d, va, _, vb, _, vc, _, vd, _, rfl, _⟩, hin⟩ := mem_flexErrorCodes.mp hn
    exact hopen (hin.subset List.mem_cons_self)
  · intro k hk
    obtain ⟨x, hxk, hxm⟩ := h k hk
    exact decide_eq_false (Infix.not_infix_of_not_mem hxk hxm)

/-! ## Separators -/

/-- A character of no pattern. -/
def barrier (x : Char) : Bool :=
  x ≠ '[' && x ≠ ']' && (digitValue x).isNone && MARKERS.all fun s => x ∉ s.toList

/-- A character no pattern begins with. -/
def inert (x : Char) : Bool := x ≠ '[' && MARKERS.all fun s => s.toList.head? ≠ some x

/-- A text no pattern reaches over. -/
def separates (s : String) : Bool :=
  match s.toList with
  | [] => false
  | x :: rest => barrier x && rest.all inert

theorem Quotes.not_mem {n : ℕ} {k : List Char} (h : Quotes n k) {x : Char} (hopen : x ≠ '[')
    (hclose : x ≠ ']') (hdigit : digitValue x = none) : x ∉ k := by
  obtain ⟨a, b, c, d, va, ha, vb, hb, vc, hc, vd, hd, rfl, _⟩ := h
  rw [Option.mem_def] at ha hb hc hd
  simp only [List.mem_cons, List.not_mem_nil, or_false, not_or]
  refine ⟨hopen, ?_, ?_, ?_, ?_, hclose⟩ <;> rintro rfl <;> simp_all

theorem Pattern.not_mem {k : List Char} (h : Pattern k) {x : Char} (hx : barrier x = true) :
    x ∉ k := by
  simp only [barrier, Bool.and_eq_true, decide_eq_true_eq, ne_eq, Option.isNone_iff_eq_none,
    List.all_eq_true] at hx
  obtain ⟨⟨⟨hopen, hclose⟩, hdigit⟩, hmarkers⟩ := hx
  rcases h with ⟨n, hn⟩ | ⟨s, hs, rfl⟩
  · exact hn.not_mem hopen hclose hdigit
  · exact hmarkers s hs

theorem Pattern.head_ne {k : List Char} (h : Pattern k) {x : Char} (hx : inert x = true) :
    k.head? ≠ some x := by
  simp only [inert, Bool.and_eq_true, decide_eq_true_eq, ne_eq, List.all_eq_true] at hx
  rcases h with ⟨n, a, b, c, d, va, _, vb, _, vc, _, vd, _, rfl, _⟩ | ⟨s, hs, rfl⟩
  · simpa using fun h : '[' = x => hx.1 h.symm
  · exact hx.2 s hs

theorem Pattern.infix_inert {k : List Char} (h : Pattern k) {rest b : List Char}
    (hrest : rest.all inert = true) : k <:+: rest ++ b ↔ k <:+: b := by
  induction rest with
  | nil => rfl
  | cons x rest ih =>
    rw [List.all_cons, Bool.and_eq_true] at hrest
    rw [List.cons_append, Infix.infix_cons_iff_of_head h.ne_nil (h.head_ne hrest.1), ih hrest.2]

/-- Two texts with a separator between them. -/
theorem classify_sep {s : String} (hs : separates s = true) (a b : String) :
    classifyFlexError (a ++ s ++ b) = max (classifyFlexError a) (classifyFlexError b) := by
  unfold separates at hs
  split at hs
  · cases hs
  · rename_i x rest hchars
    rw [Bool.and_eq_true] at hs
    apply classify_union
    intro k hk
    rw [String.toList_append, String.toList_append, hchars, List.append_assoc, List.cons_append,
      Infix.infix_append_cons_iff hk.ne_nil (hk.not_mem hs.1), hk.infix_inert hs.2]

/-! ## Joined errors -/

/-- The worst category of the texts; of no text it is `unknown`. -/
theorem summarize_isGreatest (messages : List String) :
    IsGreatest (insert .unknown {c | c ∈ messages.map classifyFlexError})
      (summarizeCategories messages) := by
  have hsorted : SUMMARY_ORDER.Pairwise (· ≥ ·) := by decide
  have hall : ∀ c, c ∈ SUMMARY_ORDER := by
    intro c
    cases c <;> decide
  unfold summarizeCategories
  simp only
  generalize messages.map classifyFlexError = seen
  cases hfind : SUMMARY_ORDER.find? fun cat => cat ∈ seen with
  | none =>
    refine ⟨Or.inl rfl, ?_⟩
    rintro c (rfl | hc)
    · exact le_rfl
    · exact absurd hc (by simpa using List.find?_eq_none.mp hfind c (hall c))
  | some worst =>
    obtain ⟨hseen, before, after, horder, hbefore⟩ := List.find?_eq_some_iff_append.mp hfind
    refine ⟨Or.inr (by simpa using hseen), ?_⟩
    rintro c (rfl | hc)
    · exact bot_le
    · -- A category that is seen does not come before the first one that is.
      have hmem := hall c
      rw [horder] at hmem hsorted
      rcases List.mem_append.mp hmem with hc' | hc'
      · exact absurd hc (by simpa using hbefore c hc')
      · rcases List.mem_cons.mp hc' with rfl | hc'
        · exact le_rfl
        · exact (List.pairwise_cons.mp (List.pairwise_append.mp hsorted).2.1).1 c hc'

/-- `"; ".join` has the evidence of each text and no other. -/
theorem classify_join_isGreatest (messages : List String) :
    IsGreatest (insert .unknown {c | c ∈ messages.map classifyFlexError})
      (classifyFlexError ("; ".intercalate messages)) := by
  induction messages with
  | nil => simp [show classifyFlexError "" = .unknown from by decide]
  | cons m ms ih =>
    have hset : insert ErrorCategory.unknown {c | c ∈ (m :: ms).map classifyFlexError} =
        {classifyFlexError m} ∪ insert .unknown {c | c ∈ ms.map classifyFlexError} := by
      ext c
      simp only [List.map_cons, List.mem_cons, Set.mem_insert_iff, Set.mem_ofPred_eq,
        Set.mem_union, Set.mem_singleton_iff]
      tauto
    have hjoin : classifyFlexError ("; ".intercalate (m :: ms)) =
        max (classifyFlexError m) (classifyFlexError ("; ".intercalate ms)) := by
      cases ms with
      | nil =>
        rw [String.intercalate_singleton, String.intercalate_nil,
          show classifyFlexError "" = ⊥ from by decide, max_bot_right]
      | cons n ns => rw [String.intercalate_cons_cons, classify_sep (by decide)]
    rw [hset, hjoin]
    exact isGreatest_singleton.union ih

/-- **Joining takes the worst part.**  More texts never make the category a lesser one, only the
texts count and not their order or number, and a 1018 anywhere throttles. -/
theorem classify_joined (messages : List String) :
    classifyFlexError ("; ".intercalate messages) = summarizeCategories messages ∧
      (∀ more, messages ⊆ more → classifyFlexError ("; ".intercalate messages) ≤
        classifyFlexError ("; ".intercalate more)) ∧
      (∀ others, (∀ m, m ∈ others ↔ m ∈ messages) →
        classifyFlexError ("; ".intercalate others) =
          classifyFlexError ("; ".intercalate messages)) ∧
      ((∃ m ∈ messages, 1018 ∈ flexErrorCodes m) →
        classifyFlexError ("; ".intercalate messages) = .throttled) := by
  have hmono : ∀ few more : List String, few ⊆ more →
      classifyFlexError ("; ".intercalate few) ≤ classifyFlexError ("; ".intercalate more) := by
    intro few more hsub
    apply (classify_join_isGreatest more).2
    rcases (classify_join_isGreatest few).1 with h | h
    · exact Or.inl h
    · exact Or.inr (List.map_subset _ hsub h)
  refine ⟨(classify_join_isGreatest messages).unique (summarize_isGreatest messages),
    hmono messages, ?_, ?_⟩
  · intro others hsame
    exact le_antisymm (hmono _ _ fun m hm => (hsame m).mp hm)
      (hmono _ _ fun m hm => (hsame m).mpr hm)
  · rintro ⟨m, hm, hcode⟩
    apply le_antisymm (ErrorCategory.le_throttled _)
    apply (classify_join_isGreatest messages).2
    exact Or.inr (List.mem_map.mpr ⟨m, hm, classifyFlexError_throttled.mpr hcode⟩)

/-! ## A quoted code -/

/-- The category the code is listed under. -/
def categoryOf (n : ℕ) : ErrorCategory :=
  if n ∈ THROTTLED_CODES then .throttled
  else if n ∈ CONFIG_CODES then .config
  else if n ∈ NOT_READY_CODES then .notReady
  else .unknown

/-- The number four digits stand for. -/
def codeValue (code : String) : Option ℕ :=
  match code.toList with
  | [_, _, _, _] => codeAt ('[' :: code.toList ++ [']'])
  | _ => none

/-- The patterns of `[NNNN] msg` are those of its two parts. -/
theorem infix_quoted {k : List Char} (hk : Pattern k) (code msg : String) :
    k <:+: ("[" ++ code ++ "] " ++ msg).toList ↔
      k <:+: ("[" ++ code ++ "]").toList ∨ k <:+: msg.toList := by
  have hspace : inert ' ' = true := by decide
  rcases hk with ⟨n, hn⟩ | ⟨s, hs, rfl⟩
  · have hk : Pattern k := Or.inl ⟨n, hn⟩
    have htext : ("[" ++ code ++ "] " ++ msg).toList =
        ("[" ++ code ++ "]").toList ++ ' ' :: msg.toList := by
      simp
    rw [htext, Infix.infix_append_cons_iff hk.ne_nil
      (hn.not_mem (by decide) (by decide) (by decide))]
  · have hk : Pattern s.toList := Or.inr ⟨s, hs, rfl⟩
    have hclose : ']' ∉ s.toList := by
      have hall : ∀ s ∈ MARKERS, ']' ∉ s.toList := by decide
      exact hall s hs
    have htext : ("[" ++ code ++ "] " ++ msg).toList =
        ("[" ++ code).toList ++ ']' :: ' ' :: msg.toList := by
      simp
    have hquoted : ("[" ++ code ++ "]").toList = ("[" ++ code).toList ++ [']'] := by
      simp
    rw [htext, hquoted, Infix.infix_append_cons_iff hk.ne_nil hclose,
      Infix.infix_append_cons_iff hk.ne_nil hclose,
      Infix.infix_cons_iff_of_head hk.ne_nil (hk.head_ne hspace), List.infix_nil]
    simp [hk.ne_nil]

theorem Quotes.length {n : ℕ} {k : List Char} (h : Quotes n k) : k.length = 6 := by
  obtain ⟨a, b, c, d, va, _, vb, _, vc, _, vd, _, rfl, _⟩ := h
  rfl

theorem codeValue_quotes {code : String} {n : ℕ} (h : codeValue code = some n) :
    Quotes n ("[" ++ code ++ "]").toList := by
  have hchars : ("[" ++ code ++ "]").toList = '[' :: code.toList ++ [']'] := by simp
  unfold codeValue at h
  split at h
  · rename_i hcode
    obtain ⟨k, hk, hpre⟩ := codeAt_eq_some.mp h
    rw [hchars, ← hpre.eq_of_length (by rw [hk.length, hcode]; rfl)]
    exact hk
  · cases h

theorem Quotes.unique {n n' : ℕ} {k : List Char} (h : Quotes n k) (h' : Quotes n' k) : n = n' := by
  obtain ⟨a, b, c, d, va, ha, vb, hb, vc, hc, vd, hd, rfl, rfl⟩ := h
  obtain ⟨a', b', c', d', va', ha', vb', hb', vc', hc', vd', hd', hk, rfl⟩ := h'
  simp only [List.cons.injEq, true_and, and_true] at hk
  obtain ⟨rfl, rfl, rfl, rfl⟩ := hk
  rw [Option.mem_unique ha ha', Option.mem_unique hb hb', Option.mem_unique hc hc',
    Option.mem_unique hd hd']

/-- What a quoted code says. -/
theorem says_quoted {code : String} {n : ℕ} (hcode : codeValue code = some n) (c : ErrorCategory) :
    Says ("[" ++ code ++ "]") c ↔ c = .unknown ∨ CodeSays n c := by
  have hquotes := codeValue_quotes hcode
  have hcodes : ∀ n', n' ∈ flexErrorCodes ("[" ++ code ++ "]") ↔ n' = n := by
    intro n'
    rw [mem_flexErrorCodes]
    constructor
    · rintro ⟨k, hk, hin⟩
      have hwhole := hin.eq_of_length (by rw [hk.length, hquotes.length])
      exact (hwhole ▸ hk).unique hquotes
    · rintro rfl
      exact ⟨_, hquotes, List.infix_rfl⟩
  have hmarkers : ∀ k, contains ("[" ++ code ++ "]") k = true → ¬ MarkerSays k c := by
    intro k hk hc
    have hin := contains_iff.mp hk
    have hletter : ∀ s ∈ MARKERS, 'e' ∈ s.toList ∨ 'o' ∈ s.toList := by decide
    rcases hletter k hc.mem with h | h
    · exact hquotes.not_mem (by decide) (by decide) (by decide) (hin.subset h)
    · exact hquotes.not_mem (by decide) (by decide) (by decide) (hin.subset h)
  unfold Says
  constructor
  · rintro (h | ⟨n', hn', hc⟩ | ⟨k, hk, hc⟩)
    · exact Or.inl h
    · rw [(hcodes n').mp hn'] at hc
      exact Or.inr hc
    · exact absurd hc (hmarkers k hk)
  · rintro (h | hc)
    · exact Or.inl h
    · exact Or.inr (Or.inl ⟨n, (hcodes n).mpr rfl, hc⟩)

theorem categoryOf_isGreatest (n : ℕ) :
    IsGreatest {c | c = ErrorCategory.unknown ∨ CodeSays n c} (categoryOf n) := by
  unfold categoryOf
  split
  · rename_i h
    refine ⟨Or.inr h, ?_⟩
    intro c _
    cases c <;> decide
  · rename_i hthrottled
    split
    · rename_i h
      refine ⟨Or.inr h, ?_⟩
      rintro c (rfl | hc)
      · decide
      · cases c <;> first | exact absurd hc hthrottled | decide
    · rename_i hconfig
      split
      · rename_i h
        refine ⟨Or.inr h, ?_⟩
        rintro c (rfl | hc)
        · decide
        · cases c <;> first | exact absurd hc hthrottled | exact absurd hc hconfig | decide
      · rename_i hnotReady
        refine ⟨Or.inl rfl, ?_⟩
        rintro c (rfl | hc)
        · decide
        · cases c <;> first
            | exact absurd hc hthrottled | exact absurd hc hconfig | exact absurd hc hnotReady
            | exact hc.elim

/-- A code and a text without patterns. -/
theorem classify_code {code msg : String} {n : ℕ} (hcode : codeValue code = some n)
    (hmsg : Unmarked msg) : classifyFlexError ("[" ++ code ++ "] " ++ msg) = categoryOf n := by
  have hquoted : classifyFlexError ("[" ++ code ++ "]") = categoryOf n := by
    have hgreatest := classify_isGreatest ("[" ++ code ++ "]")
    simp only [says_quoted hcode] at hgreatest
    exact hgreatest.unique (categoryOf_isGreatest n)
  rw [classify_union fun k hk => infix_quoted hk code msg, hquoted, hmsg.classify]
  exact max_eq_left bot_le

/-- A text before a quoted code. -/
theorem classify_before (a y : String) :
    classifyFlexError (a ++ " [" ++ y) =
      max (classifyFlexError a) (classifyFlexError ("[" ++ y)) := by
  apply classify_union
  intro k hk
  rcases hk with ⟨n, hn⟩ | ⟨s, hs, rfl⟩
  · have hk : Pattern k := Or.inl ⟨n, hn⟩
    have htext : (a ++ " [" ++ y).toList = a.toList ++ ' ' :: ("[" ++ y).toList := by
      simp
    rw [htext, Infix.infix_append_cons_iff hk.ne_nil
      (hn.not_mem (by decide) (by decide) (by decide))]
  · have hk : Pattern s.toList := Or.inr ⟨s, hs, rfl⟩
    have hall : ∀ s ∈ MARKERS, '[' ∉ s.toList ∧ s.toList.getLast? ≠ some ' ' := by decide
    obtain ⟨hopen, hlast⟩ := hall s hs
    have htext : (a ++ " [" ++ y).toList = (a.toList ++ [' ']) ++ '[' :: y.toList := by
      simp
    have hrest : ("[" ++ y).toList = [] ++ '[' :: y.toList := by
      simp
    rw [htext, hrest, Infix.infix_append_cons_iff hk.ne_nil hopen,
      Infix.infix_append_cons_iff hk.ne_nil hopen, Infix.infix_concat_iff_of_last hk.ne_nil hlast,
      List.infix_nil]
    simp [hk.ne_nil]

end FlexQuery

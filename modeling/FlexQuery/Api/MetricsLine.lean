import FlexQuery.Library.Exposition
import FlexQuery.Api.HttpMetrics
import FlexQuery.Python.Dumps

/-!
# Lines of the metrics text

* `metricsLabel`, `metricsLine` — `_label` and `_line`: three replacements, one after the other.
* `metricsLabel_toList` — together they escape the value in which each line feed is a blank.
* `escapeLabel_eq` — `_escape` makes the same replacements.
* `metricsLine_readBack` — a sample is one line, and is read back with that value.
-/

set_option autoImplicit false

namespace FlexQuery

open Exposition

/-- `s.replace(old, new)` of one character. -/
def replaceChar (old : Char) (new s : String) : String :=
  String.ofList (s.toList.flatMap fun c => if c = old then new.toList else [c])

/-- `_label`. -/
def metricsLabel (v : String) : String :=
  replaceChar '\n' " " (replaceChar '"' "\\\"" (replaceChar '\\' "\\\\" v))

/-- `float | int`. -/
inductive MetricNumber where
  | int (n : ℤ)
  | float (x : PyFloat)

/-- `f"{value}"`. -/
def MetricNumber.text : MetricNumber → String
  | int n => toString n
  | float x => strFloat x

/-- `_line`. -/
def metricsLine (name : String) (value : MetricNumber) (labels : List (String × String)) : String :=
  if labels = [] then name ++ " " ++ value.text
  else
    let body := ",".intercalate (labels.map fun p => p.1 ++ "=\"" ++ metricsLabel p.2 ++ "\"")
    name ++ "\x7b" ++ body ++ "\x7d " ++ value.text

example : metricsLine "jobs" (.int 2) [("kind", "a\\\"b\nc")] =
    "jobs\x7bkind=\"a\\\\\\\"b c\"\x7d 2" := by decide +kernel

/-! ## The two escapes -/

/-- A blank for each line feed. -/
def spaced (v : String) : String :=
  String.ofList (v.toList.map fun c => if c = '\n' then ' ' else c)

theorem spaced_newline (v : String) : '\n' ∉ (spaced v).toList := by
  intro hmem
  rw [spaced, String.toList_ofList, List.mem_map] at hmem
  obtain ⟨c, -, hc⟩ := hmem
  by_cases hline : c = '\n'
  · rw [if_pos hline] at hc
    cases hc
  · rw [if_neg hline] at hc
    exact hline hc

/-- What the three replacements make of one character. -/
theorem metricsLabel_toList (v : String) :
    (metricsLabel v).toList = Exposition.escape (spaced v).toList := by
  simp only [metricsLabel, replaceChar, spaced, Exposition.escape, String.toList_ofList,
    List.flatMap_assoc, List.flatMap_map]
  congr 1
  funext c
  by_cases hback : c = '\\'
  · simp [hback]
  · by_cases hquote : c = '"'
    · simp [hquote]
    · by_cases hline : c = '\n'
      · simp [hline]
      · simp [hback, hquote, hline]

/-- The other copy makes the same replacements. -/
theorem escapeLabel_eq (v : String) : escapeLabel v = metricsLabel v := by
  apply String.toList_inj.mp
  rw [metricsLabel_toList, escapeLabel, spaced, Exposition.escape, String.toList_ofList,
    String.toList_ofList, List.flatMap_map]
  congr 1
  funext c
  by_cases hline : c = '\n'
  · simp [hline]
  · simp [hline]

/-! ## Read back -/

/-- What a reader makes of a line. -/
def sampleRead (name : String) (value : MetricNumber) (labels : List (String × String)) :
    SampleLine := ⟨name, labels.map fun p => (p.1, spaced p.2), value.text⟩

theorem metricsLine_toList (name : String) (value : MetricNumber)
    (labels : List (String × String)) :
    (metricsLine name value labels).toList = sampleText (sampleRead name value labels) := by
  unfold metricsLine sampleText sampleRead labelsText
  by_cases hlabels : labels = []
  · simp [hlabels]
  · have hbody : (",".intercalate (labels.map fun p =>
          p.1 ++ "=\"" ++ metricsLabel p.2 ++ "\"")).toList =
        [','].intercalate ((labels.map fun p => (p.1, spaced p.2)).map labelText) := by
      rw [String.toList_intercalate, List.map_map, List.map_map]
      congr 2
      funext p
      simp [labelText, metricsLabel_toList]
    simp [hlabels, hbody]

/-- A sample of the other module. -/
theorem braced_toList (name : String) (value : MetricNumber) (labels : List (String × String)) :
    (name ++ braced labels ++ " " ++ value.text).toList =
      sampleText (sampleRead name value labels) := by
  rw [← metricsLine_toList]
  unfold metricsLine braced FlexQuery.labels
  by_cases hlabels : labels = []
  · simp [hlabels]
  · simp [hlabels, escapeLabel_eq]

/-- A number is written without blanks. -/
theorem metricNumber_text (value : MetricNumber) : value.text.toList ≠ [] ∧
    ∀ c ∈ value.text.toList, c ≠ ' ' ∧ c ≠ '\n' := by
  have hplain : ∀ {t : String}, Numeral t → ∀ c ∈ t.toList, c ≠ ' ' ∧ c ≠ '\n' := by
    intro t ht c hc
    have hchar := ht c hc
    constructor
    · rintro rfl
      simp [isNumberChar] at hchar
    · rintro rfl
      simp [isNumberChar] at hchar
  cases value with
  | int n => exact ⟨(intText_spec n).1, hplain (intText_numeral n)⟩
  | float x =>
    by_cases hx : x.unpack.isFinite = true
    · obtain ⟨htext, hnumeral, hmark⟩ := floatText_numeral hx
      rw [htext] at hnumeral hmark
      refine ⟨?_, hplain hnumeral⟩
      rcases hmark with hmark | hmark
      · exact List.ne_nil_of_mem hmark
      · exact List.ne_nil_of_mem hmark
    · cases hunpack : x.unpack with
      | notANumber =>
        have htext : strFloat x = "nan" := by
          unfold strFloat
          rw [hunpack]
        simp [MetricNumber.text, htext]
      | infinity s =>
        have htext : strFloat x = signText s ++ "inf" := by
          unfold strFloat
          rw [hunpack]
        cases s <;> simp [MetricNumber.text, htext, signText]
      | zero s =>
        rw [hunpack] at hx
        exact absurd rfl hx
      | finite s m e h =>
        rw [hunpack] at hx
        exact absurd rfl hx

theorem sampleRead_readable {name : String} {labels : List (String × String)}
    (hname : isName isMetricStart isMetricChar name.toList = true)
    (hkeys : ∀ p ∈ labels, isName isLabelStart isLabelChar p.1.toList = true)
    (value : MetricNumber) : (sampleRead name value labels).Readable where
  name := hname
  keys := by
    intro l hl
    obtain ⟨p, hp, rfl⟩ := List.mem_map.mp hl
    exact hkeys p hp
  values := by
    intro l hl
    obtain ⟨p, -, rfl⟩ := List.mem_map.mp hl
    exact spaced_newline p.2
  some_value := (metricNumber_text value).1
  one_value := (metricNumber_text value).2

/-- **Samples stay on their line.**  Both modules write, for any names and values, one line that
is read back as those names and values, with a blank for each line feed. -/
theorem metricsLine_readBack (name : MetricName) (pairs : List (LabelName × String))
    (value : MetricNumber) :
    let labels := pairs.map fun p => (p.1.text, p.2)
    let read : SampleLine :=
      ⟨name.text, pairs.map fun p => (p.1.text, spaced p.2), value.text⟩
    OneLine (metricsLine name.text value labels).toList read ∧
      OneLine (name.text ++ braced labels ++ " " ++ value.text).toList read := by
  intro labels read
  have hread : sampleRead name.text value labels = read := by
    simp [sampleRead, labels, read]
  have hkeys : ∀ p ∈ labels, isName isLabelStart isLabelChar p.1.toList = true := by
    intro p hp
    obtain ⟨q, -, rfl⟩ := List.mem_map.mp hp
    exact q.1.valid
  have hreadable := sampleRead_readable name.valid hkeys value
  rw [metricsLine_toList, braced_toList, ← hread]
  exact ⟨oneLine_sampleText hreadable, oneLine_sampleText hreadable⟩

end FlexQuery

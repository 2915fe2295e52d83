import FlexQuery.Library.Transition

/-!
# The text exposition format

A sample is one line: a metric name, labels with quoted values, and a number.

* `MetricName`, `LabelName` — the names the format allows.
* `SampleLine` — what a line says.
* `step`, `readSample` — reading a line, character by character; in a quoted value a backslash
  stands before a backslash, a quote or an `n`.
* `escape`, `sampleText` — writing one.
* `readSample_sampleText` — a line is read back, unless a value has a line feed in it.
* `newline_not_mem` — nothing with a line feed in it is read as a line.
* `Line`, `readText` — a text of several lines: what is said about a metric, and its samples.
* `readText_linesText` — it is read back as well.
-/

set_option autoImplicit false

namespace Exposition

open Transition

/-! ## Names -/

def isMetricStart (c : Char) : Bool := c.isAlpha || c = '_' || c = ':'

def isMetricChar (c : Char) : Bool := isMetricStart c || c.isDigit

def isLabelStart (c : Char) : Bool := c.isAlpha || c = '_'

def isLabelChar (c : Char) : Bool := isLabelStart c || c.isDigit

/-- A first character, and others after it. -/
def isName (start more : Char → Bool) : List Char → Bool
  | [] => false
  | c :: rest => start c && rest.all more

structure MetricName where
  text : String
  valid : isName isMetricStart isMetricChar text.toList = true

structure LabelName where
  text : String
  valid : isName isLabelStart isLabelChar text.toList = true

/-! ## Reading -/

/-- What a sample says; the value as it is written. -/
structure SampleLine where
  name : String
  labels : List (String × String)
  value : String
  deriving DecidableEq, Repr

/-- How far a line has been read: what of it is complete, and the part being read. -/
inductive Reader where
  | metric (name : List Char)
  | label (name : String) (labels : List (String × String)) (part : List Char)
  /-- The quote that opens a value must follow. -/
  | opening (name : String) (labels : List (String × String)) (key : String)
  | quoted (name : String) (labels : List (String × String)) (key : String) (part : List Char)
  /-- After a backslash. -/
  | escaped (name : String) (labels : List (String × String)) (key : String) (part : List Char)
  | closed (name : String) (labels : List (String × String))
  /-- The blanks before the value. -/
  | blank (name : String) (labels : List (String × String))
  | value (name : String) (labels : List (String × String)) (part : List Char)

/-- Whether a name may go on with `c`. -/
def continues (start more : Char → Bool) (part : List Char) (c : Char) : Bool :=
  if part = [] then start c else more c

/-- What an escaped character stands for. -/
def unescape (c : Char) : Option Char :=
  if c = '\\' then some '\\' else if c = '"' then some '"' else if c = 'n' then some '\n' else none

def step : Reader → Char → Option Reader
  | .metric part, c =>
    if continues isMetricStart isMetricChar part c then some (.metric (part ++ [c]))
    else if part = [] then none
    else if c = '{' then some (.label (String.ofList part) [] [])
    else if c = ' ' then some (.blank (String.ofList part) [])
    else none
  | .label name labels part, c =>
    if continues isLabelStart isLabelChar part c then some (.label name labels (part ++ [c]))
    else if part = [] then if c = '}' then some (.blank name labels) else none
    else if c = '=' then some (.opening name labels (String.ofList part))
    else none
  | .opening name labels key, c => if c = '"' then some (.quoted name labels key []) else none
  | .quoted name labels key part, c =>
    if c = '"' then some (.closed name (labels ++ [(key, String.ofList part)]))
    else if c = '\\' then some (.escaped name labels key part)
    else if c = '\n' then none
    else some (.quoted name labels key (part ++ [c]))
  | .escaped name labels key part, c =>
    (unescape c).map fun d => .quoted name labels key (part ++ [d])
  | .closed name labels, c =>
    if c = ',' then some (.label name labels [])
    else if c = '}' then some (.blank name labels)
    else none
  | .blank name labels, c =>
    if c = ' ' then some (.blank name labels)
    else if c = '\n' then none
    else some (.value name labels [c])
  | .value name labels part, c =>
    if c = ' ' ∨ c = '\n' then none else some (.value name labels (part ++ [c]))

/-- A line that ends after its value. -/
def Reader.finish : Reader → Option SampleLine
  | .value name labels part => some ⟨name, labels, String.ofList part⟩
  | _ => none

def readSample (line : List Char) : Option SampleLine :=
  (exec step (.metric []) line).bind Reader.finish

/-! ## Writing -/

/-- Backslashes and quotes behind a backslash. -/
def escape (v : List Char) : List Char :=
  v.flatMap fun c => if c = '\\' then ['\\', '\\'] else if c = '"' then ['\\', '"'] else [c]

def labelText (l : String × String) : List Char :=
  l.1.toList ++ '=' :: '"' :: (escape l.2.toList ++ ['"'])

/-- The labels between braces, if there are any. -/
def labelsText (labels : List (String × String)) : List Char :=
  if labels = [] then []
  else '{' :: ([','].intercalate (labels.map labelText) ++ ['}'])

def sampleText (s : SampleLine) : List Char :=
  s.name.toList ++ labelsText s.labels ++ ' ' :: s.value.toList

/-! ## Reading back -/

/-- Characters that are collected one by one. -/
theorem exec_collect {σ χ : Type*} {step : σ → χ → Option σ} (f : List χ → σ) {text : List χ}
    (h : ∀ part, ∀ c ∈ text, step (f part) c = some (f (part ++ [c]))) (part : List χ) :
    exec step (f part) text = some (f (part ++ text)) := by
  induction text generalizing part with
  | nil => simp [exec]
  | cons c text ih =>
    have hrest := ih (fun part d hd => h part d (List.mem_cons_of_mem _ hd)) (part ++ [c])
    rw [exec, h part c List.mem_cons_self]
    simpa using hrest

theorem exec_step {σ χ : Type*} {step : σ → χ → Option σ} {s t : σ} {c : χ}
    (h : step s c = some t) (text : List χ) : exec step s (c :: text) = exec step t text := by
  simp only [exec, h]

/-- A run over a text and on from where it ends. -/
theorem exec_then {σ χ : Type*} {step : σ → χ → Option σ} {s t : σ} {text : List χ}
    (h : exec step s text = some t) (rest : List χ) :
    exec step s (text ++ rest) = exec step t rest := by
  induction text generalizing s with
  | nil => cases h; rfl
  | cons c text ih =>
    obtain ⟨u, hu, ht⟩ := exec_cons.mp h
    rw [List.cons_append, exec_step hu, ih ht]

/-- A name, collected while it may go on. -/
theorem exec_part {f : List Char → Reader} {start more : Char → Bool} {name : List Char}
    (h : isName start more name = true)
    (hstep : ∀ part c, continues start more part c = true →
      step (f part) c = some (f (part ++ [c]))) :
    exec step (f []) name = some (f name) := by
  cases name with
  | nil => cases h
  | cons c rest =>
    obtain ⟨hc, hrest⟩ := Bool.and_eq_true_iff.mp h
    have hfirst : step (f []) c = some (f [c]) := hstep [] c (by simp [continues, hc])
    rw [exec_step hfirst]
    refine @exec_collect _ _ step (fun part => f (c :: part)) rest ?_ []
    intro part d hd
    have hmore : more d = true := List.all_eq_true.mp hrest d hd
    exact hstep (c :: part) d (by simp [continues, hmore])

theorem exec_name {name : List Char} (h : isName isMetricStart isMetricChar name = true) :
    exec step (.metric []) name = some (.metric name) := by
  refine @exec_part Reader.metric _ _ name h ?_
  intro part c hc
  simp [step, hc]

theorem exec_label {name : String} {labels : List (String × String)} {key : List Char}
    (h : isName isLabelStart isLabelChar key = true) :
    exec step (.label name labels []) key = some (.label name labels key) := by
  refine @exec_part (Reader.label name labels) _ _ key h ?_
  intro part c hc
  simp [step, hc]

/-- A quoted value is read back, up to its closing quote. -/
theorem exec_quoted {name key : String} {labels : List (String × String)} {v : List Char}
    (h : '\n' ∉ v) (part rest : List Char) :
    exec step (.quoted name labels key part) (escape v ++ '"' :: rest) =
      exec step (.closed name (labels ++ [(key, String.ofList (part ++ v))])) rest := by
  induction v generalizing part with
  | nil => simp [escape, exec, step]
  | cons c v ih =>
    rw [List.mem_cons, not_or] at h
    have hrest := ih h.2 (part ++ [c])
    rw [List.append_assoc, List.singleton_append] at hrest
    by_cases hback : c = '\\'
    · simpa [escape, hback, exec, step, unescape] using hrest
    · by_cases hquote : c = '"'
      · simpa [escape, hquote, exec, step, unescape] using hrest
      · simpa [escape, hback, hquote, exec, step, Ne.symm h.1] using hrest

/-- One label, read from its name to its closing quote. -/
theorem exec_labelText {name : String} {labels : List (String × String)} {l : String × String}
    (hkey : isName isLabelStart isLabelChar l.1.toList = true) (hvalue : '\n' ∉ l.2.toList)
    (rest : List Char) :
    exec step (.label name labels []) (labelText l ++ rest) =
      exec step (.closed name (labels ++ [l])) rest := by
  have hne : l.1.toList ≠ [] := by
    intro hnil
    rw [hnil] at hkey
    cases hkey
  have hequals : step (.label name labels l.1.toList) '=' =
      some (.opening name labels l.1) := by
    simp [step, continues, hne, isLabelChar, isLabelStart]
  have hquote : step (.opening name labels l.1) '"' = some (.quoted name labels l.1 []) := by
    simp [step]
  calc exec step (.label name labels []) (labelText l ++ rest)
      = exec step (.label name labels [])
          (l.1.toList ++ '=' :: '"' :: (escape l.2.toList ++ '"' :: rest)) := by
        simp [labelText]
    _ = exec step (.quoted name labels l.1 []) (escape l.2.toList ++ '"' :: rest) := by
        rw [exec_then (exec_label hkey), exec_step hequals, exec_step hquote]
    _ = exec step (.closed name (labels ++ [l])) rest := by
        rw [exec_quoted hvalue]
        simp

/-- Labels with commas between them, read up to the closing brace. -/
theorem exec_labels {name : String} {l : String × String} {more : List (String × String)}
    (hkeys : ∀ x ∈ l :: more, isName isLabelStart isLabelChar x.1.toList = true)
    (hvalues : ∀ x ∈ l :: more, '\n' ∉ x.2.toList) (labels : List (String × String))
    (rest : List Char) :
    exec step (.label name labels [])
        ([','].intercalate ((l :: more).map labelText) ++ '}' :: rest) =
      exec step (.blank name (labels ++ l :: more)) rest := by
  have hfirst := fun rest => @exec_labelText name labels l (hkeys l List.mem_cons_self)
    (hvalues l List.mem_cons_self) rest
  induction more generalizing l labels with
  | nil =>
    have hclose : step (.closed name (labels ++ [l])) '}' =
        some (.blank name (labels ++ [l])) := by
      simp [step]
    simp only [List.map_cons, List.map_nil, List.intercalate_singleton]
    rw [hfirst, exec_step hclose]
  | cons m more ih =>
    have hcomma : step (.closed name (labels ++ [l])) ',' =
        some (.label name (labels ++ [l]) []) := by
      simp [step]
    have hrest := ih (fun x hx => hkeys x (List.mem_cons_of_mem _ hx))
      (fun x hx => hvalues x (List.mem_cons_of_mem _ hx)) (labels ++ [l])
      (fun rest => exec_labelText (hkeys m (by simp)) (hvalues m (by simp)) rest)
    rw [List.map_cons, List.map_cons, List.intercalate_cons_cons, List.append_assoc,
      List.append_assoc, hfirst, List.singleton_append, exec_step hcomma]
    simpa using hrest

/-- What can be read back: names of the format, values on one line, a value without blanks. -/
structure SampleLine.Readable (s : SampleLine) : Prop where
  name : isName isMetricStart isMetricChar s.name.toList = true
  keys : ∀ l ∈ s.labels, isName isLabelStart isLabelChar l.1.toList = true
  values : ∀ l ∈ s.labels, '\n' ∉ l.2.toList
  some_value : s.value.toList ≠ []
  one_value : ∀ c ∈ s.value.toList, c ≠ ' ' ∧ c ≠ '\n'

/-- From the name to the blank before the value. -/
theorem exec_head {s : SampleLine} (h : s.Readable) (rest : List Char) :
    exec step (.metric []) (s.name.toList ++ labelsText s.labels ++ ' ' :: rest) =
      exec step (.blank s.name s.labels) rest := by
  have hne : s.name.toList ≠ [] := by
    intro hnil
    have hname := h.name
    rw [hnil] at hname
    cases hname
  rw [List.append_assoc, exec_then (exec_name h.name)]
  cases hlabels : s.labels with
  | nil =>
    have hblank : step (.metric s.name.toList) ' ' = some (.blank s.name []) := by
      simp [step, continues, hne, isMetricChar, isMetricStart]
    rw [labelsText, if_pos rfl, List.nil_append, exec_step hblank]
  | cons l more =>
    have hopen : step (.metric s.name.toList) '{' = some (.label s.name [] []) := by
      simp [step, continues, hne, isMetricChar, isMetricStart]
    have hblank : step (.blank s.name (l :: more)) ' ' = some (.blank s.name (l :: more)) := by
      simp [step]
    have hread := @exec_labels s.name l more (by rw [← hlabels]; exact h.keys)
      (by rw [← hlabels]; exact h.values) [] (' ' :: rest)
    rw [labelsText, if_neg (List.cons_ne_nil l more), List.cons_append, exec_step hopen,
      List.append_assoc, List.singleton_append, hread, List.nil_append, exec_step hblank]

/-- **Round trip.**  A sample is read back from its line. -/
theorem readSample_sampleText {s : SampleLine} (h : s.Readable) :
    readSample (sampleText s) = some s := by
  obtain ⟨c, rest, hvalue⟩ := List.exists_cons_of_ne_nil h.some_value
  have hone := h.one_value
  rw [hvalue] at hone
  have hc := hone c List.mem_cons_self
  have hstart : step (.blank s.name s.labels) c = some (.value s.name s.labels [c]) := by
    simp [step, hc.1, hc.2]
  have hrest : ∀ part, ∀ d ∈ rest, step (.value s.name s.labels (c :: part)) d =
      some (.value s.name s.labels (c :: (part ++ [d]))) := by
    intro part d hd
    have := hone d (List.mem_cons_of_mem _ hd)
    simp [step, this.1, this.2]
  have hrun := @exec_collect _ _ step (fun part => Reader.value s.name s.labels (c :: part)) rest
    hrest []
  unfold readSample sampleText
  rw [hvalue, exec_head h, exec_step hstart, hrun, List.nil_append, ← hvalue]
  simp [Reader.finish]

/-- No state reads a line feed. -/
theorem step_newline (r : Reader) : step r '\n' = none := by
  cases r <;> simp [step, continues, unescape, isMetricChar, isMetricStart, isLabelChar,
    isLabelStart]

/-- **One line.**  What can be read has no line feed in it. -/
theorem newline_not_mem {line : List Char} {s : SampleLine} (h : readSample line = some s) :
    '\n' ∉ line := by
  intro hmem
  obtain ⟨before, after, rfl⟩ := List.append_of_mem hmem
  obtain ⟨r, hr, -⟩ := Option.bind_eq_some_iff.mp h
  obtain ⟨u, -, hu⟩ := exec_append.mp hr
  obtain ⟨t, ht, -⟩ := exec_cons.mp hu
  rw [step_newline] at ht
  cases ht

/-- A text that stays on its line and says `s`. -/
structure OneLine (text : List Char) (s : SampleLine) : Prop where
  one_line : '\n' ∉ text
  read : readSample text = some s

theorem oneLine_sampleText {s : SampleLine} (h : s.Readable) : OneLine (sampleText s) s where
  one_line := newline_not_mem (readSample_sampleText h)
  read := readSample_sampleText h

/-! ## A text of several lines -/

/-- Two kinds of comment are about a metric: what it is for, and its kind. -/
inductive Line where
  | help (name text : String)
  | type (name kind : String)
  | sample (s : SampleLine)
  deriving DecidableEq, Repr

def HELP : List Char := ['#', ' ', 'H', 'E', 'L', 'P', ' ']

def TYPE : List Char := ['#', ' ', 'T', 'Y', 'P', 'E', ' ']

namespace Line

/-- The metric a line is about. -/
def name : Line → String
  | help name _ => name
  | type name _ => name
  | sample s => s.name

def text : Line → List Char
  | help name text => HELP ++ (name.toList ++ ' ' :: text.toList)
  | type name kind => TYPE ++ (name.toList ++ ' ' :: kind.toList)
  | sample s => sampleText s

def Readable : Line → Prop
  | help name text => isName isMetricStart isMetricChar name.toList = true ∧ '\n' ∉ text.toList
  | type name kind => isName isMetricStart isMetricChar name.toList = true ∧ '\n' ∉ kind.toList
  | sample s => s.Readable

end Line

/-- A metric name, a blank, and what follows. -/
def readNamed (text : List Char) : Option (String × String) :=
  let name := text.takeWhile (· ≠ ' ')
  match text.dropWhile (· ≠ ' ') with
  | [] => none
  | _ :: rest =>
    if isName isMetricStart isMetricChar name && '\n' ∉ rest then
      some (String.ofList name, String.ofList rest)
    else none

def readLine (line : List Char) : Option Line :=
  if HELP <+: line then
    (readNamed (line.drop HELP.length)).map fun p => .help p.1 p.2
  else if TYPE <+: line then
    (readNamed (line.drop TYPE.length)).map fun p => .type p.1 p.2
  else (readSample line).map .sample

/-- Every line is ended by a line feed. -/
def readText (text : List Char) : Option (List Line) :=
  (text.splitOn '\n').dropLast.mapM readLine

def linesText (lines : List Line) : List Char := lines.flatMap fun l => l.text ++ ['\n']

/-- A name has no other characters than those of names. -/
theorem mem_of_isName {name : List Char} (h : isName isMetricStart isMetricChar name = true)
    {c : Char} (hc : c ∈ name) : isMetricChar c = true := by
  cases name with
  | nil => cases hc
  | cons d rest =>
    obtain ⟨hd, hrest⟩ := Bool.and_eq_true_iff.mp h
    rcases List.mem_cons.mp hc with rfl | hc
    · simp [isMetricChar, hd]
    · exact List.all_eq_true.mp hrest c hc

theorem readNamed_eq {name rest : String}
    (hname : isName isMetricStart isMetricChar name.toList = true) (hrest : '\n' ∉ rest.toList) :
    readNamed (name.toList ++ ' ' :: rest.toList) = some (name, rest) := by
  have hblank : ∀ c ∈ name.toList, decide (c ≠ ' ') = true := by
    intro c hc
    have hchar := mem_of_isName hname hc
    rw [decide_eq_true_iff]
    rintro rfl
    simp [isMetricChar, isMetricStart] at hchar
  unfold readNamed
  rw [List.takeWhile_append_of_pos hblank, List.dropWhile_append_of_pos hblank]
  simp [hname, hrest]

/-- A sample does not begin like a comment. -/
theorem sampleText_head {s : SampleLine} (h : s.Readable) (rest : List Char) :
    ¬ '#' :: rest <+: sampleText s := by
  intro hpre
  have hname := h.name
  cases hchars : s.name.toList with
  | nil =>
    rw [hchars] at hname
    cases hname
  | cons c more =>
    rw [sampleText, hchars, List.append_assoc, List.cons_append, List.cons_prefix_cons] at hpre
    rw [hchars, ← hpre.1] at hname
    simp [isName, isMetricStart] at hname

/-- **Round trip of a line.** -/
theorem readLine_text {l : Line} (h : l.Readable) : readLine l.text = some l := by
  cases l with
  | help name text =>
    have hnamed : readNamed (name.toList ++ ' ' :: text.toList) = some (name, text) := by
      obtain ⟨hname, htext⟩ := h
      exact readNamed_eq hname htext
    rw [readLine, Line.text, if_pos (List.prefix_append _ _), List.drop_left, hnamed]
    rfl
  | type name kind =>
    have hnamed : readNamed (name.toList ++ ' ' :: kind.toList) = some (name, kind) := by
      obtain ⟨hname, hkind⟩ := h
      exact readNamed_eq hname hkind
    have hother : ∀ rest, ¬ HELP <+: TYPE ++ rest := by
      simp [HELP, TYPE]
    rw [readLine, Line.text, if_neg (hother _), if_pos (List.prefix_append _ _), List.drop_left,
      hnamed]
    rfl
  | sample s =>
    have hhelp : ¬ HELP <+: sampleText s := sampleText_head h _
    have htype : ¬ TYPE <+: sampleText s := sampleText_head h _
    rw [readLine, Line.text, if_neg hhelp, if_neg htype, readSample_sampleText h]
    rfl

theorem readable_newline {l : Line} (h : l.Readable) : '\n' ∉ l.text := by
  have hcomment : ∀ name rest : String, isName isMetricStart isMetricChar name.toList = true →
      '\n' ∉ rest.toList → '\n' ∉ name.toList ++ ' ' :: rest.toList := by
    intro name rest hname hrest hmem
    rcases List.mem_append.mp hmem with hmem | hmem
    · have hchar := mem_of_isName hname hmem
      simp [isMetricChar, isMetricStart] at hchar
    · exact hrest (by simpa using hmem)
  cases l with
  | help name text =>
    obtain ⟨hname, htext⟩ := h
    simpa [Line.text, HELP] using hcomment name text hname htext
  | type name kind =>
    obtain ⟨hname, hkind⟩ := h
    simpa [Line.text, TYPE] using hcomment name kind hname hkind
  | sample s => exact (oneLine_sampleText h).one_line

/-- A line feed between any two lines, and one at the end. -/
theorem intercalate_newline {lines : List Line} (h : lines ≠ []) :
    ['\n'].intercalate (lines.map Line.text) ++ ['\n'] = linesText lines := by
  induction lines with
  | nil => exact absurd rfl h
  | cons l lines ih =>
    cases lines with
    | nil => simp [linesText]
    | cons m lines =>
      have hrest := ih (List.cons_ne_nil m lines)
      rw [List.map_cons, List.map_cons, List.intercalate_cons_cons, List.append_assoc,
        ← List.map_cons, hrest]
      simp [linesText]

theorem splitOn_linesText {lines : List Line} (h : ∀ l ∈ lines, l.Readable) :
    (linesText lines).splitOn '\n' = lines.map Line.text ++ [[]] := by
  have hjoin : linesText lines = ['\n'].intercalate (lines.map Line.text ++ [[]]) := by
    clear h
    induction lines with
    | nil => rfl
    | cons l lines ih =>
      rw [List.map_cons, List.cons_append, List.intercalate_cons_of_ne_nil (by simp), ← ih]
      simp [linesText]
  rw [hjoin, List.splitOn_intercalate _ ?_ (by simp)]
  intro text htext
  rcases List.mem_append.mp htext with htext | htext
  · obtain ⟨l, hl, rfl⟩ := List.mem_map.mp htext
    exact readable_newline (h l hl)
  · rw [List.mem_singleton.mp htext]
    exact List.not_mem_nil

/-- **Round trip of a text.** -/
theorem readText_linesText {lines : List Line} (h : ∀ l ∈ lines, l.Readable) :
    readText (linesText lines) = some lines := by
  have hread : (lines.map Line.text).mapM readLine = some lines := by
    induction lines with
    | nil => rfl
    | cons l lines ih =>
      rw [List.map_cons, List.mapM_cons, readLine_text (h l List.mem_cons_self),
        ih fun x hx => h x (List.mem_cons_of_mem _ hx)]
      rfl
  rw [readText, splitOn_linesText h, List.dropLast_concat, hread]

end Exposition

/-
Field texts on their lines.

The expression for a field text is put on a line like any other text, and a line that holds
a line feed is cut there and indented part by part.  For code that is as it should be.  For
a string it is not: what is put in front of its second part becomes part of the string.

So everything depends on whether an expression can hold a line feed.  Numbers have none,
quoted texts have it escaped, look-ups are made of quoted names, and an f-string escapes it.
A template literal does not: it may span lines, and the line feeds of the text between its
references stand in it as they are.  That is the one case in which a value is not written
intact, and `written_intact_iff` says so both ways.
-/
import FlowSuite.Proofs.Indentation.Block

namespace FlowSuite

namespace JavaScript

theorem newline_mem_templateText {cs : List Char} : '\n' ∈ templateText cs ↔ '\n' ∈ cs := by
  fun_induction templateText cs with
  | case1 => exact Iff.rfl
  | case2 cs ih => simp [ih]
  | case3 c cs hdollar hc ih => simp [ih]
  | case4 c cs hdollar hc ih => simp [ih]

/-- A template literal is on one line if its expressions and its texts are. -/
theorem oneLine_interpolate_iff {pieces : List Piece}
    (hexpr : ∀ e, .expr e ∈ pieces → Text.OneLine e) :
    Text.OneLine (interpolate pieces) ↔ ∀ s, .text s ∈ pieces → Text.OneLine s := by
  have hpart : ∀ p ∈ pieces, '\n' ∈ templatePart p ↔ ∃ s, p = .text s ∧ '\n' ∈ s.toList := by
    intro p hp
    cases p with
    | text s => simp [templatePart, newline_mem_templateText]
    | expr e =>
        have he : '\n' ∉ e.toList := hexpr e hp
        simp [templatePart, he]
  have hmem : '\n' ∈ (interpolate pieces).toList ↔ ∃ p ∈ pieces, '\n' ∈ templatePart p := by
    simp [interpolate]
  rw [Text.OneLine, hmem]
  constructor
  · intro h s hs hnewline
    exact h ⟨.text s, hs, (hpart _ hs).mpr ⟨s, rfl, hnewline⟩⟩
  · rintro h ⟨p, hp, hnewline⟩
    obtain ⟨s, rfl, hs⟩ := (hpart p hp).mp hnewline
    exact h s hp hs

end JavaScript

/-- A field text that mixes references with a text in which there is a line feed. -/
def Text.BreaksBetween (raw : String) : Prop :=
  (Segment.scan (trim raw)).any Segment.isRef = true ∧
    ∃ s, .text s ∈ Segment.scan (trim raw) ∧ ¬OneLine s

namespace Target

theorem text_mem_map_piece {t : Target} {segments : List Segment} {s : String} :
    .text s ∈ segments.map t.piece ↔ .text s ∈ segments := by
  constructor
  · intro h
    obtain ⟨segment, hsegment, hs⟩ := List.mem_map.mp h
    cases segment with
    | text text =>
        cases hs
        exact hsegment
    | ref p => cases hs
  · intro h
    exact List.mem_map.mpr ⟨_, h, rfl⟩

/-- A string that is put together is on one line, unless it is a template literal with a
line feed between its references. -/
theorem oneLine_interpolate_iff (t : Target) (segments : List Segment) :
    Text.OneLine (t.interpolate (segments.map t.piece)) ↔
      ¬(t = .cypress ∧ ∃ s, .text s ∈ segments ∧ ¬Text.OneLine s) := by
  cases t with
  | selenium =>
      refine iff_of_true (Selenium.oneLine_interpolated segments) ?_
      rintro ⟨h, -⟩
      cases h
  | cypress =>
      refine (JavaScript.oneLine_interpolate_iff fun _ he => oneLine_of_expr_mem he).trans ?_
      simp [text_mem_map_piece]

/-- The expression for a field text that is no assignment is on one line, unless it is a
template literal with a line feed between its references. -/
theorem oneLine_translate_iff (t : Target) {raw : String}
    (hplain : (Text.trim raw).toList.head? ≠ some '=') :
    Text.OneLine (t.translate raw) ↔ ¬(t = .cypress ∧ Text.BreaksBetween raw) := by
  rw [translate, Value.classify_of_ne hplain, Text.BreaksBetween, Segment.scan]
  rcases Value.ofChars_cases (Text.trim raw).toList with
    ⟨p, hvalue, hscan⟩ | ⟨hvalue, href⟩ | ⟨hno, hvalue⟩
  · rw [hvalue, hscan]
    refine iff_of_true (t.oneLine_accessor p) ?_
    rintro ⟨-, -, s, hs, -⟩
    cases List.mem_singleton.mp hs
  · rw [hvalue, href]
    refine (t.oneLine_interpolate_iff (Segment.scanChars (Text.trim raw).toList)).trans ?_
    rw [eq_self_iff_true, true_and]
  · refine iff_of_true ?_ ?_
    · rcases hvalue with ⟨hvalue, hnumber⟩ | hvalue
      · rw [hvalue]
        exact oneLine_of_isDecimal hnumber
      · rw [hvalue]
        exact Text.oneLine_quote _
    · rintro ⟨-, href, -⟩
      rw [hno] at href
      cases href

/-- What has a value is not empty. -/
theorem ne_empty_of_eval {t : Target} {store : Path → String} {code value : String}
    (h : t.eval store code = some value) : code ≠ "" := by
  rintro rfl
  cases t with
  | selenium => cases h
  | cypress => cases h

theorem interpolate_ne_empty (t : Target) {segments : List Segment}
    (href : segments.any Segment.isRef = true) : t.interpolate (segments.map t.piece) ≠ "" := by
  cases t with
  | selenium => exact ne_empty_of_eval (t := .selenium) (Python.eval_interpolate Path.text href)
  | cypress =>
      intro hempty
      have hchars := congrArg String.toList hempty
      simp [interpolate, JavaScript.interpolate] at hchars

theorem translate_ne_empty (t : Target) {raw : String}
    (hplain : (Text.trim raw).toList.head? ≠ some '=') : t.translate raw ≠ "" := by
  rw [translate, Value.classify_of_ne hplain]
  rcases Value.ofChars_cases (Text.trim raw).toList with
    ⟨p, hvalue, -⟩ | ⟨hvalue, href⟩ | ⟨-, ⟨hvalue, hnumber⟩ | hvalue⟩
  · rw [hvalue]
    exact ne_empty_of_eval (t.eval_accessor Path.text p)
  · rw [hvalue]
    exact t.interpolate_ne_empty href
  · rw [hvalue]
    exact ne_empty_of_eval (t.eval_of_isDecimal Path.text hnumber)
  · rw [hvalue]
    exact ne_empty_of_eval (t.eval_quote Path.text _)

end Target

/-- A text comes onto a sheet as it is: it is one line, and what is added is its blanks, the
text and a line feed. -/
def Sheet.WritesIntact (s : Sheet) (depth : Nat) (text : String) : Prop :=
  Text.OneLine text ∧
    (s.write [below depth text]).text
      = s.text ++ (indentation (s.level + depth) ++ text ++ "\n")

theorem Sheet.writesIntact_iff (s : Sheet) (depth : Nat) {text : String} (hne : text ≠ "") :
    s.WritesIntact depth text ↔ Text.OneLine text := by
  refine ⟨And.left, fun h => ⟨h, ?_⟩⟩
  have hrender : (below depth text).render s.level
      = indentation (s.level + depth) ++ text ++ "\n" :=
    Line.render_of_oneLine hne h s.level
  have hall : Line.renderAll s.level [below depth text] = (below depth text).render s.level := by
    simp [Line.renderAll]
  rw [write, hall, hrender]

/-- **A field text that is no assignment is written intact, unless it becomes a template
literal with a line feed between its references.**  Then the literal is cut at the line
feed, and the blanks in front of its further lines go into the string. -/
theorem written_intact_iff (t : Target) (raw : String) (s : Sheet) (depth : Nat)
    (hplain : (Text.trim raw).toList.head? ≠ some '=') :
    s.WritesIntact depth (t.translate raw) ↔
      ¬(t = .cypress ∧ Text.BreaksBetween raw) := by
  rw [s.writesIntact_iff depth (t.translate_ne_empty hplain)]
  exact t.oneLine_translate_iff hplain

/-- A greeting over two lines. -/
def twoLineGreeting : String := "Dear $\x7bname\x7d,\nwelcome"

/-- In Python the greeting is one line, as it was given. -/
theorem twoLineGreeting_in_python :
    (Text.trim twoLineGreeting).toList.head? ≠ some '=' ∧
      ({ level := 2 } : Sheet).WritesIntact 1 (Target.selenium.translate twoLineGreeting) := by
  have hplain : (Text.trim twoLineGreeting).toList.head? ≠ some '=' := by decide
  refine ⟨hplain, (written_intact_iff .selenium _ _ _ hplain).mpr ?_⟩
  rintro ⟨h, -⟩
  cases h

/-- In JavaScript it is cut, and what the test sees is not what was given. -/
theorem twoLineGreeting_is_cut :
    (Text.trim twoLineGreeting).toList.head? ≠ some '=' ∧
      ¬({ level := 1 } : Sheet).WritesIntact 0 (Target.cypress.translate twoLineGreeting) ∧
      (({ level := 1 } : Sheet).write [line (Target.cypress.translate twoLineGreeting)]).text
        = "    `Dear $\x7bCypress.env(\"name\")\x7d,\n    welcome`\n" ∧
      JavaScript.eval Path.text "`Dear $\x7bCypress.env(\"name\")\x7d,\n    welcome`"
        = some "Dear name,\n    welcome" ∧
      Segment.meaning Path.text (Segment.scan (Text.trim twoLineGreeting))
        = "Dear name,\nwelcome" := by
  refine ⟨by decide, ?_, ?_, ?_, ?_⟩
  · rintro ⟨honeLine, -⟩
    exact absurd honeLine (by decide +kernel)
  · decide +kernel
  · decide +kernel
  · decide +kernel

end FlowSuite

/-
The brackets of JavaScript code.

A scanner reads code from left to right and keeps the brackets that are open.  Brackets in
double-quoted literals, in the text of a template literal and in a comment do not count;
the expression of a substitution is code again, and its closing brace goes back to the
text around it.  The code is balanced if the scanner never meets a bracket that does not
close the last one opened, and ends in plain code with nothing open.

Code is put together from pieces that open brackets and pieces that close them, so a piece
is described by what it does to the brackets on top (`Turns`); what is open below does not
matter to it.  For fixed text this is computed.  Lines are described in the same way, and
it makes no difference how deep they stand or where a line feed inside of them has cut
them in two: a scanner that is past a line feed is not moved by blanks.
-/
import FlowSuite.Proofs.Indentation.Level

namespace FlowSuite.JavaScript

/-! ### The scanner -/

/-- Something that is open in code. -/
inductive Bracket where
  | round
  | square
  | curly
  /-- The expression inside of a template literal. -/
  | substitution
  deriving DecidableEq, Repr

/-- Where a scanner stands. -/
inductive Mode where
  | code
  /-- In code, right after a slash. -/
  | slash
  | comment
  | literal
  /-- In a double-quoted literal, right after a backslash. -/
  | literalEscape
  | template
  /-- In the text of a template literal, right after a backslash. -/
  | templateEscape
  /-- In the text of a template literal, right after a dollar sign. -/
  | dollar
  deriving DecidableEq, Repr

namespace Bracket

/-- What closes it. -/
def closer : Bracket → Char
  | .round => ')'
  | .square => ']'
  | .curly => '}'
  | .substitution => '}'

/-- Where the scanner stands when it is closed. -/
def outside : Bracket → Mode
  | .substitution => .template
  | _ => .code

end Bracket

/-- A scanner: where it stands, and the brackets that are open, the last one first. -/
structure Scan where
  mode : Mode := .code
  opened : List Bracket := []
  deriving DecidableEq, Repr

namespace Scan

/-- The scanner behind a closing bracket, which must be that of the last one opened. -/
def close (c : Char) : List Bracket → Option Scan
  | [] => none
  | b :: rest => if b.closer = c then some ⟨b.outside, rest⟩ else none

/-- The scanner behind a character of code. -/
def code (opened : List Bracket) : Char → Option Scan
  | '(' => some ⟨.code, .round :: opened⟩
  | '[' => some ⟨.code, .square :: opened⟩
  | '{' => some ⟨.code, .curly :: opened⟩
  | ')' => close ')' opened
  | ']' => close ']' opened
  | '}' => close '}' opened
  | '"' => some ⟨.literal, opened⟩
  | '\x60' => some ⟨.template, opened⟩
  | '/' => some ⟨.slash, opened⟩
  | _ => some ⟨.code, opened⟩

/-- Where the scanner stands behind a character of a double-quoted literal. -/
def literal : Char → Mode
  | '"' => .code
  | '\\' => .literalEscape
  | _ => .literal

/-- Where the scanner stands behind a character of the text of a template literal. -/
def template : Char → Mode
  | '\x60' => .code
  | '\\' => .templateEscape
  | '$' => .dollar
  | _ => .template

/-- The scanner behind a character. -/
def step (s : Scan) (c : Char) : Option Scan :=
  match s.mode with
  | .code => code s.opened c
  | .slash => if c = '/' then some ⟨.comment, s.opened⟩ else code s.opened c
  | .comment => some ⟨if c = '\n' then .code else .comment, s.opened⟩
  | .literal => some ⟨literal c, s.opened⟩
  | .literalEscape => some ⟨.literal, s.opened⟩
  | .template => some ⟨template c, s.opened⟩
  | .templateEscape => some ⟨.template, s.opened⟩
  | .dollar =>
      if c = '{' then some ⟨.code, .substitution :: s.opened⟩ else some ⟨template c, s.opened⟩

/-- The scanner behind a text, unless a bracket in it closes nothing. -/
def run (s : Scan) : List Char → Option Scan
  | [] => some s
  | c :: cs => (s.step c).bind (run · cs)

end Scan

/-- All brackets of the source that count are nested and closed. -/
def Balanced (source : String) : Prop :=
  ({} : Scan).run source.toList = some {}

instance (source : String) : Decidable (Balanced source) :=
  inferInstanceAs (Decidable (_ = _))

example : Balanced "f(\"(\", `[$\x7bg(\x7b\x7d)\x7d]`); // \x7b\n" := by decide

example : ¬ Balanced "f(`$\x7b[\x7d`])" := by decide

namespace Scan

theorem run_append (s : Scan) (cs cs' : List Char) :
    s.run (cs ++ cs') = (s.run cs).bind (run · cs') := by
  induction cs generalizing s with
  | nil => rfl
  | cons c cs ih =>
      cases hstep : s.step c with
      | none => simp [run, hstep]
      | some s' => simp [run, hstep, ih]

/-! ### What is open below does not matter -/

/-- The scanner with more open below. -/
def above (s : Scan) (below : List Bracket) : Scan :=
  { s with opened := s.opened ++ below }

theorem close_above {c : Char} {opened : List Bracket} {s : Scan} (below : List Bracket)
    (h : close c opened = some s) : close c (opened ++ below) = some (s.above below) := by
  cases opened with
  | nil => cases h
  | cons b rest =>
      simp only [close] at h
      split at h
      · rename_i hcloser
        cases h
        simp [close, hcloser, above]
      · cases h

theorem code_above {c : Char} {opened : List Bracket} {s : Scan} (below : List Bracket)
    (h : code opened c = some s) : code (opened ++ below) c = some (s.above below) := by
  unfold code at h ⊢
  split at h
  case h_4 => exact close_above below h
  case h_5 => exact close_above below h
  case h_6 => exact close_above below h
  all_goals
    cases h
    rfl

theorem step_above {s s' : Scan} {c : Char} (below : List Bracket) (h : s.step c = some s') :
    (s.above below).step c = some (s'.above below) := by
  obtain ⟨mode, opened⟩ := s
  cases mode with
  | code => exact code_above below h
  | slash =>
      by_cases hc : c = '/'
      · simp only [step, above, if_pos hc] at h ⊢
        cases h
        rfl
      · simp only [step, if_neg hc] at h
        simp only [step, above, if_neg hc]
        exact code_above below h
  | dollar =>
      by_cases hc : c = '{'
      · simp only [step, above, if_pos hc] at h ⊢
        cases h
        rfl
      · simp only [step, above, if_neg hc] at h ⊢
        cases h
        rfl
  | _ =>
      cases h
      rfl

theorem run_above {s s' : Scan} {cs : List Char} (below : List Bracket)
    (h : s.run cs = some s') : (s.above below).run cs = some (s'.above below) := by
  induction cs generalizing s with
  | nil =>
      cases h
      rfl
  | cons c cs ih =>
      obtain ⟨next, hstep, hrun⟩ := Option.bind_eq_some_iff.mp h
      rw [run, step_above below hstep]
      exact ih hrun

end Scan

/-! ### Line feeds and blanks -/

/-- Where a scanner stands behind a line feed. -/
def Mode.newline : Mode → Mode
  | .code | .slash | .comment => .code
  | .literal | .literalEscape => .literal
  | .template | .templateEscape | .dollar => .template

namespace Scan

/-- The scanner behind a line feed. -/
def newline (s : Scan) : Scan :=
  { s with mode := s.mode.newline }

/-- The scanner is where one can be behind a line feed. -/
def IsFresh (s : Scan) : Prop :=
  s.newline = s

theorem isFresh_newline (s : Scan) : s.newline.IsFresh := by
  obtain ⟨mode, opened⟩ := s
  cases mode <;> rfl

theorem isFresh_code (opened : List Bracket) : IsFresh ⟨.code, opened⟩ := rfl

theorem step_newline (s : Scan) : s.step '\n' = some s.newline := by
  obtain ⟨mode, opened⟩ := s
  cases mode <;> rfl

theorem run_newline (s : Scan) (cs : List Char) : s.run ('\n' :: cs) = s.newline.run cs := by
  rw [run, step_newline]
  rfl

/-- A carriage return before a line feed makes no difference. -/
theorem run_return_newline (s : Scan) (cs : List Char) :
    s.run ('\r' :: '\n' :: cs) = s.newline.run cs := by
  obtain ⟨mode, opened⟩ := s
  cases mode <;> rfl

theorem IsFresh.run_newline {s : Scan} (h : s.IsFresh) (cs : List Char) :
    s.run ('\n' :: cs) = s.run cs := by
  rw [Scan.run_newline, h]

theorem IsFresh.run_blank {s : Scan} (h : s.IsFresh) (cs : List Char) :
    s.run (' ' :: cs) = s.run cs := by
  obtain ⟨mode, opened⟩ := s
  cases mode with
  | code => rfl
  | literal => rfl
  | template => rfl
  | _ => cases h

theorem IsFresh.run_indentLine {s : Scan} (h : s.IsFresh) (blanks : Nat) (l cs : List Char) :
    s.run (Text.indentLine blanks l ++ cs) = s.run (l ++ cs) := by
  unfold Text.indentLine
  split
  · rename_i hempty
    rw [List.isEmpty_iff.mp hempty]
  · induction blanks with
    | zero => rfl
    | succ n ih =>
        rw [List.replicate_succ, List.cons_append, List.cons_append, h.run_blank]
        exact ih

/-! ### Lines -/

/-- Lines as if none of them were indented, and a line feed inside of one were left alone. -/
def flat (ls : List Line) : List Char :=
  ls.flatMap fun l => l.text.toList ++ ['\n']

/-- What a text is cut into is scanned like the text.  The first piece goes on where the
scanner stands; only the pieces after it are indented. -/
def CutsFreely (blanks : Nat) (cs : List Char) : Prop :=
  ∀ (s : Scan) (first : List Char) (more : List (List Char)),
    Text.splitLines cs = first :: more →
      s.run (first ++ '\n' :: Text.lined (more.map (Text.indentLine blanks)))
        = s.run (cs ++ ['\n'])

/-- A fresh scanner does not see that the first piece is indented too. -/
theorem CutsFreely.run_lined {blanks : Nat} {cs : List Char} (h : CutsFreely blanks cs)
    {s : Scan} (hfresh : s.IsFresh) :
    s.run (Text.lined ((Text.splitLines cs).map (Text.indentLine blanks)))
      = s.run (cs ++ ['\n']) := by
  cases hpieces : Text.splitLines cs with
  | nil =>
      rw [Text.eq_nil_of_splitLines hpieces]
      exact (hfresh.run_newline []).symm
  | cons first more =>
      rw [List.map_cons, Text.lined, List.flatMap_cons, List.append_assoc, hfresh.run_indentLine]
      exact h s first more hpieces

theorem cutsFreely (blanks : Nat) (cs : List Char) : CutsFreely blanks cs := by
  intro s first more h
  fun_induction Text.splitLines cs generalizing s first more with
  | case1 => cases h
  | case2 cs ih =>
      cases h
      rw [List.nil_append, List.cons_append, run_newline, run_newline]
      exact CutsFreely.run_lined ih (isFresh_newline s)
  | case3 cs ih =>
      cases h
      rw [List.nil_append, List.cons_append, List.cons_append, run_newline, run_return_newline]
      exact CutsFreely.run_lined ih (isFresh_newline s)
  | case4 c cs hfeed hreturn hlines ih =>
      cases h
      rw [Text.eq_nil_of_splitLines hlines]
      rfl
  | case5 c cs hfeed hreturn l ls hlines ih =>
      cases h
      simp only [List.cons_append, run, ih _ _ _ hlines]

theorem IsFresh.run_render {s : Scan} (h : s.IsFresh) (level : Nat) (l : Line) :
    s.run (l.render level).toList = s.run (l.text.toList ++ ['\n']) := by
  rw [Line.toList_render, Line.inFile]
  split
  · rename_i hempty
    rw [String.isEmpty_iff.mp hempty]
    rfl
  · exact (cutsFreely _ _).run_lined h

/-- Lines are scanned as if they stood at the margin. -/
theorem IsFresh.run_renderAll {s : Scan} (h : s.IsFresh) (level : Nat) (ls : List Line) :
    s.run (Line.renderAll level ls).toList = s.run (flat ls) := by
  induction ls generalizing s with
  | nil => rfl
  | cons l ls ih =>
      have hrender : (Line.renderAll level (l :: ls)).toList
          = (l.render level).toList ++ (Line.renderAll level ls).toList := by
        simp [Line.renderAll, String.toList_join]
      have hflat : flat (l :: ls) = (l.text.toList ++ ['\n']) ++ flat ls := List.flatMap_cons
      rw [hrender, hflat, run_append, run_append s (l.text.toList ++ ['\n']), h.run_render]
      cases hline : s.run (l.text.toList ++ ['\n']) with
      | none => rfl
      | some s' =>
          rw [run_append] at hline
          obtain ⟨before, -, hnewline⟩ := Option.bind_eq_some_iff.mp hline
          rw [Scan.run_newline] at hnewline
          cases hnewline
          exact ih (isFresh_newline before)

/-- The text of a comment does not count. -/
theorem run_comment {cs : List Char} (h : '\n' ∉ cs) (opened : List Bracket) (rest : List Char) :
    run ⟨.comment, opened⟩ (cs ++ '\n' :: rest) = run ⟨.code, opened⟩ rest := by
  induction cs with
  | nil => exact run_newline _ rest
  | cons c cs ih =>
      have hc : c ≠ '\n' := fun hc => h (hc ▸ List.mem_cons_self)
      have hstep : step ⟨.comment, opened⟩ c = some ⟨.comment, opened⟩ := by
        simp only [step, if_neg hc]
      rw [List.cons_append, run, hstep]
      exact ih fun hcs => h (List.mem_cons_of_mem c hcs)

end Scan

/-! ### Pieces of code -/

/-- In code, the text turns the brackets that are open on top into others. -/
def Turns (before after : List Bracket) (text : String) : Prop :=
  Scan.run ⟨.code, before⟩ text.toList = some ⟨.code, after⟩

/-- In code, the text closes what it opens and nothing else. -/
def Closed (text : String) : Prop :=
  Turns [] [] text

section

variable {a b c : List Bracket} {s s' : String}

/-- What a fixed text does is computed. -/
theorem Turns.of {cs : List Char} (h : Scan.run ⟨.code, a⟩ cs = some ⟨.code, b⟩) :
    Turns a b (String.ofList cs) := by
  rwa [Turns, String.toList_ofList]

/-- Two fixed texts may meet inside of a literal. -/
theorem Turns.of_append {cs cs' : List Char}
    (h : Scan.run ⟨.code, a⟩ (cs ++ cs') = some ⟨.code, b⟩) :
    Turns a b (String.ofList cs ++ String.ofList cs') := by
  rwa [Turns, String.toList_append, String.toList_ofList, String.toList_ofList]

theorem Turns.append (h : Turns a b s) (h' : Turns b c s') : Turns a c (s ++ s') := by
  rw [Turns, String.toList_append, Scan.run_append, h]
  exact h'

theorem Closed.turns (h : Closed s) (a : List Bracket) : Turns a a s :=
  Scan.run_above a h

/-- A closed text may stand anywhere in code. -/
theorem Turns.hole (h : Turns a b s) (h' : Closed s') : Turns a b (s ++ s') :=
  h.append (h'.turns b)

/-- A closed text between two fixed ones. -/
theorem Closed.within {before after : List Char} (h : Closed s)
    (hbefore : Scan.run ⟨.code, a⟩ before = some ⟨.code, b⟩)
    (hafter : Scan.run ⟨.code, b⟩ after = some ⟨.code, c⟩) :
    Turns a c (String.ofList before ++ s ++ String.ofList after) :=
  ((Turns.of hbefore).hole h).append (.of hafter)

end

theorem closed_join {ss : List String} (h : ∀ s ∈ ss, Closed s) : Closed (String.join ss) := by
  induction ss with
  | nil => rfl
  | cons s ss ih =>
      have hcons : String.join (s :: ss) = s ++ String.join ss := by
        apply String.toList_inj.mp
        simp [String.toList_join]
      rw [hcons]
      exact Turns.append (h s List.mem_cons_self)
        (ih fun s' hs' => h s' (List.mem_cons_of_mem s hs'))

theorem closed_intercalate {sep : String} {ss : List String} (hsep : Closed sep)
    (h : ∀ s ∈ ss, Closed s) : Closed (sep.intercalate ss) := by
  induction ss with
  | nil =>
      rw [String.intercalate_nil]
      rfl
  | cons s rest ih =>
      have hs : Closed s := h s List.mem_cons_self
      have hrest : ∀ s' ∈ rest, Closed s' := fun s' hs' => h s' (List.mem_cons_of_mem s hs')
      cases rest with
      | nil => simpa using hs
      | cons s' rest =>
          rw [String.intercalate_cons_cons]
          exact (Turns.append hs hsep).append (ih hrest)

/-! ### Lines of code -/

/-- What lines do to the brackets that are open on top. -/
def LinesTurn (before after : List Bracket) (ls : List Line) : Prop :=
  Scan.run ⟨.code, before⟩ (Scan.flat ls) = some ⟨.code, after⟩

/-- Lines that close what they open and nothing else. -/
def LinesClosed (ls : List Line) : Prop :=
  LinesTurn [] [] ls

namespace LinesTurn

variable {a b c : List Bracket} {l : Line} {ls ls' : List Line}

theorem nil : LinesTurn a a [] := rfl

theorem append (h : LinesTurn a b ls) (h' : LinesTurn b c ls') : LinesTurn a c (ls ++ ls') := by
  rw [LinesTurn, Scan.flat, List.flatMap_append, Scan.run_append, ← Scan.flat, h]
  exact h'

theorem cons (h : Turns a b l.text) (hrest : LinesTurn b c ls) : LinesTurn a c (l :: ls) := by
  rw [LinesTurn, Scan.flat, List.flatMap_cons, List.append_assoc, Scan.run_append, h]
  exact hrest

/-- What a fixed line does with its line feed is computed.  A line that ends in a comment does
nothing without it. -/
theorem fixed {cs : List Char} {depth : Nat}
    (h : Scan.run ⟨.code, a⟩ (cs ++ ['\n']) = some ⟨.code, b⟩) (hrest : LinesTurn b c ls) :
    LinesTurn a c (⟨depth, String.ofList cs⟩ :: ls) := by
  rw [LinesTurn, Scan.flat, List.flatMap_cons, Scan.run_append, String.toList_ofList, h]
  exact hrest

/-- A comment changes nothing. -/
theorem comment (text : String) (hrest : LinesTurn a b ls) :
    LinesTurn a b (line (Target.cypress.comment text) :: ls) := by
  have hflat : Scan.flat (line (Target.cypress.comment text) :: ls)
      = '/' :: '/' :: ' ' :: ((Text.oneLine text).toList ++ '\n' :: Scan.flat ls) := by
    simp [Scan.flat, line, Target.comment]
  have hslashes : ∀ cs, Scan.run ⟨.code, a⟩ ('/' :: '/' :: ' ' :: cs) = Scan.run ⟨.comment, a⟩ cs :=
    fun _ => rfl
  rw [LinesTurn, hflat, hslashes, Scan.run_comment (Text.oneLine_oneLine text)]
  exact hrest

theorem renderAll (h : LinesTurn a b ls) (level : Nat) : Turns a b (Line.renderAll level ls) :=
  ((Scan.isFresh_code a).run_renderAll level ls).trans h

/-- A line that is closed. -/
theorem closed (h : Closed l.text) (hrest : LinesTurn a b ls) : LinesTurn a b (l :: ls) :=
  .cons (h.turns a) hrest

end LinesTurn

namespace LinesClosed

variable {ls ls' : List Line}

theorem append (h : LinesClosed ls) (h' : LinesClosed ls') : LinesClosed (ls ++ ls') :=
  LinesTurn.append h h'

/-- Closed lines may stand anywhere in code. -/
theorem turns (h : LinesClosed ls) (a : List Bracket) : LinesTurn a a ls :=
  Scan.run_above a h

theorem shift (h : LinesClosed ls) (depth : Nat) : LinesClosed (shift depth ls) := by
  have hflat : Scan.flat (FlowSuite.shift depth ls) = Scan.flat ls := by
    rw [Scan.flat, FlowSuite.shift, List.flatMap_map]
    rfl
  rwa [LinesClosed, LinesTurn, hflat]

theorem ite (condition : Bool) (h : LinesClosed ls) :
    LinesClosed (if condition then ls else []) := by
  cases condition with
  | false => exact LinesTurn.nil
  | true => exact h

end LinesClosed

/-! ### Sheets -/

section

variable {a b c : List Bracket} {sheet : Sheet}

theorem turns_write {ls : List Line} (h : Turns a b sheet.text) (hls : LinesTurn b c ls) :
    Turns a c (sheet.write ls).text :=
  h.append (hls.renderAll sheet.level)

theorem turns_paste {text : String} (h : Turns a b sheet.text) (htext : Closed text) :
    Turns a b (sheet.paste text).text :=
  h.hole htext

end

end FlowSuite.JavaScript

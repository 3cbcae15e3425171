/-
Reading JavaScript strings that are put together at run time.

`JavaScript.eval` gives the value of an expression of the few forms that field texts
are written in: a number, a double-quoted literal, an accessor and a template literal.
In a template literal an expression is read to its end before its closing brace is
looked for, so a brace inside a literal of the expression does not close it.  Line ends
are normalised: a carriage return, with or without a line feed, is read as a line feed.
That is why a field text with a carriage return may lose it here.

Texts beside a substitution are the delicate part.  A dollar sign at the end of a text
is not escaped, and it is harmless only because no brace follows it: two texts never
stand side by side, and a substitution starts with a dollar sign of its own.
-/
import FlowSuite.Proofs.Expression.Accessor
import FlowSuite.Proofs.Expression.Scan
import Mathlib.Data.List.Chain

namespace FlowSuite.JavaScript

/-! ### The reader -/

/-- Characters in front of what is read after them. -/
def push (value : List Char) (read : Option (List Char × List Char)) :
    Option (List Char × List Char) :=
  read.map fun (more, rest) => (value ++ more, rest)

/-- The value of a template literal behind its opening backtick, and what follows the
literal.  The bound limits the number of its parts; one above the number of characters
never stops a reading. -/
def readTemplate (store : Path → String) : Nat → List Char → Option (List Char × List Char)
  | 0, _ => none
  | _ + 1, [] => none
  | bound + 1, c :: cs =>
      if c = '\x60' then some ([], cs)
      else if c = '\\' then
        match cs with
        | d :: cs =>
            if d ∈ ['\\', '\x60', '$'] then push [d] (readTemplate store bound cs) else none
        | [] => none
      else if c = '$' ∧ cs.head? = some '{' then
        match Target.cypress.readAccessor cs.tail with
        | some (p, '}' :: cs) => push (store p).toList (readTemplate store bound cs)
        | _ => none
      else if c = '\r' then
        push ['\n'] (readTemplate store bound (if cs.head? = some '\n' then cs.tail else cs))
      else push [c] (readTemplate store bound cs)

/-- The value of the term at the front, and what follows it. -/
def readTerm (store : Path → String) : List Char → Option (List Char × List Char)
  | '\x60' :: cs => readTemplate store (cs.length + 1) cs
  | '"' :: cs => Text.readQuoted ('"' :: cs)
  | cs => (Target.cypress.readAccessor cs).map fun (p, rest) => ((store p).toList, rest)

/-- The value of an expression.  A number is its own text. -/
def eval (store : Path → String) (code : String) : Option String :=
  if isDecimal code then some code
  else
    match readTerm store code.toList with
    | some (value, []) => some (String.ofList value)
    | _ => none

/-! ### Template literals -/

/-- Behind its opening backtick, the code is read as the value and then the rest. -/
def Reads (store : Path → String) (code value rest : List Char) : Prop :=
  ∀ bound, code.length < bound → readTemplate store bound code = some (value, rest)

section

variable {store : Path → String} {code value rest : List Char}

/-- A reading never starts with the bound used up. -/
theorem reads_of_succ
    (h : ∀ bound, code.length ≤ bound →
      readTemplate store (bound + 1) code = some (value, rest)) :
    Reads store code value rest := by
  intro bound hbound
  cases bound with
  | zero => exact absurd hbound (Nat.not_lt_zero _)
  | succ bound => exact h bound (Nat.le_of_lt_succ hbound)

theorem reads_close (store : Path → String) (rest : List Char) :
    Reads store ('\x60' :: rest) [] rest := by
  apply reads_of_succ
  intro bound hbound
  simp [readTemplate]

theorem Reads.escaped (h : Reads store code value rest) {d : Char}
    (hd : d ∈ ['\\', '\x60', '$']) : Reads store ('\\' :: d :: code) (d :: value) rest := by
  apply reads_of_succ
  intro bound hbound
  simp only [List.length_cons] at hbound
  have hread := h bound (by omega)
  simp only [readTemplate, push, hread, if_pos hd, if_neg (by decide : '\\' ≠ '\x60')]
  rfl

/-- A character that starts nothing else is read as itself. -/
theorem Reads.char (h : Reads store code value rest) {c : Char}
    (hc : c ∉ ['\\', '\x60', '\r']) (hdollar : c = '$' → code.head? ≠ some '{') :
    Reads store (c :: code) (c :: value) rest := by
  apply reads_of_succ
  intro bound hbound
  simp only [List.length_cons] at hbound
  have hread := h bound (by omega)
  have hopen : ¬(c = '$' ∧ code.head? = some '{') := fun ⟨hc, hcode⟩ => hdollar hc hcode
  simp only [List.mem_cons, List.not_mem_nil, or_false, not_or] at hc
  simp only [readTemplate, if_neg hc.1, if_neg hc.2.1, if_neg hopen, if_neg hc.2.2, hread]
  rfl

/-- A substitution is read as the value at its path. -/
theorem Reads.substitution (h : Reads store code value rest) (p : Path) :
    Reads store ('$' :: '{' :: ((Target.cypress.accessor p).toList ++ '}' :: code))
      ((store p).toList ++ value) rest := by
  apply reads_of_succ
  intro bound hbound
  simp only [List.length_cons, List.length_append] at hbound
  have hread := h bound (by omega)
  have hclose : ('}' :: code).head? ≠ some '[' := by simp
  simp [readTemplate, push, Target.readAccessor_accessor _ _ hclose, hread]

/-- A written text starts with a brace only if the text does. -/
theorem head?_templateText_append {cs : List Char} (hcs : cs.head? ≠ some '{')
    (hrest : rest.head? ≠ some '{') : (templateText cs ++ rest).head? ≠ some '{' := by
  fun_cases templateText cs with
  | case1 => exact hrest
  | case2 => simp
  | case3 => simp
  | case4 c => simpa using hcs

/-- A written text is read as the text, if what follows does not start with a brace. -/
theorem Reads.text (h : Reads store code value rest) (hcode : code.head? ≠ some '{')
    {cs : List Char} (hcs : '\r' ∉ cs) :
    Reads store (templateText cs ++ code) (cs ++ value) rest := by
  fun_induction templateText cs with
  | case1 => exact h
  | case2 cs ih =>
      simp only [List.mem_cons, not_or] at hcs
      have hbrace := (ih hcs.2.2).char (by decide : '{' ∉ ['\\', '\x60', '\r']) (by simp)
      exact hbrace.escaped (by simp)
  | case3 c cs hnot hc ih =>
      simp only [List.mem_cons, not_or] at hcs
      have hspecial : c ∈ ['\\', '\x60', '$'] := by
        rcases hc with rfl | rfl <;> decide
      exact (ih hcs.2).escaped hspecial
  | case4 c cs hnot hc ih =>
      simp only [List.mem_cons, not_or] at hcs hc
      refine (ih hcs.2).char (by simp [hc, Ne.symm hcs.1]) ?_
      intro hdollar
      refine head?_templateText_append ?_ hcode
      intro hbrace
      cases cs with
      | nil => cases hbrace
      | cons d cs => exact hnot cs hdollar (by simpa using hbrace)

end

/-- What follows a segment does not start with a brace, unless two texts meet. -/
theorem head?_flatMap_templatePart {s : Segment} {segments : List Segment} (rest : List Char)
    (hs : s.isRef = false) (hchain : (s :: segments).IsChain Segment.Apart) :
    ((segments.map Target.cypress.piece).flatMap templatePart ++ '\x60' :: rest).head?
      ≠ some '{' := by
  cases segments with
  | nil => simp
  | cons s' segments =>
      rcases (List.isChain_cons_cons.mp hchain).1 with href | href
      · rw [hs] at href
        cases href
      · cases s' with
        | text s' => cases href
        | ref p => simp [Target.piece, templatePart]

/-- **A template literal is read as its segments, if no two texts meet and no text holds
a carriage return.** -/
theorem reads_template (store : Path → String) {segments : List Segment}
    (hchain : segments.IsChain Segment.Apart)
    (hcr : ∀ s, .text s ∈ segments → '\r' ∉ s.toList) (rest : List Char) :
    Reads store
      ((segments.map Target.cypress.piece).flatMap templatePart ++ '\x60' :: rest)
      (Segment.meaning store segments).toList rest := by
  induction segments with
  | nil => simpa using reads_close store rest
  | cons s segments ih =>
      have hrest := ih hchain.tail fun s hs => hcr s (List.mem_cons_of_mem _ hs)
      rw [List.map_cons, List.flatMap_cons, List.append_assoc, Segment.toList_meaning_cons]
      cases s with
      | text s =>
          have hhead := head?_flatMap_templatePart rest rfl hchain
          exact hrest.text hhead (hcr s List.mem_cons_self)
      | ref p => simpa [Target.piece, templatePart] using hrest.substitution p

/-! ### Values -/

theorem readTerm_of_numeral (store : Path → String) {c : Char} (cs : List Char)
    (hc : c = '-' ∨ c.isDigit = true) : readTerm store (c :: cs) = none := by
  unfold readTerm
  split
  · rename_i heq
    obtain rfl := (List.cons.inj heq).1
    exact absurd hc (by decide)
  · rename_i heq
    obtain rfl := (List.cons.inj heq).1
    exact absurd hc (by decide)
  · rw [Target.readAccessor_of_numeral _ cs hc]
    rfl

/-- What is read as a term is no number, so the term is its value. -/
theorem eval_of_readTerm {store : Path → String} {code : String} {value : List Char}
    (h : readTerm store code.toList = some (value, [])) :
    eval store code = some (String.ofList value) := by
  by_cases hnumber : isDecimal code = true
  · obtain ⟨c, cs, hcode, hc⟩ := exists_cons_of_isDecimal hnumber
    simp [hcode, readTerm_of_numeral store cs hc] at h
  · simp [eval, hnumber, h]

theorem eval_quote (store : Path → String) (s : String) :
    eval store (Text.quote s) = some s := by
  have hread : readTerm store (Text.quote s).toList = some (s.toList, []) := by
    have hterm : readTerm store (Text.quoteChars s.toList)
        = Text.readQuoted (Text.quoteChars s.toList) := rfl
    rw [Text.toList_quote, hterm, ← Text.toList_quote]
    exact Text.readQuoted_quote s
  simpa using eval_of_readTerm hread

theorem eval_accessor (store : Path → String) (p : Path) :
    eval store (Target.cypress.accessor p) = some (store p) := by
  have hread : readTerm store (Target.cypress.accessor p).toList
      = some ((store p).toList, []) := by
    obtain ⟨cs, hcs⟩ : ∃ cs, (Target.cypress.accessor p).toList = 'C' :: cs :=
      ⟨_, Target.toList_accessor .cypress p⟩
    have hterm : readTerm store ('C' :: cs)
        = (Target.cypress.readAccessor ('C' :: cs)).map
            fun (p, rest) => ((store p).toList, rest) := rfl
    rw [hcs, hterm, ← hcs, Target.readAccessor_accessor_nil]
    rfl
  simpa using eval_of_readTerm hread

/-- **A template literal of scanned segments stands for them.** -/
theorem eval_interpolate (store : Path → String) {segments : List Segment}
    (hchain : segments.IsChain Segment.Apart)
    (hcr : ∀ s, .text s ∈ segments → '\r' ∉ s.toList) :
    eval store (interpolate (segments.map Target.cypress.piece))
      = some (Segment.meaning store segments) := by
  have hmeaning : Segment.meaning store segments
      = String.ofList (Segment.meaning store segments).toList := by simp
  rw [hmeaning]
  apply eval_of_readTerm
  rw [interpolate, String.toList_ofList, readTerm]
  exact reads_template store hchain hcr [] _ (Nat.lt_succ_self _)

end FlowSuite.JavaScript

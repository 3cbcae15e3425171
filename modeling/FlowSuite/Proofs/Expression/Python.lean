/-
Reading Python strings that are put together at run time.

`Python.eval` gives the value of an expression of the few forms that field texts are
written in: a number, a double-quoted literal, an accessor, an f-string, and a sum of
such.  It reads an f-string as Python did before version 3.12: the end of the string
comes first, so a field can hold neither the quote nor a backslash, and it goes on to
the next closing brace.  Whatever it cannot read has no value.

Both ways of writing pieces keep them: an f-string is read back as its pieces, and a
sum as the values of its terms.
-/
import FlowSuite.Proofs.Expression.Accessor
import FlowSuite.Proofs.Expression.Scan
import Mathlib.Data.List.Forall2

namespace FlowSuite.Python

/-! ### The reader -/

/-- A part of an f-string as it is read: a character, or the code of a field. -/
inductive Part where
  | char (c : Char)
  | field (code : List Char)
  deriving DecidableEq, Repr

/-- The character that a letter stands for after a backslash. -/
def unescape? : Char → Option Char
  | '\\' => some '\\'
  | '\x27' => some '\x27'
  | 'n' => some '\n'
  | 'r' => some '\r'
  | 't' => some '\t'
  | _ => none

/-- A part in front of what is read after it. -/
def push (part : Part) (read : Option (List Part × List Char)) :
    Option (List Part × List Char) :=
  read.map fun (parts, rest) => (part :: parts, rest)

/-- The parts up to the closing quote, and what follows it.  The first argument is `none`
outside of fields; inside of one it holds the code so far, last character first. -/
def readParts : Option (List Char) → List Char → Option (List Part × List Char)
  | none, [] => none
  | none, '\x27' :: rest => some ([], rest)
  | none, '{' :: '{' :: cs => push (.char '{') (readParts none cs)
  | none, '}' :: '}' :: cs => push (.char '}') (readParts none cs)
  | none, '{' :: cs => readParts (some []) cs
  | none, '\\' :: c :: cs =>
      match unescape? c with
      | some d => push (.char d) (readParts none cs)
      | none => none
  | none, c :: cs =>
      if c ∈ ['\\', '}', '\n', '\r'] then none else push (.char c) (readParts none cs)
  | some _, [] => none
  | some code, '}' :: cs => push (.field code.reverse) (readParts none cs)
  | some code, c :: cs =>
      if c ∈ ['\x27', '\\', '{', '#', '\n'] then none else readParts (some (c :: code)) cs

/-- The string that parts make up; the code of a field has to be an accessor. -/
def partsValue (store : Path → String) : List Part → Option (List Char)
  | [] => some []
  | .char c :: parts => (partsValue store parts).map (c :: ·)
  | .field code :: parts =>
      match Target.selenium.readAccessor code with
      | some (p, []) => (partsValue store parts).map ((store p).toList ++ ·)
      | _ => none

/-- The value of the term at the front, and what follows it. -/
def readTerm (store : Path → String) : List Char → Option (List Char × List Char)
  | 'f' :: '\x27' :: cs =>
      match readParts none cs with
      | some (parts, rest) => (partsValue store parts).map fun value => (value, rest)
      | none => none
  | '"' :: cs => Text.readQuoted ('"' :: cs)
  | 's' :: 't' :: 'r' :: '(' :: cs =>
      match Target.selenium.readAccessor cs with
      | some (p, ')' :: rest) => some ((store p).toList, rest)
      | _ => none
  | cs => (Target.selenium.readAccessor cs).map fun (p, rest) => ((store p).toList, rest)

/-- The value of a sum that goes to the end.  The bound limits the number of its terms. -/
def readSum (store : Path → String) : Nat → List Char → Option (List Char)
  | 0, _ => none
  | bound + 1, cs =>
      match readTerm store cs with
      | some (value, []) => some value
      | some (value, ' ' :: '+' :: ' ' :: cs) => (readSum store bound cs).map (value ++ ·)
      | _ => none

/-- The value of an expression.  A number is its own text. -/
def eval (store : Path → String) (code : String) : Option String :=
  if isDecimal code then some code
  else (readSum store (code.length + 1) code.toList).map String.ofList

/-! ### F-strings -/

/-- The parts by which a piece is read. -/
def parts : Piece → List Part
  | .text s => s.toList.map .char
  | .expr e => [.field e.toList]

theorem readParts_escapeField (c : Char) {rest rest' : List Char} {ps : List Part}
    (h : readParts none rest = some (ps, rest')) :
    readParts none (escapeField c ++ rest) = some (.char c :: ps, rest') := by
  by_cases hspecial : c ∈ ['\\', '\x27', '{', '}', '\n', '\r', '\t']
  · simp only [List.mem_cons, List.not_mem_nil, or_false] at hspecial
    rcases hspecial with rfl | rfl | rfl | rfl | rfl | rfl | rfl <;>
      simp [escapeField, readParts, unescape?, push, h]
  · simp only [List.mem_cons, List.not_mem_nil, or_false, not_or] at hspecial
    obtain ⟨hslash, hquote, hopen, hclose, hn, hr, ht⟩ := hspecial
    have hescape : escapeField c = [c] := by
      simp [escapeField, hslash, hquote, hopen, hclose, hn, hr, ht]
    simp [hescape, readParts, push, hslash, hopen, hclose, hn, hr, h]

theorem readParts_flatMap_escapeField (cs : List Char) {rest rest' : List Char}
    {ps : List Part} (h : readParts none rest = some (ps, rest')) :
    readParts none (cs.flatMap escapeField ++ rest) = some (cs.map .char ++ ps, rest') := by
  induction cs with
  | nil => exact h
  | cons c cs ih =>
      rw [List.flatMap_cons, List.append_assoc]
      exact readParts_escapeField c ih

/-- Inside of a field the code is read up to the closing brace. -/
theorem readParts_code {code : List Char}
    (hcode : ∀ c ∈ code, c ∉ ['\x27', '\\', '{', '}', '#', '\n']) (before : List Char)
    {rest rest' : List Char} {ps : List Part} (h : readParts none rest = some (ps, rest')) :
    readParts (some before) (code ++ '}' :: rest)
      = some (.field (before.reverse ++ code) :: ps, rest') := by
  induction code generalizing before with
  | nil => simp [readParts, push, h]
  | cons c code ih =>
      have hc := hcode c List.mem_cons_self
      have hnext := ih (fun d hd => hcode d (List.mem_cons_of_mem _ hd)) (c :: before)
      simp only [List.mem_cons, List.not_mem_nil, or_false, not_or] at hc
      simp [readParts, hc, hnext]

theorem readParts_field {code : List Char}
    (hcode : ∀ c ∈ code, c ∉ ['\x27', '\\', '{', '}', '#', '\n'])
    {rest rest' : List Char} {ps : List Part} (h : readParts none rest = some (ps, rest')) :
    readParts none ('{' :: (code ++ '}' :: rest)) = some (.field code :: ps, rest') := by
  have hopen : readParts none ('{' :: (code ++ '}' :: rest))
      = readParts (some []) (code ++ '}' :: rest) := by
    cases code with
    | nil => simp [readParts]
    | cons c code =>
        have hc := hcode c List.mem_cons_self
        simp only [List.mem_cons, List.not_mem_nil, or_false, not_or] at hc
        simp [readParts, hc]
  rw [hopen, readParts_code hcode [] h]
  rfl

/-- **An f-string whose expressions fit its fields is read back as its pieces.** -/
theorem readParts_fields {pieces : List Piece} (hfits : pieces.all fits = true)
    (rest : List Char) :
    readParts none (pieces.flatMap field ++ '\x27' :: rest)
      = some (pieces.flatMap parts, rest) := by
  induction pieces with
  | nil => simp [readParts]
  | cons piece pieces ih =>
      simp only [List.all_cons, Bool.and_eq_true] at hfits
      obtain ⟨hfit, hfits⟩ := hfits
      rw [List.flatMap_cons, List.flatMap_cons, List.append_assoc]
      cases piece with
      | text s => exact readParts_flatMap_escapeField s.toList (ih hfits)
      | expr e =>
          have hcode : ∀ c ∈ e.toList, c ∉ ['\x27', '\\', '{', '}', '#', '\n'] := by
            simpa [fits, fitsField, and_assoc] using hfit
          simpa [field, parts] using readParts_field hcode (ih hfits)

theorem partsValue_map_char (store : Path → String) (cs : List Char) (ps : List Part) :
    partsValue store (cs.map .char ++ ps) = (partsValue store ps).map (cs ++ ·) := by
  induction cs with
  | nil => simp
  | cons c cs ih => simp [partsValue, ih, Function.comp_def]

theorem partsValue_segments (store : Path → String) (segments : List Segment) :
    partsValue store ((segments.map Target.selenium.piece).flatMap parts)
      = some (Segment.meaning store segments).toList := by
  induction segments with
  | nil => simp [partsValue]
  | cons s segments ih =>
      rw [List.map_cons, List.flatMap_cons, Segment.toList_meaning_cons]
      cases s with
      | text s => simp [Target.piece, parts, partsValue_map_char, ih]
      | ref p => simp [Target.piece, parts, partsValue, Target.readAccessor_accessor_nil, ih]

/-! ### Sums -/

/-- The term stands for the value, whatever follows it. -/
def Stands (store : Path → String) (term : String) (value : List Char) : Prop :=
  ∀ rest, readTerm store (term.toList ++ rest) = some (value, rest)

theorem stands_quote (store : Path → String) (s : String) :
    Stands store (Text.quote s) s.toList := by
  intro rest
  rw [Text.toList_quote, Text.quoteChars, List.cons_append, readTerm, ← List.cons_append]
  exact Text.readQuoted_quoteChars s.toList rest

theorem stands_str (store : Path → String) (p : Path) :
    Stands store ("str(" ++ Target.selenium.accessor p ++ ")") (store p).toList := by
  intro rest
  have hclose : (')' :: rest).head? ≠ some '[' := by simp
  simp [readTerm, Target.readAccessor_accessor _ _ hclose]

/-- The terms of a sum stand for the segments, of which none is lost but empty texts. -/
theorem exists_stands (store : Path → String) (segments : List Segment) :
    ∃ values, List.Forall₂ (Stands store)
        ((segments.map Target.selenium.piece).filterMap term?) values ∧
      values.flatten = (Segment.meaning store segments).toList := by
  induction segments with
  | nil => exact ⟨[], List.Forall₂.nil, by simp⟩
  | cons s segments ih =>
      obtain ⟨values, hstands, hvalues⟩ := ih
      cases s with
      | text s =>
          by_cases hs : s.isEmpty = true
          · have hterm : term? (Target.selenium.piece (.text s)) = none := if_pos hs
            refine ⟨values, ?_, ?_⟩
            · rwa [List.map_cons, List.filterMap_cons_none hterm]
            · simp [hvalues, String.isEmpty_iff.mp hs]
          · have hterm : term? (Target.selenium.piece (.text s)) = some (Text.quote s) :=
              if_neg hs
            refine ⟨s.toList :: values, ?_, ?_⟩
            · rw [List.map_cons, List.filterMap_cons_some hterm]
              exact List.Forall₂.cons (stands_quote store s) hstands
            · simp [hvalues]
      | ref p =>
          have hterm : term? (Target.selenium.piece (.ref p))
              = some ("str(" ++ Target.selenium.accessor p ++ ")") := rfl
          refine ⟨(store p).toList :: values, ?_, ?_⟩
          · rw [List.map_cons, List.filterMap_cons_some hterm]
            exact List.Forall₂.cons (stands_str store p) hstands
          · simp [hvalues]

theorem toList_concat_cons_cons (e e' : String) (es : List String) :
    (concat (e :: e' :: es)).toList
      = e.toList ++ ' ' :: '+' :: ' ' :: (concat (e' :: es)).toList := by
  simp [concat, String.toList_intercalate]

/-- A sum stands for the values of its terms, one after the other. -/
theorem readSum_concat {store : Path → String} {es : List String} {values : List (List Char)}
    (h : List.Forall₂ (Stands store) es values) (hne : es ≠ []) {bound : Nat}
    (hbound : es.length ≤ bound) :
    readSum store bound (concat es).toList = some values.flatten := by
  induction h generalizing bound with
  | nil => exact absurd rfl hne
  | @cons e value es values hstands hrest ih =>
      obtain ⟨bound, rfl⟩ : ∃ n, bound = n + 1 := ⟨bound - 1, by simp at hbound; omega⟩
      cases es with
      | nil =>
          cases hrest
          have hread : readTerm store (concat [e]).toList = some (value, []) := by
            simpa [concat] using hstands []
          simp [readSum, hread]
      | cons e' es =>
          have hsum := ih (List.cons_ne_nil e' es) (Nat.le_of_succ_le_succ hbound)
          rw [toList_concat_cons_cons, readSum, hstands]
          simp [hsum]

/-- There are not more terms than characters and one. -/
theorem length_le_concat (es : List String) : es.length ≤ (concat es).length + 1 := by
  rw [← String.length_toList]
  induction es with
  | nil => simp
  | cons e es ih =>
      cases es with
      | nil => simp
      | cons e' es =>
          rw [toList_concat_cons_cons]
          simp only [List.length_cons, List.length_append] at ih ⊢
          omega

/-! ### Values -/

theorem readTerm_of_numeral (store : Path → String) {c : Char} (cs : List Char)
    (hc : c = '-' ∨ c.isDigit = true) : readTerm store (c :: cs) = none := by
  unfold readTerm
  split
  · rename_i heq
    obtain rfl := (List.cons.inj heq).1
    exact absurd hc (by decide)
  · rename_i heq
    obtain rfl := (List.cons.inj heq).1
    exact absurd hc (by decide)
  · rename_i heq
    obtain rfl := (List.cons.inj heq).1
    exact absurd hc (by decide)
  · rw [Target.readAccessor_of_numeral _ cs hc]
    rfl

/-- What is read as a sum is no number, so the sum is its value. -/
theorem eval_of_readSum {store : Path → String} {code : String} {value : List Char}
    (h : readSum store (code.length + 1) code.toList = some value) :
    eval store code = some (String.ofList value) := by
  by_cases hnumber : isDecimal code = true
  · obtain ⟨c, cs, hcode, hc⟩ := exists_cons_of_isDecimal hnumber
    simp [hcode, readSum, readTerm_of_numeral store cs hc] at h
  · simp [eval, hnumber, h]

/-- An expression of one term stands for the value of the term. -/
theorem eval_of_readTerm {store : Path → String} {code : String} {value : List Char}
    (h : readTerm store code.toList = some (value, [])) :
    eval store code = some (String.ofList value) := by
  apply eval_of_readSum
  simp [readSum, h]

theorem eval_quote (store : Path → String) (s : String) :
    eval store (Text.quote s) = some s := by
  have hread : readTerm store (Text.quote s).toList = some (s.toList, []) := by
    simpa using stands_quote store s []
  simpa using eval_of_readTerm hread

theorem eval_accessor (store : Path → String) (p : Path) :
    eval store (Target.selenium.accessor p) = some (store p) := by
  have hread : readTerm store (Target.selenium.accessor p).toList
      = some ((store p).toList, []) := by
    obtain ⟨cs, hcs⟩ : ∃ cs, (Target.selenium.accessor p).toList = 's' :: 'e' :: cs :=
      ⟨_, Target.toList_accessor .selenium p⟩
    have hterm : readTerm store ('s' :: 'e' :: cs)
        = (Target.selenium.readAccessor ('s' :: 'e' :: cs)).map
            fun (p, rest) => ((store p).toList, rest) := rfl
    rw [hcs, hterm, ← hcs, Target.readAccessor_accessor_nil]
    rfl
  simpa using eval_of_readTerm hread

/-- **On either way of writing it, an interpolated string stands for its segments.** -/
theorem eval_interpolate (store : Path → String) {segments : List Segment}
    (href : segments.any Segment.isRef = true) :
    eval store (interpolate (segments.map Target.selenium.piece))
      = some (Segment.meaning store segments) := by
  have hmeaning : Segment.meaning store segments
      = String.ofList (Segment.meaning store segments).toList := by simp
  rw [hmeaning]
  by_cases hfits : (segments.map Target.selenium.piece).all fits = true
  · rw [interpolate, if_pos hfits]
    apply eval_of_readTerm
    rw [fString, String.toList_ofList, readTerm, readParts_fields hfits]
    simp [partsValue_segments]
  · rw [interpolate, if_neg hfits]
    obtain ⟨values, hstands, hvalues⟩ := exists_stands store segments
    have hne : (segments.map Target.selenium.piece).filterMap term? ≠ [] := by
      obtain ⟨s, hs, href⟩ := List.any_eq_true.mp href
      cases s with
      | text s => cases href
      | ref p =>
          apply List.ne_nil_of_mem
          exact List.mem_filterMap.mpr ⟨_, List.mem_map_of_mem hs, rfl⟩
    apply eval_of_readSum
    rw [← hvalues]
    exact readSum_concat hstands hne (length_le_concat _)

end FlowSuite.Python

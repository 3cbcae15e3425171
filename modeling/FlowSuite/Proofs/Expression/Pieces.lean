/-
Pieces come back from the string that they make up.

A string that is put together at run time is given as pieces, texts and expressions, and Python
has two ways to write it.  In an f-string all pieces stand side by side, with nothing between
them but the braces of a field, so that the border of two pieces has to be found again: a brace
of a text is doubled, and it may well stand beside the brace of a field.  In a sum every piece
is a term of its own.  An expression that no field can hold decides for the sum.

Here the expressions are arbitrary.  An f-string is read with no more than the rules of its
language and gives the pieces back, but for what it cannot show: where one text ends and the
next begins, and that there was an empty one.  A sum is judged by its terms; where a term ends
cannot be told from the characters if an expression may be anything.  For every choice of values
for the expressions, both stand for the pieces put together.
-/
import FlowSuite.Proofs.Indentation.OneLine

namespace FlowSuite

namespace Piece

/-! ### Pieces -/

/-- Whether the piece is an expression. -/
def isExpr : Piece → Bool
  | .text _ => false
  | .expr _ => true

/-- Of two pieces side by side one is an expression. -/
def Apart (p q : Piece) : Prop :=
  p.isExpr = true ∨ q.isExpr = true

/-- A text in front of pieces.  It becomes a part of the first one if that is a text too, and
an empty text adds nothing. -/
def addText (s : String) : List Piece → List Piece
  | .text s' :: pieces => .text (s ++ s') :: pieces
  | pieces => if s.isEmpty then pieces else .text s :: pieces

/-- Pieces with texts side by side joined, and without empty texts. -/
def joinTexts : List Piece → List Piece
  | [] => []
  | .text s :: pieces => addText s (joinTexts pieces)
  | .expr e :: pieces => .expr e :: joinTexts pieces

/-- No text is empty, and no two texts stand side by side. -/
structure Tidy (pieces : List Piece) : Prop where
  no_empty : .text "" ∉ pieces
  apart : pieces.IsChain Apart

/-- The string that a piece stands for, given the values of expressions. -/
def value (values : String → String) : Piece → String
  | .text s => s
  | .expr e => values e

/-- The string that pieces stand for, one after the other. -/
def together (values : String → String) (pieces : List Piece) : String :=
  String.join (pieces.map (value values))

theorem addText_empty (pieces : List Piece) : addText "" pieces = pieces := by
  unfold addText
  split
  · rw [String.empty_append]
  · rfl

theorem addText_of_head? {pieces : List Piece} (h : ∀ s, pieces.head? ≠ some (.text s))
    {s : String} (hs : s ≠ "") : addText s pieces = .text s :: pieces := by
  unfold addText
  split
  · exact absurd rfl (h _)
  · exact if_neg fun hempty => hs (String.isEmpty_iff.mp hempty)

/-- Pieces start with a text, or a text that is added to them stays a piece of its own. -/
theorem exists_text_or_head? (pieces : List Piece) :
    (∃ u rest, pieces = .text u :: rest) ∨ ∀ u, pieces.head? ≠ some (.text u) := by
  by_cases hhead : ∃ u, pieces.head? = some (.text u)
  · obtain ⟨u, hu⟩ := hhead
    exact Or.inl ⟨u, List.head?_eq_some_iff.mp hu⟩
  · exact Or.inr (not_exists.mp hhead)

/-- Texts that are added one after the other are added as one. -/
theorem addText_addText (s t : String) (pieces : List Piece) :
    addText s (addText t pieces) = addText (s ++ t) pieces := by
  rcases exists_text_or_head? pieces with ⟨u, rest, rfl⟩ | hhead
  · show .text (s ++ (t ++ u)) :: rest = .text (s ++ t ++ u) :: rest
    rw [String.append_assoc]
  · by_cases ht : t = ""
    · rw [ht, addText_empty, String.append_empty]
    · have hst : s ++ t ≠ "" := fun hempty => ht (String.append_eq_empty_iff.mp hempty).2
      rw [addText_of_head? hhead ht, addText_of_head? hhead hst]
      rfl

theorem together_addText (values : String → String) (s : String) (pieces : List Piece) :
    together values (addText s pieces) = s ++ together values pieces := by
  rcases exists_text_or_head? pieces with ⟨u, rest, rfl⟩ | hhead
  · simp [together, addText, value, String.append_assoc]
  · by_cases hs : s = ""
    · rw [hs, addText_empty, String.empty_append]
    · rw [addText_of_head? hhead hs]
      simp [together, value]

/-- Joining texts changes nothing of what is stood for. -/
theorem together_joinTexts (values : String → String) (pieces : List Piece) :
    together values (joinTexts pieces) = together values pieces := by
  induction pieces with
  | nil => rfl
  | cons piece pieces ih =>
      cases piece with
      | text s =>
          rw [joinTexts, together_addText, ih]
          simp [together, value]
      | expr e =>
          simp only [together, joinTexts, List.map_cons, String.join_cons] at ih ⊢
          rw [ih]

theorem tidy_cons_iff {piece : Piece} {pieces : List Piece} :
    Tidy (piece :: pieces) ↔ piece ≠ .text "" ∧
      (∀ next ∈ pieces.head?, piece.Apart next) ∧ Tidy pieces := by
  constructor
  · rintro ⟨hmem, hchain⟩
    rw [List.mem_cons, not_or] at hmem
    rw [List.isChain_cons] at hchain
    exact ⟨Ne.symm hmem.1, hchain.1, hmem.2, hchain.2⟩
  · rintro ⟨hne, hnext, hmem, hchain⟩
    refine ⟨?_, List.isChain_cons.mpr ⟨hnext, hchain⟩⟩
    rw [List.mem_cons, not_or]
    exact ⟨Ne.symm hne, hmem⟩

theorem Tidy.addText {pieces : List Piece} (h : Tidy pieces) (s : String) :
    Tidy (addText s pieces) := by
  by_cases hs : s = ""
  · rw [hs, addText_empty]
    exact h
  · rcases exists_text_or_head? pieces with ⟨u, rest, rfl⟩ | hhead
    · obtain ⟨-, hnext, hrest⟩ := tidy_cons_iff.mp h
      refine tidy_cons_iff.mpr ⟨?_, hnext, hrest⟩
      intro heq
      exact hs (String.append_eq_empty_iff.mp (Piece.text.inj heq)).1
    · rw [addText_of_head? hhead hs]
      refine tidy_cons_iff.mpr ⟨fun heq => hs (Piece.text.inj heq), ?_, h⟩
      intro next hnext
      cases next with
      | text u => exact absurd hnext (hhead u)
      | expr e => exact Or.inr rfl

theorem tidy_joinTexts (pieces : List Piece) : Tidy (joinTexts pieces) := by
  induction pieces with
  | nil => exact ⟨List.not_mem_nil, List.IsChain.nil⟩
  | cons piece pieces ih =>
      cases piece with
      | text s => exact ih.addText s
      | expr e => exact tidy_cons_iff.mpr ⟨Piece.noConfusion, fun _ _ => Or.inl rfl, ih⟩

end Piece

namespace Python

/-! ### F-strings -/

/-- What follows the first single quote that is not escaped.  A backslash takes the next
character along. -/
def afterQuote : List Char → Option (List Char)
  | [] => none
  | '\x27' :: rest => some rest
  | '\\' :: _ :: cs => afterQuote cs
  | _ :: cs => afterQuote cs

/-- A part among pieces: a character of a text, or an expression. -/
def Part.piece : Part → Char ⊕ Piece
  | .char c => .inl c
  | .field code => .inr (.expr (String.ofList code))

/-- The pieces that parts make up.  Characters side by side become one text; the first argument
holds those collected so far, last one first. -/
def gather : List Char → List Part → List Piece :=
  Text.gather .text Part.piece

/-- The pieces of an f-string that goes to the end of the text. -/
def readFString (code : String) : Option (List Piece) :=
  match code.toList with
  | 'f' :: '\x27' :: cs =>
      match readParts none cs with
      | some (parts, []) => some (gather [] parts)
      | _ => none
  | _ => none

theorem afterQuote_cons {c : Char} (hquote : c ≠ '\x27') (hslash : c ≠ '\\') (cs : List Char) :
    afterQuote (c :: cs) = afterQuote cs := by
  rw [afterQuote]
  · exact hquote
  · intro d ds hc
    exact absurd hc hslash

theorem exists_of_push {part : Part} {read : Option (List Part × List Char)} {parts : List Part}
    {rest : List Char} (h : push part read = some (parts, rest)) :
    ∃ parts', read = some (parts', rest) := by
  obtain ⟨⟨parts', rest'⟩, hread, heq⟩ := Option.map_eq_some_iff.mp h
  obtain rfl : rest' = rest := (Prod.mk.inj heq).2
  exact ⟨parts', hread⟩

/-- The quote that a reading ends at is the first one that is not escaped. -/
theorem afterQuote_of_readParts {state : Option (List Char)} {cs rest : List Char}
    {parts : List Part} (h : readParts state cs = some (parts, rest)) :
    afterQuote cs = some rest := by
  fun_induction readParts state cs generalizing parts with
  | case1 | case7 | case8 | case10 | case12 => cases h
  | case2 =>
      cases h
      rfl
  | case3 cs ih =>
      obtain ⟨parts', hread⟩ := exists_of_push h
      rw [afterQuote_cons (by decide) (by decide), afterQuote_cons (by decide) (by decide)]
      exact ih hread
  | case4 cs ih =>
      obtain ⟨parts', hread⟩ := exists_of_push h
      rw [afterQuote_cons (by decide) (by decide), afterQuote_cons (by decide) (by decide)]
      exact ih hread
  | case5 cs hnot ih =>
      rw [afterQuote_cons (by decide) (by decide)]
      exact ih h
  | case6 c cs d hd ih =>
      obtain ⟨parts', hread⟩ := exists_of_push h
      exact ih hread
  | case9 c cs hquote hopens hcloses hopen hslash hplain ih =>
      obtain ⟨parts', hread⟩ := exists_of_push h
      rw [afterQuote_cons hquote fun hc => hplain (hc ▸ List.mem_cons_self)]
      exact ih hread
  | case11 code cs ih =>
      obtain ⟨parts', hread⟩ := exists_of_push h
      rw [afterQuote_cons (by decide) (by decide)]
      exact ih hread
  | case13 code c cs hclose hplain ih =>
      simp only [List.mem_cons, not_or] at hplain
      rw [afterQuote_cons hplain.1 hplain.2.1]
      exact ih h

theorem flush_append {pieces : List Piece} (h : ∀ s, pieces.head? ≠ some (.text s))
    (run : List Char) :
    Text.flush .text run ++ pieces = Piece.addText (String.ofList run.reverse) pieces := by
  by_cases hrun : run = []
  · rw [hrun]
    exact (Piece.addText_empty pieces).symm
  · have hne : String.ofList run.reverse ≠ "" := by simpa using hrun
    rw [Piece.addText_of_head? h hne, Text.flush, if_neg (by simpa using hrun)]
    rfl

/-- The parts of pieces are gathered to the pieces with their texts joined, behind what has
been collected before. -/
theorem gather_parts (run : List Char) (pieces : List Piece) :
    gather run (pieces.flatMap parts)
      = Piece.addText (String.ofList run.reverse) (Piece.joinTexts pieces) := by
  induction pieces generalizing run with
  | nil =>
      rw [Piece.joinTexts, ← flush_append (by simp), List.append_nil]
      rfl
  | cons piece pieces ih =>
      rw [List.flatMap_cons]
      cases piece with
      | text s =>
          have hchars : gather run (s.toList.map .char ++ pieces.flatMap parts)
              = gather (s.toList.reverse ++ run) (pieces.flatMap parts) :=
            Text.gather_map (f := Part.char) (fun _ => rfl) run s.toList _
          rw [parts, hchars, ih, Piece.joinTexts, Piece.addText_addText]
          congr 1
          apply String.toList_inj.mp
          simp
      | expr e =>
          have hrest : gather [] (pieces.flatMap parts) = Piece.joinTexts pieces := by
            rw [ih]
            exact Piece.addText_empty _
          show Text.flush .text run ++ .expr (String.ofList e.toList) ::
            gather [] (pieces.flatMap parts) = _
          rw [hrest, String.ofList_toList, flush_append (by simp)]
          rfl

/-- An expression that a field can hold. -/
def Plain (e : String) : Prop :=
  ∀ c ∈ e.toList, c ∉ ['\x27', '\\', '{', '}', '#', '\n']

theorem all_fits_iff (pieces : List Piece) :
    pieces.all fits = true ↔ ∀ e, .expr e ∈ pieces → Plain e := by
  have hfits : ∀ e, fits (.expr e) = true ↔ Plain e := by
    intro e
    simp [fits, fitsField, Plain, and_assoc]
  rw [List.all_eq_true]
  constructor
  · intro h e he
    exact (hfits e).mp (h _ he)
  · intro h piece hpiece
    cases piece with
    | text s => rfl
    | expr e => exact (hfits e).mpr (h e hpiece)

theorem readFString_fString {pieces : List Piece} (h : pieces.all fits = true) :
    readFString (fString pieces) = some (Piece.joinTexts pieces) := by
  simp only [readFString, fString, String.toList_ofList, readParts_fields h, gather_parts]
  exact congrArg some (Piece.addText_empty _)

/-! ### Sums -/

/-- The piece is written as the term: a text as a literal, an expression as a conversion. -/
def Writes : Piece → String → Prop
  | .text s, term => Text.readQuoted term.toList = some (s.toList, [])
  | .expr e, term => term = "str(" ++ e ++ ")"

/-- The value of a term: the text of a literal, or the value of what is converted. -/
def termValue (values : String → String) (term : String) : Option String :=
  match Text.readQuoted term.toList with
  | some (s, []) => some (String.ofList s)
  | _ =>
      match "str(".toList.isPrefixOf? term.toList with
      | some cs =>
          if cs.getLast? = some ')' then some (values (String.ofList cs.dropLast)) else none
      | none => none

/-- The value of a sum of terms. -/
def sumValue (values : String → String) : List String → Option String
  | [] => some ""
  | term :: terms => do return (← termValue values term) ++ (← sumValue values terms)

/-- Only an empty text has no term, and every other piece has one that writes it. -/
theorem term?_cases (piece : Piece) :
    (piece = .text "" ∧ term? piece = none) ∨
      (piece ≠ .text "" ∧ ∃ term, term? piece = some term ∧ Writes piece term) := by
  cases piece with
  | text s =>
      by_cases hs : s = ""
      · exact Or.inl ⟨by rw [hs], by rw [hs]; rfl⟩
      · refine Or.inr ⟨fun heq => hs (Piece.text.inj heq), Text.quote s, ?_, ?_⟩
        · exact if_neg fun hempty => hs (String.isEmpty_iff.mp hempty)
        · exact Text.readQuoted_quote s
  | expr e => exact Or.inr ⟨nofun, _, rfl, rfl⟩

theorem termValue_of_writes (values : String → String) {piece : Piece} {term : String}
    (h : Writes piece term) : termValue values term = some (piece.value values) := by
  cases piece with
  | text s =>
      have hread : Text.readQuoted term.toList = some (s.toList, []) := h
      rw [termValue, hread]
      simp [Piece.value]
  | expr e =>
      obtain rfl : term = "str(" ++ e ++ ")" := h
      have hchars : ("str(" ++ e ++ ")").toList = "str(".toList ++ (e.toList ++ [')']) := by simp
      have hhead : "str(".toList.isPrefixOf? ("str(".toList ++ (e.toList ++ [')']))
          = some (e.toList ++ [')']) := by
        rw [List.isPrefixOf?_eq_some_iff_append_eq]
      have hquote : Text.readQuoted ("str(".toList ++ (e.toList ++ [')'])) = none := rfl
      rw [termValue, hchars, hquote, hhead]
      simp [Piece.value]

/-- The terms of pieces write them one by one, the empty texts left out. -/
theorem forall₂_writes (pieces : List Piece) :
    List.Forall₂ Writes (pieces.filter (· ≠ .text "")) (pieces.filterMap term?) := by
  induction pieces with
  | nil => exact List.Forall₂.nil
  | cons piece pieces ih =>
      rcases term?_cases piece with ⟨hempty, hterm⟩ | ⟨hne, term, hterm, hwrites⟩
      · rw [List.filter_cons_of_neg (by simpa using hempty), List.filterMap_cons_none hterm]
        exact ih
      · rw [List.filter_cons_of_pos (by simpa using hne), List.filterMap_cons_some hterm]
        exact List.Forall₂.cons hwrites ih

/-- A sum of terms stands for the pieces that they write. -/
theorem sumValue_terms (values : String → String) (pieces : List Piece) :
    sumValue values (pieces.filterMap term?) = some (Piece.together values pieces) := by
  induction pieces with
  | nil => rfl
  | cons piece pieces ih =>
      have hcons : Piece.together values (piece :: pieces)
          = piece.value values ++ Piece.together values pieces := by simp [Piece.together]
      rcases term?_cases piece with ⟨rfl, hterm⟩ | ⟨-, term, hterm, hwrites⟩
      · rw [List.filterMap_cons_none hterm, ih, hcons]
        simp [Piece.value]
      · rw [List.filterMap_cons_some hterm, sumValue, ih, termValue_of_writes values hwrites, hcons]
        rfl

/-- **Both ways of writing pieces keep them.**  If every expression can stand in a field, the
pieces become an f-string on one line that ends at its first quote, and reading it gives the
pieces with their texts joined.  If one cannot, they become a sum with a literal for each text
and a conversion for each expression, in order.  Whatever the values of the expressions are,
either one stands for the pieces put together. -/
theorem interpolation_keeps_pieces (pieces : List Piece) :
    ((∀ e, .expr e ∈ pieces → Plain e) →
      ∃ body, (interpolate pieces).toList = 'f' :: '\x27' :: body ∧
        '\n' ∉ (interpolate pieces).toList ∧ afterQuote body = some [] ∧
        readFString (interpolate pieces) = some (Piece.joinTexts pieces) ∧
        Piece.Tidy (Piece.joinTexts pieces) ∧
        ∀ values, (readFString (interpolate pieces)).map (Piece.together values)
          = some (Piece.together values pieces)) ∧
    ((∃ e, .expr e ∈ pieces ∧ ¬Plain e) →
      ∃ terms, terms ≠ [] ∧ interpolate pieces = " + ".intercalate terms ∧
        List.Forall₂ Writes (pieces.filter (· ≠ .text "")) terms ∧
        ∀ values, sumValue values terms = some (Piece.together values pieces)) := by
  constructor
  · intro hplain
    have hfits := (all_fits_iff pieces).mpr hplain
    have hwritten : interpolate pieces = fString pieces := if_pos hfits
    have hread := readFString_fString hfits
    have hline : '\n' ∉ (interpolate pieces).toList := by
      refine oneLine_interpolate fun e he hmem => ?_
      exact hplain e he _ hmem (by simp)
    rw [hwritten] at hline ⊢
    refine ⟨pieces.flatMap field ++ ['\x27'], String.toList_ofList, hline, ?_, hread,
      Piece.tidy_joinTexts pieces, ?_⟩
    · exact afterQuote_of_readParts (readParts_fields hfits [])
    · intro values
      rw [hread, Option.map_some, Piece.together_joinTexts]
  · rintro ⟨e, he, hnot⟩
    have hfits : ¬ pieces.all fits = true := fun h => hnot ((all_fits_iff pieces).mp h e he)
    refine ⟨pieces.filterMap term?, ?_, if_neg hfits, forall₂_writes pieces, ?_⟩
    · apply List.ne_nil_of_mem
      exact List.mem_filterMap.mpr ⟨_, he, rfl⟩
    · intro values
      exact sumValue_terms values pieces

end Python

end FlowSuite

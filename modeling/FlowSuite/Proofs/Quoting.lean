/-
Quoted texts in generated lines.

Texts of a flow go into generated code between double quotes.  Nothing in the text can end
the literal early, and nothing behind it can be taken in: of all the ways to cut a literal
off the front of the code, one is possible, and it gives the text back.

No control character is left in the literal either.  So when a line is put on a sheet and
cut at its line breaks, no cut falls into the literal, whatever stands around it.
-/
import FlowSuite.Proofs.Indentation.Level
import FlowSuite.Proofs.Json.Spelling

namespace FlowSuite

namespace Text

/-- A literal at the front of some characters: its text, and what follows it. -/
def LiteralAt (cs text rest : List Char) : Prop :=
  ∃ body, cs = '"' :: (body ++ '"' :: rest) ∧ Document.Spells body text

theorem literalAt_iff_readString {cs text rest : List Char} :
    LiteralAt ('"' :: cs) text rest ↔
      Document.readString cs = some (some (String.ofList text), rest) := by
  rw [Document.readString_eq_some_iff, String.toList_ofList]
  simp [LiteralAt]

/-- The only literal at the front of a quoted text is the quoted text. -/
theorem literalAt_quoteChars_iff (cs following text rest : List Char) :
    LiteralAt (quoteChars cs ++ following) text rest ↔ text = cs ∧ rest = following := by
  rw [quoteChars_append, literalAt_iff_readString, readString_flatMap_escape]
  constructor
  · intro h
    simp only [Option.some.injEq, Prod.mk.injEq, String.ofList_inj] at h
    exact ⟨h.1.symm, h.2.symm⟩
  · rintro ⟨rfl, rfl⟩
    rfl

/-! ### Lines -/

/-- A character that breaks no line stands at the front of the first line. -/
theorem splitLines_cons {c : Char} {cs : List Char} (hfeed : c ≠ '\n')
    (hreturn : ∀ rest, c = '\r' → cs ≠ '\n' :: rest) :
    splitLines (c :: cs) = (c :: (splitLines cs).headD []) :: (splitLines cs).tail := by
  cases hlines : splitLines cs with
  | nil => simp [splitLines, hlines]
  | cons l ls => simp [splitLines, hlines]

/-- Characters without breaks stay together. -/
theorem splitLines_append {w : List Char} (hne : w ≠ []) (hw : ∀ c ∈ w, 0x20 ≤ c.toNat)
    (after : List Char) :
    splitLines (w ++ after)
      = (w ++ (splitLines after).headD []) :: (splitLines after).tail := by
  induction w with
  | nil => exact absurd rfl hne
  | cons c w ih =>
      have hc : 0x20 ≤ c.toNat := hw c List.mem_cons_self
      have hfeed : c ≠ '\n' := by
        rintro rfl
        exact absurd hc (by decide)
      have hreturn : c ≠ '\r' := by
        rintro rfl
        exact absurd hc (by decide)
      rw [List.cons_append, splitLines_cons hfeed fun _ heq => absurd heq hreturn]
      cases w with
      | nil => rfl
      | cons d w =>
          rw [ih (List.cons_ne_nil d w) fun c hc => hw c (List.mem_cons_of_mem _ hc)]
          rfl

/-- The first line is at the front. -/
theorem headD_splitLines_prefix (cs : List Char) : (splitLines cs).headD [] <+: cs := by
  fun_induction splitLines cs with
  | case1 => exact List.nil_prefix
  | case2 cs ih => exact List.nil_prefix
  | case3 cs ih => exact List.nil_prefix
  | case4 c cs hfeed hreturn hlines ih =>
      exact List.cons_prefix_cons.mpr ⟨rfl, List.nil_prefix⟩
  | case5 c cs hfeed hreturn l ls hlines ih =>
      rw [hlines] at ih
      exact List.cons_prefix_cons.mpr ⟨rfl, ih⟩

/-- When a text is cut, the line `l` is joined to the end of `before`, and the lines `below`
follow.  All of `before` is in front of `l` unless there are lines above. -/
def Joins (before whole l : List Char) (below : List (List Char)) : Prop :=
  ∃ above b, splitLines whole = above ++ (b ++ l) :: below ∧ b <:+ before ∧
    (above = [] → b = before)

section Joins

variable {before whole l : List Char} {below : List (List Char)}

theorem Joins.cons {c : Char} (hfeed : c ≠ '\n') (hreturn : ∀ rest, c = '\r' → whole ≠ '\n' :: rest)
    (h : Joins before whole l below) : Joins (c :: before) (c :: whole) l below := by
  obtain ⟨above, b, hsplit, hsuffix, hall⟩ := h
  have hcut := splitLines_cons hfeed hreturn
  rw [hsplit] at hcut
  cases above with
  | nil =>
      obtain rfl := hall rfl
      exact ⟨[], c :: b, hcut, List.suffix_rfl, fun _ => rfl⟩
  | cons first above =>
      exact ⟨(c :: first) :: above, b, hcut, hsuffix.trans (List.suffix_cons c before), by simp⟩

theorem Joins.break (front : List Char)
    (hcut : splitLines (front ++ whole) = [] :: splitLines whole)
    (h : Joins before whole l below) : Joins (front ++ before) (front ++ whole) l below := by
  obtain ⟨above, b, hsplit, hsuffix, -⟩ := h
  rw [hsplit] at hcut
  exact ⟨[] :: above, b, hcut, hsuffix.trans (List.suffix_append front before), by simp⟩

end Joins

/-- **Wherever a text is cut, it is not cut inside of characters without breaks.** -/
theorem joins_splitLines {w : List Char} (hne : w ≠ []) (hw : ∀ c ∈ w, 0x20 ≤ c.toNat)
    (before after : List Char) :
    Joins before (before ++ (w ++ after)) (w ++ (splitLines after).headD [])
      (splitLines after).tail := by
  have hstart : ∀ rest, w ++ after ≠ '\n' :: rest := by
    intro rest heq
    obtain ⟨c, w, rfl⟩ := List.exists_cons_of_ne_nil hne
    obtain rfl := (List.cons.inj heq).1
    exact absurd (hw _ List.mem_cons_self) (by decide)
  -- An ordinary character is followed by what followed it before, or by `w` itself.
  have hbehind : ∀ cs : List Char, (∀ rest, cs ≠ '\n' :: rest) →
      ∀ rest, cs ++ (w ++ after) ≠ '\n' :: rest := by
    intro cs hcs rest heq
    cases cs with
    | nil => exact hstart rest heq
    | cons d cs => exact hcs cs (congrArg (· :: cs) (List.cons.inj heq).1)
  fun_induction splitLines before with
  | case1 => exact ⟨[], [], splitLines_append hne hw after, List.suffix_rfl, fun _ => rfl⟩
  | case2 cs ih => exact ih.break ['\n'] (by simp [splitLines])
  | case3 cs ih => exact ih.break ['\r', '\n'] (by simp [splitLines])
  | case4 c cs hfeed hreturn hlines ih =>
      exact ih.cons hfeed fun rest hc => hbehind cs (fun rest => hreturn rest hc) rest
  | case5 c cs hfeed hreturn l ls hlines ih =>
      exact ih.cons hfeed fun rest hc => hbehind cs (fun rest => hreturn rest hc) rest

end Text

/-- The lines of the file that a line becomes are the parts of its text, each indented. -/
theorem Line.splitOn_render {l : Line} (hne : l.text ≠ "") (level : Nat) :
    (l.render level).toList.splitOn '\n'
      = (Text.splitLines l.text.toList).map (Text.indentLine (4 * (level + l.depth))) ++ [[]] := by
  have hempty : l.text.isEmpty = false := by simpa using hne
  have hlines : ∀ piece ∈ l.inFile level, '\n' ∉ piece := by
    intro piece hpiece
    have hmem : piece ∈ [l].flatMap (inFile level) := by simpa using hpiece
    exact newline_notMem_inFile hmem
  rw [toList_render, Text.splitOn_lined hlines, inFile, hempty]
  rfl

/-- **Nothing gets out of a quoted text.**  Whatever follows it, the only literal that can be
read at its front is the text itself with nothing left out and nothing taken in.  It has no
control character.  And wherever it is put on a line, at any level of indentation, it stands
whole on one line of the file, between the end of what was before it and the beginning of
what comes after. -/
theorem quoted_text_stays_literal (t : String) :
    (∀ (u : String) (text rest : List Char),
      Text.LiteralAt (Text.quote t ++ u).toList text rest ↔
        text = t.toList ∧ rest = u.toList) ∧
    (∀ c ∈ (Text.quote t).toList, 0x20 ≤ c.toNat) ∧
    ∀ (before after : String) (level depth : Nat), ∃ above b a rest,
      ((below depth (before ++ Text.quote t ++ after)).render level).toList.splitOn '\n'
        = above ++ (List.replicate (4 * (level + depth)) ' ' ++
            (b ++ (Text.quote t).toList ++ a)) :: rest ∧
      b <:+ before.toList ∧ a <+: after.toList := by
  rw [Text.toList_quote]
  refine ⟨?_, fun c => Text.not_control_of_mem_quoteChars, ?_⟩
  · intro u text rest
    rw [String.toList_append, Text.toList_quote]
    exact Text.literalAt_quoteChars_iff t.toList u.toList text rest
  · intro before after level depth
    have hne : Text.quoteChars t.toList ≠ [] := List.cons_ne_nil _ _
    obtain ⟨above, b, hsplit, hsuffix, -⟩ := Text.joins_splitLines hne
      (fun c => Text.not_control_of_mem_quoteChars) before.toList after.toList
    have htext : (before ++ Text.quote t ++ after).toList
        = before.toList ++ (Text.quoteChars t.toList ++ after.toList) := by
      rw [String.toList_append, String.toList_append, Text.toList_quote, List.append_assoc]
    have htextNe : before ++ Text.quote t ++ after ≠ "" := by
      intro heq
      rw [heq] at htext
      simp [Text.quoteChars] at htext
    let a := (Text.splitLines after.toList).headD []
    have hline : Text.indentLine (4 * (level + depth)) (b ++ (Text.quoteChars t.toList ++ a))
        = List.replicate (4 * (level + depth)) ' ' ++ (b ++ Text.quoteChars t.toList ++ a) := by
      rw [Text.indentLine, List.append_assoc, if_neg (by simp [Text.quoteChars])]
    refine ⟨above.map (Text.indentLine (4 * (level + depth))), b, a,
      (Text.splitLines after.toList).tail.map (Text.indentLine (4 * (level + depth))) ++ [[]],
      ?_, hsuffix, Text.headD_splitLines_prefix after.toList⟩
    rw [Line.splitOn_render htextNe, below, htext, hsplit, List.map_append, List.map_cons, hline,
      List.append_assoc, List.cons_append]

end FlowSuite

/-
What field texts mean in the targets.

The meaning of a field text is fixed without any target: trimmed and scanned, its texts
stand for themselves and its references for what is stored at their paths.  Each target
writes an expression for it in its own language, a number bare, a string quoted, a
reference as a look-up, a mixture as a string put together at run time.  Evaluated in
that language, the expression gives the meaning, so both targets give the same.
-/
import FlowSuite.Proofs.Expression.JavaScript
import FlowSuite.Proofs.Expression.Python

namespace FlowSuite

/-! ### Kinds of field texts -/

theorem Text.mem_of_mem_trimChars {c : Char} {cs : List Char} (h : c ∈ trimChars cs) :
    c ∈ cs := by
  unfold trimChars dropBlankEnd at h
  have hend := (List.dropWhile_sublist isBlank).subset (List.mem_reverse.mp h)
  exact (List.dropWhile_sublist isBlank).subset (List.mem_reverse.mp hend)

theorem Segment.single?_eq_some_iff {segments : List Segment} {p : Path} :
    single? segments = some p ↔ segments = [.ref p] := by
  constructor
  · intro h
    unfold single? at h
    split at h
    · cases h
      rfl
    · cases h
  · rintro rfl
    rfl

/-- A trimmed text is one reference, a mixture with references, a number or a text. -/
theorem Value.ofChars_cases (cs : List Char) :
    (∃ p, ofChars cs = .reference p ∧ Segment.scanChars cs = [.ref p]) ∨
    (ofChars cs = .interpolated (Segment.scanChars cs) ∧
      (Segment.scanChars cs).any Segment.isRef = true) ∨
    (Segment.scanChars cs).any Segment.isRef = false ∧
      (ofChars cs = .number (String.ofList cs) ∧ isDecimal (String.ofList cs) = true ∨
        ofChars cs = .text (String.ofList cs)) := by
  cases hsingle : Segment.single? (Segment.scanChars cs) with
  | some p =>
      exact Or.inl ⟨p, by simp [ofChars, hsingle], Segment.single?_eq_some_iff.mp hsingle⟩
  | none =>
      refine Or.inr ?_
      by_cases href : (Segment.scanChars cs).any Segment.isRef = true
      · exact Or.inl ⟨by simp only [ofChars, hsingle, if_pos href], href⟩
      · refine Or.inr ⟨Bool.eq_false_iff.mpr href, ?_⟩
        by_cases hnumber : isDecimal (String.ofList cs) = true
        · exact Or.inl
            ⟨by simp only [ofChars, hsingle, if_neg href, if_pos hnumber], hnumber⟩
        · exact Or.inr (by simp only [ofChars, hsingle, if_neg href, if_neg hnumber])

/-- A text that does not start with an equals sign is no assignment. -/
theorem Value.classify_of_ne {raw : String} (h : (Text.trim raw).toList.head? ≠ some '=') :
    classify raw = ofChars (Text.trim raw).toList := by
  rw [Text.toList_trim] at h ⊢
  unfold classify
  split
  · rename_i hcs
    rw [hcs] at h
    exact absurd rfl h
  · rfl

/-! ### Evaluation -/

namespace Target

/-- The value of an expression in the target's language. -/
def eval : Target → (Path → String) → String → Option String
  | .selenium => Python.eval
  | .cypress => JavaScript.eval

theorem eval_of_isDecimal (t : Target) (store : Path → String) {s : String}
    (h : isDecimal s = true) : t.eval store s = some s := by
  cases t with
  | selenium => exact if_pos h
  | cypress => exact if_pos h

theorem eval_quote (t : Target) (store : Path → String) (s : String) :
    t.eval store (Text.quote s) = some s := by
  cases t with
  | selenium => exact Python.eval_quote store s
  | cypress => exact JavaScript.eval_quote store s

theorem eval_accessor (t : Target) (store : Path → String) (p : Path) :
    t.eval store (t.accessor p) = some (store p) := by
  cases t with
  | selenium => exact Python.eval_accessor store p
  | cypress => exact JavaScript.eval_accessor store p

/-- A scanned mixture stands for its segments, put together. -/
theorem eval_interpolate_scanChars (t : Target) (store : Path → String) {cs : List Char}
    (hcr : '\r' ∉ cs) (href : (Segment.scanChars cs).any Segment.isRef = true) :
    t.eval store (t.interpolate ((Segment.scanChars cs).map t.piece))
      = some (Segment.meaning store (Segment.scanChars cs)) := by
  cases t with
  | selenium => exact Python.eval_interpolate store href
  | cypress =>
      have hchain : (Segment.scanChars cs).IsChain Segment.Apart :=
        Segment.isChain_gather [] _
      exact JavaScript.eval_interpolate store hchain fun s hs hc =>
        hcr (Segment.mem_of_mem_scanChars hs hc)

end Target

/-- **Field texts mean the same in both targets.**  The expression for a field text that
is no assignment and has no carriage return evaluates, in either language, to its texts
and the stored values of its references, one after the other. -/
theorem eval_translate (t : Target) (raw : String) (store : Path → String)
    (hcr : '\r' ∉ raw.toList) (hplain : (Text.trim raw).toList.head? ≠ some '=') :
    t.eval store (t.translate raw)
      = some (Segment.meaning store (Segment.scan (Text.trim raw))) := by
  have hcr' : '\r' ∉ (Text.trim raw).toList := by
    rw [Text.toList_trim]
    exact fun h => hcr (Text.mem_of_mem_trimChars h)
  rw [Target.translate, Value.classify_of_ne hplain]
  rcases Value.ofChars_cases (Text.trim raw).toList with
    ⟨p, hvalue, hscan⟩ | ⟨hvalue, href⟩ | ⟨hno, hvalue⟩
  · rw [hvalue, Segment.scan, hscan]
    have hmeaning : Segment.meaning store [.ref p] = store p := by simp [Segment.meaning]
    rw [hmeaning]
    exact t.eval_accessor store p
  · rw [hvalue]
    exact t.eval_interpolate_scanChars store hcr' href
  · have hmeaning : Segment.meaning store (Segment.scan (Text.trim raw)) = Text.trim raw := by
      apply String.toList_inj.mp
      exact Segment.meaning_scanChars_of_no_ref store hno
    rw [String.ofList_toList] at hvalue
    rw [hmeaning]
    rcases hvalue with ⟨hvalue, hnumber⟩ | hvalue
    · rw [hvalue]
      exact t.eval_of_isDecimal store hnumber
    · rw [hvalue]
      exact t.eval_quote store _

/-- A field text in which a dollar sign and braces touch references, with quotes of both
kinds, a backslash and a backtick between them. -/
def touchingText : String :=
  " $$\x7bprice.0\x7d\x7b\x7d'\"\\`$\x7buser.name\x7d$ "

theorem touchingText_means_the_same :
    '\r' ∉ touchingText.toList ∧ (Text.trim touchingText).toList.head? ≠ some '=' ∧
    Target.selenium.eval Path.text (Target.selenium.translate touchingText)
      = Target.cypress.eval Path.text (Target.cypress.translate touchingText) ∧
    Target.cypress.eval Path.text (Target.cypress.translate touchingText)
      = some "$price.0\x7b\x7d'\"\\`user.name$" := by
  have hcr : '\r' ∉ touchingText.toList := by decide
  have hplain : (Text.trim touchingText).toList.head? ≠ some '=' := by decide
  have hmeaning : Segment.meaning Path.text (Segment.scan (Text.trim touchingText))
      = "$price.0\x7b\x7d'\"\\`user.name$" := by decide +kernel
  rw [eval_translate .selenium _ _ hcr hplain, eval_translate .cypress _ _ hcr hplain, hmeaning]
  exact ⟨hcr, hplain, rfl, rfl⟩

end FlowSuite

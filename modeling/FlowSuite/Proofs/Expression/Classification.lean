/-
Which rule a field text falls under.

The meaning of a field text is decided by looking at what it is cut into.  The rules are
told to the author of a flow in other words: a text that starts with an equals sign is
source, one pair of braces around a path is the stored value, references among other
characters make a string, and what is left is a number or a text.  Here the two are shown to
be the same, so that nobody who writes a field has to think of the cut.

The one rule that needs an argument is the second.  A text is cut into one reference exactly
if it is braces around a path, whatever else of braces and dollar signs is between them: the
parts that segments stand for make up the text, so a single reference is all of it.  The same
rule decides where a page element is looked up, and there it is used without the others; that
both places agree is because no text is at once source and a reference.
-/
import FlowSuite.Proofs.Expression.Segments
import FlowSuite.Target.Locator

namespace FlowSuite

/-! ### One reference -/

namespace Segment

/-- A text is cut into one reference exactly if it is braces around the path. -/
theorem scan_eq_ref_iff (s : String) (p : Path) : scan s = [.ref p] ↔ p.Braced s := by
  constructor
  · intro h
    obtain ⟨slices, hslices, hjoin⟩ := exists_slices s
    rw [h] at hslices
    cases hslices with
    | @cons _ slice _ _ hbraced hnone =>
        cases hnone
        have hwhole : slice = s := by
          rw [← hjoin]
          exact String.toList_inj.mp (by simp)
        rw [← hwhole]
        exact hbraced
  · rintro ⟨inside, hclose, hpath, rfl⟩
    have hatoms := (Scans.braces hclose .nil).atoms_eq
    have hsame : braces inside.toList = [.ref p] := by
      rw [Path.parse?] at hpath
      rw [braces, hpath]
    have hchars : ("$\x7b" ++ inside ++ "\x7d").toList
        = '$' :: '{' :: (inside.toList ++ '}' :: []) := by
      rw [String.toList_append, String.toList_append]
      rfl
    rw [scan, scanChars, hchars, hatoms, hsame]
    rfl

theorem any_isRef_iff (segments : List Segment) :
    segments.any isRef = true ↔ ∃ p, .ref p ∈ segments := by
  rw [List.any_eq_true]
  constructor
  · rintro ⟨segment, hmem, href⟩
    cases segment with
    | text s => cases href
    | ref p => exact ⟨p, hmem⟩
  · rintro ⟨p, hmem⟩
    exact ⟨.ref p, hmem, rfl⟩

/-- References with something beside them are two segments or more. -/
theorem two_le_length_of_not_single {segments : List Segment} {p : Path}
    (hmem : .ref p ∈ segments) (hnot : ∀ q, segments ≠ [.ref q]) : 2 ≤ segments.length := by
  match segments with
  | [] => exact absurd hmem List.not_mem_nil
  | [segment] =>
      have hsegment : segment = .ref p := (List.mem_singleton.mp hmem).symm
      exact absurd (by rw [hsegment]) (hnot p)
  | _ :: _ :: rest =>
      rw [List.length_cons, List.length_cons]
      omega

end Segment

/-- Braces start with a dollar sign. -/
theorem Path.Braced.head? {p : Path} {s : String} (h : p.Braced s) :
    s.toList.head? = some '$' := by
  obtain ⟨inside, -, -, rfl⟩ := h
  rw [String.toList_append, String.toList_append]
  rfl

/-! ### The rules -/

namespace Value

/-- What starts with an equals sign is source. -/
theorem classify_source {raw source : String} (h : Text.trim raw = "=" ++ source) :
    classify raw = .assignment (Segment.scan (Text.trim source)) := by
  have hchars : Text.trimChars raw.toList = '=' :: source.toList := by
    rw [← Text.toList_trim, h, String.toList_append]
    rfl
  rw [classify, hchars, Segment.scan, Text.toList_trim]
  rfl

theorem exists_source {s : String} (h : s.toList.head? = some '=') :
    ∃ source, s = "=" ++ source := by
  obtain ⟨rest, hrest⟩ := List.head?_eq_some_iff.mp h
  refine ⟨String.ofList rest, String.toList_inj.mp ?_⟩
  rw [hrest, String.toList_append]
  exact congrArg ('=' :: ·) String.toList_ofList.symm

theorem exists_assignment_iff (raw : String) :
    (∃ segments, classify raw = .assignment segments) ↔
      (Text.trim raw).toList.head? = some '=' := by
  constructor
  · rintro ⟨segments, hvalue⟩
    by_cases hsource : (Text.trim raw).toList.head? = some '='
    · exact hsource
    · rw [classify_of_ne hsource] at hvalue
      rcases ofChars_cases (Text.trim raw).toList with
        ⟨p, h, -⟩ | ⟨h, -⟩ | ⟨-, ⟨h, -⟩ | h⟩
      all_goals
        rw [h] at hvalue
        cases hvalue
  · intro hsource
    obtain ⟨source, htrim⟩ := exists_source hsource
    exact ⟨_, classify_source htrim⟩

/-- A field text is the stored value at a path exactly if it is braces around the path. -/
theorem classify_eq_reference_iff (raw : String) (p : Path) :
    classify raw = .reference p ↔ p.Braced (Text.trim raw) := by
  rw [← Segment.scan_eq_ref_iff]
  by_cases hsource : (Text.trim raw).toList.head? = some '='
  · obtain ⟨segments, hvalue⟩ := (exists_assignment_iff raw).mpr hsource
    refine iff_of_false ?_ ?_
    · rw [hvalue]
      intro h
      cases h
    · intro hscan
      have hhead := ((Segment.scan_eq_ref_iff _ p).mp hscan).head?
      rw [hsource] at hhead
      exact absurd hhead (by decide)
  · rw [classify_of_ne hsource, Segment.scan]
    rcases ofChars_cases (Text.trim raw).toList with
      ⟨q, hvalue, hscan⟩ | ⟨hvalue, href⟩ | ⟨hno, hvalue⟩
    · rw [hvalue, hscan]
      simp
    · refine iff_of_false ?_ ?_
      · rw [hvalue]
        intro h
        cases h
      · intro hscan
        rw [ofChars, Segment.single?_eq_some_iff.mpr hscan] at hvalue
        cases hvalue
    · refine iff_of_false ?_ ?_
      · intro h
        rcases hvalue with ⟨hvalue, -⟩ | hvalue
        · rw [hvalue] at h
          cases h
        · rw [hvalue] at h
          cases h
      · intro hscan
        rw [hscan] at hno
        cases hno

/-- Without source and without braces around all of it, a field text is a string put
together if it has references, and else a number or a text. -/
theorem classify_of_not_braced {raw : String}
    (hplain : (Text.trim raw).toList.head? ≠ some '=')
    (hnot : ∀ p : Path, ¬p.Braced (Text.trim raw)) :
    classify raw =
      if (Segment.scan (Text.trim raw)).any Segment.isRef then
        .interpolated (Segment.scan (Text.trim raw))
      else if isDecimal (Text.trim raw) then .number (Text.trim raw)
      else .text (Text.trim raw) := by
  have hsingle : Segment.single? (Segment.scanChars (Text.trim raw).toList) = none := by
    rw [← Option.not_isSome_iff_eq_none]
    intro hsome
    obtain ⟨p, hp⟩ := Option.isSome_iff_exists.mp hsome
    exact hnot p ((Segment.scan_eq_ref_iff _ p).mp (Segment.single?_eq_some_iff.mp hp))
  rw [classify_of_ne hplain, ofChars, hsingle, String.ofList_toList]
  rfl

section

variable {raw : String} (hplain : (Text.trim raw).toList.head? ≠ some '=')
  (hnot : ∀ p : Path, ¬p.Braced (Text.trim raw))

include hplain hnot

theorem classify_of_ref (href : ∃ p, .ref p ∈ Segment.scan (Text.trim raw)) :
    classify raw = .interpolated (Segment.scan (Text.trim raw)) := by
  rw [classify_of_not_braced hplain hnot, if_pos ((Segment.any_isRef_iff _).mpr href)]

theorem classify_of_no_ref (hno : ∀ p, .ref p ∉ Segment.scan (Text.trim raw)) :
    classify raw =
      if isDecimal (Text.trim raw) then .number (Text.trim raw) else .text (Text.trim raw) := by
  have hnone : ¬(Segment.scan (Text.trim raw)).any Segment.isRef = true := by
    intro h
    obtain ⟨p, hp⟩ := (Segment.any_isRef_iff _).mp h
    exact hno p hp
  rw [classify_of_not_braced hplain hnot, if_neg hnone]

theorem exists_interpolated_iff :
    (∃ segments, classify raw = .interpolated segments) ↔
      ∃ p, .ref p ∈ Segment.scan (Text.trim raw) := by
  constructor
  · rintro ⟨segments, hvalue⟩
    by_contra hnone
    rw [classify_of_no_ref hplain hnot fun p hp => hnone ⟨p, hp⟩] at hvalue
    split at hvalue <;> cases hvalue
  · intro href
    exact ⟨_, classify_of_ref hplain hnot href⟩

end

end Value

namespace LocatorValue

theorem resolve_eq_reference_iff (raw : String) (p : Path) :
    resolve raw = .reference p ↔ p.Braced (Text.trim raw) := by
  rw [← Segment.scan_eq_ref_iff, ← Segment.single?_eq_some_iff, Segment.scan, Text.toList_trim]
  unfold resolve
  dsimp only
  cases Segment.single? (Segment.scanChars (Text.trimChars raw.toList)) with
  | none => simp
  | some q => simp

theorem resolve_of_not_braced {raw : String} (h : ∀ p : Path, ¬p.Braced (Text.trim raw)) :
    resolve raw = .literal (Text.trim raw) := by
  cases hvalue : resolve raw with
  | reference p => exact absurd ((resolve_eq_reference_iff raw p).mp hvalue) (h p)
  | literal s =>
      unfold resolve at hvalue
      dsimp only at hvalue
      split at hvalue
      · cases hvalue
      · cases hvalue
        rfl

end LocatorValue

/-- **A field text falls under the first rule that fits, and page elements go by the same
rule.**  The rules are an equals sign in front, braces around one path, references among
other characters, a number, and a text.  A page element is looked up in a variable exactly
if its field is the stored value at a path, and is given as it stands in every other case. -/
theorem classified_by_rules (raw : String) :
    ((∃ segments, Value.classify raw = .assignment segments) ↔
      (Text.trim raw).toList.head? = some '=') ∧
    (∀ source, Text.trim raw = "=" ++ source →
      Value.classify raw = .assignment (Segment.scan (Text.trim source))) ∧
    ((Text.trim raw).toList.head? ≠ some '=' →
      (∀ p, Value.classify raw = .reference p ↔ p.Braced (Text.trim raw)) ∧
      ((∀ p : Path, ¬p.Braced (Text.trim raw)) →
        ((∃ segments, Value.classify raw = .interpolated segments) ↔
          ∃ p, .ref p ∈ Segment.scan (Text.trim raw)) ∧
        ((∃ p, .ref p ∈ Segment.scan (Text.trim raw)) →
          Value.classify raw = .interpolated (Segment.scan (Text.trim raw)) ∧
            2 ≤ (Segment.scan (Text.trim raw)).length) ∧
        ((∀ p, .ref p ∉ Segment.scan (Text.trim raw)) →
          (Value.classify raw = .number (Text.trim raw) ↔ isDecimal (Text.trim raw) = true) ∧
          (isDecimal (Text.trim raw) = false →
            Value.classify raw = .text (Text.trim raw))))) ∧
    (∀ p, LocatorValue.resolve raw = .reference p ↔ Value.classify raw = .reference p) ∧
    ((∀ p, Value.classify raw ≠ .reference p) →
      LocatorValue.resolve raw = .literal (Text.trim raw)) := by
  refine ⟨Value.exists_assignment_iff raw, fun source => Value.classify_source, ?_, ?_, ?_⟩
  · intro hplain
    refine ⟨Value.classify_eq_reference_iff raw, fun hnot => ⟨?_, ?_, ?_⟩⟩
    · exact Value.exists_interpolated_iff hplain hnot
    · intro href
      refine ⟨Value.classify_of_ref hplain hnot href, ?_⟩
      obtain ⟨p, hp⟩ := href
      refine Segment.two_le_length_of_not_single hp fun q hscan => ?_
      exact hnot q ((Segment.scan_eq_ref_iff _ q).mp hscan)
    · intro hno
      rw [Value.classify_of_no_ref hplain hnot hno]
      by_cases hdecimal : isDecimal (Text.trim raw) = true
      · rw [if_pos hdecimal]
        exact ⟨iff_of_true rfl hdecimal, fun hfalse => absurd hdecimal (by rw [hfalse]; nofun)⟩
      · rw [if_neg hdecimal]
        exact ⟨iff_of_false nofun hdecimal, fun _ => rfl⟩
  · intro p
    rw [LocatorValue.resolve_eq_reference_iff, Value.classify_eq_reference_iff]
  · intro hnot
    refine LocatorValue.resolve_of_not_braced fun p hbraced => ?_
    exact hnot p ((Value.classify_eq_reference_iff raw p).mpr hbraced)

end FlowSuite

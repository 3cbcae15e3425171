/-
Reading double-quoted literals.

A literal is read from its opening quote on with the escapes of JSON, which Python and
JavaScript share.  A quoted text is read back as the text, and the reading stops right
behind it whatever follows: no character of the text can end the literal early or take
in something of what comes after it.

The reader is the one that JSON documents are read with.  It gives a part for each
character, since an escape may be half a surrogate pair; the writer never needs pairs,
so here every part is one character.
-/
import FlowSuite.Json.Document
import FlowSuite.Text.Quoted

namespace FlowSuite

open Document (Unit16)

namespace Text

/-- The part by which a quoted character is read. -/
def unit (c : Char) : Unit16 :=
  if c.toNat < 0x20 ∧ c ∉ ['\x08', '\t', '\n', '\x0c', '\r'] then .unit c.toNat else .char c

/-- The double-quoted literal at the front, and what follows it. -/
def readQuoted : List Char → Option (List Char × List Char)
  | '"' :: cs =>
      match Document.readString cs with
      | some (some s, rest) => some (s.toList, rest)
      | _ => none
  | _ => none

theorem hexValue?_hexDigit : ∀ n, n < 16 → Document.hexValue? (hexDigit n) = some n := by
  decide

theorem hexUnit?_hexDigit {n : Nat} (h : n < 0x20) :
    Document.hexUnit? '0' '0' (hexDigit (n / 16)) (hexDigit (n % 16)) = some n := by
  have hzero : Document.hexValue? '0' = some 0 := by decide
  have hhigh := hexValue?_hexDigit (n / 16) (by omega)
  have hlow := hexValue?_hexDigit (n % 16) (by omega)
  simp only [Document.hexUnit?, hzero, hhigh, hlow, Option.bind_eq_bind, Option.bind_some,
    Option.pure_def, Option.some.injEq]
  omega

/-- An escaped character is read as one part, whatever follows it. -/
theorem readUnits_escape (c : Char) {rest rest' : List Char} {us : List Unit16}
    (h : Document.readUnits rest = some (us, rest')) :
    Document.readUnits (escape c ++ rest) = some (unit c :: us, rest') := by
  by_cases hshort : c ∈ ['"', '\\', '\x08', '\t', '\n', '\x0c', '\r']
  · -- These have an escape of one letter.
    simp only [List.mem_cons, List.not_mem_nil, or_false] at hshort
    rcases hshort with rfl | rfl | rfl | rfl | rfl | rfl | rfl <;>
      simp [escape, Document.readUnits, Document.unescape?, unit, h]
  · simp only [List.mem_cons, List.not_mem_nil, or_false, not_or] at hshort
    obtain ⟨hquote, hslash, hb, ht, hn, hf, hr⟩ := hshort
    by_cases hcontrol : c.toNat < 0x20
    · have hescape : escape c =
          ['\\', 'u', '0', '0', hexDigit (c.toNat / 16), hexDigit (c.toNat % 16)] := by
        simp [escape, hquote, hslash, hb, ht, hn, hf, hr, hcontrol]
      have hunit : unit c = .unit c.toNat := by
        simp [unit, hcontrol, hb, ht, hn, hf, hr]
      simp [hescape, hunit, Document.readUnits, hexUnit?_hexDigit hcontrol, h]
    · have hescape : escape c = [c] := by
        simp [escape, hquote, hslash, hb, ht, hn, hf, hr, hcontrol]
      have hunit : unit c = .char c := by
        simp [unit, hcontrol]
      simp [hescape, hunit, Document.readUnits, hslash, hcontrol, h]

theorem readUnits_flatMap_escape (cs rest : List Char) :
    Document.readUnits (cs.flatMap escape ++ '"' :: rest) = some (cs.map unit, rest) := by
  induction cs with
  | nil => simp [Document.readUnits]
  | cons c cs ih =>
      rw [List.flatMap_cons, List.append_assoc, List.map_cons]
      exact readUnits_escape c ih

/-- The parts of a quoted text spell the text. -/
theorem spell?_map_unit (cs : List Char) : Document.spell? (cs.map unit) = some cs := by
  induction cs with
  | nil => rfl
  | cons c cs ih =>
      rw [List.map_cons]
      by_cases hcontrol : c.toNat < 0x20 ∧ c ∉ ['\x08', '\t', '\n', '\x0c', '\r']
      · have hunit : unit c = .unit c.toNat := if_pos hcontrol
        have hhigh : Document.isHigh c.toNat = false := by
          simp only [Document.isHigh, Bool.and_eq_false_iff, decide_eq_false_iff_not]
          omega
        have hlow : Document.isLow c.toNat = false := by
          simp only [Document.isLow, Bool.and_eq_false_iff, decide_eq_false_iff_not]
          omega
        rw [hunit, Document.spell?.eq_def]
        simp [hhigh, hlow, ih]
      · have hunit : unit c = .char c := if_neg hcontrol
        simp [hunit, Document.spell?, ih]

theorem quoteChars_append (cs rest : List Char) :
    quoteChars cs ++ rest = '"' :: (cs.flatMap escape ++ '"' :: rest) := by
  rw [quoteChars, List.cons_append, List.append_assoc, List.singleton_append]

/-- Behind its opening quote, a quoted text is read as the text. -/
theorem readString_flatMap_escape (cs rest : List Char) :
    Document.readString (cs.flatMap escape ++ '"' :: rest)
      = some (some (String.ofList cs), rest) := by
  rw [Document.readString, readUnits_flatMap_escape]
  simp [spell?_map_unit]

/-- **A quoted text is read back as the text, and the reading stops right behind it.** -/
theorem readQuoted_quoteChars (cs rest : List Char) :
    readQuoted (quoteChars cs ++ rest) = some (cs, rest) := by
  rw [quoteChars_append, readQuoted, readString_flatMap_escape]
  simp

/-- A literal alone is read to its end. -/
theorem readQuoted_quote (s : String) : readQuoted (quote s).toList = some (s.toList, []) := by
  have hread := readQuoted_quoteChars s.toList []
  rw [List.append_nil] at hread
  rw [toList_quote]
  exact hread

end Text

end FlowSuite

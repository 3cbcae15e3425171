/-
The characters of numbers.

A numeral is read by passing over digits, signs, a point and the mark of an exponent, and
whatever else stands in a text is still there in the rest.  So a text that is a numeral
from end to end has no other characters, and neither has a number that is written out,
whichever notation its size asks for.
-/
import FlowSuite.Json.Number
import Mathlib.Data.List.Basic

namespace FlowSuite

namespace Numeral

/-- A character that numbers are written with. -/
def isMark (c : Char) : Bool :=
  c.isDigit || c ∈ ['-', '+', '.', 'e', 'E']

theorem isMark_of_isDigit {c : Char} (h : c.isDigit = true) : isMark c = true := by
  rw [isMark, h, Bool.true_or]

/-- There are no other characters. -/
def Marks (cs : List Char) : Prop :=
  ∀ c ∈ cs, isMark c = true

instance (cs : List Char) : Decidable (Marks cs) :=
  List.decidableBAll _ cs

theorem Marks.append {cs cs' : List Char} (h : Marks cs) (h' : Marks cs') : Marks (cs ++ cs') := by
  intro c hc
  rcases List.mem_append.mp hc with hc | hc
  · exact h c hc
  · exact h' c hc

/-! ### Reading -/

/-- Between the two there are marks only. -/
def Passes (cs rest : List Char) : Prop :=
  ∃ front, cs = front ++ rest ∧ Marks front

theorem Passes.refl (cs : List Char) : Passes cs cs :=
  ⟨[], rfl, by decide⟩

theorem Passes.trans {cs cs' cs'' : List Char} (h : Passes cs cs') (h' : Passes cs' cs'') :
    Passes cs cs'' := by
  obtain ⟨front, rfl, hfront⟩ := h
  obtain ⟨front', rfl, hfront'⟩ := h'
  exact ⟨front ++ front', (List.append_assoc ..).symm, hfront.append hfront'⟩

theorem Passes.cons {c : Char} {cs rest : List Char} (hc : Marks [c]) (h : Passes cs rest) :
    Passes (c :: cs) rest := by
  obtain ⟨front, rfl, hfront⟩ := h
  exact ⟨c :: front, rfl, hc.append hfront⟩

theorem passes_readDigits {cs ds rest : List Char} (h : readDigits cs = some (ds, rest)) :
    Passes cs rest := by
  unfold readDigits at h
  split at h
  · cases h
  · cases h
    refine ⟨cs.takeWhile Char.isDigit, List.takeWhile_append_dropWhile.symm, ?_⟩
    intro c hc
    exact isMark_of_isDigit (List.all_eq_true.mp List.all_takeWhile _ hc)

theorem passes_readWhole {cs ds rest : List Char} (h : readWhole cs = some (ds, rest)) :
    Passes cs rest := by
  unfold readWhole at h
  split at h
  · cases h
    exact (Passes.refl _).cons (by decide)
  · exact passes_readDigits h

theorem passes_readFraction {cs ds rest : List Char} (h : readFraction cs = some (ds, rest)) :
    Passes cs rest := by
  unfold readFraction at h
  split at h
  · exact (passes_readDigits h).cons (by decide)
  · cases h
    exact .refl _

theorem passes_readSign (cs : List Char) : Passes cs (readSign cs).2 := by
  unfold readSign
  split
  · exact (Passes.refl _).cons (by decide)
  · exact .refl _

theorem passes_readExponentSign (cs : List Char) : Passes cs (readExponentSign cs).2 := by
  unfold readExponentSign
  split
  · exact (Passes.refl _).cons (by decide)
  · exact (Passes.refl _).cons (by decide)
  · exact .refl _

theorem passes_readExponent {cs rest : List Char} {exponent : Option (Bool × List Char)}
    (h : readExponent cs = some (exponent, rest)) : Passes cs rest := by
  unfold readExponent at h
  split at h
  · cases h
    exact .refl _
  · rename_i c cs
    split_ifs at h with hmark
    · simp only [Option.map_eq_some_iff, Prod.mk.injEq] at h
      obtain ⟨⟨ds, rest'⟩, hdigits, -, rfl⟩ := h
      have hc : Marks [c] := by rcases hmark with rfl | rfl <;> decide
      exact ((passes_readExponentSign cs).trans (passes_readDigits hdigits)).cons hc
    · cases h
      exact .refl _

theorem passes_read {cs rest : List Char} {n : Numeral} (h : read cs = some (n, rest)) :
    Passes cs rest := by
  simp only [read, Option.bind_eq_bind, Option.bind_eq_some_iff, Option.pure_def, Option.some.injEq,
    Prod.mk.injEq] at h
  obtain ⟨⟨whole, cs₁⟩, hwhole, ⟨fraction, cs₂⟩, hfraction, ⟨exponent, cs₃⟩, hexponent, -, rfl⟩ := h
  exact (passes_readSign cs).trans <| (passes_readWhole hwhole).trans <|
    (passes_readFraction hfraction).trans (passes_readExponent hexponent)

/-- A numeral has no other characters. -/
theorem marks_of_isDecimal {s : String} (h : isDecimal s = true) : Marks s.toList := by
  unfold isDecimal parse? at h
  split at h
  · rename_i n hread
    obtain ⟨front, hfront, hmarks⟩ := passes_read hread
    rw [hfront, List.append_nil]
    exact hmarks
  · cases h

theorem isDigit_of_mem_toDigits {n : Nat} {c : Char} (h : c ∈ Nat.toDigits 10 n) :
    c.isDigit = true :=
  Nat.isDigit_of_mem_toDigits (by decide) (by decide) h

/-- Digits are read up to what is none. -/
theorem readDigits_append {ds rest : List Char} (hne : ds ≠ [])
    (hds : ∀ d ∈ ds, d.isDigit = true) (hrest : ∀ c, rest.head? = some c → c.isDigit = false) :
    readDigits (ds ++ rest) = some (ds, rest) := by
  have hstop : rest.takeWhile Char.isDigit = [] ∧ rest.dropWhile Char.isDigit = rest := by
    cases rest with
    | nil => exact ⟨rfl, rfl⟩
    | cons c cs => simp [hrest c rfl]
  have htake : (ds ++ rest).takeWhile Char.isDigit = ds := by
    rw [List.takeWhile_append_of_pos hds, hstop.1, List.append_nil]
  have hdrop : (ds ++ rest).dropWhile Char.isDigit = rest := by
    rw [List.dropWhile_append_of_pos hds, hstop.2]
  rw [readDigits, htake, hdrop]
  cases ds with
  | nil => exact absurd rfl hne
  | cons d ds => rfl

end Numeral

/-! ### Writing -/

namespace Number

open Numeral (Marks isMark_of_isDigit)

theorem marks_toDigits (n : Nat) : Marks (Nat.toDigits 10 n) := by
  intro c hc
  exact isMark_of_isDigit (Numeral.isDigit_of_mem_toDigits hc)

theorem marks_zeros (n : Nat) : Marks (List.replicate n '0') := by
  intro c hc
  rw [List.eq_of_mem_replicate hc]
  decide

theorem marks_decimal (x : Float) : Marks (Shortest.decimal x).1 := by
  unfold Shortest.decimal
  intro c hc
  have hmem := (List.dropWhile_suffix _).subset (List.mem_reverse.mp hc)
  exact marks_toDigits _ c (List.mem_reverse.mp hmem)

section

variable {ds : List Char}

theorem marks_mantissa (h : Marks ds) : Marks (mantissa ds) := by
  unfold mantissa
  split
  · rename_i d d' rest
    have hfirst : Marks [d] := fun c hc => h c (List.mem_append_left (d' :: rest) hc)
    have hrest : Marks (d' :: rest) := fun c hc => h c (List.mem_cons_of_mem d hc)
    exact (hfirst.append (by decide : Marks ['.'])).append hrest
  · exact h

theorem marks_positional (h : Marks ds) (e : Nat) : Marks (positional ds e) := by
  have hwhole : Marks (ds.take (e + 1) ++ List.replicate (e + 1 - ds.length) '0') :=
    Marks.append (fun c hc => h c (List.mem_of_mem_take hc)) (marks_zeros _)
  have hfraction : Marks (ds.drop (e + 1)) := fun c hc => h c (List.mem_of_mem_drop hc)
  unfold positional
  dsimp only
  split
  · exact hwhole.append (by decide)
  · exact hwhole.append ((by decide : Marks ['.']).append hfraction)

theorem marks_positionalBelowOne (h : Marks ds) (k : Nat) : Marks (positionalBelowOne ds k) :=
  ((by decide : Marks ['0', '.']).append (marks_zeros k)).append h

theorem marks_layout (h : Marks ds) (e : Int) : Marks (layout ds e) := by
  unfold layout
  split
  · split
    · exact marks_positional h _
    · exact ((marks_mantissa h).append (by decide)).append (marks_toDigits _)
  · split
    · exact marks_positionalBelowOne h _
    · exact ((marks_mantissa h).append (by decide)).append (marks_toDigits _)

end

theorem marks_floatText (x : Float) : Marks (floatText x).toList := by
  have hsign : Marks (if x.toBits.toNat < Nat.pow 2 63 then [] else ['-']) := by
    split <;> decide
  unfold floatText
  dsimp only
  split
  · rw [String.toList_ofList]
    exact hsign.append (by decide)
  · rw [String.toList_ofList]
    exact hsign.append (marks_layout (marks_decimal x) _)

theorem toList_text_ofNat (n : Nat) : (text (.int (.ofNat n))).toList = Nat.toDigits 10 n :=
  String.toList_ofList

theorem toList_text_negSucc (n : Nat) :
    (text (.int (.negSucc n))).toList = '-' :: Nat.toDigits 10 (n + 1) :=
  String.toList_append.trans (congrArg _ String.toList_ofList)

/-- A number is written without other characters. -/
theorem marks_text (n : Number) : Marks n.text.toList := by
  cases n with
  | float x => exact marks_floatText x
  | int n =>
      cases n with
      | ofNat n =>
          rw [toList_text_ofNat]
          exact marks_toDigits n
      | negSucc n =>
          rw [toList_text_negSucc]
          exact (by decide : Marks ['-']).append (marks_toDigits (n + 1))

end Number

end FlowSuite

/-
Numbers in fields are written as numbers.

A number that stands in a field of a step is turned into a text and then treated as if the
author had typed it.  The text has to count as a number again, or the generated test would get
a quoted string where it expects a duration or a count.  The writer and the acceptor know
nothing of each other, so this is shown of the writer's texts, notation by notation.

For integers it is plain.  For doubles all hangs on the first digit: a whole part that starts
with a zero is refused, so the digits of a double must not start with one.  They are those of
the whole number nearest to the value on some decimal grid, and that number is not zero,
because the grid is never coarser than the power of ten of the value itself.  Zero has no such
power; it is written apart, and that the test for it catches both zeros and nothing else is
read off the bits.
-/
import FlowSuite.Proofs.Expression.Classification
import FlowSuite.Proofs.Json.Text
import FlowSuite.Proofs.Number.Grammar
import FlowSuite.Step.Field
import Mathlib.Algebra.Order.Field.Power
import Mathlib.Algebra.Order.Field.Rat
import Mathlib.Data.Nat.Cast.Order.Ring
import Mathlib.Tactic.NormNum.Basic

namespace FlowSuite

/-! ### Zero -/

theorem eq_of_toBits_eq {x y : Float} (h : x.toBits = y.toBits) : x = y := by
  obtain ⟨bits, hx⟩ := x
  obtain ⟨bits', hy⟩ := y
  obtain rfl : bits = bits' := h
  rfl

/-- A double without any bit but its sign is equal to zero. -/
theorem beq_zero_of_toBits {x : Float} (h : x.toBits.toNat % Nat.pow 2 63 = 0) :
    (x == 0) = true := by
  have hlt : x.toBits.toNat < Nat.pow 2 64 := x.toBits.toNat_lt
  have hbits : x.toBits.toNat = 0 ∨ x.toBits.toNat = 9223372036854775808 := by
    have hsign : Nat.pow 2 63 = 9223372036854775808 := rfl
    have hword : Nat.pow 2 64 = 18446744073709551616 := rfl
    rw [hsign] at h
    rw [hword] at hlt
    omega
  have hx : x = Float.ofBits 0 ∨ x = Float.ofBits 9223372036854775808 := by
    rcases hbits with hbits | hbits
    · exact Or.inl (eq_of_toBits_eq (UInt64.toNat_inj.mp (hbits.trans (by decide))))
    · exact Or.inr (eq_of_toBits_eq (UInt64.toNat_inj.mp (hbits.trans (by decide))))
  rcases hx with rfl | rfl
  · decide
  · decide

namespace Shortest

/-! ### The first digit of a double -/

theorem lt_ten_zpow_digitCount (n : Nat) : (n : ℚ) < 10 ^ (digitCount n : ℤ) := by
  have hlt := (Nat.length_toDigits_le_iff (by decide) Nat.length_toDigits_pos).mp
    (Nat.le_refl (digitCount n))
  rw [zpow_natCast]
  exact_mod_cast hlt

theorem ten_zpow_digitCount_le {n : Nat} (h : 0 < n) :
    (10 : ℚ) ^ ((digitCount n : ℤ) - 1) ≤ n := by
  obtain ⟨k, hk⟩ : ∃ k, digitCount n = k + 1 :=
    Nat.exists_eq_succ_of_ne_zero (Nat.ne_of_gt Nat.length_toDigits_pos)
  have hexp : (digitCount n : ℤ) - 1 = (k : ℤ) := by omega
  rw [hexp, zpow_natCast]
  by_cases hpos : 0 < k
  · have hnot : ¬ digitCount n ≤ k := by omega
    have hle := Nat.not_lt.mp (mt (Nat.length_toDigits_le_iff (by decide) hpos).mpr hnot)
    exact_mod_cast hle
  · obtain rfl : k = 0 := by omega
    exact_mod_cast h

namespace Interval

/-- The value is not below one. -/
def ReachesOne (i : Interval) : Prop :=
  i.denominator ≤ i.value

theorem reachesOne_scale_iff (i : Interval) (k : Int) :
    (i.scale k).ReachesOne ↔ (i.denominator : ℚ) ≤ i.value * 10 ^ k := by
  cases k with
  | ofNat k =>
      have hcast : ((i.value * Nat.pow 10 k : ℕ) : ℚ) = i.value * 10 ^ Int.ofNat k := by
        rw [Int.ofNat_eq_natCast, zpow_natCast]
        norm_cast
      rw [← hcast]
      exact Nat.cast_le.symm
  | negSucc k =>
      have hpow : (0 : ℚ) < 10 ^ (k + 1) := pow_pos (by norm_num) _
      have hcast : ((i.denominator * Nat.pow 10 (k + 1) : ℕ) : ℚ)
          = i.denominator * 10 ^ (k + 1) := by norm_cast
      rw [zpow_negSucc, le_mul_inv_iff₀ hpow, ← hcast]
      exact Nat.cast_le.symm

/-- Divided by the power of ten of its first digit, a value is not below one. -/
theorem denominator_le_value_mul {i : Interval} (hvalue : 0 < i.value) :
    (i.denominator : ℚ) ≤ i.value * 10 ^ (-i.exponent) := by
  unfold exponent
  dsimp only
  split
  · rename_i hunit
    exact (i.reachesOne_scale_iff _).mp hunit
  · -- The guess was one too high.  One less is right, by the digits of both numbers.
    have hten : (0 : ℚ) < 10 := by norm_num
    calc (i.denominator : ℚ)
        ≤ 10 ^ (digitCount i.denominator : ℤ) := (lt_ten_zpow_digitCount _).le
      _ = 10 ^ ((digitCount i.value : ℤ) - 1)
            * 10 ^ (-((digitCount i.value : ℤ) - digitCount i.denominator - 1)) := by
          rw [← zpow_add₀ hten.ne']
          congr 1
          omega
      _ ≤ i.value * 10 ^ (-((digitCount i.value : ℤ) - digitCount i.denominator - 1)) :=
          mul_le_mul_of_nonneg_right (ten_zpow_digitCount_le hvalue) (zpow_pos hten _).le

/-- No grid that is tried is too coarse for the value. -/
theorem reachesOne_scale {i : Interval} (hvalue : 0 < i.value) (k : Nat) :
    (i.scale (-(i.exponent - k))).ReachesOne := by
  rw [reachesOne_scale_iff]
  have hpow : (10 : ℚ) ^ (-i.exponent) ≤ 10 ^ (-(i.exponent - k)) :=
    zpow_le_zpow_right₀ (by norm_num) (by omega)
  calc (i.denominator : ℚ) ≤ i.value * 10 ^ (-i.exponent) := denominator_le_value_mul hvalue
    _ ≤ i.value * 10 ^ (-(i.exponent - k)) :=
        mul_le_mul_of_nonneg_left hpow (Nat.cast_nonneg _)

theorem denominator_scale_pos {i : Interval} (h : 0 < i.denominator) (k : Int) :
    0 < (i.scale k).denominator := by
  cases k with
  | ofNat k => exact h
  | negSucc k => exact Nat.mul_pos h (Nat.pow_pos (by decide))

section

variable {i : Interval} (hone : i.ReachesOne) (hdenominator : 0 < i.denominator)

include hone hdenominator

theorem nearest_pos : 0 < i.nearest := by
  have hdiv : 0 < i.value / i.denominator := Nat.div_pos hone hdenominator
  unfold nearest
  dsimp only
  split
  · exact hdiv
  · split <;> omega

theorem pos_of_whole? {n : Nat} (h : i.whole? = some n) : 0 < n := by
  have hdiv : 0 < i.value / i.denominator := Nat.div_pos hone hdenominator
  unfold whole? at h
  dsimp only at h
  split at h
  · cases h
    exact nearest_pos hone hdenominator
  · cases h
    exact hdiv
  · cases h
    omega
  · cases h

end

theorem digits_pos {i : Interval} (hvalue : 0 < i.value) (hdenominator : 0 < i.denominator) :
    0 < i.digits.1 := by
  unfold digits
  dsimp only
  cases hfound : (List.range 16).findSome? fun k =>
      (i.scale (-(i.exponent - ((k + 1 - 1 : Nat) : Int)))).whole?.map
        (·, i.exponent - ((k + 1 - 1 : Nat) : Int)) with
  | none => exact nearest_pos (reachesOne_scale hvalue 16) (denominator_scale_pos hdenominator _)
  | some found =>
      obtain ⟨k, -, hk⟩ := List.exists_of_findSome?_eq_some hfound
      obtain ⟨n, hn, rfl⟩ := Option.map_eq_some_iff.mp hk
      exact pos_of_whole? (reachesOne_scale hvalue _) (denominator_scale_pos hdenominator _) hn

theorem value_ofFields_pos {exponent fraction : Nat} (h : exponent ≠ 0 ∨ fraction ≠ 0) :
    0 < (ofFields exponent fraction).value := by
  have hpow : ∀ k, 0 < Nat.pow 2 k := fun k => Nat.pow_pos (by decide)
  have hsignificand : 0 < if exponent = 0 then fraction else fraction + Nat.pow 2 52 := by
    split
    · omega
    · exact Nat.add_pos_right _ (hpow 52)
  exact Nat.mul_pos (Nat.mul_pos (by decide) hsignificand) (hpow _)

end Interval

/-- Taking zeros off the end leaves the front. -/
theorem exists_dropZeros {d : Char} (hd : d ≠ '0') (ds : List Char) :
    ∃ front, ((d :: ds).reverse.dropWhile (· == '0')).reverse = d :: front ∧
      ∀ c ∈ front, c ∈ ds := by
  have hlast : [d].dropWhile (· == '0') = [d] := List.dropWhile_cons_of_neg (by simpa using hd)
  rw [List.reverse_cons, List.dropWhile_append, hlast]
  split
  · exact ⟨[], rfl, nofun⟩
  · refine ⟨(ds.reverse.dropWhile (· == '0')).reverse, by simp, ?_⟩
    intro c hc
    have hmem := (List.dropWhile_suffix _).subset (List.mem_reverse.mp hc)
    exact List.mem_reverse.mp hmem

/-- The digits of a double other than zero are digits, and the first is no zero. -/
theorem isDigits_decimal {x : Float} (h : (x == 0) = false) :
    Numeral.IsDigits (decimal x).1 ∧ (decimal x).1.head? ≠ some '0' := by
  have hbits : x.toBits.toNat % Nat.pow 2 63 ≠ 0 := by
    intro hzero
    rw [beq_zero_of_toBits hzero] at h
    cases h
  have hfields : x.toBits.toNat % Nat.pow 2 63 / Nat.pow 2 52 ≠ 0 ∨
      x.toBits.toNat % Nat.pow 2 63 % Nat.pow 2 52 ≠ 0 := by
    by_contra hnot
    rw [not_or, not_not, not_not] at hnot
    apply hbits
    rw [← Nat.div_add_mod (x.toBits.toNat % Nat.pow 2 63) (Nat.pow 2 52), hnot.1, hnot.2]
  have hpos := Interval.digits_pos (Interval.value_ofFields_pos hfields)
    (Nat.pow_pos (by decide))
  obtain ⟨d, ds, hdigits, hd⟩ := Numeral.toDigits_eq_cons (Interval.digits _).1
  have hzero : d ≠ '0' := by
    have hhead := Numeral.head?_toDigits_ne_zero hpos
    rw [hdigits] at hhead
    simpa using hhead
  obtain ⟨front, hfront, hmem⟩ := exists_dropZeros hzero ds
  have hdecimal : (decimal x).1 = d :: front := by
    unfold decimal
    dsimp only
    rw [hdigits, hfront]
  rw [hdecimal]
  refine ⟨⟨List.cons_ne_nil _ _, ?_⟩, by simpa using hzero⟩
  intro c hc
  rcases List.mem_cons.mp hc with rfl | hc
  · exact hd
  · exact Numeral.isDigit_of_mem_toDigits (hdigits ▸ List.mem_cons_of_mem _ (hmem c hc))

end Shortest

/-! ### Notations -/

namespace Number

open Numeral (IsDigits IsWhole IsFraction IsSpelled isDigits_singleton)

theorem isWhole_toDigits (n : Nat) : IsWhole (Nat.toDigits 10 n) := by
  by_cases hn : 0 < n
  · refine Or.inr ⟨⟨Nat.toDigits_ne_nil, ?_⟩, Numeral.head?_toDigits_ne_zero hn⟩
    intro c hc
    exact Numeral.isDigit_of_mem_toDigits hc
  · obtain rfl : n = 0 := by omega
    exact Or.inl rfl

theorem isDigit_of_mem_zeros {n : Nat} {c : Char} (h : c ∈ List.replicate n '0') :
    c.isDigit = true := by
  rw [List.eq_of_mem_replicate h]
  rfl

section

variable {ds sign : List Char} (hds : IsDigits ds) (hhead : ds.head? ≠ some '0')
  (hsign : sign ∈ [[], ['-']])

include hds hhead

theorem exists_mantissa :
    ∃ whole fraction, mantissa ds = whole ++ fraction ∧ IsWhole whole ∧ IsFraction fraction := by
  obtain ⟨d, rest, rfl, hd, hrest⟩ := hds.exists_cons
  have hwhole : IsWhole [d] := Or.inr ⟨isDigits_singleton hd, hhead⟩
  cases rest with
  | nil => exact ⟨[d], [], rfl, hwhole, Or.inl rfl⟩
  | cons d' rest =>
      have hfraction : IsFraction ('.' :: d' :: rest) :=
        Or.inr ⟨d' :: rest, rfl, List.cons_ne_nil _ _, hrest⟩
      exact ⟨[d], '.' :: d' :: rest, rfl, hwhole, hfraction⟩

include hsign

theorem isSpelled_positional (e : Nat) : IsSpelled (sign ++ positional ds e) := by
  have hwhole : IsWhole (ds.take (e + 1) ++ List.replicate (e + 1 - ds.length) '0') := by
    obtain ⟨d, rest, rfl, -, -⟩ := hds.exists_cons
    refine Or.inr ⟨⟨by simp, ?_⟩, by simpa using hhead⟩
    intro c hc
    rcases List.mem_append.mp hc with hc | hc
    · exact hds.2 c (List.mem_of_mem_take hc)
    · exact isDigit_of_mem_zeros hc
  unfold positional
  dsimp only
  split
  · exact ⟨sign, _, ['.', '0'], [], rfl, hsign, hwhole,
      Or.inr ⟨['0'], rfl, isDigits_singleton rfl⟩, Or.inl rfl⟩
  · rename_i hne
    refine ⟨sign, _, '.' :: ds.drop (e + 1), [], by simp, hsign, hwhole,
      Or.inr ⟨ds.drop (e + 1), rfl, hne, ?_⟩, Or.inl rfl⟩
    intro c hc
    exact hds.2 c (List.mem_of_mem_drop hc)

omit hhead in
theorem isSpelled_positionalBelowOne (k : Nat) : IsSpelled (sign ++ positionalBelowOne ds k) := by
  refine ⟨sign, ['0'], '.' :: (List.replicate k '0' ++ ds), [], by simp [positionalBelowOne],
    hsign, Or.inl rfl, Or.inr ⟨_, rfl, List.append_ne_nil_of_right_ne_nil _ hds.1, ?_⟩, Or.inl rfl⟩
  intro c hc
  rcases List.mem_append.mp hc with hc | hc
  · exact isDigit_of_mem_zeros hc
  · exact hds.2 c hc

theorem isSpelled_exponential {direction : Char} (hdirection : direction ∈ ['+', '-']) (n : Nat) :
    IsSpelled (sign ++ (mantissa ds ++ ['e', direction] ++ Nat.toDigits 10 n)) := by
  obtain ⟨whole, fraction, hmantissa, hwhole, hfraction⟩ := exists_mantissa hds hhead
  refine ⟨sign, whole, fraction, 'e' :: ([direction] ++ Nat.toDigits 10 n), ?_, hsign, hwhole,
    hfraction, Or.inr ⟨'e', [direction], _, rfl, by simp, by simpa using hdirection,
      (isWhole_toDigits n).isDigits⟩⟩
  rw [hmantissa]
  simp

/-- Whatever notation the power asks for, digits are written as a number. -/
theorem isSpelled_layout (e : Int) : IsSpelled (sign ++ layout ds e) := by
  unfold layout
  split
  · split
    · exact isSpelled_positional hds hhead hsign _
    · exact isSpelled_exponential hds hhead hsign (by simp) _
  · split
    · exact isSpelled_positionalBelowOne hds hsign _
    · exact isSpelled_exponential hds hhead hsign (by simp) _

end

theorem isSpelled_floatText (x : Float) : IsSpelled (floatText x).toList := by
  have hsign : (if x.toBits.toNat < Nat.pow 2 63 then [] else ['-']) ∈ [[], ['-']] := by
    split <;> simp
  unfold floatText
  dsimp only
  by_cases hzero : (x == 0) = true
  · rw [if_pos hzero, String.toList_ofList]
    exact ⟨_, ['0'], ['.', '0'], [], rfl, hsign, Or.inl rfl,
      Or.inr ⟨['0'], rfl, isDigits_singleton rfl⟩, Or.inl rfl⟩
  · rw [if_neg hzero, String.toList_ofList]
    obtain ⟨hdigits, hhead⟩ := Shortest.isDigits_decimal (Bool.eq_false_iff.mpr hzero)
    exact isSpelled_layout hdigits hhead hsign _

/-- **The text of a number is a number.** -/
theorem isDecimal_text (n : Number) : isDecimal n.text = true := by
  apply isDecimal_of_isSpelled
  cases n with
  | float x => exact isSpelled_floatText x
  | int n =>
      cases n with
      | ofNat n =>
          rw [toList_text_ofNat]
          exact ⟨[], _, [], [], by simp, by simp, isWhole_toDigits n, Or.inl rfl, Or.inl rfl⟩
      | negSucc n =>
          rw [toList_text_negSucc]
          exact ⟨['-'], _, [], [], by simp, by simp, isWhole_toDigits (n + 1), Or.inl rfl,
            Or.inl rfl⟩

end Number

/-! ### Numbers as field texts -/

theorem Text.trimChars_of_forall {cs : List Char} (h : ∀ c ∈ cs, isBlank c = false) :
    trimChars cs = cs := by
  have hkeep : ∀ {ds : List Char}, (∀ c ∈ ds, isBlank c = false) → ds.dropWhile isBlank = ds := by
    intro ds hds
    cases ds with
    | nil => rfl
    | cons d ds => exact List.dropWhile_cons_of_neg (by simp [hds d List.mem_cons_self])
  have hend : ∀ c ∈ cs.reverse, isBlank c = false := fun c hc => h c (List.mem_reverse.mp hc)
  rw [trimChars, dropBlankEnd, hkeep h, hkeep hend, List.reverse_reverse]

/-- Without a dollar sign there is no reference. -/
theorem Segment.ref_notMem_scan {s : String} (h : '$' ∉ s.toList) (p : Path) :
    .ref p ∉ scan s := by
  have hscans : ∀ {cs : List Char}, '$' ∉ cs → Scans cs (plain cs) := by
    intro cs hcs
    induction cs with
    | nil => exact .nil
    | cons c cs ih =>
        rw [List.mem_cons, not_or] at hcs
        exact .char (fun hc => absurd hc.symm hcs.1) (ih hcs.2)
  have hscan : scan s = Text.flush text s.toList.reverse := by
    rw [scan, scanChars, (hscans h).atoms_eq, ← List.append_nil (plain _), gather_plain,
      List.append_nil]
    rfl
  rw [hscan, Text.mem_flush_iff]
  simp

/-- None of the characters of a number is blank. -/
theorem Numeral.isBlank_of_isMark {c : Char} (h : isMark c = true) : Text.isBlank c = false := by
  rw [isMark, Bool.or_eq_true, decide_eq_true_eq] at h
  rcases h with hdigit | hmem
  · have hrange := Char.isDigit_iff_toNat.mp hdigit
    have hzero : '0'.toNat = 48 := rfl
    have hnine : '9'.toNat = 57 := rfl
    rw [Bool.eq_false_iff]
    intro hblank
    simp only [Text.isBlank, Bool.or_eq_true, Bool.and_eq_true, decide_eq_true_eq,
      beq_iff_eq] at hblank
    omega
  · simp only [List.mem_cons, List.not_mem_nil, or_false] at hmem
    rcases hmem with rfl | rfl | rfl | rfl | rfl <;> rfl

/-- A number is classified as one, and as nothing but itself. -/
theorem Value.classify_of_isDecimal {s : String} (h : isDecimal s = true) :
    classify s = .number s := by
  have hmarks := Numeral.marks_of_isDecimal h
  have htrim : Text.trim s = s := by
    apply String.toList_inj.mp
    rw [Text.toList_trim]
    exact Text.trimChars_of_forall fun c hc => Numeral.isBlank_of_isMark (hmarks c hc)
  have hdollar : '$' ∉ s.toList := fun hmem => absurd (hmarks _ hmem) (by decide)
  have hplain : (Text.trim s).toList.head? ≠ some '=' := by
    rw [htrim]
    intro hhead
    exact absurd (hmarks _ (List.mem_of_head? hhead)) (by decide)
  have hnot : ∀ p : Path, ¬p.Braced (Text.trim s) := by
    intro p hbraced
    rw [htrim] at hbraced
    exact hdollar (List.mem_of_head? hbraced.head?)
  have hno : ∀ p, .ref p ∉ Segment.scan (Text.trim s) := by
    rw [htrim]
    exact Segment.ref_notMem_scan hdollar
  rw [classify_of_no_ref hplain hnot hno, htrim, if_pos h]

/-- **A number in a field is written as a number.**  The text of the field is accepted as a
number, stands for that number and nothing else, and is put into the code of either target as
it is, without quotes. -/
theorem number_field_is_bare (o : Object) (key : String) (n : Number)
    (h : o.get? key = some (.number n)) :
    o.text? key = some n.text ∧ (∀ default, o.textD key default = n.text) ∧
      isDecimal n.text = true ∧ Value.classify n.text = .number n.text ∧
      ∀ t : Target, t.translate n.text = n.text := by
  have htext : o.text? key = some n.text := by
    rw [Object.text?, h]
    rfl
  have hdecimal := n.isDecimal_text
  have hvalue := Value.classify_of_isDecimal hdecimal
  refine ⟨htext, ?_, hdecimal, hvalue, ?_⟩
  · intro default
    rw [Object.textD, htext, Option.getD_some]
  · intro t
    rw [Target.translate, hvalue]
    rfl

/-- A field with a number so small that it is written with an exponent. -/
def shortDelay : Object :=
  [("label", .string "short"), ("value", .number (.float 2.5e-7))]

theorem shortDelay_is_bare :
    shortDelay.get? "value" = some (.number (.float 2.5e-7)) ∧
    shortDelay.text? "value" = some "2.5e-7" ∧ Value.classify "2.5e-7" = .number "2.5e-7" ∧
    Target.selenium.translate "2.5e-7" = "2.5e-7" ∧
    Target.cypress.translate "2.5e-7" = "2.5e-7" := by
  have hfield : shortDelay.get? "value" = some (.number (.float 2.5e-7)) := rfl
  have htext : Number.text (.float 2.5e-7) = "2.5e-7" := by decide +kernel
  obtain ⟨hread, -, -, hvalue, hwritten⟩ := number_field_is_bare shortDelay "value" _ hfield
  rw [htext] at hread hvalue hwritten
  exact ⟨hfield, hread, hvalue, hwritten .selenium, hwritten .cypress⟩

end FlowSuite

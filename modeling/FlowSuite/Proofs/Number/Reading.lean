/-
Which numeral a text spells.

The parts of a numeral are written one after the other: its sign, its whole part, the digits
behind the point and the exponent, each of the last two with what marks it or left out.  A
numeral may be spelled in several ways, since the mark and the plus sign of an exponent are
free, but a text spells one numeral at most.  The reader finds it, at the front of any text in
which no digit, point or mark follows.
-/
import FlowSuite.Proofs.Number.Grammar

namespace FlowSuite.Numeral

/-- A minus sign or nothing. -/
def signChars (negative : Bool) : List Char :=
  if negative then ['-'] else []

/-- Digits behind a point, or nothing if there are none. -/
def WritesFraction (ds cs : List Char) : Prop :=
  ds = [] ∧ cs = [] ∨ IsDigits ds ∧ cs = '.' :: ds

/-- A mark, a sign and digits, or nothing if there is no exponent.  A plus sign may be left
out. -/
def WritesExponent : Option (Bool × List Char) → List Char → Prop
  | none, cs => cs = []
  | some (minus, ds), cs => ∃ mark sign, cs = mark :: (sign ++ ds) ∧ mark ∈ ['e', 'E'] ∧
      sign ∈ (if minus then [['-']] else [[], ['+']]) ∧ IsDigits ds

/-- The characters spell the numeral. -/
def IsWritten (n : Numeral) (cs : List Char) : Prop :=
  ∃ fraction exponent, cs = signChars n.negative ++ (n.whole ++ (fraction ++ exponent)) ∧
    IsWhole n.whole ∧ WritesFraction n.fraction fraction ∧ WritesExponent n.exponent exponent

/-! ### What is read is spelled -/

theorem signChars_readSign (cs : List Char) :
    cs = signChars (readSign cs).1 ++ (readSign cs).2 := by
  unfold readSign
  split <;> rfl

theorem writesFraction_of_readFraction {cs ds rest : List Char}
    (h : readFraction cs = some (ds, rest)) :
    ∃ fraction, cs = fraction ++ rest ∧ WritesFraction ds fraction := by
  unfold readFraction at h
  split at h
  · obtain ⟨rfl, hdigits⟩ := of_readDigits h
    exact ⟨'.' :: ds, rfl, Or.inr ⟨hdigits, rfl⟩⟩
  · cases h
    exact ⟨[], rfl, Or.inl ⟨rfl, rfl⟩⟩

theorem exists_readExponentSign (cs : List Char) :
    ∃ sign ∈ (if (readExponentSign cs).1 then [['-']] else [[], ['+']]),
      cs = sign ++ (readExponentSign cs).2 := by
  unfold readExponentSign
  split
  · exact ⟨['-'], by simp, rfl⟩
  · exact ⟨['+'], by simp, rfl⟩
  · exact ⟨[], by simp, rfl⟩

theorem writesExponent_of_readExponent {cs rest : List Char} {e : Option (Bool × List Char)}
    (h : readExponent cs = some (e, rest)) :
    ∃ exponent, cs = exponent ++ rest ∧ WritesExponent e exponent := by
  cases cs with
  | nil =>
      cases h
      exact ⟨[], rfl, rfl⟩
  | cons mark cs =>
      by_cases hmark : mark = 'e' ∨ mark = 'E'
      · rw [readExponent_cons hmark, ← snd_readExponentSign] at h
        obtain ⟨⟨ds, rest'⟩, hread, heq⟩ := Option.map_eq_some_iff.mp h
        obtain ⟨rfl, rfl⟩ := Prod.mk.inj heq
        obtain ⟨hcs, hdigits⟩ := of_readDigits hread
        obtain ⟨sign, hsign, hfront⟩ := exists_readExponentSign cs
        refine ⟨mark :: (sign ++ ds), ?_, mark, sign, rfl, by simpa using hmark, hsign, hdigits⟩
        calc mark :: cs = mark :: (sign ++ (readExponentSign cs).2) := congrArg _ hfront
          _ = mark :: (sign ++ ds) ++ rest' := by rw [hcs]; simp
      · rw [readExponent, if_neg hmark] at h
        cases h
        exact ⟨[], rfl, rfl⟩

/-- What the reader takes off the front spells the numeral that it gives. -/
theorem exists_isWritten_of_read {cs rest : List Char} {n : Numeral}
    (h : read cs = some (n, rest)) : ∃ front, cs = front ++ rest ∧ n.IsWritten front := by
  simp only [read, Option.bind_eq_bind, Option.bind_eq_some_iff, Option.pure_def, Option.some.injEq,
    Prod.mk.injEq] at h
  obtain ⟨⟨whole, cs₁⟩, hwhole, ⟨ds, cs₂⟩, hfraction, ⟨e, cs₃⟩, hexponent, rfl, rfl⟩ := h
  obtain ⟨hcs, hisWhole⟩ := of_readWhole hwhole
  obtain ⟨fraction, hcs₁, hisFraction⟩ := writesFraction_of_readFraction hfraction
  obtain ⟨exponent, hcs₂, hisExponent⟩ := writesExponent_of_readExponent hexponent
  dsimp only at hcs₁ hcs₂
  refine ⟨signChars (readSign cs).1 ++ (whole ++ (fraction ++ exponent)), ?_, fraction, exponent,
    rfl, hisWhole, hisFraction, hisExponent⟩
  calc cs = signChars (readSign cs).1 ++ (readSign cs).2 := signChars_readSign cs
    _ = signChars (readSign cs).1 ++ (whole ++ (fraction ++ (exponent ++ cs₃))) := by
        rw [hcs, hcs₁, hcs₂]
    _ = signChars (readSign cs).1 ++ (whole ++ (fraction ++ exponent)) ++ cs₃ := by simp

/-! ### What is spelled is read -/

/-- What may follow a numeral: nothing that it could go on with. -/
def Stops (rest : List Char) : Prop :=
  ∀ c, rest.head? = some c → c.isDigit = false ∧ c ∉ ['.', 'e', 'E']

theorem readSign_append (negative : Bool) {cs : List Char} (h : cs.head? ≠ some '-') :
    readSign (signChars negative ++ cs) = (negative, cs) := by
  cases negative with
  | true => rfl
  | false =>
      show readSign cs = (false, cs)
      unfold readSign
      split
      · exact absurd rfl h
      · rfl

theorem readExponentSign_append {minus : Bool} {sign cs : List Char}
    (hsign : sign ∈ (if minus then [['-']] else [[], ['+']]))
    (hplus : cs.head? ≠ some '+') (hminus : cs.head? ≠ some '-') :
    readExponentSign (sign ++ cs) = (minus, cs) := by
  cases minus with
  | true =>
      obtain rfl : sign = ['-'] := by simpa using hsign
      rfl
  | false =>
      have hcases : sign = [] ∨ sign = ['+'] := by simpa using hsign
      rcases hcases with rfl | rfl
      · show readExponentSign cs = (false, cs)
        unfold readExponentSign
        split
        · exact absurd rfl hminus
        · exact absurd rfl hplus
        · rfl
      · rfl

theorem WritesExponent.readExponent_append {e : Option (Bool × List Char)} {cs rest : List Char}
    (h : WritesExponent e cs) (hrest : Stops rest) :
    readExponent (cs ++ rest) = some (e, rest) := by
  cases e with
  | none =>
      obtain rfl : cs = [] := h
      cases rest with
      | nil => rfl
      | cons c rest =>
          have hc := (hrest c rfl).2
          have hmark : ¬ (c = 'e' ∨ c = 'E') := by
            rintro (rfl | rfl) <;> simp at hc
          rw [List.nil_append, readExponent, if_neg hmark]
  | some e =>
      obtain ⟨minus, ds⟩ := e
      obtain ⟨mark, sign, rfl, hmark, hsign, hds⟩ := h
      have hmark' : mark = 'e' ∨ mark = 'E' := by simpa using hmark
      obtain ⟨d, ds', rfl, hd, -⟩ := hds.exists_cons
      have hplus : (d :: ds' ++ rest).head? ≠ some '+' := by
        intro heq
        cases heq
        cases hd
      have hminus : (d :: ds' ++ rest).head? ≠ some '-' := by
        intro heq
        cases heq
        cases hd
      have hdigits := readDigits_append hds.1 hds.2 fun c hc => (hrest c hc).1
      rw [List.cons_append, List.append_assoc, readExponent_cons hmark', ← snd_readExponentSign,
        readExponentSign_append hsign hplus hminus, hdigits]
      rfl

/-- Behind the fraction there is a mark or what follows the numeral. -/
theorem WritesExponent.head? {e : Option (Bool × List Char)} {cs rest : List Char}
    (h : WritesExponent e cs) (hrest : Stops rest) {c : Char} (hc : (cs ++ rest).head? = some c) :
    c.isDigit = false ∧ c ≠ '.' := by
  cases e with
  | none =>
      obtain rfl : cs = [] := h
      obtain ⟨hdigit, hmem⟩ := hrest c hc
      exact ⟨hdigit, fun heq => hmem (by simp [heq])⟩
  | some e =>
      obtain ⟨mark, sign, rfl, hmark, -, -⟩ := h
      obtain rfl : mark = c := Option.some.inj hc
      have hmark' : mark = 'e' ∨ mark = 'E' := by simpa using hmark
      rcases hmark' with rfl | rfl <;> decide

theorem WritesFraction.readFraction_append {ds cs rest : List Char} (h : WritesFraction ds cs)
    (hrest : ∀ c, rest.head? = some c → c.isDigit = false ∧ c ≠ '.') :
    readFraction (cs ++ rest) = some (ds, rest) := by
  rcases h with ⟨rfl, rfl⟩ | ⟨hds, rfl⟩
  · show readFraction rest = some ([], rest)
    unfold readFraction
    split
    · exact absurd rfl (hrest '.' rfl).2
    · rfl
  · exact readDigits_append hds.1 hds.2 fun c hc => (hrest c hc).1

theorem WritesFraction.head? {ds cs rest : List Char} (h : WritesFraction ds cs)
    (hrest : ∀ c, rest.head? = some c → c.isDigit = false) {c : Char}
    (hc : (cs ++ rest).head? = some c) : c.isDigit = false := by
  rcases h with ⟨rfl, rfl⟩ | ⟨-, rfl⟩
  · exact hrest c hc
  · obtain rfl : '.' = c := Option.some.inj hc
    rfl

/-- A spelled numeral starts with a minus sign or a digit. -/
theorem IsWritten.exists_cons {n : Numeral} {cs : List Char} (h : n.IsWritten cs) :
    ∃ c cs', cs = c :: cs' ∧ (c = '-' ∨ c.isDigit = true) := by
  obtain ⟨fraction, exponent, rfl, hwhole, -, -⟩ := h
  obtain ⟨d, ds, heq, hd, -⟩ := hwhole.isDigits.exists_cons
  cases hsign : n.negative with
  | true => exact ⟨'-', _, rfl, Or.inl rfl⟩
  | false => exact ⟨d, ds ++ (fraction ++ exponent), by rw [heq]; rfl, Or.inr hd⟩

/-- A spelled numeral is read, and the reading stops right behind it. -/
theorem IsWritten.read_append {n : Numeral} {cs rest : List Char} (h : n.IsWritten cs)
    (hrest : Stops rest) : read (cs ++ rest) = some (n, rest) := by
  obtain ⟨fraction, exponent, rfl, hwhole, hfraction, hexponent⟩ := h
  have hbehind : ∀ c, (exponent ++ rest).head? = some c → c.isDigit = false ∧ c ≠ '.' :=
    fun c hc => hexponent.head? hrest hc
  have hdigit : ∀ c, (fraction ++ (exponent ++ rest)).head? = some c → c.isDigit = false :=
    fun c hc => hfraction.head? (fun c hc => (hbehind c hc).1) hc
  have hsign : (n.whole ++ (fraction ++ (exponent ++ rest))).head? ≠ some '-' := by
    obtain ⟨d, ds, heq, hd, -⟩ := hwhole.isDigits.exists_cons
    rw [heq]
    rintro ⟨rfl⟩
    cases hd
  simp [read, readSign_append n.negative hsign, hwhole.readWhole_append hdigit,
    hfraction.readFraction_append hbehind, hexponent.readExponent_append hrest]

end FlowSuite.Numeral

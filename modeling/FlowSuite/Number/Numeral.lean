/-
Decimal numerals.

A numeral is an optional minus sign, a whole part without a superfluous zero, then
optionally a point with digits, then optionally an exponent.  It is the number
grammar of JSON, and every numeral is also a number literal of Python and of
JavaScript, so one reader serves both: JSON numbers are read with it, and a field
text that is a numeral from end to end is written into generated code unquoted.
-/

namespace FlowSuite

/-- The parts of a numeral.  `fraction` is empty when there is no point. -/
structure Numeral where
  negative : Bool
  whole : List Char
  fraction : List Char
  /-- The exponent's digits, and whether a minus sign stands before them. -/
  exponent : Option (Bool × List Char)
  deriving DecidableEq, Repr

namespace Numeral

/-! ### Reading -/

/-- One or more digits. -/
def readDigits (cs : List Char) : Option (List Char × List Char) :=
  match cs.takeWhile Char.isDigit with
  | [] => none
  | d :: ds => some (d :: ds, cs.dropWhile Char.isDigit)

/-- A zero alone, or digits that do not start with a zero. -/
def readWhole : List Char → Option (List Char × List Char)
  | '0' :: cs => some (['0'], cs)
  | cs => readDigits cs

/-- A point and digits, or nothing. -/
def readFraction : List Char → Option (List Char × List Char)
  | '.' :: cs => readDigits cs
  | cs => some ([], cs)

/-- The sign of an exponent; none counts as plus. -/
def readExponentSign : List Char → Bool × List Char
  | '-' :: cs => (true, cs)
  | '+' :: cs => (false, cs)
  | cs => (false, cs)

/-- A mark, a sign and digits, or nothing. -/
def readExponent : List Char → Option (Option (Bool × List Char) × List Char)
  | [] => some (none, [])
  | c :: cs =>
      if c = 'e' ∨ c = 'E' then
        let (minus, cs) := readExponentSign cs
        (readDigits cs).map fun (ds, rest) => (some (minus, ds), rest)
      else some (none, c :: cs)

/-- A minus sign, or nothing. -/
def readSign : List Char → Bool × List Char
  | '-' :: cs => (true, cs)
  | cs => (false, cs)

/-- The numeral at the front of `cs`, and what follows it. -/
def read (cs : List Char) : Option (Numeral × List Char) := do
  let (negative, cs) := readSign cs
  let (whole, cs) ← readWhole cs
  let (fraction, cs) ← readFraction cs
  let (exponent, cs) ← readExponent cs
  return (⟨negative, whole, fraction, exponent⟩, cs)

/-- The text as a numeral, when it is one from end to end. -/
def parse? (s : String) : Option Numeral :=
  match read s.toList with
  | some (n, []) => some n
  | _ => none

/-! ### Value -/

/-- The number that a list of digits writes. -/
def digitsValue (ds : List Char) : Nat :=
  ds.foldl (fun n d => 10 * n + (d.toNat - 48)) 0

/-- No point and no exponent. -/
def isInteger (n : Numeral) : Bool :=
  n.fraction.isEmpty && n.exponent.isNone

/-- All digits of the mantissa as one number. -/
def coefficient (n : Numeral) : Nat :=
  digitsValue (n.whole ++ n.fraction)

/-- The power of ten that the coefficient is multiplied by. -/
def scale (n : Numeral) : Int :=
  let shift : Int := match n.exponent with
    | none => 0
    | some (minus, ds) => if minus then -(digitsValue ds : Int) else digitsValue ds
  shift - n.fraction.length

/-- The double nearest to the numeral; a magnitude beyond the largest double gives an
infinity.  Exponents that no double can reach are settled before any power is
computed. -/
def toFloat (n : Numeral) : Float :=
  let magnitude : Float :=
    let size : Int := n.scale + n.whole.length + n.fraction.length
    if n.coefficient = 0 ∨ size < -400 then 0
    else if 400 < n.scale then 1.0 / 0.0
    else match n.scale with
      | .ofNat e => Float.ofScientific n.coefficient false e
      | .negSucc e => Float.ofScientific n.coefficient true (e + 1)
  if n.negative then -magnitude else magnitude

end Numeral

/-- The text is a numeral from end to end. -/
def isDecimal (s : String) : Bool :=
  (Numeral.parse? s).isSome

/-- A numeral starts with a minus sign or a digit. -/
theorem exists_cons_of_isDecimal {s : String} (h : isDecimal s = true) :
    ∃ c cs, s.toList = c :: cs ∧ (c = '-' ∨ c.isDigit = true) := by
  cases hs : s.toList with
  | nil => simp [isDecimal, Numeral.parse?, hs, Numeral.read, Numeral.readSign,
      Numeral.readWhole, Numeral.readDigits] at h
  | cons c cs =>
      refine ⟨c, cs, rfl, ?_⟩
      by_cases hminus : c = '-'
      · exact Or.inl hminus
      · by_cases hdigit : c.isDigit = true
        · exact Or.inr hdigit
        · have hzero : c ≠ '0' := by
            rintro rfl
            exact hdigit (by decide)
          simp [isDecimal, Numeral.parse?, hs, Numeral.read, Numeral.readSign,
            Numeral.readWhole, Numeral.readDigits, hminus, hdigit, hzero] at h

end FlowSuite

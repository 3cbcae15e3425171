/-
The shortest decimal that reads back as a given double.

A finite double is a significand times a power of two, and the reals that round to
it form an interval around it, whose ends belong to it when the significand is
even.  For one digit, two digits and so on, the two multiples of the power of ten
around the value are tried, and the first count with a multiple inside the interval
wins; of two inside, the nearer one, and on a tie the even one.  Seventeen digits
are always enough.  All tests are exact, in natural numbers.
-/

namespace FlowSuite.Shortest

/-- A positive double and the interval that rounds to it, over a common denominator. -/
structure Interval where
  low : Nat
  value : Nat
  high : Nat
  denominator : Nat
  /-- Whether the two ends round to the value as well. -/
  closed : Bool

/-- The interval of the double with the given exponent field and fraction field, in
quarters of the last place.  Below a power of two the neighbour is twice as near,
except at the bottom of the range. -/
def Interval.ofFields (exponent fraction : Nat) : Interval :=
  let significand := if exponent = 0 then fraction else fraction + Nat.pow 2 52
  let power : Nat := if exponent = 0 then 1 else exponent
  let below := if fraction = 0 ∧ 1 < exponent then 1 else 2
  let up := Nat.pow 2 (power - 1077)
  { low := (4 * significand - below) * up
    value := 4 * significand * up
    high := (4 * significand + 2) * up
    denominator := Nat.pow 2 (1077 - power)
    closed := significand % 2 = 0 }

/-- The interval times a power of ten. -/
def Interval.scale (i : Interval) : Int → Interval
  | .ofNat k =>
      let up := Nat.pow 10 k
      { i with low := i.low * up, value := i.value * up, high := i.high * up }
  | .negSucc k => { i with denominator := i.denominator * Nat.pow 10 (k + 1) }

/-- The number of decimal digits. -/
def digitCount (n : Nat) : Nat :=
  (Nat.toDigits 10 n).length

/-- The power of ten of the value's first digit. -/
def Interval.exponent (i : Interval) : Int :=
  let guess : Int := digitCount i.value - digitCount i.denominator
  let unit := i.scale (-guess)
  if unit.denominator ≤ unit.value then guess else guess - 1

/-- Whether `n` lies in the interval. -/
def Interval.contains (i : Interval) (n : Nat) : Bool :=
  let m := n * i.denominator
  if i.closed then i.low ≤ m && m ≤ i.high else i.low < m && m < i.high

/-- The whole number nearest to the value, an even one on a tie. -/
def Interval.nearest (i : Interval) : Nat :=
  let n := i.value / i.denominator
  let twice := 2 * (i.value % i.denominator)
  if twice < i.denominator then n
  else if i.denominator < twice then n + 1
  else n + n % 2

/-- The whole number in the interval that is nearest to its value, if there is one. -/
def Interval.whole? (i : Interval) : Option Nat :=
  let n := i.value / i.denominator
  match i.contains n, i.contains (n + 1) with
  | true, true => some i.nearest
  | true, false => some n
  | false, true => some (n + 1)
  | false, false => none

/-- The fewest digits that read back, as one number, and the power of ten it is
multiplied by. -/
def Interval.digits (i : Interval) : Nat × Int :=
  let e := i.exponent
  let attempt (count : Nat) : Option (Nat × Int) :=
    let unit := e - (count - 1 : Nat)
    (i.scale (-unit)).whole?.map (·, unit)
  let last := e - 16
  ((List.range 16).findSome? fun k => attempt (k + 1)).getD ((i.scale (-last)).nearest, last)

/-- The digits of a positive double, first to last, none of them a zero at the end, and
the power of ten of the first one. -/
def decimal (x : Float) : List Char × Int :=
  let bits := x.toBits.toNat % Nat.pow 2 63
  let (n, unit) := (Interval.ofFields (bits / Nat.pow 2 52) (bits % Nat.pow 2 52)).digits
  let ds := Nat.toDigits 10 n
  ((ds.reverse.dropWhile (· == '0')).reverse, unit + (ds.length - 1 : Nat))

end FlowSuite.Shortest

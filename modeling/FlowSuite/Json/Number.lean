/-
JSON numbers.

A numeral without point and exponent that fits 64 bits is kept as an integer; every
other numeral is kept as the double nearest to it, and refused when that would be
infinite.  A negative zero is a double, since no integer is one.

A double is written with the fewest digits that read back, in positional notation
from 10^-5 to below 10^16 and with an exponent outside, and always so that it reads
as a double again.
-/
import FlowSuite.Number.Numeral
import FlowSuite.Number.Shortest

namespace FlowSuite

/-- A JSON number. -/
inductive Number where
  | int (n : Int)
  | float (x : Float)
  deriving BEq, Repr

namespace Number

/-- The number that a numeral stands for, if it can be held. -/
def ofNumeral? (n : Numeral) : Option Number :=
  let double : Option Number :=
    let x := n.toFloat
    if x.isInf then none else some (.float x)
  if n.isInteger then
    let m := n.coefficient
    if n.negative then
      if 0 < m ∧ m ≤ Nat.pow 2 63 then some (.int (-m)) else double
    else if m < Nat.pow 2 64 then some (.int m)
    else double
  else double

/-- Neither zero nor negative zero. -/
def isNonzero : Number → Bool
  | .int n => n != 0
  | .float x => x != 0

/-! ### Writing -/

/-- Digits with the first one at the power of ten `e ≥ 0`, and at least one decimal. -/
def positional (ds : List Char) (e : Nat) : List Char :=
  let whole := (ds.take (e + 1)) ++ List.replicate (e + 1 - ds.length) '0'
  match ds.drop (e + 1) with
  | [] => whole ++ ['.', '0']
  | fraction => whole ++ '.' :: fraction

/-- Digits with the first one at the power of ten `-(k + 1)`. -/
def positionalBelowOne (ds : List Char) (k : Nat) : List Char :=
  ['0', '.'] ++ List.replicate k '0' ++ ds

/-- Digits with a point after the first one, if more follow. -/
def mantissa : List Char → List Char
  | d :: d' :: ds => d :: '.' :: d' :: ds
  | ds => ds

/-- Digits at a power of ten, in the notation that the power asks for. -/
def layout (ds : List Char) : Int → List Char
  | .ofNat e =>
      if e ≤ 15 then positional ds e
      else mantissa ds ++ ['e', '+'] ++ Nat.toDigits 10 e
  | .negSucc k =>
      if k < 5 then positionalBelowOne ds k
      else mantissa ds ++ ['e', '-'] ++ Nat.toDigits 10 (k + 1)

/-- The text of a finite double. -/
def floatText (x : Float) : String :=
  let sign := if x.toBits.toNat < Nat.pow 2 63 then [] else ['-']
  if x == 0 then String.ofList (sign ++ ['0', '.', '0'])
  else
    let (ds, e) := Shortest.decimal x
    String.ofList (sign ++ layout ds e)

/-- The text of a number. -/
def text : Number → String
  | .int n => toString n
  | .float x => floatText x

end Number

end FlowSuite

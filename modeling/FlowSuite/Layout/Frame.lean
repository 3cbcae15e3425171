/-
The constructs that hold other steps.

A branch and a loop are written as lines around the lines of the steps inside them.
A frame has the lines around and says how far down the inner ones stand.
-/
import FlowSuite.Layout.Line

namespace FlowSuite

/-- The lines around the two arms of a branch. -/
structure Fork where
  opening : List Line
  between : List Line
  closing : List Line
  /-- How far down the arms stand. -/
  depth : Nat
  /-- What stands in an arm that leads nowhere. -/
  idle : String
  deriving DecidableEq, Repr

/-- The lines around the body of a loop. -/
structure Rounds where
  opening : List Line
  closing : List Line
  /-- How far down the body stands. -/
  depth : Nat
  deriving DecidableEq, Repr

end FlowSuite

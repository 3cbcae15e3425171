/-
Scripts: what a walk through a flow comes to.

A script is a flow unfolded from one of its steps.  Steps that join again after a
branch are written out in both arms, and where the flow would run in a circle the
script is cut.  It does not depend on the target it is going to be written for.
-/
import FlowSuite.Step.Basic

namespace FlowSuite

/-- A step's place in a script. -/
structure Site where
  id : String
  /-- Whether the script starts here. -/
  isRoot : Bool
  /-- The page element that is wired into the step. -/
  element : Option Element
  deriving DecidableEq, Repr

/-- Steps with everything that comes after them. -/
inductive Script where
  /-- Nothing comes any more. -/
  | stop
  /-- The flow returns to a step on its path. -/
  | cut (id : String)
  | action (site : Site) (a : Action) (next : Script)
  | branch (site : Site) (c : Check) (yes no : Script)
  | loop (site : Site) (l : Loop) (body next : Script)
  deriving DecidableEq, Repr

/-- How many steps a script has, the cuts not counted. -/
def Script.size : Script → Nat
  | .stop => 0
  | .cut _ => 0
  | .action _ _ next => next.size + 1
  | .branch _ _ yes no => yes.size + no.size + 1
  | .loop _ _ body next => body.size + next.size + 1

/-- Whether a loop has something to watch, if it needs to.  One that has not is
skipped. -/
def Loop.isWired (l : Loop) (element : Option Element) : Bool :=
  l.mode != .whileVisible || element.isSome

end FlowSuite

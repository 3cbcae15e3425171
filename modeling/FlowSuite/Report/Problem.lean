/-
What can be wrong with a step.

No step stops a suite from being written: what cannot be done is left out or replaced,
and the problem is reported.  A problem is kept by its cause; its kind and its wording
follow from the cause.  Some problems also leave a note above the step, since the step
is written out as if nothing had happened.
-/
import FlowSuite.Step.Basic

namespace FlowSuite

/-- The kinds of problems. -/
inductive ProblemKind where
  | missingElement
  | missingVariable
  | unsupported
  | unrecognizedValue
  | cycleTruncated
  | misplacedStep
  deriving DecidableEq, Repr

/-- The kind's name in reports. -/
def ProblemKind.name : ProblemKind → String
  | .missingElement => "missing-element"
  | .missingVariable => "missing-variable"
  | .unsupported => "unsupported"
  | .unrecognizedValue => "unrecognized-value"
  | .cycleTruncated => "cycle-truncated"
  | .misplacedStep => "misplaced-step"

/-- Something wrong with a step. -/
inductive Problem where
  /-- The flow returns to a step on its path. -/
  | cycle
  /-- A test case starts in the middle of another. -/
  | entryMidFlow
  | unknownBrowser (browser : String)
  | unknownStrategy (raw : String)
  | unknownGesture (key : String)
  | gestureWithoutElement (g : Gesture)
  /-- A captured text goes to no variable. -/
  | captureWithoutVariable
  | unknownCondition (key : String)
  | checkWithoutElement (c : Condition)
  | unknownLoopMode (raw : String)
  | unknownLoopCondition (key : String)
  | ignoredLoopCondition (c : Condition)
  | loopWithoutElement
  | unknownPause (raw : String)
  | networkAssertion
  | networkCondition
  | networkWait (route : String)
  | interception
  deriving DecidableEq, Repr

namespace Problem

/-- The problem's kind. -/
def kind : Problem → ProblemKind
  | .cycle => .cycleTruncated
  | .entryMidFlow => .misplacedStep
  | .unknownBrowser _ => .unrecognizedValue
  | .unknownStrategy _ => .unrecognizedValue
  | .unknownGesture _ => .unrecognizedValue
  | .gestureWithoutElement _ => .missingElement
  | .captureWithoutVariable => .missingVariable
  | .unknownCondition _ => .unrecognizedValue
  | .checkWithoutElement _ => .missingElement
  | .unknownLoopMode _ => .unrecognizedValue
  | .unknownLoopCondition _ => .unrecognizedValue
  | .ignoredLoopCondition _ => .unsupported
  | .loopWithoutElement => .missingElement
  | .unknownPause _ => .unrecognizedValue
  | .networkAssertion => .unsupported
  | .networkCondition => .unsupported
  | .networkWait _ => .unsupported
  | .interception => .unsupported

/-- The problem in words. -/
def message : Problem → String
  | .cycle => "flow returns to a step already on this path; generation stops here"
  | .entryMidFlow => "entry point reached through a flow connection, session setup skipped"
  | .unknownBrowser browser => s!"browser '{browser}' has no Selenium driver, using Chrome"
  | .unknownStrategy raw => s!"unknown selector type '{raw}', using ID"
  | .unknownGesture key => s!"unknown action '{key}'"
  | .gestureWithoutElement g => s!"'{g.label}' action has no element connected"
  | .captureWithoutVariable => "'Get Text' action has no variable to save into"
  | .unknownCondition key => s!"unknown condition '{key}'"
  | .checkWithoutElement c => s!"'{c.label}' check has no element connected"
  | .unknownLoopMode raw => s!"unknown loop type '{raw}', using Counter"
  | .unknownLoopCondition key =>
      s!"unknown loop condition '{key}', polling visibility instead"
  | .ignoredLoopCondition c =>
      s!"while loops poll element visibility, '{c.label}' is ignored"
  | .loopWithoutElement => "while loop has no element connected, loop skipped"
  | .unknownPause raw => s!"unknown wait type '{raw}', using a timed wait"
  | .networkAssertion => "network status assertions are not supported by Selenium"
  | .networkCondition => "network status conditions are not supported by Selenium"
  | .networkWait route =>
      s!"waiting on '@{route}' needs request interception, using a fixed sleep"
  | .interception => "request interception is not supported by Selenium"

/-- The note that the problem leaves above its step. -/
def note? (p : Problem) : Option String :=
  match p with
  | .unknownStrategy _ => some ("Warning: " ++ p.message)
  | .unknownLoopMode _ => some ("Warning: " ++ p.message)
  | .unknownPause _ => some ("Warning: " ++ p.message)
  | _ => none

end Problem

end FlowSuite

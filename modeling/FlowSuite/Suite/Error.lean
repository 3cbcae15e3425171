/-
Why a suite cannot be made.
-/
import FlowSuite.Target.Basic

namespace FlowSuite

/-- A reason for making no suite. -/
inductive SuiteError where
  /-- The flow has no step that starts a test case. -/
  | noEntryPoint
  /-- A name that no target has. -/
  | unknownTarget (name : String)
  deriving DecidableEq, Repr

/-- The reason in words. -/
def SuiteError.message : SuiteError → String
  | .noEntryPoint =>
      "No entry point found: the graph needs at least one EntryPoint step to start a test case"
  | .unknownTarget name => s!"Unknown backend '{name}', expected one of: selenium, cypress"

/-- The target that a text names. -/
def Target.parse (s : String) : Except SuiteError Target :=
  match Target.parse? s with
  | some t => .ok t
  | none => .error (.unknownTarget s)

end FlowSuite

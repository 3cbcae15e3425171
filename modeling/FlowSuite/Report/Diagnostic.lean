/-
The problems of a script.

Problems are reported in the order in which the steps are written: a step's own first,
then those of what follows it, a branch's yes before its no, a loop's body before what
comes after the loop.

Selenium does not see the traffic of a page, and it has a driver for some browsers
only; all other problems do not depend on the target.
-/
import FlowSuite.Report.Problem
import FlowSuite.Script.Basic
import FlowSuite.Step.Question
import FlowSuite.Target.Basic

namespace FlowSuite

/-- A problem, and the step that has it. -/
structure Diagnostic where
  node : String
  problem : Problem
  deriving DecidableEq, Repr

/-- The report's line for a problem. -/
def Diagnostic.text (d : Diagnostic) : String :=
  s!"[{d.problem.kind.name}] node '{d.node}': {d.problem.message}"

/-- The browser's driver class, if Selenium has one for it. -/
def Session.driver? (s : Session) : Option String :=
  match Text.choiceKey s.browser with
  | "chrome" => some "Chrome"
  | "googlechrome" => some "Chrome"
  | "chromium" => some "Chrome"
  | "firefox" => some "Firefox"
  | "mozillafirefox" => some "Firefox"
  | "edge" => some "Edge"
  | "microsoftedge" => some "Edge"
  | "safari" => some "Safari"
  | _ => none

/-- The problem with the way an element is to be found. -/
def Element.problems (e : Element) : List Problem :=
  e.unknownStrategy.toList.map .unknownStrategy

/-- The problem with what is to be done with an element. -/
def Interaction.problems (i : Interaction) : List Problem :=
  match i.gesture with
  | .captureText => if i.saveTo.isNone then [.captureWithoutVariable] else []
  | .unknown key => [.unknownGesture key]
  | _ => []

/-- The problem that a fault of a check is. -/
def CheckFault.problem : CheckFault → Problem
  | .unknownCondition key => .unknownCondition key
  | .noElement c => .checkWithoutElement c

/-- The problems with a check of a page element. -/
def Check.problems (c : Check) (element : Option Element) : List Problem :=
  match c.question element with
  | .error fault => [fault.problem]
  | .ok q => match q.element? with
      | some e => e.problems
      | none => []

/-- The problem with what a conditional loop was asked to watch. -/
def Condition.loopProblems : Condition → List Problem
  | .visible => []
  | .unknown key => [.unknownLoopCondition key]
  | c => [.ignoredLoopCondition c]

namespace Target

/-- Whether the target can watch and answer the requests of a page. -/
def seesNetwork : Target → Bool
  | .selenium => false
  | .cypress => true

/-- The problems of an action. -/
def actionProblems (t : Target) (site : Site) : Action → List Problem
  | .session s =>
      if site.isRoot then
        match t, s.driver? with
        | .selenium, none => [.unknownBrowser s.browser]
        | _, _ => []
      else [.entryMidFlow]
  | .interact i =>
      match site.element with
      | none => [.gestureWithoutElement i.gesture]
      | some e => e.problems ++ i.problems
  | .assertion a =>
      if a.check.condition = .networkStatus ∧ t.seesNetwork = false then [.networkAssertion]
      else a.check.problems site.element
  | .pause p =>
      match p with
      | .time _ => []
      | .network route => if t.seesNetwork then [] else [.networkWait route]
      | .unknown waitType _ => [.unknownPause waitType]
  | .intercept _ => if t.seesNetwork then [] else [.interception]
  | _ => []

/-- The problems of a branch. -/
def branchProblems (t : Target) (site : Site) (c : Check) : List Problem :=
  if c.condition = .networkStatus ∧ t.seesNetwork = false then [.networkCondition]
  else c.problems site.element

/-- The problems of a loop. -/
def loopProblems (site : Site) (l : Loop) : List Problem :=
  match l.mode with
  | .counter => []
  | .unknown raw => [.unknownLoopMode raw]
  | .whileVisible =>
      l.condition.loopProblems ++
        match site.element with
        | some e => e.problems
        | none => [.loopWithoutElement]

end Target

/-- The problems of a script, in the order of its steps. -/
def Script.diagnostics (t : Target) : Script → List Diagnostic
  | .stop => []
  | .cut id => [⟨id, .cycle⟩]
  | .action site a next =>
      (t.actionProblems site a).map (⟨site.id, ·⟩) ++ next.diagnostics t
  | .branch site c yes no =>
      (t.branchProblems site c).map (⟨site.id, ·⟩) ++ yes.diagnostics t ++ no.diagnostics t
  | .loop site l body next =>
      (Target.loopProblems site l).map (⟨site.id, ·⟩) ++ body.diagnostics t ++
        next.diagnostics t

end FlowSuite

/-
Writing a script for a target.

A step's lines come first, under the notes that its problems leave; what follows it
stands at the same level.  A branch puts its arms, and a loop its body, into the lines
of its frame.
-/
import FlowSuite.Cypress.Control
import FlowSuite.Report.Diagnostic
import FlowSuite.Selenium.Control

namespace FlowSuite

namespace Target

/-- The code of an action. -/
def action : Target → Site → Action → List Line
  | .selenium => Selenium.action
  | .cypress => Cypress.action

/-- The lines around the arms of a branch. -/
def fork : Target → Check → Option Element → Fork
  | .selenium => Selenium.fork
  | .cypress => Cypress.fork

/-- The lines around the body of a loop. -/
def rounds (t : Target) (site : Site) (l : Loop) : Rounds :=
  match t with
  | .selenium => Selenium.rounds l site.element
  | .cypress => Cypress.rounds site.id l site.element

/-- The notes that problems leave. -/
def notes (t : Target) (problems : List Problem) : List Line :=
  (problems.filterMap Problem.note?).map fun s => line (t.comment s)

/-- What stands where a script is cut. -/
def marker (t : Target) (id : String) : Line :=
  line (t.comment s!"... (flow merges or cycle detected at '{id}')")

end Target

/-- An arm of a branch, given its script and the script's lines. -/
def Fork.arm (f : Fork) : Script → List Line → List Line
  | .stop, _ => [below f.depth f.idle]
  | _, ls => shift f.depth ls

/-- The lines of a script. -/
def Script.lines (t : Target) : Script → List Line
  | .stop => []
  | .cut id => [t.marker id]
  | .action site a next =>
      t.notes (t.actionProblems site a) ++ t.action site a ++ next.lines t
  | .branch site c yes no =>
      let f := t.fork c site.element
      t.notes (t.branchProblems site c) ++ f.opening ++ f.arm yes (yes.lines t) ++
        f.between ++ f.arm no (no.lines t) ++ f.closing
  | .loop site l body next =>
      let r := t.rounds site l
      t.notes (Target.loopProblems site l) ++ r.opening ++ shift r.depth (body.lines t) ++
        r.closing ++ next.lines t

/-- The text of a script in a block at a level of indentation. -/
def Script.text (t : Target) (level : Nat) (s : Script) : String :=
  Line.renderAll level (s.lines t)

end FlowSuite

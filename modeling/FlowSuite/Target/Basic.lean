/-
The targets a suite can be written for.

Selenium suites are Python files, Cypress suites are JavaScript files.  A target is
chosen by its own name or by the name of its language.
-/
import FlowSuite.Text.Blank
import FlowSuite.Text.Lines
import FlowSuite.Text.Words

namespace FlowSuite

/-- A kind of test suite. -/
inductive Target where
  | selenium
  | cypress
  deriving DecidableEq, Repr, Inhabited

namespace Target

/-- The target's name. -/
def name : Target → String
  | .selenium => "selenium"
  | .cypress => "cypress"

/-- The target that a text names, whatever its case and the blanks around it. -/
def parse? (s : String) : Option Target :=
  let key := Text.lower (Text.trim s)
  if key ∈ ["selenium", "python", "py"] then some .selenium
  else if key ∈ ["cypress", "javascript", "js"] then some .cypress
  else none

/-- A comment in the target's language, on one line. -/
def comment (t : Target) (text : String) : String :=
  let mark := match t with
    | .selenium => "# "
    | .cypress => "// "
  mark ++ Text.oneLine text

end Target

end FlowSuite

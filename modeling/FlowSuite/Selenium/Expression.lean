/-
Selenium: expressions and single lines.
-/
import FlowSuite.Layout.Line
import FlowSuite.Step.Basic
import FlowSuite.Target.Locator

namespace FlowSuite.Selenium

/-- The expression for a field text. -/
def translate (raw : String) : String :=
  Target.selenium.translate raw

/-- The expression for a field text, as a string. -/
def asText (raw : String) : String :=
  let v := Value.classify raw
  let e := Target.selenium.expression v
  if v.isString then e else s!"str({e})"

/-- The name of a strategy. -/
def strategy : Strategy → String
  | .id => "By.ID"
  | .css => "By.CSS_SELECTOR"
  | .xpath => "By.XPATH"
  | .name => "By.NAME"
  | .linkText => "By.LINK_TEXT"

/-- The arguments that say how to find an element. -/
def locate (e : Element) : String :=
  let value := (LocatorValue.resolve e.value).expression .selenium
  s!"{strategy e.strategy}, {value}"

/-- The element itself. -/
def find (e : Element) : String :=
  s!"driver.find_element({locate e})"

/-- A comment. -/
def note (text : String) : Line :=
  line (Target.selenium.comment text)

/-- A call that logs a fixed text. -/
def log (function text : String) : String :=
  s!"{function}({Text.quote text})"

end FlowSuite.Selenium

/-
Selenium: the code of actions.

An element that is not wired in, a variable that is not given or a request that cannot
be seen leaves a comment in place of the code.  An assertion that fails is logged
before it ends the test.
-/
import FlowSuite.Report.Diagnostic
import FlowSuite.Selenium.Expression

namespace FlowSuite.Selenium

/-- The start of a test case. -/
def session (site : Site) (s : Session) : List Line :=
  let driver := s.driver?.getD "Chrome"
  if site.isRoot then
    [line (log "log_info" s!"Browser: {s.browser}, URL: {s.url}"),
      line s!"driver = webdriver.{driver}()",
      line "driver.maximize_window()",
      line s!"driver.get({translate s.url})",
      line "time.sleep(2)"] ++
    (if s.clearCookies then [line "driver.delete_all_cookies()"] else []) ++
    (if s.clearLocalStorage then
      [line "driver.execute_script(\"window.localStorage.clear();\")"] else []) ++
    (if s.clearSessionStorage then
      [line "driver.execute_script(\"window.sessionStorage.clear();\")"] else [])
  else [note "Entry point reached mid-flow: session setup skipped"]

/-- What is done with an element. -/
def gesture (i : Interaction) (e : Element) : List Line :=
  match i.gesture with
  | .click => [line s!"{find e}.click()"]
  | .type => [line s!"{find e}.send_keys({asText i.value})"]
  | .clear => [line s!"{find e}.clear()"]
  | .hover =>
      [line s!"element = {find e}",
        line "webdriver.ActionChains(driver).move_to_element(element).perform()"]
  | .captureText =>
      match i.saveTo with
      | some name =>
          let saved := Text.quote s!"Saved text to variable '{name}': "
          [line s!"txt_val = {find e}.text",
            line s!"self.vars[{Text.quote name}] = txt_val",
            line s!"log_info({saved} + txt_val)"]
      | none => [note "Warning: Get Text has no variable to save into, skipped"]
  | .unknown key => [line (log "log_info" s!"Unknown action '{key}'")]

/-- Something done with an element. -/
def interact (i : Interaction) : Option Element → List Line
  | none =>
      [note "Warning: Interact step has no element connected",
        line (log "log_info" "Warning: Interact step has no element connected")]
  | some e =>
      line (log "log_step" s!"Action: {i.gesture.label} on '{e.name}'") :: gesture i e

/-- The lines before an assertion. -/
def facts : Question → List Line
  | .containsText e _ =>
      [line s!"el = {find e}",
        line "txt = el.text or el.get_attribute(\"value\") or \"\""]
  | .hasClass e _ =>
      [line s!"el = {find e}",
        line "el_classes = el.get_attribute(\"class\") or \"\""]
  | .propertyEquals e property _ =>
      [line s!"el = {find e}",
        line s!"prop_val = el.get_attribute({Text.quote property})"]
  | _ => []

/-- What an assertion asserts. -/
def claim : Question → String
  | .visible e => s!"{find e}.is_displayed()"
  | .containsText _ value => s!"{asText value} in txt"
  | .hasClass _ value => s!"{asText value} in el_classes.split()"
  | .propertyEquals _ _ value => s!"str(prop_val) == {asText value}"
  | .urlContains value => s!"{asText value} in driver.current_url"
  | .urlMatches pattern => s!"re.search({Text.quote pattern}, driver.current_url)"
  | .networkStatus _ _ => "True"

/-- A question whose answer must be yes. -/
def assertion (a : Assertion) (element : Option Element) : List Line :=
  match a.check.question element with
  | .error fault => [note fault.reason]
  | .ok (.networkStatus route status) =>
      [note s!"Assert Network Status: @{route} == {status}",
        note "Note: Selenium does not support native network assertion.",
        note "Consider using selenium-wire for network inspection."]
  | .ok q =>
      [line (log "log_step" s!"Asserting: {a.check.condition.label}")] ++ facts q ++
        [line "try:", below 1 s!"assert {claim q}"] ++
        (if a.verbose then [below 1 (log "log_pass" q.message)] else []) ++
        [line "except AssertionError:", below 1 (log "log_fail" q.message), below 1 "raise"]

/-- The line that announces a pause: of a second or more if the duration is given, in any
case if it is only known at run time. -/
def announce (seconds : Value) : List Line :=
  match seconds with
  | .number n =>
      if (Numeral.parse? n).any fun m => 1 ≤ m.toFloat then
        [line (log "log_step" s!"Waiting for {n} seconds...")]
      else []
  | .text _ => []
  | v =>
      let e := Target.selenium.expression v
      [line s!"log_step(\"Waiting for \" + str({e}) + \" seconds...\")"]

/-- A pause for a number of seconds. -/
def sleep (duration : String) : List Line :=
  announce (Value.classify duration) ++ [line s!"time.sleep(float({translate duration}))"]

/-- A pause. -/
def pause : Pause → List Line
  | .time duration => sleep duration
  | .unknown _ duration => sleep duration
  | .network route =>
      [note s!"Wait for network request '@{route}'",
        note "Note: Selenium does not support native network wait.",
        note "Consider using selenium-wire or explicit waits instead.",
        line "time.sleep(1)  # Fallback: wait 1 second"]

/-- A picture of the page. -/
def screenshot (s : Screenshot) : List Line :=
  let path :=
    if s.counter then
      Python.interpolate [.text s!"{s.folder}/{s.filename}_", .expr "self.screenshot_counter",
        .text ".png"]
    else Text.quote s!"{s.folder}/{s.filename}.png"
  [line "# Capture Screenshot",
    line s!"os.makedirs({Text.quote s.folder}, exist_ok=True)"] ++
  (if s.counter then [line "self.screenshot_counter += 1"] else []) ++
  [line s!"save_path = {path}",
    line "driver.save_screenshot(save_path)",
    line "log_info(\"Screenshot saved: \" + save_path)"]

/-- A value for a variable. -/
def assign (a : Assignment) : List Line :=
  [line s!"self.vars[{Text.quote a.name}] = {translate a.value}"]

/-- A rule for requests. -/
def intercept (i : Interception) : List Line :=
  [note s!"Network Intercept: {i.method} {i.urlPattern} (alias: {i.route})",
    note "Note: Selenium does not support native network interception.",
    note "Consider using selenium-wire or mitmproxy for request mocking."] ++
  match i.mock with
  | some mock => [note s!"Mock Response: Status {mock.status}"]
  | none => []

/-- Data read from a file into a variable. -/
def fixture (f : Fixture) : List Line :=
  [note s!"Load fixture from {f.path}",
    line s!"with open({translate f.path}, \"r\") as f:",
    below 1 s!"self.vars[{Text.quote f.name}] = json.load(f)",
    line (log "log_step" s!"Loaded fixture '{f.path}' into variable '{f.name}'")]

/-- A call of a routine. -/
def command (c : Command) : List Line :=
  let name := c.name.getD "my_command"
  let arguments := ", ".intercalate (c.arguments.map translate)
  [note s!"Custom command: {name}", line s!"{name}({arguments})"]

/-- The code of an action.  A page element on its own is not code. -/
def action (site : Site) : Action → List Line
  | .session s => session site s
  | .element _ => []
  | .interact i => interact i site.element
  | .assertion a => assertion a site.element
  | .pause p => pause p
  | .screenshot s => screenshot s
  | .assign a => assign a
  | .intercept i => intercept i
  | .fixture f => fixture f
  | .command c => command c

end FlowSuite.Selenium

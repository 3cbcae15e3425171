/-
Selenium: branches and loops.

The question of a branch never ends the test: an element that is not there makes the
answer no.  A branch whose question cannot be asked goes the way of a yes.
-/
import FlowSuite.Layout.Frame
import FlowSuite.Selenium.Action

namespace FlowSuite.Selenium

/-- The lines before the question of a branch. -/
def preparation : Question → List Line
  | .visible e => [line s!"elements = driver.find_elements({locate e})"]
  | .containsText e _ =>
      [line "try:", below 1 s!"el_txt = {find e}.text",
        line "except Exception:", below 1 "el_txt = \"\""]
  | .hasClass e _ =>
      [line "try:",
        below 1 s!"el_classes = ({find e}.get_attribute(\"class\") or \"\").split()",
        line "except Exception:", below 1 "el_classes = []"]
  | .propertyEquals e property _ =>
      [line "try:", below 1 s!"prop_val = {find e}.get_attribute({Text.quote property})",
        line "except Exception:", below 1 "prop_val = None"]
  | .urlContains _ => []
  | .urlMatches _ => []
  | .networkStatus _ _ =>
      [note "Note: Selenium cannot inspect network responses, condition treated as true."]

/-- The question of a branch. -/
def guard : Question → String
  | .visible _ => "len(elements) > 0 and elements[0].is_displayed()"
  | .containsText _ value => s!"{asText value} in el_txt"
  | .hasClass _ value => s!"{asText value} in el_classes"
  | .propertyEquals _ _ value => s!"prop_val is not None and str(prop_val) == {asText value}"
  | .urlContains value => s!"{asText value} in driver.current_url"
  | .urlMatches pattern => s!"re.search({Text.quote pattern}, driver.current_url)"
  | .networkStatus _ _ => "True"

/-- The lines before the question of a branch, and the question. -/
def inquiry (c : Check) (element : Option Element) : List Line × String :=
  match c.question element with
  | .error fault => ([note fault.reason], "True")
  | .ok q => (preparation q, guard q)

/-- The lines around the arms of a branch. -/
def fork (c : Check) (element : Option Element) : Fork :=
  let (before, test) := inquiry c element
  { opening :=
      [line (log "log_info" s!"Condition Check: {c.condition.label}...")] ++ before ++
        [line s!"if {test}:", below 1 (log "log_info" ">> Condition matched (TRUE)")]
    between := [line "else:", below 1 (log "log_info" ">> Condition failed (FALSE)")]
    closing := []
    depth := 1
    idle := "pass" }

/-- What is logged before a loop that counts. -/
def announcement (count : String) : Line :=
  let text := Python.interpolate [.text "Starting Loop (", .expr count, .text " iterations)"]
  line s!"log_info({text})"

/-- The head of a loop that counts. -/
def countLoop (count : String) : List Line :=
  [announcement count,
    line s!"for i in range(int({count})):",
    below 1 "log_info(f\"--- Loop Iteration \x7bi + 1\x7d ---\")"]

/-- The head of a loop that watches an element. -/
def watchLoop (e : Element) : List Line :=
  [line (log "log_info" "Starting While Loop"),
    line "while True:",
    below 1 "try:",
    below 2 s!"if not {find e}.is_displayed():",
    below 3 "break",
    below 1 "except Exception:",
    below 2 "break"]

/-- The lines around the body of a loop. -/
def rounds (l : Loop) (element : Option Element) : Rounds where
  opening := match l.mode, element with
    | .whileVisible, some e => watchLoop e
    | .whileVisible, none =>
        [note "Warning: While loop has no element connected, loop skipped"]
    | _, _ => countLoop (translate l.count)
  closing := [line (log "log_info" "Loop Finished")]
  depth := 1

end FlowSuite.Selenium

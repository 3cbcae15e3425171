/-
The Python of a case is a block, whatever the flow.

A Python file with one empty or shifted block does not run at all, so a case that is only
partly right must still be written as a block.  Nothing in a flow is refused: a step without
its element becomes a comment, a walk is cut by a comment, an arm may lead nowhere, and a
routine may be called like a header.  Each of these is a piece of `Code`, and so is each
action, branch and loop around pieces that are; `Flow.code_walk` follows the walk and puts
them together.

Two things are asked of the flow, and both are needed.  The name of a routine stands in the
code as it is, and so does the source behind an equals sign; a line feed in either one
starts a line that nothing has indented.

Main statement: `selenium_text_is_block`.
-/
import FlowSuite.Proofs.ControlGraph
import FlowSuite.Proofs.Indentation.Block
import FlowSuite.Script.Print
import FlowSuite.Script.Unfold

namespace FlowSuite

/-! ### What stands in the code as it is given -/

/-- The field texts of a question that become expressions. -/
def Question.translated : Question → List String
  | .containsText _ value => [value]
  | .hasClass _ value => [value]
  | .propertyEquals _ _ value => [value]
  | .urlContains value => [value]
  | _ => []

/-- The field texts of a check that become expressions. -/
def Check.translated (c : Check) (element : Option Element) : List String :=
  match c.question element with
  | .ok q => q.translated
  | .error _ => []

namespace Step

/-- The field texts of a step that become expressions. -/
def translated (site : Site) : Step → List String
  | .action (.session s) => if site.isRoot then [s.url] else []
  | .action (.interact i) => if i.gesture = .type ∧ site.element.isSome then [i.value] else []
  | .action (.assertion a) => a.check.translated site.element
  | .action (.pause (.time duration)) => [duration]
  | .action (.pause (.unknown _ duration)) => [duration]
  | .action (.assign a) => [a.value]
  | .action (.fixture f) => [f.path]
  | .action (.command c) => c.arguments
  | .branch c => c.translated site.element
  | .loop l => if l.mode = .whileVisible then [] else [l.count]
  | _ => []

/-- The name of the routine that a step calls. -/
def routine? : Step → Option String
  | .action (.command c) => c.name
  | _ => none

end Step

namespace Selenium

open Python

/-! ### Actions -/

theorem isStart_comment (text : String) : IsStart (Target.selenium.comment text) :=
  (IsStart.of (by decide) : IsStart "# ").append (Text.oneLine_oneLine text)

theorem isStart_log {function : List Char} (h : isStart function = true) (text : String) :
    IsStart (log (String.ofList function) text) :=
  (((IsStart.of h).append (.of (by decide))).append (Text.oneLine_quote text)).append
    (.of (by decide))

theorem isCode_log {function : String} (h : isCode function = true) (text : String) :
    isCode (log function text) = true :=
  isCode_append (isCode_append (isCode_append h _) _) _

theorem isStart_find (e : Element) {rest : String} (h : Text.OneLine rest) :
    IsStart (find e ++ rest) :=
  (IsStart.around (by decide) (oneLine_locate e) (by decide)).append h

theorem code_note (text : String) : Code [note text] :=
  .cons (isStart_comment text) .nil

theorem code_notes (problems : List Problem) : Code (Target.selenium.notes problems) := by
  unfold Target.notes
  induction problems.filterMap Problem.note? with
  | nil => exact .nil
  | cons text rest ih => exact .cons (isStart_comment text) ih

theorem code_ite (b : Bool) {ls : List Line} (h : Code ls) : Code (if b then ls else []) := by
  cases b with
  | false => exact .nil
  | true => exact h

theorem oneLine_driver (s : Session) : Text.OneLine (s.driver?.getD "Chrome") := by
  unfold Session.driver?
  split <;> decide

theorem code_session {site : Site} {s : Session}
    (h : ∀ raw ∈ Step.translated site (.action (.session s)), Text.OneLineSource raw) :
    Code (session site s) := by
  unfold session
  by_cases hroot : site.isRoot = true
  · have hurl : Text.OneLine (translate s.url) :=
      oneLine_translate (h s.url (by simp [Step.translated, hroot]))
    simp only [hroot, if_true]
    refine ((Code.append ?_ ?_).append ?_).append ?_
    · refine .cons (isStart_log (by decide) _) ?_
      refine .cons (.around (by decide) (oneLine_driver s) (by decide)) ?_
      refine .cons (.of (by decide)) ?_
      refine .cons (.around (by decide) hurl (by decide)) ?_
      exact .cons (.of (by decide)) .nil
    · exact code_ite _ (.cons (.of (by decide)) .nil)
    · exact code_ite _ (.cons (.of (by decide)) .nil)
    · exact code_ite _ (.cons (.of (by decide)) .nil)
  · simp only [hroot]
    exact code_note _

theorem code_gesture {i : Interaction} {e : Element}
    (h : i.gesture = .type → Text.OneLineSource i.value) : Code (gesture i e) := by
  unfold gesture
  cases hgesture : i.gesture with
  | click => exact .cons (isStart_find e (.of (by decide))) .nil
  | type =>
      have hvalue : Text.OneLine (asText i.value) := oneLine_asText (h hgesture)
      refine .cons ?_ .nil
      exact ((isStart_find e (.of (by decide))).append hvalue).append (.of (by decide))
  | clear => exact .cons (isStart_find e (.of (by decide))) .nil
  | hover =>
      refine .cons ((IsStart.of (by decide)).append (oneLine_find e)) ?_
      exact .cons (.of (by decide)) .nil
  | captureText =>
      cases i.saveTo with
      | none => exact code_note _
      | some name =>
          refine .cons (.around (by decide) (oneLine_find e) (by decide)) ?_
          refine .cons (.around (by decide) (Text.oneLine_quote name) (by decide)) ?_
          exact .cons (.around (by decide) (Text.oneLine_quote _) (by decide)) .nil
  | unknown key => exact .cons (isStart_log (by decide) _) .nil

theorem code_interact {site : Site} {i : Interaction}
    (h : ∀ raw ∈ Step.translated site (.action (.interact i)), Text.OneLineSource raw) :
    Code (interact i site.element) := by
  cases helement : site.element with
  | none => exact .cons (isStart_comment _) (.cons (isStart_log (by decide) _) .nil)
  | some e =>
      refine .cons (isStart_log (by decide) _) (code_gesture ?_)
      intro htype
      exact h i.value (by simp [Step.translated, htype, helement])

theorem code_facts (q : Question) : Code (facts q) := by
  cases q with
  | containsText e value =>
      refine .cons ((IsStart.of (by decide)).append (oneLine_find e)) ?_
      exact .cons (.of (by decide)) .nil
  | hasClass e value =>
      refine .cons ((IsStart.of (by decide)).append (oneLine_find e)) ?_
      exact .cons (.of (by decide)) .nil
  | propertyEquals e property value =>
      refine .cons ((IsStart.of (by decide)).append (oneLine_find e)) ?_
      exact .cons (.around (by decide) (Text.oneLine_quote property) (by decide)) .nil
  | _ => exact .nil

theorem oneLine_claim {q : Question} (h : ∀ raw ∈ q.translated, Text.OneLineSource raw) :
    Text.OneLine (claim q) := by
  cases q with
  | visible e => exact (oneLine_find e).append (.of (by decide))
  | containsText e value =>
      exact (oneLine_asText (h value List.mem_cons_self)).append (.of (by decide))
  | hasClass e value => exact (oneLine_asText (h value List.mem_cons_self)).append (.of (by decide))
  | propertyEquals e property value =>
      exact (.of (by decide) : Text.OneLine "str(prop_val) == ").append
        (oneLine_asText (h value List.mem_cons_self))
  | urlContains value =>
      exact (oneLine_asText (h value List.mem_cons_self)).append (.of (by decide))
  | urlMatches pattern =>
      exact .around (by decide) (Text.oneLine_quote pattern) (by decide)
  | networkStatus route status => exact (.of (by decide) : Text.OneLine "True")

/-- The attempt of an assertion. -/
theorem code_attempt {claim : String} (message : String) (verbose : Bool)
    (h : Text.OneLine claim) :
    Code ([line "try:", below 1 s!"assert {claim}"] ++
      (if verbose then [below 1 (log "log_pass" message)] else []) ++
      [line "except AssertionError:", below 1 (log "log_fail" message), below 1 "raise"]) := by
  have hbody : Body (line ("assert " ++ claim) ::
      (if verbose then [line (log "log_pass" message)] else [])) :=
    .cons ((IsStart.of (by decide)).append h) (isCode_append (isCode_of (by decide)) _)
      (code_ite verbose (.cons (isStart_log (by decide) message) .nil))
  have hhandler : Body [line (log "log_fail" message), line "raise"] :=
    .cons (isStart_log (by decide) _) (isCode_log (by decide) _) (.cons (.of (by decide)) .nil)
  have hcode := Code.attempt _ "except AssertionError:" _ hbody (by decide) (by decide) hhandler
  -- The body is moved in as a whole here, and line by line in the statement.
  cases verbose <;> exact hcode

theorem code_assertion {site : Site} {a : Assertion}
    (h : ∀ raw ∈ Step.translated site (.action (.assertion a)), Text.OneLineSource raw) :
    Code (assertion a site.element) := by
  unfold assertion
  have htranslated : ∀ q, a.check.question site.element = .ok q →
      ∀ raw ∈ q.translated, Text.OneLineSource raw := by
    intro q hq raw hraw
    exact h raw (by simpa only [Step.translated, Check.translated, hq] using hraw)
  split
  · exact code_note _
  · exact .cons (isStart_comment _) (.cons (isStart_comment _) (code_note _))
  · rename_i q hstatus hq
    have hlog : Code [line (log "log_step" s!"Asserting: {a.check.condition.label}")] :=
      .cons (isStart_log (by decide) _) .nil
    have hcode := (hlog.append (code_facts q)).append
      (code_attempt q.message a.verbose (oneLine_claim (htranslated q hq)))
    simpa only [List.append_assoc] using hcode

theorem code_sleep {duration : String} (h : Text.OneLineSource duration) :
    Code (sleep duration) := by
  have hannounce : Code (announce (Value.classify duration)) := by
    unfold announce
    split
    · split
      · exact .cons (isStart_log (by decide) _) .nil
      · exact .nil
    · exact .nil
    · exact .cons (.around (by decide) (oneLine_expression h) (by decide)) .nil
  refine hannounce.append (.cons ?_ .nil)
  exact .around (by decide) (oneLine_translate h) (by decide)

theorem code_pause {site : Site} {p : Pause}
    (h : ∀ raw ∈ Step.translated site (.action (.pause p)), Text.OneLineSource raw) :
    Code (pause p) := by
  cases p with
  | time duration => exact code_sleep (h duration List.mem_cons_self)
  | unknown waitType duration => exact code_sleep (h duration List.mem_cons_self)
  | network route =>
      refine .cons (isStart_comment _) (.cons (isStart_comment _) (.cons (isStart_comment _) ?_))
      exact .cons (.of (by decide)) .nil

theorem code_screenshot (s : Screenshot) : Code (screenshot s) := by
  have hpath : Text.OneLine (if s.counter then
      Python.interpolate [.text s!"{s.folder}/{s.filename}_", .expr "self.screenshot_counter",
        .text ".png"] else Text.quote s!"{s.folder}/{s.filename}.png") := by
    split
    · apply oneLine_interpolate
      intro e he
      obtain rfl : e = "self.screenshot_counter" := by simpa using he
      decide
    · exact Text.oneLine_quote _
  unfold screenshot
  refine (Code.append ?_ ?_).append ?_
  · refine .cons (.of (by decide)) (.cons ?_ .nil)
    exact .around (by decide) (Text.oneLine_quote _) (by decide)
  · exact code_ite _ (.cons (.of (by decide)) .nil)
  · refine .cons ((IsStart.of (by decide)).append hpath) ?_
    exact .cons (.of (by decide)) (.cons (.of (by decide)) .nil)

theorem code_assign {a : Assignment} (h : Text.OneLineSource a.value) : Code (assign a) := by
  refine .cons (IsStart.append ?_ (oneLine_translate h)) .nil
  exact .around (by decide) (Text.oneLine_quote _) (by decide)

theorem code_intercept (i : Interception) : Code (intercept i) := by
  refine Code.append (.cons (isStart_comment _) (.cons (isStart_comment _) (code_note _))) ?_
  cases i.mock with
  | none => exact .nil
  | some mock => exact code_note _

theorem code_fixture {f : Fixture} (h : Text.OneLineSource f.path) : Code (fixture f) := by
  have hpath : Text.OneLine (translate f.path) := oneLine_translate h
  have hbody : Body [line s!"self.vars[{Text.quote f.name}] = json.load(f)"] :=
    .cons (.around (by decide) (Text.oneLine_quote _) (by decide))
      (isCode_around (by decide) _ _) .nil
  have hnest : isNest s!"with open({translate f.path}, \"r\") as f:" = true :=
    isNest_of_opens (by decide : "with " ∈ _) (opens_around _ (by decide) (by decide))
  have honeLine : Text.OneLine s!"with open({translate f.path}, \"r\") as f:" :=
    .around (by decide) hpath (by decide)
  refine .cons (isStart_comment _) ?_
  exact (Code.nest _ _ hnest honeLine hbody).append (.cons (isStart_log (by decide) _) .nil)

/-- A call ends with a parenthesis, so it is no header whatever the routine is called. -/
theorem isPlain_call {name : String} (arguments : String)
    (hflush : ∀ c, name.toList.head? = some c → Text.isBlank c = false) :
    IsPlain (name ++ "(" ++ arguments ++ ")") := by
  refine ⟨?_, ?_⟩
  · cases hhead : name.toList.head? with
    | none =>
        have hname : name.toList = [] := List.head?_eq_none_iff.mp hhead
        exact ⟨'(', by simp [hname], by decide⟩
    | some c =>
        refine ⟨c, ?_, hflush c hhead⟩
        simp [String.toList_append, List.head?_append, hhead]
  · rw [← Bool.not_eq_true]
    intro hheader
    have hlast : (name ++ "(" ++ arguments ++ ")").toList.getLast? = some ')' := by
      rw [String.toList_append, List.getLast?_append]
      rfl
    rw [getLast?_of_isHeader hheader] at hlast
    exact absurd hlast (by decide)

theorem code_command {c : Command} (hname : ∀ name ∈ c.name, Text.OneLine name)
    (hflush : ∀ name ∈ c.name, ∀ d, name.toList.head? = some d → Text.isBlank d = false)
    (harguments : ∀ raw ∈ c.arguments, Text.OneLineSource raw) : Code (command c) := by
  have hgiven : Text.OneLine (c.name.getD "my_command") ∧
      ∀ d, (c.name.getD "my_command").toList.head? = some d → Text.isBlank d = false := by
    cases hc : c.name with
    | none => exact ⟨by decide, by rintro d ⟨⟩; decide⟩
    | some name => exact ⟨hname name hc, hflush name hc⟩
  have hlist : Text.OneLine (", ".intercalate (c.arguments.map translate)) := by
    refine Text.oneLine_intercalate (by decide) ?_
    intro s hs
    obtain ⟨raw, hraw, rfl⟩ := List.mem_map.mp hs
    exact oneLine_translate (harguments raw hraw)
  refine .cons (isStart_comment _) (Code.cons_of_isPlain (isPlain_call _ hgiven.2) ?_ .nil)
  exact ((hgiven.1.append (.of (by decide))).append hlist).append (.of (by decide))

theorem code_action {site : Site} {a : Action}
    (h : ∀ raw ∈ Step.translated site (.action a), Text.OneLineSource raw)
    (hname : ∀ name ∈ (Step.action a).routine?, Text.OneLine name)
    (hflush : ∀ name ∈ (Step.action a).routine?, ∀ c, name.toList.head? = some c →
      Text.isBlank c = false) : Code (action site a) := by
  cases a with
  | session s => exact code_session h
  | element e => exact .nil
  | interact i => exact code_interact h
  | assertion a => exact code_assertion h
  | pause p => exact code_pause h
  | screenshot s => exact code_screenshot s
  | assign a => exact code_assign (h a.value List.mem_cons_self)
  | intercept i => exact code_intercept i
  | fixture f => exact code_fixture (h f.path List.mem_cons_self)
  | command c => exact code_command hname hflush h

/-! ### Branches

The test of a loop starts with `not`, and that of a branch never does: a value in it is
written as a string.
-/

theorem head?_append_ne {s rest : String} (hs : s.toList.head? ≠ some 'n')
    (hrest : rest.toList.head? ≠ some 'n') : (s ++ rest).toList.head? ≠ some 'n' := by
  rw [String.toList_append, List.head?_append]
  cases hhead : s.toList.head? with
  | none => exact hrest
  | some c =>
      rw [hhead] at hs
      exact hs

theorem head?_start_ne {start : String} (h : start.toList.head?.any (· != 'n') = true)
    (rest : String) : (start ++ rest).toList.head? ≠ some 'n' := by
  rw [String.toList_append, List.head?_append]
  cases hhead : start.toList.head? with
  | none => simp [hhead] at h
  | some c => simpa [hhead] using h

theorem head?_intercalate_ne {sep : String} {ss : List String}
    (hsep : sep.toList.head? ≠ some 'n') (h : ∀ s ∈ ss, s.toList.head? ≠ some 'n') :
    (sep.intercalate ss).toList.head? ≠ some 'n' := by
  induction ss with
  | nil => simp
  | cons s rest ih =>
      have hs := h s List.mem_cons_self
      cases rest with
      | nil => simpa using hs
      | cons s' rest =>
          rw [String.intercalate_cons_cons]
          exact head?_append_ne (head?_append_ne hs hsep)
            (ih fun s'' hs'' => h s'' (List.mem_cons_of_mem s hs''))

theorem head?_quote_ne (s : String) : (Text.quote s).toList.head? ≠ some 'n' := by
  simp [Text.quoteChars]

theorem head?_interpolate_ne (pieces : List Piece) :
    (Python.interpolate pieces).toList.head? ≠ some 'n' := by
  unfold Python.interpolate
  split
  · simp [fString]
  · refine head?_intercalate_ne (by decide) ?_
    intro s hs
    obtain ⟨p, -, hterm⟩ := List.mem_filterMap.mp hs
    cases p with
    | text text =>
        simp only [term?] at hterm
        split at hterm
        · cases hterm
        · cases hterm
          exact head?_quote_ne text
    | expr e =>
        cases hterm
        simp

theorem head?_asText_ne (raw : String) : (asText raw).toList.head? ≠ some 'n' := by
  unfold asText
  dsimp only
  split
  · rename_i hstring
    cases hvalue : Value.classify raw with
    | text s => exact head?_quote_ne s
    | interpolated segments => exact head?_interpolate_ne _
    | _ => simp [hvalue, Value.isString] at hstring
  · exact head?_append_ne (head?_start_ne (by decide) _) (by decide)

theorem head?_guard_ne (q : Question) : (guard q).toList.head? ≠ some 'n' := by
  cases q with
  | visible e =>
      exact (by decide :
        "len(elements) > 0 and elements[0].is_displayed()".toList.head? ≠ some 'n')
  | containsText e value => exact head?_append_ne (head?_asText_ne value) (by decide)
  | hasClass e value => exact head?_append_ne (head?_asText_ne value) (by decide)
  | propertyEquals e property value => exact head?_start_ne (by decide) _
  | urlContains value => exact head?_append_ne (head?_asText_ne value) (by decide)
  | urlMatches pattern => exact head?_append_ne (head?_start_ne (by decide) _) (by decide)
  | networkStatus route status => exact (by decide : "True".toList.head? ≠ some 'n')

theorem oneLine_guard {q : Question} (h : ∀ raw ∈ q.translated, Text.OneLineSource raw) :
    Text.OneLine (guard q) := by
  cases q with
  | visible e =>
      exact (.of (by decide) : Text.OneLine "len(elements) > 0 and elements[0].is_displayed()")
  | containsText e value =>
      exact (oneLine_asText (h value List.mem_cons_self)).append (.of (by decide))
  | hasClass e value => exact (oneLine_asText (h value List.mem_cons_self)).append (.of (by decide))
  | propertyEquals e property value =>
      exact (.of (by decide) : Text.OneLine "prop_val is not None and str(prop_val) == ").append
        (oneLine_asText (h value List.mem_cons_self))
  | urlContains value =>
      exact (oneLine_asText (h value List.mem_cons_self)).append (.of (by decide))
  | urlMatches pattern =>
      exact .around (by decide) (Text.oneLine_quote pattern) (by decide)
  | networkStatus route status => exact (.of (by decide) : Text.OneLine "True")

/-- A value that is looked up, with another one in its place if that fails. -/
theorem code_lookup {found fallback : String} (hfound : IsStart found)
    (hfoundCode : isCode found = true) (hfallback : IsStart fallback)
    (hfallbackCode : isCode fallback = true) :
    Code [line "try:", below 1 found, line "except Exception:", below 1 fallback] :=
  Code.attempt [line found] "except Exception:" [line fallback] (.cons hfound hfoundCode .nil)
    (by decide) (by decide) (.cons hfallback hfallbackCode .nil)

theorem code_preparation (q : Question) : Code (preparation q) := by
  cases q with
  | visible e => exact .cons (.around (by decide) (oneLine_locate e) (by decide)) .nil
  | containsText e value =>
      exact code_lookup (.around (by decide) (oneLine_find e) (by decide))
        (isCode_around (by decide) _ _) (.of (by decide)) (isCode_of (by decide))
  | hasClass e value =>
      exact code_lookup (.around (by decide) (oneLine_find e) (by decide))
        (isCode_around (by decide) _ _) (.of (by decide)) (isCode_of (by decide))
  | propertyEquals e property value =>
      refine code_lookup ?_ ?_ (.of (by decide)) (isCode_of (by decide))
      · refine (IsStart.append ?_ (Text.oneLine_quote property)).append (.of (by decide))
        exact .around (by decide) (oneLine_find e) (by decide)
      · exact isCode_append (isCode_append (isCode_around (by decide) _ _) _) _
  | urlContains value => exact .nil
  | urlMatches pattern => exact .nil
  | networkStatus route status => exact code_note _

theorem head?_inquiry_ne (c : Check) (element : Option Element) :
    (inquiry c element).2.toList.head? ≠ some 'n' := by
  unfold inquiry
  split
  · exact (by decide : "True".toList.head? ≠ some 'n')
  · exact head?_guard_ne _

theorem code_inquiry (c : Check) (element : Option Element) : Code (inquiry c element).1 := by
  unfold inquiry
  split
  · exact code_note _
  · exact code_preparation _

theorem oneLine_inquiry {c : Check} {element : Option Element}
    (h : ∀ raw ∈ c.translated element, Text.OneLineSource raw) :
    Text.OneLine (inquiry c element).2 := by
  unfold inquiry
  split
  · exact (.of (by decide) : Text.OneLine "True")
  · rename_i q hq
    exact oneLine_guard (by simpa only [Check.translated, hq] using h)

/-- An arm that leads nowhere is not empty. -/
theorem exists_arm (c : Check) (element : Option Element) {s : Script}
    (h : Code (s.lines .selenium)) :
    ∃ ls, (fork c element).arm s (s.lines .selenium) = shift 1 ls ∧ Code ls := by
  cases s with
  | stop => exact ⟨[line "pass"], rfl, .cons (.of (by decide)) .nil⟩
  | _ => exact ⟨_, rfl, h⟩

theorem code_branch {site : Site} {c : Check} {yes no : Script}
    (h : ∀ raw ∈ Step.translated site (.branch c), Text.OneLineSource raw)
    (hyes : Code (yes.lines .selenium)) (hno : Code (no.lines .selenium)) :
    Code ((Script.branch site c yes no).lines .selenium) := by
  obtain ⟨yesLines, hyesArm, hyes⟩ := exists_arm c site.element hyes
  obtain ⟨noLines, hnoArm, hno⟩ := exists_arm c site.element hno
  have htest : Text.OneLine (inquiry c site.element).2 := oneLine_inquiry h
  have hbefore : Code (line (log "log_info" s!"Condition Check: {c.condition.label}...") ::
      (inquiry c site.element).1) :=
    .cons (isStart_log (by decide) _) (code_inquiry c site.element)
  have hfork := Code.fork s!"if {(inquiry c site.element).2}:"
    (line (log "log_info" ">> Condition matched (TRUE)") :: yesLines)
    (line (log "log_info" ">> Condition failed (FALSE)") :: noLines)
    (isFork_around (head?_inquiry_ne c site.element))
    (.around (by decide) htest (by decide))
    (.cons (isStart_log (by decide) _) (isCode_log (by decide) _) hyes)
    (.cons (isStart_log (by decide) _) (isCode_log (by decide) _) hno)
  have hcode := ((code_notes (Target.selenium.branchProblems site c)).append hbefore).append hfork
  unfold Script.lines
  simp only [Target.fork, hyesArm, hnoArm]
  simpa [fork] using hcode

/-! ### Loops -/

theorem code_countLoop {count : String} {body : List Line} (hcount : Text.OneLine count)
    (hbody : Code body) : Code (countLoop count ++ shift 1 body) := by
  have hannounce : Text.OneLine (Python.interpolate
      [.text "Starting Loop (", .expr count, .text " iterations)"]) := by
    apply oneLine_interpolate
    intro e he
    obtain rfl : e = count := by simpa using he
    exact hcount
  refine .cons (.around (by decide) hannounce (by decide)) ?_
  refine Code.nest _ (line "log_info(f\"--- Loop Iteration \x7bi + 1\x7d ---\")" :: body) ?_ ?_ ?_
  · exact isNest_of_opens (by decide : "for " ∈ _) (opens_around _ (by decide) (by decide))
  · exact .around (by decide) hcount (by decide)
  · exact .cons (.of (by decide)) (by decide) hbody

theorem code_watchLoop (e : Element) {body : List Line} (hbody : Code body) :
    Code (watchLoop e ++ shift 1 body) := by
  have hbreak : Body [line "break"] := .cons (.of (by decide)) (by decide) .nil
  have htest : Body [line s!"if not {find e}.is_displayed():", below 1 "break"] := by
    refine ⟨Code.nest _ [line "break"] ?_ ?_ hbreak, _, List.mem_cons_self, ?_⟩
    · exact isNest_of_opens (by decide : "if not " ∈ _) (opens_around _ (by decide) (by decide))
    · exact .around (by decide) (oneLine_find e) (by decide)
    · exact isCode_around (by decide) _ _
  have hwatch := Code.attempt _ "except Exception:" _ htest (by decide) (by decide) hbreak
  refine .cons (isStart_log (by decide) _) ?_
  refine Code.nest "while True:" ([line "try:", below 1 s!"if not {find e}.is_displayed():",
    below 2 "break", line "except Exception:", below 1 "break"] ++ body) (by decide) (by decide) ?_
  exact ⟨Code.append hwatch hbody, _, List.mem_cons_self, by decide⟩

theorem code_loop {site : Site} {l : Loop} {body next : Script}
    (h : ∀ raw ∈ Step.translated site (.loop l), Text.OneLineSource raw)
    (hskipped : l.isWired site.element = false → body = .stop)
    (hbody : Code (body.lines .selenium)) (hnext : Code (next.lines .selenium)) :
    Code ((Script.loop site l body next).lines .selenium) := by
  have hrounds : Code ((rounds l site.element).opening ++ shift 1 (body.lines .selenium)) := by
    have hcounted : l.mode ≠ .whileVisible → Text.OneLine (translate l.count) := by
      intro hmode
      exact oneLine_translate (h l.count (by simp [Step.translated, hmode]))
    unfold rounds
    cases hmode : l.mode with
    | counter => exact code_countLoop (hcounted (by simp [hmode])) hbody
    | unknown raw => exact code_countLoop (hcounted (by simp [hmode])) hbody
    | whileVisible =>
        cases helement : site.element with
        | some e => exact code_watchLoop e hbody
        | none =>
            -- There is nothing to watch, and a body would have no header above it.
            rw [hskipped (by simp [Loop.isWired, hmode, helement])]
            exact code_note _
  have hclosing : Code (line (log "log_info" "Loop Finished") :: next.lines .selenium) :=
    .cons (isStart_log (by decide) _) hnext
  have hcode := ((code_notes (Target.loopProblems site l)).append hrounds).append hclosing
  unfold Script.lines
  simpa [Target.rounds, rounds] using hcode

end Selenium

/-! ### Flows -/

theorem Text.isBlank_of_head?_trimChars {cs : List Char} {c : Char}
    (h : (trimChars cs).head? = some c) : isBlank c = false := by
  have hprefix : trimChars cs <+: cs.dropWhile isBlank := by
    unfold trimChars dropBlankEnd
    conv_rhs => rw [← List.reverse_reverse (cs.dropWhile isBlank)]
    exact List.reverse_prefix.mpr (List.dropWhile_suffix _)
  obtain ⟨rest, hrest⟩ := hprefix
  have hhead : (cs.dropWhile isBlank).head? = some c := by
    rw [← hrest, List.head?_append, h, Option.some_or]
  have hnot := List.head?_dropWhile_not isBlank cs
  rw [hhead] at hnot
  exact hnot

/-- The name of a routine does not start with a blank. -/
theorem Node.flush_of_routine? {n : Node} {name : String} (h : n.step.routine? = some name)
    {c : Char} (hc : name.toList.head? = some c) : Text.isBlank c = false := by
  cases hkind : n.kind with
  | customCall =>
      have hname : (n.data.text? "commandName").map Text.trim = some name := by
        simpa only [Node.step, Step.ofData, hkind, Step.routine?, Command.ofData] using h
      obtain ⟨raw, -, rfl⟩ := Option.map_eq_some_iff.mp hname
      rw [Text.toList_trim] at hc
      exact Text.isBlank_of_head?_trimChars hc
  | _ => simp [Node.step, Step.ofData, hkind, Step.routine?] at h

namespace Flow

/-- The field texts that become expressions in a script from a root. -/
def translated (g : Flow) (root : Node) : List String :=
  root.step.translated ⟨root.id, true, g.elementOf root.id⟩ ++
    g.nodes.flatMap fun n => n.step.translated ⟨n.id, false, g.elementOf n.id⟩

/-- The names of the routines that a script from a root can call. -/
def routines (g : Flow) (root : Node) : List String :=
  (root :: g.nodes).filterMap (·.step.routine?)

/-- A node that brings no line feed into the code. -/
structure OneLine (g : Flow) (n : Node) (isRoot : Bool) : Prop where
  translated : ∀ raw ∈ n.step.translated ⟨n.id, isRoot, g.elementOf n.id⟩, Text.OneLineSource raw
  routine : ∀ name ∈ n.step.routine?, Text.OneLine name

theorem code_target {g : Flow} (id : String) (outlet : Outlet) {f : Node → Script}
    (h : ∀ n ∈ g.nodes, Python.Code ((f n).lines .selenium)) :
    Python.Code (((g.target? id outlet).elim .stop f).lines .selenium) := by
  cases htarget : g.target? id outlet with
  | none => exact .nil
  | some n => exact h n (mem_of_target? htarget)

/-- **A walk writes code**, whatever it meets and wherever it is cut. -/
theorem code_walk {g : Flow} (hnodes : ∀ n ∈ g.nodes, g.OneLine n false) (ids : List String)
    (node : Node) (scope : Scope) (isRoot : Bool) (h : g.OneLine node isRoot) :
    Python.Code ((g.walk ids node scope isRoot).lines .selenium) := by
  fun_induction Flow.walk g ids node scope isRoot with
  | case1 node scope isRoot hopen inner site a hstep ih =>
      have hnext := code_target node.id .flow fun n hn => ih n (hnodes n hn)
      have haction : Python.Code (Selenium.action site a) := by
        refine Selenium.code_action (hstep ▸ h.translated) (hstep ▸ h.routine) ?_
        intro name hname c hc
        exact Node.flush_of_routine? (hstep ▸ hname) hc
      exact ((Selenium.code_notes _).append haction).append hnext
  | case2 node scope isRoot hopen inner site c hstep ih =>
      have hyes := code_target node.id .whenTrue fun n hn => ih n (hnodes n hn)
      have hno := code_target node.id .whenFalse fun n hn => ih n (hnodes n hn)
      exact Selenium.code_branch (hstep ▸ h.translated) hyes hno
  | case3 node scope isRoot hopen inner site l hstep ihbody ihdone =>
      have hbody := code_target node.id .body fun n hn => ihbody n (hnodes n hn)
      have hdone := code_target node.id .done fun n hn => ihdone n (hnodes n hn)
      by_cases hwired : l.isWired site.element = true
      · rw [if_pos hwired]
        exact Selenium.code_loop (hstep ▸ h.translated)
          (fun hskipped => absurd hwired (by simp [hskipped])) hbody hdone
      · rw [if_neg hwired]
        exact Selenium.code_loop (hstep ▸ h.translated) (fun _ => rfl) .nil hdone
  | case4 node scope isRoot hclosed =>
      exact .cons (Selenium.isStart_comment _) .nil

end Flow

/-- **The code of a case is a block of Python**, at any level, if no routine is called by a
name with a line feed and no text that starts with an equals sign has one.  The only tests
without an `else:` are those that end a loop; the test of a branch is none of them. -/
theorem selenium_text_is_block (g : Flow) (root : Node) (level : Nat)
    (hroutines : ∀ name ∈ g.routines root, Text.OneLine name)
    (htranslated : ∀ raw ∈ g.translated root, Text.OneLineSource raw) :
    (∃ ls : List String,
      (g.script root).text .selenium level = String.join (ls.map (· ++ "\n")) ∧
      (∀ l ∈ ls, Text.OneLine l) ∧ Python.Block level ls) ∧
    ∀ (c : Check) (element : Option Element),
      line s!"if {(Selenium.inquiry c element).2}:" ∈ (Selenium.fork c element).opening ∧
      Python.isFork s!"if {(Selenium.inquiry c element).2}:" = true := by
  have hroot : g.OneLine root true := by
    refine ⟨fun raw hraw => htranslated raw (List.mem_append_left _ hraw), ?_⟩
    intro name hname
    exact hroutines name (List.mem_filterMap.mpr ⟨root, List.mem_cons_self, hname⟩)
  have hnodes : ∀ n ∈ g.nodes, g.OneLine n false := by
    intro n hn
    refine ⟨fun raw hraw => htranslated raw (List.mem_append_right _ ?_), ?_⟩
    · exact List.mem_flatMap.mpr ⟨n, hn, hraw⟩
    · intro name hname
      exact hroutines name (List.mem_filterMap.mpr ⟨n, List.mem_cons_of_mem _ hn, hname⟩)
  have hcode := Flow.code_walk hnodes (root.id :: g.ids) root {} true hroot
  refine ⟨⟨_, hcode.renderAll_eq level, hcode.oneLine_indented level, hcode.block level⟩, ?_⟩
  intro c element
  refine ⟨by simp [Selenium.fork], ?_⟩
  exact Python.isFork_around (Selenium.head?_inquiry_ne c element)

/-- A loop that watches an element and holds a branch; one arm is empty, the other calls a
routine with the name of a header and leads back. -/
def watchedFlow : Flow where
  nodes := [⟨"start", .entry, [("url", .string "= base +\t\"/\"")]⟩,
    ⟨"button", .element, []⟩, ⟨"watch", .loop, [("loopType", .string "while")]⟩,
    ⟨"ask", .branch, [("condition", .string "urlContains"), ("value", .string "a\nb")]⟩,
    ⟨"call", .customCall, [("commandName", .string " else: "), ("arguments", .string "=x, y")]⟩,
    ⟨"load", .loadFixture, []⟩]
  edges := [.flow "e1" "start" "watch", .data "e2" "button" "watch",
    .via "e3" "watch" .body "ask", .via "e4" "ask" .whenTrue "call",
    .flow "e5" "call" "watch", .via "e6" "watch" .done "load"]

theorem watchedFlow_is_block :
    ∃ root ∈ watchedFlow.nodes,
      watchedFlow.routines root = ["else:"] ∧
      watchedFlow.translated root = ["= base +\t\"/\"", "a\nb", "=x", "y", "data.json"] ∧
      ∃ ls : List String,
        (watchedFlow.script root).text .selenium 3 = String.join (ls.map (· ++ "\n")) ∧
        (∀ l ∈ ls, Text.OneLine l) ∧ Python.Block 3 ls := by
  refine ⟨⟨"start", .entry, [("url", .string "= base +\t\"/\"")]⟩, List.mem_cons_self,
    by decide +kernel, by decide +kernel, ?_⟩
  exact (selenium_text_is_block watchedFlow _ 3 (by decide +kernel) (by decide +kernel)).1

end FlowSuite

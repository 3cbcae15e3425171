/-
The file of a Cypress suite is balanced, whatever the flow.

A file with one bracket too few does not run at all, and openers and closers are written
by different lines, often with a whole walk between them.  So each action is shown to close
what it opens, and each branch and each loop to put its inner lines between an opener and
its closer, at whatever depth; `Flow.closed_walk` follows the walk and puts them together,
and the frame of the file goes around the cases in the same way.

Two things are asked of the flow: the source behind an equals sign stands in the code as
it is, and so does the name of a routine.

Main statement: `cypress_source_is_balanced`.
-/
import FlowSuite.Proofs.Brackets.Expression
import FlowSuite.Proofs.FileNames
import FlowSuite.Proofs.Indentation.Selenium

namespace FlowSuite

open JavaScript

/-! ### What stands in the code as it is given -/

/-- The status that a check expects.  It becomes an expression in Cypress only. -/
def Check.statuses (c : Check) : List String :=
  if c.condition = .networkStatus then [c.expectedStatus] else []

/-- The field texts of a step that are statuses of responses. -/
def Step.statuses : Step → List String
  | .action (.assertion a) => a.check.statuses
  | .action (.intercept i) => i.mock.toList.map (·.status)
  | .branch c => c.statuses
  | _ => []

/-- A character that the name of a routine is made of: a letter, a digit, an underscore or a
dot.  Beyond ASCII nothing means anything to a scanner. -/
def Text.isNameChar (c : Char) : Bool :=
  c.isAlphanum || c == '_' || c == '.' || 128 ≤ c.toNat

namespace Cypress

/-- What is open in a function that is passed to a call. -/
def callback : List Bracket :=
  [.curly, .round]

/-! ### Actions -/

/-- A call with a function of one line. -/
theorem linesClosed_callback {head inner : String} {ls : List Line}
    (hhead : Turns [] callback head) (hinner : Closed inner) (hrest : LinesClosed ls) :
    LinesClosed (line head :: below 1 inner :: line "\x7d);" :: ls) :=
  .cons hhead (.closed hinner (.cons (.of rfl) hrest))

theorem closed_log (text : String) : Closed (log text).text :=
  (closed_quote text).within (b := [.round]) rfl rfl

theorem linesClosed_note (text : String) : LinesClosed [note text] :=
  .comment text .nil

theorem linesClosed_notes (problems : List Problem) :
    LinesClosed (Target.cypress.notes problems) := by
  unfold Target.notes
  induction problems.filterMap Problem.note? with
  | nil => exact .nil
  | cons text rest ih => exact .comment text ih

theorem linesClosed_session {site : Site} {s : Session}
    (h : ∀ raw ∈ Step.translated site (.action (.session s)), Text.IsValue raw) :
    LinesClosed (session site s) := by
  unfold session
  by_cases hroot : site.isRoot = true
  · have hurl : Closed (translate s.url) :=
      closed_translate (h s.url (by simp [Step.translated, hroot]))
    simp only [hroot, if_true]
    refine (((LinesClosed.append ?_ ?_).append ?_).append ?_).append ?_
    · exact .closed (closed_log _) .nil
    · exact .ite _ (.closed (.of rfl) .nil)
    · exact .ite _ (.closed (.of rfl) .nil)
    · exact .closed (hurl.within (b := [.round]) rfl rfl) .nil
    · exact .ite _ (linesClosed_callback (.of rfl) (.of rfl) .nil)
  · simp only [hroot]
    exact linesClosed_note _

theorem linesClosed_gesture {i : Interaction} {e : Element}
    (h : i.gesture = .type → Text.IsValue i.value) : LinesClosed (gesture i e) := by
  have hquery := closed_query e
  unfold gesture
  cases hgesture : i.gesture with
  | click => exact .closed (hquery.append (.of rfl)) .nil
  | type =>
      have hvalue : Closed (asText i.value) := closed_asText (h hgesture)
      have hcall : Turns [] [.round] (query e ++ ".type(") := hquery.append (.of rfl)
      exact .closed ((hcall.hole hvalue).append (.of rfl)) .nil
  | clear => exact .closed (hquery.append (.of rfl)) .nil
  | hover => exact .closed (hquery.append (.of rfl)) .nil
  | captureText =>
      cases i.saveTo with
      | none => exact linesClosed_note _
      | some name =>
          refine linesClosed_callback (hquery.append (.of rfl)) ?_ .nil
          exact (closed_quote name).within (b := [.round]) rfl rfl
  | unknown key => exact .closed (closed_log _) .nil

theorem linesClosed_interact {site : Site} {i : Interaction}
    (h : ∀ raw ∈ Step.translated site (.action (.interact i)), Text.IsValue raw) :
    LinesClosed (interact i site.element) := by
  cases helement : site.element with
  | none => exact .comment _ (.closed (closed_log _) .nil)
  | some e =>
      refine .closed (closed_log _) (linesClosed_gesture ?_)
      intro htype
      exact h i.value (by simp [Step.translated, htype, helement])

/-- The field texts of a check's question are values, if those of the check are. -/
theorem isValue_of_question {c : Check} {element : Option Element} {q : Question}
    (h : ∀ raw ∈ c.translated element, Text.IsValue raw)
    (hstatus : ∀ raw ∈ c.statuses, Text.IsValue raw) (hq : c.question element = .ok q) :
    (∀ raw ∈ q.translated, Text.IsValue raw) ∧
      ∀ route status, q = .networkStatus route status → Text.IsValue status := by
  refine ⟨by simpa only [Check.translated, hq] using h, ?_⟩
  rintro route status rfl
  unfold Check.question at hq
  split at hq <;> cases hq
  rename_i hcondition
  exact hstatus c.expectedStatus (by simp [Check.statuses, hcondition])

theorem closed_subject (q : Question) : Closed (subject q) := by
  cases q with
  | visible e => exact closed_query e
  | containsText e value => exact closed_query e
  | hasClass e value => exact closed_query e
  | propertyEquals e property value => exact closed_query e
  | urlContains value => exact .of rfl
  | urlMatches pattern => exact .of rfl
  | networkStatus route status => exact closed_await route

theorem closed_parameter (q : Question) : Closed (parameter q) := by
  cases q <;> exact .of rfl

theorem closed_inspect (e : Element) {test : String} (h : Closed test) :
    Closed (inspect e test) := by
  have hlook : Turns [] callback
      s!"cy.get(\"body\").then(($body) => \x7b\n    const $el = {look e};\n    return " :=
    (closed_look e).within (b := callback) rfl rfl
  exact (hlook.hole h).append (.of rfl)

section

variable {q : Question} (h : ∀ raw ∈ q.translated, Text.IsValue raw)
  (hstatus : ∀ route status, q = .networkStatus route status → Text.IsValue status)
include h hstatus

theorem closed_expectation : Closed (expectation q) := by
  cases q with
  | visible e => exact .of rfl
  | containsText e value =>
      exact (closed_asText (h value List.mem_cons_self)).within (b := [.round]) rfl rfl
  | hasClass e value =>
      exact (closed_asText (h value List.mem_cons_self)).within (b := [.round]) rfl rfl
  | propertyEquals e property value =>
      have hproperty : Turns [] [.round]
          s!"expect(String($el.prop({Text.quote property}))).to.equal(" :=
        (closed_quote property).within (b := [.round, .round, .round]) rfl rfl
      exact (hproperty.hole (closed_asText (h value List.mem_cons_self))).append (.of rfl)
  | urlContains value =>
      exact (closed_asText (h value List.mem_cons_self)).within (b := [.round]) rfl rfl
  | urlMatches pattern =>
      exact (closed_quote pattern).within (b := [.round, .round]) rfl rfl
  | networkStatus route status =>
      exact (closed_translate (hstatus route status rfl)).within (b := [.round, .round])
        rfl rfl

theorem closed_answer : Closed (answer q) := by
  cases q with
  | visible e => exact closed_inspect e (.of rfl)
  | containsText e value =>
      refine closed_inspect e ?_
      exact (closed_asText (h value List.mem_cons_self)).within (b := [.round]) rfl rfl
  | hasClass e value =>
      refine closed_inspect e ?_
      exact (closed_asText (h value List.mem_cons_self)).within (b := [.round]) rfl rfl
  | propertyEquals e property value =>
      have hproperty : Closed
          s!"$el.length > 0 && String($el.prop({Text.quote property})) === " :=
        (closed_quote property).within (b := [.round, .round]) rfl rfl
      exact closed_inspect e (hproperty.hole (closed_asText (h value List.mem_cons_self)))
  | urlContains value =>
      exact (closed_asText (h value List.mem_cons_self)).within (b := [.round, .round])
        rfl rfl
  | urlMatches pattern =>
      exact (closed_quote pattern).within (b := [.round, .round]) rfl rfl
  | networkStatus route status =>
      have hawait : Turns [] [.round] s!"{await route}.then((interception) => " :=
        (closed_await route).append (.of rfl)
      have hresponse : Turns [] [.round] (s!"{await route}.then((interception) => " ++
          "interception.response !== undefined && ") :=
        hawait.append (.of rfl)
      refine hresponse.append ?_
      exact (closed_translate (hstatus route status rfl)).within (b := [.round, .round])
        rfl rfl

end

theorem linesClosed_assertion {site : Site} {a : Assertion}
    (h : ∀ raw ∈ a.check.translated site.element, Text.IsValue raw)
    (hstatus : ∀ raw ∈ a.check.statuses, Text.IsValue raw) :
    LinesClosed (assertion a site.element) := by
  unfold assertion
  split
  · exact linesClosed_note _
  · rename_i q hq
    obtain ⟨htranslated, hstatuses⟩ := isValue_of_question h hstatus hq
    have hverbose : Closed (if a.verbose then "true" else "false") := by
      split <;> exact .of rfl
    refine .closed (closed_log _) (linesClosed_callback ?_ ?_ LinesTurn.nil)
    · exact ((((closed_subject q).append (.of (b := [.round, .round]) rfl)).hole
        (closed_parameter q)).append (.of rfl))
    · have hmessage : Turns [] [.round] s!"checked({Text.quote q.message}, " :=
        (closed_quote q.message).within (b := [.round]) rfl rfl
      exact ((((hmessage.hole hverbose).append (.of (b := [.round]) rfl)).hole
        (closed_expectation htranslated hstatuses)).append (.of rfl))

theorem linesClosed_sleep {duration : String} (h : Text.IsValue duration) :
    LinesClosed (sleep duration) := by
  have hduration : Closed (Target.cypress.expression (Value.classify duration)) :=
    closed_translate h
  unfold sleep
  split
  · rename_i n hnumber
    rw [hnumber] at hduration
    exact .closed (hduration.within (b := [.round]) rfl rfl) .nil
  · exact .closed (hduration.within (b := [.round, .round]) rfl rfl) .nil

theorem linesClosed_pause {site : Site} {p : Pause}
    (h : ∀ raw ∈ Step.translated site (.action (.pause p)), Text.IsValue raw) :
    LinesClosed (pause p) := by
  cases p with
  | time duration => exact linesClosed_sleep (h duration List.mem_cons_self)
  | unknown waitType duration => exact linesClosed_sleep (h duration List.mem_cons_self)
  | network route => exact .closed ((closed_await route).append (.of rfl)) .nil

theorem linesClosed_screenshot (s : Screenshot) : LinesClosed (screenshot s) := by
  unfold screenshot
  split
  · have hpath : Closed (JavaScript.interpolate
        [.text s!"{picture s}_", .expr "screenshotCounter"]) := by
      refine closed_interpolate (.cons_cons (Or.inr rfl) (.singleton _)) ?_
      intro e he
      obtain rfl : e = "screenshotCounter" := by simpa using he
      exact .of rfl
    refine .closed (.of rfl) (.closed ?_ .nil)
    exact hpath.within (b := [.round]) rfl rfl
  · exact .closed ((closed_quote _).within (b := [.round]) rfl rfl) .nil

/-- What puts a value into the store. -/
theorem closed_store (name : String) {value : String} (h : Closed value) :
    Closed s!"Cypress.env({Text.quote name}, {value});" := by
  have hname : Turns [] [.round] s!"Cypress.env({Text.quote name}, " :=
    (closed_quote name).within (b := [.round]) rfl rfl
  exact (hname.hole h).append (.of rfl)

theorem linesClosed_assign {a : Assignment} (h : Text.IsValue a.value) :
    LinesClosed (assign a) :=
  linesClosed_callback (.of rfl) (closed_store a.name (closed_translate h)) LinesTurn.nil

theorem linesClosed_intercept {i : Interception}
    (h : ∀ raw ∈ i.mock.toList.map (·.status), Text.IsValue raw) : LinesClosed (intercept i) := by
  have hmethod : Turns [] [.round] s!"cy.intercept({Text.quote i.method}, " :=
    (closed_quote i.method).within (b := [.round]) rfl rfl
  have hpattern := hmethod.hole (closed_quote i.urlPattern)
  unfold intercept
  dsimp only
  split
  · rename_i mock hmock
    have hstatus : Closed (translate mock.status) :=
      closed_translate (h mock.status (by simp [hmock]))
    refine .cons (hpattern.append (.of (b := callback) rfl)) ?_
    refine .closed (hstatus.within (b := [.round]) rfl rfl) ?_
    refine .closed (mock.closed_json.within (b := []) rfl rfl) ?_
    exact .cons ((closed_quote i.route).within (b := [.round]) rfl rfl) .nil
  · exact .closed (((hpattern.append (.of (b := [.round]) rfl)).hole
      (closed_quote i.route)).append (.of rfl)) .nil

theorem linesClosed_fixture {f : Fixture} (h : Text.IsValue f.path) : LinesClosed (fixture f) := by
  refine linesClosed_callback ?_ ?_ (.closed (closed_log _) .nil)
  · exact (closed_translate h).within (b := [.round]) rfl rfl
  · exact (closed_quote f.name).within (b := [.round]) rfl rfl

theorem linesClosed_command {c : Command}
    (hname : ∀ name ∈ c.name, ∀ d ∈ name.toList, Text.isNameChar d = true)
    (harguments : ∀ raw ∈ c.arguments, Text.IsValue raw) : LinesClosed (command c) := by
  have hgiven : Closed (c.name.getD "myCommand") := by
    cases hc : c.name with
    | none => exact .of rfl
    | some name => exact closed_of_all rfl (hname name hc)
  have hlist : Closed (", ".intercalate (c.arguments.map translate)) := by
    refine closed_intercalate (.of rfl) ?_
    intro s hs
    obtain ⟨raw, hraw, rfl⟩ := List.mem_map.mp hs
    exact closed_translate (harguments raw hraw)
  have hcall : Turns [] [.round] ("cy." ++ c.name.getD "myCommand" ++ "(") :=
    hgiven.within (b := []) rfl rfl
  exact .closed ((hcall.hole hlist).append (.of rfl)) .nil

theorem linesClosed_action {site : Site} {a : Action}
    (h : ∀ raw ∈ Step.translated site (.action a), Text.IsValue raw)
    (hstatus : ∀ raw ∈ (Step.action a).statuses, Text.IsValue raw)
    (hname : ∀ name ∈ (Step.action a).routine?, ∀ c ∈ name.toList, Text.isNameChar c = true) :
    LinesClosed (action site a) := by
  cases a with
  | session s => exact linesClosed_session h
  | element e => exact LinesTurn.nil
  | interact i => exact linesClosed_interact h
  | assertion a => exact linesClosed_assertion h hstatus
  | pause p => exact linesClosed_pause h
  | screenshot s => exact linesClosed_screenshot s
  | assign a => exact linesClosed_assign (h a.value List.mem_cons_self)
  | intercept i => exact linesClosed_intercept hstatus
  | fixture f => exact linesClosed_fixture (h f.path List.mem_cons_self)
  | command c => exact linesClosed_command hname h

/-! ### Branches -/

theorem linesClosed_inquiry (c : Check) (element : Option Element) :
    LinesClosed (inquiry c element).1 := by
  unfold inquiry
  split
  · exact linesClosed_note _
  · exact LinesTurn.nil

theorem closed_inquiry {c : Check} {element : Option Element}
    (h : ∀ raw ∈ c.translated element, Text.IsValue raw)
    (hstatus : ∀ raw ∈ c.statuses, Text.IsValue raw) : Closed (inquiry c element).2 := by
  unfold inquiry
  split
  · exact .of rfl
  · rename_i q hq
    obtain ⟨htranslated, hstatuses⟩ := isValue_of_question h hstatus hq
    exact closed_answer htranslated hstatuses

theorem linesClosed_arm (f : Fork) (hidle : Closed f.idle) {s : Script}
    (h : LinesClosed (s.lines .cypress)) : LinesClosed (f.arm s (s.lines .cypress)) := by
  cases s with
  | stop => exact .closed hidle .nil
  | _ => exact h.shift f.depth

theorem linesClosed_branch {site : Site} {c : Check} {yes no : Script}
    (h : ∀ raw ∈ Step.translated site (.branch c), Text.IsValue raw)
    (hstatus : ∀ raw ∈ (Step.branch c).statuses, Text.IsValue raw)
    (hyes : LinesClosed (yes.lines .cypress)) (hno : LinesClosed (no.lines .cypress)) :
    LinesClosed ((Script.branch site c yes no).lines .cypress) := by
  let f := fork c site.element
  have hopening : LinesTurn [] (.curly :: callback) f.opening := by
    refine .comment _ (LinesTurn.append (linesClosed_inquiry c site.element) ?_)
    have hchain := closed_inquiry h hstatus
    refine .cons (hchain.append (.of (b := callback) rfl)) ?_
    exact .cons (.of rfl) .nil
  have hbetween : LinesTurn (.curly :: callback) (.curly :: callback) f.between :=
    .cons (.of rfl) .nil
  have hclosing : LinesTurn (.curly :: callback) [] f.closing :=
    .cons (.of (b := callback) rfl) (.cons (.of rfl) .nil)
  have hyesArm := (linesClosed_arm f (.of rfl) hyes).turns (.curly :: callback)
  have hnoArm := (linesClosed_arm f (.of rfl) hno).turns (.curly :: callback)
  have hnotes := linesClosed_notes (Target.cypress.branchProblems site c)
  exact (((((LinesTurn.append hnotes hopening).append hyesArm).append hbetween).append
    hnoArm).append hclosing)

/-! ### Loops -/

/-- Whatever the brackets are that the opening opens, the closing closes them. -/
def IsFrame (r : Rounds) : Prop :=
  ∃ inside, LinesTurn [] inside r.opening ∧ LinesTurn inside [] r.closing

theorem isFrame_countLoop {count : String} (h : Closed count) : IsFrame (countLoop count) := by
  have hannounce : Closed (JavaScript.interpolate
      [.text "Starting Loop (", .expr count, .text " iterations)"]) := by
    refine closed_interpolate
      (.cons_cons (Or.inr rfl) (.cons_cons (Or.inl rfl) (.singleton _))) ?_
    intro e he
    obtain rfl : e = count := by simpa using he
    exact h
  refine ⟨callback, ?_, .cons (.of rfl) .nil⟩
  refine .closed (hannounce.within (b := [.round]) rfl rfl) ?_
  refine .cons (h.within (b := [.round, .round]) (c := callback) rfl rfl) ?_
  exact .closed (.of rfl) .nil

/-- The name of a poll has letters, digits and underscores only. -/
theorem closed_pollName (id : String) : Closed (pollName id) := by
  have hsnake : Closed (Text.snake id) := by
    refine closed_intercalate (.of rfl) ?_
    intro word hword
    obtain ⟨w, hw, rfl⟩ := List.mem_map.mp hword
    refine closed_of_all (p := Char.isAlphanum) rfl ?_
    rw [String.toList_ofList]
    exact (Text.isWord_map_toLower hw).isAlphanum
  unfold pollName
  dsimp only
  split
  · exact .of rfl
  · exact Turns.hole (.of rfl) hsnake

theorem isFrame_watchLoop (id : String) (e : Element) : IsFrame (watchLoop id e) := by
  have hpoll := closed_pollName id
  have hcall : Closed (pollName id ++ "();") := hpoll.append (.of rfl)
  refine ⟨callback ++ [.curly], ?_, ?_⟩
  · refine .closed (closed_log _) ?_
    refine .cons (hpoll.within (b := []) (c := [.curly]) rfl rfl) ?_
    refine .cons (.of (b := callback ++ [.curly]) rfl) ?_
    refine .closed (.of rfl) ?_
    refine .cons (.of (b := .curly :: callback ++ [.curly]) rfl) ?_
    refine .closed ((closed_look e).within (b := []) rfl rfl) ?_
    refine .closed (.of rfl) ?_
    refine .cons (.of (b := .curly :: callback ++ [.curly]) rfl) ?_
    refine .closed (.of rfl) ?_
    refine .cons (.of (b := callback ++ [.curly]) rfl) ?_
    refine .cons (.of (b := .curly :: callback ++ [.curly]) rfl) ?_
    refine .closed (.of rfl) ?_
    exact .cons (.of rfl) .nil
  · refine .closed hcall ?_
    refine .cons (.of (b := [.curly]) rfl) ?_
    refine .cons (.of (b := []) rfl) ?_
    exact .closed hcall .nil

theorem isFrame_rounds {site : Site} {l : Loop}
    (h : ∀ raw ∈ Step.translated site (.loop l), Text.IsValue raw) :
    IsFrame (rounds site.id l site.element) := by
  have hfinished : ∀ r : Rounds, IsFrame r →
      IsFrame { r with closing := r.closing ++ [log "Loop Finished"] } := by
    rintro r ⟨inside, hopening, hclosing⟩
    exact ⟨inside, hopening, hclosing.append (.closed (closed_log _) .nil)⟩
  have hcounted : l.mode ≠ .whileVisible → Closed (translate l.count) := by
    intro hmode
    exact closed_translate (h l.count (by simp [Step.translated, hmode]))
  refine hfinished _ ?_
  cases hmode : l.mode with
  | counter => exact isFrame_countLoop (hcounted (by simp [hmode]))
  | unknown raw => exact isFrame_countLoop (hcounted (by simp [hmode]))
  | whileVisible =>
      cases site.element with
      | some e => exact isFrame_watchLoop site.id e
      | none => exact ⟨[], linesClosed_note _, .nil⟩

theorem linesClosed_loop {site : Site} {l : Loop} {body next : Script}
    (h : ∀ raw ∈ Step.translated site (.loop l), Text.IsValue raw)
    (hbody : LinesClosed (body.lines .cypress)) (hnext : LinesClosed (next.lines .cypress)) :
    LinesClosed ((Script.loop site l body next).lines .cypress) := by
  obtain ⟨inside, hopening, hclosing⟩ := isFrame_rounds h
  have hinner := (hbody.shift (rounds site.id l site.element).depth).turns inside
  have hnotes := linesClosed_notes (Target.loopProblems site l)
  exact (((LinesTurn.append hnotes hopening).append hinner).append hclosing).append hnext

end Cypress

/-! ### Flows -/

namespace Flow

/-- A node that brings no bracket into the code. -/
structure Plain (g : Flow) (n : Node) (isRoot : Bool) : Prop where
  translated : ∀ raw ∈ n.step.translated ⟨n.id, isRoot, g.elementOf n.id⟩, Text.IsValue raw
  statuses : ∀ raw ∈ n.step.statuses, Text.IsValue raw
  routine : ∀ name ∈ n.step.routine?, ∀ c ∈ name.toList, Text.isNameChar c = true

theorem closed_target {g : Flow} (id : String) (outlet : Outlet) {f : Node → Script}
    (h : ∀ n ∈ g.nodes, LinesClosed ((f n).lines .cypress)) :
    LinesClosed (((g.target? id outlet).elim .stop f).lines .cypress) := by
  cases htarget : g.target? id outlet with
  | none => exact LinesTurn.nil
  | some n => exact h n (mem_of_target? htarget)

/-- **A walk closes what it opens**, whatever it meets and wherever it is cut. -/
theorem closed_walk {g : Flow} (hnodes : ∀ n ∈ g.nodes, g.Plain n false) (ids : List String)
    (node : Node) (scope : Scope) (isRoot : Bool) (h : g.Plain node isRoot) :
    LinesClosed ((g.walk ids node scope isRoot).lines .cypress) := by
  fun_induction Flow.walk g ids node scope isRoot with
  | case1 node scope isRoot hopen inner site a hstep ih =>
      have hnext := closed_target node.id .flow fun n hn => ih n (hnodes n hn)
      have haction : LinesClosed (Cypress.action site a) :=
        Cypress.linesClosed_action (hstep ▸ h.translated) (hstep ▸ h.statuses) (hstep ▸ h.routine)
      exact ((Cypress.linesClosed_notes _).append haction).append hnext
  | case2 node scope isRoot hopen inner site c hstep ih =>
      have hyes := closed_target node.id .whenTrue fun n hn => ih n (hnodes n hn)
      have hno := closed_target node.id .whenFalse fun n hn => ih n (hnodes n hn)
      exact Cypress.linesClosed_branch (hstep ▸ h.translated) (hstep ▸ h.statuses) hyes hno
  | case3 node scope isRoot hopen inner site l hstep ihbody ihdone =>
      have hbody := closed_target node.id .body fun n hn => ihbody n (hnodes n hn)
      have hdone := closed_target node.id .done fun n hn => ihdone n (hnodes n hn)
      refine Cypress.linesClosed_loop (hstep ▸ h.translated) ?_ hdone
      split
      · exact hbody
      · exact LinesTurn.nil
  | case4 node scope isRoot hclosed =>
      exact .comment _ .nil

end Flow

/-! ### The frame of a file -/

namespace Cypress

theorem linesClosed_header : LinesClosed header := by
  refine .fixed (b := []) rfl (.fixed (b := []) rfl ?_)
  refine .closed (.of rfl) ?_
  refine .cons (.of (b := [.curly]) rfl) ?_
  refine .cons (.of (b := [.curly, .curly]) rfl) ?_
  refine .closed (.of rfl) ?_
  refine .cons (.of (b := [.curly, .curly, .curly]) rfl) ?_
  refine .closed (.of rfl) ?_
  refine .cons (.of (b := [.curly, .curly]) rfl) ?_
  refine .cons (.of (b := [.curly, .curly]) rfl) ?_
  refine .closed (.of rfl) ?_
  refine .closed (.of rfl) ?_
  refine .cons (.of (b := [.curly]) rfl) ?_
  refine .cons (.of (b := []) rfl) ?_
  exact .closed (.of rfl) .nil

theorem linesTurn_suiteHead (suite : String) : LinesTurn [] callback (suiteHead suite) := by
  have hdescribe := closed_quote suite
  refine .cons (hdescribe.within (b := [.round]) (c := callback) rfl rfl) ?_
  refine .closed (.of rfl) (.closed (.of rfl) (.closed (.of rfl) ?_))
  refine .cons (.of (b := callback ++ callback) rfl) ?_
  refine .closed (.of rfl) ?_
  refine .cons (.of (b := callback) rfl) (.closed (.of rfl) ?_)
  refine .cons (.of (b := callback ++ callback) rfl) ?_
  refine .cons (.of (b := callback ++ callback ++ callback) rfl) ?_
  refine .closed (.of rfl) (.closed (.of rfl) (.closed (.of rfl) ?_))
  refine .cons (.of (b := callback ++ callback) rfl) ?_
  exact .cons (.of rfl) .nil

theorem turns_prologue (suite : String) : Turns [] callback (prologue suite) :=
  (LinesTurn.append linesClosed_header (linesTurn_suiteHead suite)).renderAll 0

/-- A test case closes what it opens, if its steps do. -/
theorem closed_testCase (name : String) {body : String} (h : Closed body) :
    Closed (testCase name body) := by
  refine turns_write (b := callback ++ callback)
    (turns_paste (turns_write (.of (b := []) rfl) ?_) h) ?_
  · refine .closed (.of rfl) ?_
    refine .cons ((closed_quote name).within (b := [.round]) (c := callback) rfl rfl) ?_
    refine .cons (.of (b := callback ++ callback) rfl) ?_
    refine .closed (.of rfl) (.closed (.of rfl) (.closed (.of rfl) ?_))
    refine .cons (.of (b := callback) rfl) (.closed (.of rfl) ?_)
    refine .cons ((closed_quote name).within (b := .round :: callback)
      (c := callback ++ callback) rfl rfl) ?_
    refine .closed ((closed_quote _).within (b := [.round]) rfl rfl) ?_
    exact .closed (.of rfl) .nil
  · refine .cons (.of (b := callback) rfl) ?_
    exact .cons (.of rfl) .nil

theorem turns_epilogue : Turns callback [] epilogue := by
  refine LinesTurn.renderAll ?_ 0
  refine .closed (.of rfl) ?_
  refine .cons (.of (b := callback ++ callback) rfl) ?_
  refine .closed (.of rfl) (.closed (.of rfl) (.closed (.of rfl) ?_))
  refine .closed (.of_append rfl) ?_
  refine .cons (.of (b := callback ++ callback ++ callback) rfl) ?_
  refine .closed (.of_append rfl) ?_
  refine .cons (.of (b := callback ++ callback) rfl) ?_
  refine .cons (.of (b := callback) rfl) ?_
  exact .cons (.of rfl) .nil

end Cypress

/-- A step that starts no test case needs the same field texts as one that does. -/
theorem Step.mem_translated_root {site : Site} {s : Step} {raw : String}
    (h : raw ∈ s.translated site) : raw ∈ s.translated { site with isRoot := true } := by
  cases s with
  | branch c => exact h
  | loop l => exact h
  | action a =>
      cases a with
      | session s =>
          simp only [translated, if_true] at h ⊢
          split at h
          · exact h
          · cases h
      | pause p => cases p <;> exact h
      | _ => exact h

namespace Flow

/-- The field texts that become expressions in a Cypress suite. -/
def expressions (g : Flow) : List String :=
  g.nodes.flatMap fun n =>
    n.step.translated ⟨n.id, true, g.elementOf n.id⟩ ++ n.step.statuses

/-- The names of the routines that a suite calls. -/
def routineNames (g : Flow) : List String :=
  g.nodes.filterMap (·.step.routine?)

theorem plain_of_mem {g : Flow} (hvalues : ∀ raw ∈ g.expressions, Text.IsValue raw)
    (hroutines : ∀ name ∈ g.routineNames, ∀ c ∈ name.toList, Text.isNameChar c = true)
    {n : Node} (hn : n ∈ g.nodes) (isRoot : Bool) : g.Plain n isRoot := by
  refine ⟨?_, ?_, ?_⟩
  · intro raw hraw
    refine hvalues raw (List.mem_flatMap.mpr ⟨n, hn, List.mem_append_left _ ?_⟩)
    exact Step.mem_translated_root hraw
  · intro raw hraw
    exact hvalues raw (List.mem_flatMap.mpr ⟨n, hn, List.mem_append_right _ hraw⟩)
  · intro name hname
    exact hroutines name (List.mem_filterMap.mpr ⟨n, hn, hname⟩)

end Flow

theorem Suite.balanced_source {s : Suite} (htarget : s.target = .cypress)
    (h : ∀ c ∈ s.cases, LinesClosed (c.script.lines .cypress)) : Balanced s.source := by
  have hcases : Closed (String.join (s.cases.map (Case.source s.target))) := by
    refine closed_join ?_
    intro text htext
    obtain ⟨c, hc, rfl⟩ := List.mem_map.mp htext
    rw [htarget]
    exact Cypress.closed_testCase c.name ((h c hc).renderAll Cypress.bodyLevel)
  have hsource := ((Cypress.turns_prologue s.name).hole hcases).append Cypress.turns_epilogue
  rw [source, htarget]
  rw [htarget] at hsource
  exact hsource

/-- **The file of a Cypress suite is balanced**, if no text that becomes an expression starts
with an equals sign and routines are called by names. -/
theorem cypress_source_is_balanced (g : Flow) (name : String)
    (hentry : ∃ n ∈ g.nodes, n.kind = .entry)
    (hvalues : ∀ raw ∈ g.expressions, Text.IsValue raw)
    (hroutines : ∀ routine ∈ g.routineNames, ∀ c ∈ routine.toList, Text.isNameChar c = true) :
    ∃ s : Suite, Project.suite { flow := g, target := .cypress, name := name } = .ok s ∧
      Balanced s.source := by
  obtain ⟨s, hs⟩ : ∃ s, Project.suite ⟨g, .cypress, name⟩ = .ok s :=
    ⟨_, Project.suite_eq_ok (Project.entries_ne_nil hentry)⟩
  have htarget : s.target = .cypress := by rw [Project.eq_of_suite_eq_ok hs]
  have hplain : ∀ n ∈ g.nodes, ∀ isRoot, g.Plain n isRoot :=
    fun n hn isRoot => Flow.plain_of_mem hvalues hroutines hn isRoot
  refine ⟨s, hs, Suite.balanced_source htarget ?_⟩
  intro c hc
  have hscript : c.script ∈ g.entries.map g.script :=
    Project.map_script_eq hs ▸ List.mem_map_of_mem hc
  obtain ⟨root, hroot, hscript⟩ := List.mem_map.mp hscript
  rw [← hscript]
  exact Flow.closed_walk (fun n hn => hplain n hn false) _ root {} true
    (hplain root (List.mem_filter.mp hroot).1 true)

/-- Quotes, brackets and marks of templates in every field: a count that is a template in a
template, a text that ends with a dollar sign before a reference, and JSON. -/
def bracketedFlow : Flow where
  nodes := [⟨"start", .entry,
      [("url", .string "/$\x7ba\x7d(`[\n"), ("testName", .string "\")\x7d")]⟩,
    ⟨"again", .loop, [("count", .string "$$\x7bn\x7d$\x7b")]⟩,
    ⟨"ask", .branch, [("condition", .string "urlContains"), ("value", .string "]\x7d)")]⟩,
    ⟨"mock", .networkRule, [("mockResponse", .bool true),
      ("responseBody", .string "[\x7b\"(\":-1\x7d]")]⟩,
    ⟨"call", .customCall,
      [("commandName", .string "ui.log_in2"), ("arguments", .string "$\x7bb.0\x7d")]⟩]
  edges := [.flow "e1" "start" "again", .via "e2" "again" .body "ask",
    .via "e3" "ask" .whenFalse "mock", .flow "e4" "mock" "call"]

theorem bracketedFlow_is_balanced :
    (∃ n ∈ bracketedFlow.nodes, n.kind = .entry) ∧
      bracketedFlow.expressions
        = ["/$\x7ba\x7d(`[\n", "$$\x7bn\x7d$\x7b", "]\x7d)", "200", "$\x7bb.0\x7d"] ∧
      bracketedFlow.routineNames = ["ui.log_in2"] ∧
      ∃ s : Suite, Project.suite ⟨bracketedFlow, .cypress, "(\""⟩ = .ok s ∧ Balanced s.source := by
  have hentry : ∃ n ∈ bracketedFlow.nodes, n.kind = .entry := ⟨_, List.mem_cons_self, rfl⟩
  have hnames : bracketedFlow.routineNames = ["ui.log_in2"] := by decide +kernel
  refine ⟨hentry, by decide +kernel, hnames, ?_⟩
  refine cypress_source_is_balanced bracketedFlow "(\"" hentry (by decide +kernel) ?_
  intro routine hroutine
  rw [hnames] at hroutine
  obtain rfl := List.mem_singleton.mp hroutine
  exact List.all_eq_true.mp rfl

end FlowSuite

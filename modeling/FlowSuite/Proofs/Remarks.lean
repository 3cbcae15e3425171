/-
Problems in the generated code.

What is wrong with a step is reported, and whoever reads the generated code should find it
there too.  It is left to each place that reports a problem to say so in a comment as well:
some do it in a note above the step, some in the lines that stand in place of the step's
code, and some not at all.  A comment is read off the text here, as a line that starts with
the mark of comments behind its blanks, so nothing is assumed about where it came from.

Lines show remarks if the comments of their text have them, in order.  Lines around them and
a deeper level keep that, so it goes from the lines of one step along the script.  What it
does not hold for is a browser without a driver, an unknown gesture, and anything that a
loop was asked to watch except that its element is visible.
-/
import FlowSuite.Proofs.Indentation.Level

namespace FlowSuite

/-! ### Comments of a text -/

namespace Target

/-- What comments start with. -/
def mark : Target → List Char
  | .selenium => ['#', ' ']
  | .cypress => ['/', '/', ' ']

/-- The comment on a line, without the blanks before it. -/
def comment? (t : Target) (l : List Char) : Option String :=
  let text := l.dropWhile (· == ' ')
  if t.mark.isPrefixOf text then some (String.ofList text) else none

/-- The comments of a text, line by line. -/
def commentsIn (t : Target) (text : String) : List String :=
  (text.toList.splitOn '\n').filterMap t.comment?

theorem toList_comment (t : Target) (text : String) :
    (t.comment text).toList = t.mark ++ (Text.oneLine text).toList := by
  cases t with
  | selenium => exact String.toList_append
  | cypress => exact String.toList_append

theorem oneLine_comment (t : Target) (text : String) : Text.OneLine (t.comment text) := by
  have hmark : '\n' ∉ t.mark := by
    cases t with
    | selenium => decide
    | cypress => decide
  rw [Text.OneLine, toList_comment, List.mem_append, not_or]
  exact ⟨hmark, Text.oneLine_oneLine text⟩

theorem comment?_comment (t : Target) (text : String) :
    t.comment? (t.comment text).toList = some (t.comment text) := by
  have htext : (t.comment text).toList.dropWhile (· == ' ') = (t.comment text).toList := by
    rw [toList_comment]
    cases t with
    | selenium => rfl
    | cypress => rfl
  have hmark : t.mark.isPrefixOf (t.comment text).toList = true := by
    rw [toList_comment, List.isPrefixOf_iff_prefix]
    exact List.prefix_append _ _
  rw [comment?, htext, if_pos hmark, String.ofList_toList]

theorem comment?_indentLine (t : Target) (blanks : Nat) (l : List Char) :
    t.comment? (Text.indentLine blanks l) = t.comment? l := by
  have hblanks : ∀ c ∈ List.replicate blanks ' ', (c == ' ') = true := by
    intro c hc
    rw [List.eq_of_mem_replicate hc]
    rfl
  cases l with
  | nil => rfl
  | cons c cs =>
      show t.comment? (List.replicate blanks ' ' ++ c :: cs) = _
      rw [comment?, List.dropWhile_append_of_pos hblanks, ← comment?]

theorem comment?_nil (t : Target) : t.comment? [] = none := by
  cases t with
  | selenium => rfl
  | cypress => rfl

/-- The comments that a line of code becomes. -/
def commentsOf (t : Target) (l : Line) : List String :=
  (Text.splitLines l.text.toList).filterMap t.comment?

theorem filterMap_inFile (t : Target) (level : Nat) (l : Line) :
    (l.inFile level).filterMap t.comment? = t.commentsOf l := by
  have hblanks : t.comment? ∘ Text.indentLine (4 * (level + l.depth)) = t.comment? :=
    funext fun _ => t.comment?_indentLine _ _
  rw [Line.inFile, List.filterMap_map, hblanks, commentsOf]
  split
  · rename_i htext
    rw [String.isEmpty_iff.mp htext, List.filterMap_cons_none t.comment?_nil]
    rfl
  · rfl

/-- Comments do not depend on where the lines stand. -/
theorem commentsIn_renderAll (t : Target) (level : Nat) (ls : List Line) :
    t.commentsIn (Line.renderAll level ls) = ls.flatMap t.commentsOf := by
  have hempty : [[]].filterMap t.comment? = [] := List.filterMap_cons_none t.comment?_nil
  rw [commentsIn, Line.toList_renderAll,
    Text.splitOn_lined fun _ hl => Line.newline_notMem_inFile hl, List.filterMap_append, hempty,
    List.append_nil, List.filterMap_flatMap]
  congr 1
  funext l
  exact t.filterMap_inFile level l

theorem commentsOf_comment (t : Target) (text : String) :
    t.commentsOf (line (t.comment text)) = [t.comment text] := by
  have hne : (t.comment text).toList ≠ [] := by
    rw [toList_comment]
    cases t with
    | selenium => exact nofun
    | cypress => exact nofun
  rw [commentsOf, line, Text.splitLines_of_notMem hne (t.oneLine_comment text),
    List.filterMap_cons_some (t.comment?_comment text), List.filterMap_nil]

/-! ### Lines that show remarks -/

/-- The remarks are among the comments of the lines, in order. -/
def Shows (t : Target) (remarks : List String) (ls : List Line) : Prop :=
  (remarks.map t.comment).Sublist (ls.flatMap t.commentsOf)

namespace Shows

variable {t : Target} {rs rs' : List String} {ls ls' : List Line}

theorem nothing (ls : List Line) : Shows t [] ls :=
  List.nil_sublist _

theorem append (h : Shows t rs ls) (h' : Shows t rs' ls') : Shows t (rs ++ rs') (ls ++ ls') := by
  rw [Shows, List.map_append, List.flatMap_append]
  exact List.Sublist.append h h'

theorem before (h : Shows t rs ls) (ls' : List Line) : Shows t rs (ls ++ ls') := by
  have hboth := h.append (nothing ls')
  rwa [List.append_nil] at hboth

theorem behind (ls : List Line) (h : Shows t rs ls') : Shows t rs (ls ++ ls') :=
  (nothing ls).append h

theorem skip (l : Line) (h : Shows t rs ls) : Shows t rs (l :: ls) :=
  behind [l] h

theorem comment (text : String) : Shows t [text] [line (t.comment text)] := by
  rw [Shows, List.flatMap_singleton, commentsOf_comment]
  exact List.Sublist.refl _

theorem note (text : String) (ls : List Line) : Shows t [text] (line (t.comment text) :: ls) :=
  (comment text).before ls

theorem shift (h : Shows t rs ls) (depth : Nat) : Shows t rs (shift depth ls) := by
  rw [Shows, FlowSuite.shift, List.flatMap_map]
  exact h

theorem notes (ps : List Problem) : Shows t (ps.filterMap Problem.note?) (t.notes ps) := by
  unfold Target.notes
  induction ps.filterMap Problem.note? with
  | nil => exact nothing _
  | cons text rest ih => exact (comment text).append ih

end Shows

end Target

/-! ### The remark on a problem -/

/-- What the comment on a problem of a node says, if there is one. -/
def Problem.remark? (id : String) : Problem → Option String
  | .cycle => some s!"... (flow merges or cycle detected at '{id}')"
  | .entryMidFlow => some "Entry point reached mid-flow: session setup skipped"
  | .unknownBrowser _ => none
  | .unknownStrategy raw => some ("Warning: " ++ s!"unknown selector type '{raw}', using ID")
  | .unknownGesture _ => none
  | .gestureWithoutElement _ => some "Warning: Interact step has no element connected"
  | .captureWithoutVariable => some "Warning: Get Text has no variable to save into, skipped"
  | .unknownCondition key => some s!"Unknown condition '{key}', check skipped"
  | .checkWithoutElement c => some s!"Warning: '{c.label}' check has no element connected"
  | .unknownLoopMode raw => some ("Warning: " ++ s!"unknown loop type '{raw}', using Counter")
  | .unknownLoopCondition _ => none
  | .ignoredLoopCondition _ => none
  | .loopWithoutElement => some "Warning: While loop has no element connected, loop skipped"
  | .unknownPause raw => some ("Warning: " ++ s!"unknown wait type '{raw}', using a timed wait")
  | .networkAssertion => some "Note: Selenium does not support native network assertion."
  | .networkCondition =>
      some "Note: Selenium cannot inspect network responses, condition treated as true."
  | .networkWait _ => some "Note: Selenium does not support native network wait."
  | .interception => some "Note: Selenium does not support native network interception."

/-- The problems that no comment says anything about. -/
def Problem.isSilent : Problem → Bool
  | .unknownBrowser _ => true
  | .unknownGesture _ => true
  | .unknownLoopCondition _ => true
  | .ignoredLoopCondition _ => true
  | _ => false

/-- What the comment on a reported problem says. -/
def Diagnostic.remark? (d : Diagnostic) : Option String :=
  d.problem.remark? d.node

/-- Whether no comment says anything about a reported problem. -/
def Diagnostic.isSilent (d : Diagnostic) : Bool :=
  d.problem.isSilent

theorem Diagnostic.isSome_remark? (d : Diagnostic) : d.remark?.isSome = !d.isSilent := by
  obtain ⟨node, p⟩ := d
  cases p <;> rfl

/-- The remarks on the problems of a node. -/
def Problem.remarks (id : String) (ps : List Problem) : List String :=
  ps.filterMap (remark? id)

theorem Problem.remarks_append (id : String) (ps ps' : List Problem) :
    remarks id (ps ++ ps') = remarks id ps ++ remarks id ps' :=
  List.filterMap_append

theorem Target.notes_append (t : Target) (ps ps' : List Problem) :
    t.notes (ps ++ ps') = t.notes ps ++ t.notes ps' := by
  rw [notes, List.filterMap_append, List.map_append, ← notes, ← notes]

/-! ### The lines of a step -/

namespace Target

/-- The problem with an element is noted above the step. -/
theorem shows_element (t : Target) (id : String) (e : Element) :
    t.Shows (Problem.remarks id e.problems) (t.notes e.problems) := by
  have hnoted : Problem.remarks id e.problems = e.problems.filterMap Problem.note? := by
    unfold Element.problems
    cases e.unknownStrategy with
    | none => rfl
    | some raw => rfl
  rw [hnoted]
  exact .notes _

/-- A check that can be asked has at most a problem with its element; one that cannot leaves
its fault, if the step's own lines do. -/
theorem shows_check (t : Target) (id : String) (c : Check) (element : Option Element)
    {ls : List Line}
    (h : ∀ fault, c.question element = .error fault → t.Shows [fault.reason] ls) :
    t.Shows (Problem.remarks id (c.problems element)) (t.notes (c.problems element) ++ ls) := by
  unfold Check.problems
  cases hquestion : c.question element with
  | error fault =>
      have hremark : Problem.remarks id [fault.problem] = [fault.reason] := by
        cases fault with
        | unknownCondition key => rfl
        | noElement condition => rfl
      show t.Shows (Problem.remarks id [fault.problem]) _
      rw [hremark]
      exact (h fault hquestion).behind _
  | ok q =>
      dsimp only
      cases q.element? with
      | none => exact .nothing _
      | some e => exact (t.shows_element id e).before ls

theorem question_of_networkStatus {c : Check} (element : Option Element)
    (h : c.condition = .networkStatus) :
    c.question element = .ok (.networkStatus c.networkAlias c.expectedStatus) := by
  unfold Check.question
  rw [h]

theorem shows_session (t : Target) (site : Site) (s : Session) :
    t.Shows (Problem.remarks site.id (t.actionProblems site (.session s)))
      (t.notes (t.actionProblems site (.session s)) ++ t.action site (.session s)) := by
  by_cases hroot : site.isRoot = true
  · have hquiet : Problem.remarks site.id (t.actionProblems site (.session s)) = [] := by
      simp only [actionProblems, if_pos hroot]
      cases t with
      | selenium =>
          cases s.driver? with
          | none => rfl
          | some driver => rfl
      | cypress => rfl
    rw [hquiet]
    exact .nothing _
  · have hproblems : t.actionProblems site (.session s) = [.entryMidFlow] := if_neg hroot
    rw [hproblems]
    cases t with
    | selenium =>
        have hlines : Selenium.session site s
            = [Selenium.note "Entry point reached mid-flow: session setup skipped"] := if_neg hroot
        show Shows .selenium _ (Selenium.session site s)
        rw [hlines]
        exact .note _ []
    | cypress =>
        have hlines : Cypress.session site s
            = [Cypress.note "Entry point reached mid-flow: session setup skipped"] := if_neg hroot
        show Shows .cypress _ (Cypress.session site s)
        rw [hlines]
        exact .note _ []

/-- What is done with an element leaves a remark only if it is to be captured nowhere. -/
theorem shows_gesture (t : Target) (site : Site) (i : Interaction) {e : Element}
    (h : site.element = some e) :
    t.Shows (Problem.remarks site.id i.problems) (t.action site (.interact i)) := by
  have hcapture : i.gesture = .captureText → i.saveTo = none →
      t.Shows ["Warning: Get Text has no variable to save into, skipped"]
        (t.action site (.interact i)) := by
    intro hgesture hsave
    cases t with
    | selenium =>
        show Shows .selenium _ (Selenium.interact i site.element)
        rw [h, Selenium.interact, Selenium.gesture, hgesture, hsave]
        exact .skip _ (.note _ [])
    | cypress =>
        show Shows .cypress _ (Cypress.interact i site.element)
        rw [h, Cypress.interact, Cypress.gesture, hgesture, hsave]
        exact .skip _ (.note _ [])
  unfold Interaction.problems
  cases hgesture : i.gesture with
  | captureText =>
      cases hsave : i.saveTo with
      | none => exact hcapture hgesture hsave
      | some name => exact .nothing _
  | _ => exact .nothing _

theorem shows_interact (t : Target) (site : Site) (i : Interaction) :
    t.Shows (Problem.remarks site.id (t.actionProblems site (.interact i)))
      (t.notes (t.actionProblems site (.interact i)) ++ t.action site (.interact i)) := by
  cases helement : site.element with
  | none =>
      have hproblems : t.actionProblems site (.interact i)
          = [.gestureWithoutElement i.gesture] := by
        simp only [actionProblems, helement]
      rw [hproblems]
      cases t with
      | selenium =>
          show Shows .selenium _ (Selenium.interact i site.element)
          rw [helement]
          exact .note _ _
      | cypress =>
          show Shows .cypress _ (Cypress.interact i site.element)
          rw [helement]
          exact .note _ _
  | some e =>
      have hproblems : t.actionProblems site (.interact i) = e.problems ++ i.problems := by
        simp only [actionProblems, helement]
      rw [hproblems, Problem.remarks_append, notes_append]
      exact ((t.shows_element site.id e).before _).append (t.shows_gesture site i helement)

theorem shows_assertion (t : Target) (site : Site) (a : Assertion) :
    t.Shows (Problem.remarks site.id (t.actionProblems site (.assertion a)))
      (t.notes (t.actionProblems site (.assertion a)) ++ t.action site (.assertion a)) := by
  by_cases hblind : a.check.condition = .networkStatus ∧ t.seesNetwork = false
  · have hproblems : t.actionProblems site (.assertion a) = [.networkAssertion] := if_pos hblind
    rw [hproblems]
    cases t with
    | selenium =>
        show Shows .selenium _ (Selenium.assertion a site.element)
        rw [Selenium.assertion, question_of_networkStatus site.element hblind.1]
        exact .skip _ (.note _ _)
    | cypress => cases hblind.2
  · have hproblems : t.actionProblems site (.assertion a) = a.check.problems site.element :=
      if_neg hblind
    rw [hproblems]
    refine t.shows_check site.id a.check site.element fun fault hquestion => ?_
    cases t with
    | selenium =>
        show Shows .selenium _ (Selenium.assertion a site.element)
        rw [Selenium.assertion, hquestion]
        exact .note _ []
    | cypress =>
        show Shows .cypress _ (Cypress.assertion a site.element)
        rw [Cypress.assertion, hquestion]
        exact .note _ []

theorem shows_pause (t : Target) (site : Site) (p : Pause) :
    t.Shows (Problem.remarks site.id (t.actionProblems site (.pause p)))
      (t.notes (t.actionProblems site (.pause p)) ++ t.action site (.pause p)) := by
  cases p with
  | time duration => exact .nothing _
  | unknown waitType duration => exact .note _ _
  | network route =>
      cases t with
      | selenium => exact .skip _ (.note _ _)
      | cypress => exact .nothing _

theorem shows_intercept (t : Target) (site : Site) (i : Interception) :
    t.Shows (Problem.remarks site.id (t.actionProblems site (.intercept i)))
      (t.notes (t.actionProblems site (.intercept i)) ++ t.action site (.intercept i)) := by
  cases t with
  | selenium => exact .skip _ (.note _ _)
  | cypress => exact .nothing _

/-- The lines of an action show what is wrong with it. -/
theorem shows_action (t : Target) (site : Site) (a : Action) :
    t.Shows (Problem.remarks site.id (t.actionProblems site a))
      (t.notes (t.actionProblems site a) ++ t.action site a) := by
  cases a with
  | session s => exact t.shows_session site s
  | interact i => exact t.shows_interact site i
  | assertion a => exact t.shows_assertion site a
  | pause p => exact t.shows_pause site p
  | intercept i => exact t.shows_intercept site i
  | element | screenshot | assign | fixture | command => exact .nothing _

/-- The lines before the arms of a branch show what is wrong with it. -/
theorem shows_branch (t : Target) (site : Site) (c : Check) :
    t.Shows (Problem.remarks site.id (t.branchProblems site c))
      (t.notes (t.branchProblems site c) ++ (t.fork c site.element).opening) := by
  by_cases hblind : c.condition = .networkStatus ∧ t.seesNetwork = false
  · have hproblems : t.branchProblems site c = [.networkCondition] := if_pos hblind
    rw [hproblems]
    cases t with
    | selenium =>
        show Shows .selenium _ (Selenium.fork c site.element).opening
        rw [Selenium.fork, Selenium.inquiry, question_of_networkStatus site.element hblind.1]
        exact .skip _ (.note _ _)
    | cypress => cases hblind.2
  · have hproblems : t.branchProblems site c = c.problems site.element := if_neg hblind
    rw [hproblems]
    refine t.shows_check site.id c site.element fun fault hquestion => ?_
    cases t with
    | selenium =>
        show Shows .selenium _ (Selenium.fork c site.element).opening
        rw [Selenium.fork, Selenium.inquiry, hquestion]
        exact .skip _ (.note _ _)
    | cypress =>
        show Shows .cypress _ (Cypress.fork c site.element).opening
        rw [Cypress.fork, Cypress.inquiry, hquestion]
        exact .skip _ (.note _ _)

/-- What a loop was asked to watch is never remarked on. -/
theorem remarks_condition (id : String) (c : Condition) :
    Problem.remarks id c.loopProblems = [] := by
  cases c <;> rfl

/-- The lines before the body of a loop show what is wrong with it. -/
theorem shows_loop (t : Target) (site : Site) (l : Loop) :
    t.Shows (Problem.remarks site.id (loopProblems site l))
      (t.notes (loopProblems site l) ++ (t.rounds site l).opening) := by
  unfold loopProblems
  cases hmode : l.mode with
  | counter => exact .nothing _
  | unknown raw => exact .note _ _
  | whileVisible =>
      show t.Shows (Problem.remarks _ (l.condition.loopProblems ++ _))
        (t.notes (l.condition.loopProblems ++ _) ++ _)
      rw [Problem.remarks_append, remarks_condition, List.nil_append, notes_append,
        List.append_assoc]
      refine .behind _ ?_
      cases helement : site.element with
      | some e => exact (t.shows_element site.id e).before _
      | none =>
          cases t with
          | selenium =>
              show Shows .selenium _ (Selenium.rounds l site.element).opening
              simp only [Selenium.rounds, hmode, helement]
              exact .note _ []
          | cypress =>
              show Shows .cypress _ (Cypress.rounds site.id l site.element).opening
              simp only [Cypress.rounds, hmode, helement]
              exact .note _ []

end Target

/-! ### The lines of a script -/

theorem Diagnostic.filterMap_remark? (id : String) (ps : List Problem) :
    (ps.map (Diagnostic.mk id)).filterMap remark? = Problem.remarks id ps :=
  List.filterMap_map

theorem Fork.shows_arm (f : Fork) {t : Target} {s : Script}
    (h : t.Shows ((s.diagnostics t).filterMap Diagnostic.remark?) (s.lines t)) :
    t.Shows ((s.diagnostics t).filterMap Diagnostic.remark?) (f.arm s (s.lines t)) := by
  cases s with
  | stop => exact .nothing _
  | _ => exact h.shift f.depth

/-- Problems are reported in the order in which they are remarked on. -/
theorem Script.shows_lines (t : Target) (s : Script) :
    t.Shows ((s.diagnostics t).filterMap Diagnostic.remark?) (s.lines t) := by
  induction s with
  | stop => exact .nothing _
  | cut id => exact .note _ []
  | action site a next ih =>
      rw [diagnostics, List.filterMap_append, Diagnostic.filterMap_remark?, lines]
      exact (t.shows_action site a).append ih
  | branch site c yes no ihyes ihno =>
      rw [diagnostics, List.filterMap_append, List.filterMap_append,
        Diagnostic.filterMap_remark?, lines]
      -- The report has the arms in the order of the text; the lines between them add nothing.
      have hyes := Fork.shows_arm (t.fork c site.element) ihyes
      have hno := Fork.shows_arm (t.fork c site.element) ihno
      exact ((((t.shows_branch site c).append hyes).before _).append hno).before _
  | loop site l body next ihbody ihnext =>
      rw [diagnostics, List.filterMap_append, List.filterMap_append,
        Diagnostic.filterMap_remark?, lines]
      have hbody := ihbody.shift (t.rounds site l).depth
      exact (((t.shows_loop site l).append hbody).before _).append ihnext

/-- Every problem is silent or has a remark. -/
theorem Diagnostic.length_eq (ds : List Diagnostic) :
    ds.length = (ds.filterMap remark?).length + ds.countP isSilent := by
  rw [List.length_eq_countP_add_countP (fun d : Diagnostic => d.remark?.isSome),
    List.length_filterMap_eq_countP]
  congr 1
  refine List.countP_congr fun d _ => ?_
  rw [d.isSome_remark?, decide_eq_true_iff, Bool.not_eq_true, Bool.not_eq_false']

/-- **All reported problems but the silent ones stand in the code.**  Their remarks are
comments of the text, in the order of the report, so with the silent ones left out there are
at least as many comments as problems. -/
theorem problems_leave_comments (g : Flow) (t : Target) (root : Node) (level : Nat) :
    (∀ d : Diagnostic, d.remark? = none ↔ d.isSilent = true) ∧
      ((((g.script root).diagnostics t).filterMap Diagnostic.remark?).map t.comment).Sublist
        (t.commentsIn ((g.script root).text t level)) ∧
      ((g.script root).diagnostics t).length
        ≤ (t.commentsIn ((g.script root).text t level)).length +
          ((g.script root).diagnostics t).countP Diagnostic.isSilent := by
  have hshown : ((((g.script root).diagnostics t).filterMap Diagnostic.remark?).map
      t.comment).Sublist (t.commentsIn ((g.script root).text t level)) := by
    rw [Script.text, Target.commentsIn_renderAll]
    exact (g.script root).shows_lines t
  refine ⟨?_, hshown, ?_⟩
  · intro d
    rw [← Option.isNone_iff_eq_none, ← Option.not_isSome, d.isSome_remark?, Bool.not_not]
  · have hcount := hshown.length_le
    rw [List.length_map] at hcount
    rw [Diagnostic.length_eq]
    exact Nat.add_le_add_right hcount _

/-- The start of a test case, with a browser that there is no driver for. -/
def quietStart : Node :=
  ⟨"start", .entry, [("browser", .string "Netscape")]⟩

/-- A test case with one problem of each silent kind. -/
def quietFlow : Flow where
  nodes := [quietStart, ⟨"press", .interact, [("action", .string "Juggle")]⟩,
    ⟨"wait", .loop, [("loopType", .string "While"), ("condition", .string "Is Sunny")]⟩,
    ⟨"read", .loop, [("loopType", .string "While"), ("condition", .string "Contains Text")]⟩,
    ⟨"spinner", .element, []⟩]
  edges := [.flow "e1" "start" "press", .flow "e2" "press" "wait", .via "e3" "wait" .done "read",
    .data "e4" "spinner" "press", .data "e5" "spinner" "wait", .data "e6" "spinner" "read"]

/-- All of them are reported, and no comment in the code says so. -/
theorem quietFlow_has_no_comments :
    ((quietFlow.script quietStart).diagnostics .selenium).map (·.problem)
        = [.unknownBrowser "Netscape", .unknownGesture "juggle", .unknownLoopCondition "issunny",
          .ignoredLoopCondition .containsText] ∧
      Target.selenium.commentsIn ((quietFlow.script quietStart).text .selenium 2) = [] ∧
      ((quietFlow.script quietStart).diagnostics .cypress).map (·.problem)
        = [.unknownGesture "juggle", .unknownLoopCondition "issunny",
          .ignoredLoopCondition .containsText] ∧
      Target.cypress.commentsIn ((quietFlow.script quietStart).text .cypress 2) = [] := by
  -- The text is not computed: its comments are those of the lines.
  simp only [Script.text, Target.commentsIn_renderAll]
  refine ⟨?_, ?_, ?_, ?_⟩ <;> decide +kernel

end FlowSuite

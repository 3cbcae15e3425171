/-
The program that a script is the text of.

A test case is written line by line, but what is written is a structured program:
lines that are done one after the other, blocks of which one is chosen, and blocks
that are gone through again and again.  `Program` has these constructs and nothing
else, `Program.lines` prints them in the language of a target, and `Script.program`
reads a script as a program.

Printing the program of a script gives the lines of the script: `lines_program`.  The
texts of the constructs stand here a second time on purpose.  The frames say which
lines stand around the inner ones; that these lines are an if with its else, or the
head of a loop with its end, is what the comparison is for.
-/
import FlowSuite.Script.Print

namespace FlowSuite

/-- How a loop goes round. -/
inductive Head where
  /-- So many times. -/
  | times (count : String)
  /-- As long as an element is seen. -/
  | watching (e : Element)

/-- A structured program. -/
inductive Program where
  | done
  /-- Lines that belong to a construct and are no action of a step. -/
  | plain (ls : List Line) (rest : Program)
  /-- The own lines of a step: one action of its node. -/
  | act (id : String) (ls : List Line) (rest : Program)
  /-- One of two blocks. -/
  | choose (id test : String) (yes no rest : Program)
  /-- A block that is gone through again and again. -/
  | loop (id : String) (head : Head) (body rest : Program)

namespace Target

/-! ### The constructs in the language of a target -/

/-- Two blocks of which the test chooses one. -/
def ifElse (t : Target) (test : String) (yes no : List Line) : List Line :=
  match t with
  | .selenium => [line s!"if {test}:"] ++ shift 1 yes ++ [line "else:"] ++ shift 1 no
  | .cypress =>
      [line s!"{test}.then((matched) => \x7b"] ++
        shift 1 ([line "if (matched) \x7b"] ++ shift 1 yes ++ [line "\x7d else \x7b"] ++
          shift 1 no ++ [line "\x7d"]) ++
        [line "\x7d);"]

/-- A block for each number below a count. -/
def countedBlock (t : Target) (count : String) (body : List Line) : List Line :=
  match t with
  | .selenium => [line s!"for i in range(int({count})):"] ++ shift 1 body
  | .cypress =>
      [line s!"Cypress._.times(Number({count}), (i) => \x7b"] ++ shift 1 body ++
        [line "\x7d);"]

/-- A block that starts over until an element is not seen any more. -/
def watchingBlock (t : Target) (id : String) (e : Element) (body : List Line) : List Line :=
  match t with
  | .selenium =>
      [line "while True:"] ++
        shift 1 ([line "try:",
            below 1 s!"if not {Selenium.find e}.is_displayed():", below 2 "break",
          line "except Exception:", below 1 "break"] ++ body)
  | .cypress =>
      let poll := Cypress.pollName id
      [line s!"const {poll} = () => \x7b", below 1 "cy.get(\"body\").then(($body) => \x7b"] ++
        shift 2 ([line "let visible = false;",
          line "try \x7b",
            below 1 s!"const $el = {Cypress.look e};",
            below 1 "visible = $el.length > 0 && $el.is(\":visible\");",
          line "\x7d catch (error) \x7b", below 1 "visible = false;", line "\x7d",
          line "if (!visible) \x7b", below 1 "return;", line "\x7d"] ++ body ++
          [line s!"{poll}();"]) ++
        [below 1 "\x7d);", line "\x7d;", line s!"{poll}();"]

/-- A block under the head of a loop. -/
def loopBlock (t : Target) (id : String) : Head → List Line → List Line
  | .times count => t.countedBlock count
  | .watching e => t.watchingBlock id e

/-- A block with nothing in it. -/
def emptyBlock : Target → List Line
  | .selenium => [line "pass"]
  | .cypress => [line "return;"]

/-! ### What a step writes besides its constructs -/

/-- What a branch writes before it chooses. -/
def branchLines (t : Target) (site : Site) (c : Check) : List Line :=
  match t with
  | .selenium =>
      line (Selenium.log "log_info" s!"Condition Check: {c.condition.label}...") ::
        (Selenium.inquiry c site.element).1
  | .cypress =>
      Cypress.note s!"Condition Check: {c.condition.label}" ::
        (Cypress.inquiry c site.element).1

/-- What a branch chooses by. -/
def branchTest (t : Target) (site : Site) (c : Check) : String :=
  match t with
  | .selenium => (Selenium.inquiry c site.element).2
  | .cypress => (Cypress.inquiry c site.element).2

/-- The first lines of the two arms. -/
def armLines : Target → Bool → List Line
  | .selenium, true => [line (Selenium.log "log_info" ">> Condition matched (TRUE)")]
  | .selenium, false => [line (Selenium.log "log_info" ">> Condition failed (FALSE)")]
  | .cypress, _ => []

/-- What a loop writes before it goes round. -/
def loopLines (t : Target) : Head → List Line
  | .times count =>
      match t with
      | .selenium => [Selenium.announcement count]
      | .cypress => [Cypress.announcement count]
  | .watching _ =>
      match t with
      | .selenium => [line (Selenium.log "log_info" "Starting While Loop")]
      | .cypress => [Cypress.log "Starting While Loop"]

/-- The first lines of a round. -/
def roundLines (t : Target) : Head → List Line
  | .times _ =>
      match t with
      | .selenium => [line "log_info(f\"--- Loop Iteration \x7bi + 1\x7d ---\")"]
      | .cypress => [line "cy.log(`--- Loop Iteration $\x7bi + 1\x7d ---`);"]
  | .watching _ => []

/-- What is written instead of a loop that is skipped. -/
def skippedLines (t : Target) : List Line :=
  [line (t.comment "Warning: While loop has no element connected, loop skipped")]

/-- What is written below a loop. -/
def finishedLines : Target → List Line
  | .selenium => [line (Selenium.log "log_info" "Loop Finished")]
  | .cypress => [Cypress.log "Loop Finished"]

/-- How a loop goes round, unless it is skipped. -/
def head? (t : Target) (l : Loop) (element : Option Element) : Option Head :=
  match l.mode, element with
  | .whileVisible, some e => some (.watching e)
  | .whileVisible, none => none
  | _, _ => some (.times (t.translate l.count))

end Target

/-! ### Printing -/

/-- The lines of a program. -/
def Program.lines (t : Target) : Program → List Line
  | .done => []
  | .plain ls rest => ls ++ rest.lines t
  | .act _ ls rest => ls ++ rest.lines t
  | .choose _ test yes no rest =>
      t.ifElse test (yes.lines t) (no.lines t) ++ rest.lines t
  | .loop id head body rest => t.loopBlock id head (body.lines t) ++ rest.lines t

/-- An arm of a branch, given its script and the script's program. -/
def Target.arm (t : Target) (answer : Bool) : Script → Program → Program
  | .stop, _ => .plain (t.armLines answer) (.plain t.emptyBlock .done)
  | _, p => .plain (t.armLines answer) p

/-- The program of a script. -/
def Script.program (t : Target) : Script → Program
  | .stop => .done
  | .cut id => .plain [t.marker id] .done
  | .action site a next =>
      .act site.id (t.notes (t.actionProblems site a) ++ t.action site a) (next.program t)
  | .branch site c yes no =>
      .act site.id (t.notes (t.branchProblems site c) ++ t.branchLines site c)
        (.choose site.id (t.branchTest site c) (t.arm true yes (yes.program t))
          (t.arm false no (no.program t)) .done)
  | .loop site l body next =>
      match t.head? l site.element with
      | some head =>
          .act site.id (t.notes (Target.loopProblems site l) ++ t.loopLines head)
            (.loop site.id head (.plain (t.roundLines head) (body.program t))
              (.plain t.finishedLines (next.program t)))
      | none =>
          .act site.id (t.notes (Target.loopProblems site l) ++ t.skippedLines)
            (.plain t.finishedLines (next.program t))

/-! ### Printing the program of a script gives the lines of the script -/

/-- What stands in an arm, given its script and the script's lines. -/
def Target.armBlock (t : Target) : Script → List Line → List Line
  | .stop, _ => t.emptyBlock
  | _, ls => ls

theorem Target.lines_arm (t : Target) (answer : Bool) (s : Script) (p : Program) :
    (t.arm answer s p).lines t = t.armLines answer ++ t.armBlock s (p.lines t) := by
  cases s with
  | stop => simp [arm, armBlock, Program.lines]
  | _ => rfl

theorem Target.arm_fork (t : Target) (c : Check) (element : Option Element) (s : Script)
    (ls : List Line) :
    (t.fork c element).arm s ls = shift (t.fork c element).depth (t.armBlock s ls) := by
  cases s with
  | stop => cases t <;> rfl
  | _ => rfl

/-- The lines around the arms of a branch are an if with its else. -/
theorem Target.fork_eq_ifElse (t : Target) (site : Site) (c : Check) (yes no : Script)
    (ys ns : List Line) :
    (t.fork c site.element).opening ++ (t.fork c site.element).arm yes ys ++
        (t.fork c site.element).between ++ (t.fork c site.element).arm no ns ++
        (t.fork c site.element).closing
      = t.branchLines site c ++
        t.ifElse (t.branchTest site c) (t.armLines true ++ t.armBlock yes ys)
          (t.armLines false ++ t.armBlock no ns) := by
  rw [arm_fork, arm_fork]
  cases t with
  | selenium =>
      simp [fork, Selenium.fork, branchLines, branchTest, ifElse, armLines]
  | cypress =>
      simp [fork, Cypress.fork, branchLines, branchTest, ifElse, armLines]

/-- The lines around the body of a loop are the head of a loop and its end. -/
theorem Target.rounds_eq_loopBlock (t : Target) (site : Site) (l : Loop) (head : Head)
    (body : List Line) (hhead : t.head? l site.element = some head) :
    (t.rounds site l).opening ++ shift (t.rounds site l).depth body ++
        (t.rounds site l).closing
      = t.loopLines head ++ t.loopBlock site.id head (t.roundLines head ++ body) ++
        t.finishedLines := by
  unfold head? at hhead
  split at hhead
  · rename_i e hmode helement
    cases hhead
    cases t with
    | selenium =>
        simp [rounds, Selenium.rounds, hmode, helement, Selenium.watchLoop, loopLines,
          loopBlock, watchingBlock, roundLines, finishedLines]
    | cypress =>
        simp [rounds, Cypress.rounds, hmode, helement, Cypress.watchLoop, loopLines,
          loopBlock, watchingBlock, roundLines, finishedLines]
  · cases hhead
  · cases hhead
    cases t with
    | selenium =>
        simp [rounds, Selenium.rounds, Selenium.countLoop, Selenium.translate, loopLines,
          loopBlock, countedBlock, roundLines, finishedLines]
    | cypress =>
        simp [rounds, Cypress.rounds, Cypress.countLoop, Cypress.translate, loopLines,
          loopBlock, countedBlock, roundLines, finishedLines]

theorem Target.rounds_of_skipped (t : Target) (site : Site) (l : Loop)
    (hhead : t.head? l site.element = none) :
    (t.rounds site l).opening ++ (t.rounds site l).closing
      = t.skippedLines ++ t.finishedLines := by
  unfold head? at hhead
  split at hhead
  · cases hhead
  · rename_i hmode helement
    cases t with
    | selenium => simp [rounds, Selenium.rounds, hmode, helement, skippedLines,
        finishedLines, Selenium.note]
    | cypress => simp [rounds, Cypress.rounds, hmode, helement, skippedLines,
        finishedLines, Cypress.note]
  · cases hhead

/-- A loop has no head exactly when it is skipped. -/
theorem Target.head?_eq_none_iff (t : Target) (l : Loop) (element : Option Element) :
    t.head? l element = none ↔ l.isWired element = false := by
  cases hmode : l.mode with
  | whileVisible => cases element <;> simp [head?, Loop.isWired, hmode]
  | _ => cases element <;> simp [head?, Loop.isWired, hmode]

/-- A loop that is skipped has no body. -/
def Script.IsTidy : Script → Prop
  | .stop => True
  | .cut _ => True
  | .action _ _ next => next.IsTidy
  | .branch _ _ yes no => yes.IsTidy ∧ no.IsTidy
  | .loop site l body next =>
      (l.isWired site.element = false → body = .stop) ∧ body.IsTidy ∧ next.IsTidy

/-- **The lines of a script are its program in print.** -/
theorem Script.lines_program (t : Target) (s : Script) (htidy : s.IsTidy) :
    (s.program t).lines t = s.lines t := by
  induction s with
  | stop => rfl
  | cut id => rfl
  | action site a next ih =>
      simp only [program, Program.lines, lines, ih htidy]
  | branch site c yes no ihyes ihno =>
      simp only [program, Program.lines, lines, Target.lines_arm, ihyes htidy.1,
        ihno htidy.2, List.append_nil]
      rw [List.append_assoc, ← Target.fork_eq_ifElse]
      simp only [List.append_assoc]
  | loop site l body next ihbody ihnext =>
      obtain ⟨hskipped, hbody, hnext⟩ := htidy
      cases hhead : t.head? l site.element with
      | some head =>
          calc ((Script.loop site l body next).program t).lines t
              = t.notes (Target.loopProblems site l) ++
                  (t.loopLines head ++
                    t.loopBlock site.id head (t.roundLines head ++ body.lines t) ++
                    t.finishedLines) ++ next.lines t := by
                simp only [program, hhead, Program.lines, ihbody hbody, ihnext hnext,
                  List.append_assoc]
            _ = (Script.loop site l body next).lines t := by
                rw [← t.rounds_eq_loopBlock site l head (body.lines t) hhead]
                simp only [lines, List.append_assoc]
      | none =>
          have hempty : body = .stop :=
            hskipped ((t.head?_eq_none_iff l site.element).mp hhead)
          calc ((Script.loop site l body next).program t).lines t
              = t.notes (Target.loopProblems site l) ++ (t.skippedLines ++ t.finishedLines) ++
                  next.lines t := by
                simp only [program, hhead, Program.lines, ihnext hnext, List.append_assoc]
            _ = (Script.loop site l body next).lines t := by
                rw [← t.rounds_of_skipped site l hhead, hempty]
                simp only [lines, shift_nil, List.append_nil, List.append_assoc]

end FlowSuite

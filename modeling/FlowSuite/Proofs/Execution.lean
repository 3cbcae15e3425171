/-
Running the program of a flow does what the flow says.

What a test does is seen through the actions of its nodes, in order.  The page decides
which way a branch goes and how often a loop goes round; an `Oracle` stands for it.
It is asked anew at every visit and knows all that was done before, so it may answer
differently each time.

A flow is run along its edges, without any scope: `Runs`.  A program is run along its
constructs: `Program.run`.  For a flow without a cycle the two agree.  In between
stands what a script does, `Script.run`: it does not depend on the target, and it is
the same for a script and for its program in either language.
-/
import FlowSuite.Proofs.Cycles
import FlowSuite.Proofs.Program
import Mathlib.Logic.Function.Iterate

namespace FlowSuite

open Relation (ReflTransGen TransGen)

/-- The ids of the nodes that acted so far, in order. -/
abbrev History := List String

/-- What the page decides, given what was done before and the node that asks. -/
structure Oracle where
  answer : History → String → Bool
  rounds : History → String → Nat

/-! ### Running a flow -/

/-- How often a flow goes through the body of a loop. -/
def Flow.rounds (g : Flow) (o : Oracle) (n : Node) (h : History) : Nat :=
  if g.skips n then 0 else o.rounds h n.id

/-- The outlet by which a flow leaves a branch. -/
def Oracle.outlet (o : Oracle) (n : Node) (h : History) : Outlet :=
  if o.answer h n.id then .whenTrue else .whenFalse

mutual

/-- From a node, if there is one, a flow turns a history into another. -/
inductive Flow.Runs (g : Flow) (o : Oracle) : Option Node → History → History → Prop where
  | stop {h : History} : Runs g o none h h
  | next {n : Node} {h h' : History} (hbranch : n.kind ≠ .branch) (hloop : n.kind ≠ .loop)
      (hrest : Runs g o (g.target? n.id .flow) (h ++ [n.id]) h') : Runs g o (some n) h h'
  | branch {n : Node} {h h' : History} (hkind : n.kind = .branch)
      (hrest : Runs g o (g.target? n.id (o.outlet n (h ++ [n.id]))) (h ++ [n.id]) h') :
      Runs g o (some n) h h'
  | loop {n : Node} {h h₁ h' : History} (hkind : n.kind = .loop)
      (hbody : Repeats g o (g.target? n.id .body) (g.rounds o n (h ++ [n.id])) (h ++ [n.id]) h₁)
      (hrest : Runs g o (g.target? n.id .done) h₁ h') : Runs g o (some n) h h'

/-- From a node, if there is one, a flow does so a number of times. -/
inductive Flow.Repeats (g : Flow) (o : Oracle) :
    Option Node → Nat → History → History → Prop where
  | zero {n : Option Node} {h : History} : Repeats g o n 0 h h
  | succ {n : Option Node} {k : Nat} {h h₁ h' : History} (hfirst : Runs g o n h h₁)
      (hrest : Repeats g o n k h₁ h') : Repeats g o n (k + 1) h h'

end

/-! ### Running a program -/

/-- A program turns a history into another. -/
def Program.run (o : Oracle) : Program → History → History
  | .done, h => h
  | .plain _ rest, h => rest.run o h
  | .act id _ rest, h => rest.run o (h ++ [id])
  | .choose id _ yes no rest, h =>
      rest.run o (if o.answer h id then yes.run o h else no.run o h)
  | .loop id _ body rest, h => rest.run o ((body.run o)^[o.rounds h id] h)

/-- What a script does. -/
def Script.run (o : Oracle) : Script → History → History
  | .stop, h => h
  | .cut _, h => h
  | .action site _ next, h => next.run o (h ++ [site.id])
  | .branch site _ yes no, h =>
      if o.answer (h ++ [site.id]) site.id then yes.run o (h ++ [site.id])
      else no.run o (h ++ [site.id])
  | .loop site l body next, h =>
      let rounds := if l.isWired site.element then o.rounds (h ++ [site.id]) site.id else 0
      next.run o ((body.run o)^[rounds] (h ++ [site.id]))

theorem Target.run_arm (t : Target) (answer : Bool) (o : Oracle) (s : Script) (p : Program)
    (hp : p.run o = s.run o) : (t.arm answer s p).run o = s.run o := by
  cases s with
  | stop => rfl
  | _ => exact hp

/-- A script and its program do the same. -/
theorem Script.run_program (t : Target) (o : Oracle) (s : Script) :
    (s.program t).run o = s.run o := by
  induction s with
  | stop => rfl
  | cut id => rfl
  | action site a next ih =>
      funext h
      simp only [program, Program.run, run, ih]
  | branch site c yes no ihyes ihno =>
      funext h
      simp only [program, Program.run, run, t.run_arm true o yes _ ihyes,
        t.run_arm false o no _ ihno]
  | loop site l body next ihbody ihnext =>
      funext h
      cases hhead : t.head? l site.element with
      | some head =>
          have hwired : l.isWired site.element = true := by
            by_contra hskipped
            rw [(t.head?_eq_none_iff l site.element).mpr (by simpa using hskipped)] at hhead
            cases hhead
          simp only [program, hhead, Program.run, run, hwired, if_true, ihnext, ihbody]
      | none =>
          have hskipped := (t.head?_eq_none_iff l site.element).mp hhead
          simp only [program, hhead, Program.run, run, hskipped, ihnext]
          rfl

/-! ### Walks are tidy -/

theorem Script.isTidy_elim {target : Option Node} {f : Node → Script}
    (h : ∀ n, (f n).IsTidy) : (target.elim .stop f).IsTidy := by
  cases target with
  | none => trivial
  | some n => exact h n

theorem Flow.isTidy_walk (g : Flow) (ids : List String) (node : Node) (scope : Scope)
    (isRoot : Bool) : (g.walk ids node scope isRoot).IsTidy := by
  fun_induction Flow.walk g ids node scope isRoot with
  | case1 node scope isRoot hopen inner site a hstep ih => exact Script.isTidy_elim ih
  | case2 node scope isRoot hopen inner site c hstep ih =>
      exact ⟨Script.isTidy_elim ih, Script.isTidy_elim ih⟩
  | case3 node scope isRoot hopen inner site l hstep ihbody ihdone =>
      refine ⟨?_, ?_, Script.isTidy_elim ihdone⟩
      · intro hskipped
        rw [if_neg (by simp [hskipped])]
      · split
        · exact Script.isTidy_elim ihbody
        · trivial
  | case4 node scope isRoot hclosed => trivial

/-! ### A flow and its script do the same -/

namespace Flow

variable {g : Flow} {o : Oracle}

theorem runs_none_iff {h h' : History} : g.Runs o none h h' ↔ h' = h := by
  constructor
  · intro hruns
    cases hruns
    rfl
  · rintro rfl
    exact Runs.stop

theorem repeats_zero_iff {target : Option Node} {h h' : History} :
    g.Repeats o target 0 h h' ↔ h' = h := by
  constructor
  · intro hrepeats
    cases hrepeats
    rfl
  · rintro rfl
    exact Repeats.zero

/-- Where a run is a function of the history, a number of runs is that function so many
times. -/
theorem repeats_iff {target : Option Node} {f : History → History}
    (hf : ∀ h h', g.Runs o target h h' ↔ h' = f h) (k : Nat) (h h' : History) :
    g.Repeats o target k h h' ↔ h' = f^[k] h := by
  induction k generalizing h with
  | zero => exact repeats_zero_iff
  | succ k ih =>
      rw [Function.iterate_succ_apply]
      constructor
      · intro hrepeats
        cases hrepeats with
        | succ hfirst hrest =>
            rw [(hf _ _).mp hfirst] at hrest
            exact (ih _).mp hrest
      · intro hh
        exact Repeats.succ ((hf _ _).mpr rfl) ((ih _).mpr hh)

theorem runs_iff_of_action {n : Node} {a : Action} {h h' : History}
    (hstep : n.step = .action a) :
    g.Runs o (some n) h h' ↔ g.Runs o (g.target? n.id .flow) (h ++ [n.id]) h' := by
  obtain ⟨hbranch, hloop⟩ := Node.kind_of_action hstep
  constructor
  · intro hruns
    cases hruns with
    | next _ _ hrest => exact hrest
    | branch hkind => exact absurd hkind hbranch
    | loop hkind => exact absurd hkind hloop
  · exact Runs.next hbranch hloop

theorem runs_iff_of_branch {n : Node} {c : Check} {h h' : History}
    (hstep : n.step = .branch c) :
    g.Runs o (some n) h h' ↔
      g.Runs o (g.target? n.id (o.outlet n (h ++ [n.id]))) (h ++ [n.id]) h' := by
  have hbranch := Node.kind_of_branch hstep
  constructor
  · intro hruns
    cases hruns with
    | next hother => exact absurd hbranch hother
    | branch _ hrest => exact hrest
    | loop hkind => rw [hbranch] at hkind; cases hkind
  · exact Runs.branch hbranch

theorem runs_iff_of_loop {n : Node} {l : Loop} {h h' : History}
    (hstep : n.step = .loop l) :
    g.Runs o (some n) h h' ↔
      ∃ h₁, g.Repeats o (g.target? n.id .body) (g.rounds o n (h ++ [n.id])) (h ++ [n.id]) h₁ ∧
        g.Runs o (g.target? n.id .done) h₁ h' := by
  have hloop := (Node.kind_of_loop hstep).1
  constructor
  · intro hruns
    cases hruns with
    | next _ hother => exact absurd hloop hother
    | branch hkind => rw [hloop] at hkind; cases hkind
    | loop _ hbody hrest => exact ⟨_, hbody, hrest⟩
  · rintro ⟨h₁, hbody, hrest⟩
    exact Runs.loop hloop hbody hrest

/-- If the script of every node that may follow does what the flow does, so does what
stands for the target of an outlet. -/
theorem runs_elim_iff {target : Option Node} {f : Node → Script}
    (hf : ∀ n, target = some n → ∀ h h', g.Runs o (some n) h h' ↔ h' = (f n).run o h)
    (h h' : History) : g.Runs o target h h' ↔ h' = (target.elim .stop f).run o h := by
  cases target with
  | none => exact runs_none_iff
  | some n => exact hf n rfl h h'

/-- **From every node whose script is not cut the flow does what the script does.** -/
theorem runs_iff_run_walk {ids : List String} (node : Node) (scope : Scope) (isRoot : Bool)
    (huncut : ¬ (g.walk ids node scope isRoot).IsCut) (h h' : History) :
    g.Runs o (some node) h h' ↔ h' = (g.walk ids node scope isRoot).run o h := by
  fun_induction Flow.walk g ids node scope isRoot generalizing h h' with
  | case1 node scope isRoot hopen inner site a hstep ih =>
      rw [runs_iff_of_action hstep]
      refine runs_elim_iff ?_ _ _
      intro n hn
      exact ih n fun hcut => huncut (Script.isCut_elim.mpr ⟨n, hn, hcut⟩)
  | case2 node scope isRoot hopen inner site c hstep ih =>
      have hyes : ∀ h h', g.Runs o (g.target? node.id .whenTrue) h h' ↔
          h' = ((g.target? node.id .whenTrue).elim .stop
            fun next => g.walk ids next inner false).run o h :=
        runs_elim_iff fun n hn =>
          ih n fun hcut => huncut (Or.inl (Script.isCut_elim.mpr ⟨n, hn, hcut⟩))
      have hno : ∀ h h', g.Runs o (g.target? node.id .whenFalse) h h' ↔
          h' = ((g.target? node.id .whenFalse).elim .stop
            fun next => g.walk ids next inner false).run o h :=
        runs_elim_iff fun n hn =>
          ih n fun hcut => huncut (Or.inr (Script.isCut_elim.mpr ⟨n, hn, hcut⟩))
      rw [runs_iff_of_branch hstep, Oracle.outlet]
      simp only [Script.run]
      by_cases hanswer : o.answer (h ++ [node.id]) node.id = true
      · rw [if_pos hanswer, if_pos hanswer]
        exact hyes _ _
      · rw [if_neg hanswer, if_neg hanswer]
        exact hno _ _
  | case3 node scope isRoot hopen inner site l hstep ihbody ihdone =>
      have hdone : ∀ h h', g.Runs o (g.target? node.id .done) h h' ↔
          h' = ((g.target? node.id .done).elim .stop
            fun next => g.walk ids next inner false).run o h :=
        runs_elim_iff fun n hn =>
          ihdone n fun hcut => huncut (Or.inr (Script.isCut_elim.mpr ⟨n, hn, hcut⟩))
      obtain ⟨-, rfl⟩ := Node.kind_of_loop hstep
      have hiff : (Loop.ofData node.data).isWired site.element = !g.skips node :=
        isWired_eq g node
      rw [runs_iff_of_loop hstep, Flow.rounds]
      simp only [Script.run]
      by_cases hskips : g.skips node = true
      · have hskipped : ¬ (Loop.ofData node.data).isWired site.element = true := by
          simp [hiff, hskips]
        rw [if_pos hskips, if_neg hskipped, if_neg hskipped]
        simp only [repeats_zero_iff, exists_eq_left]
        exact hdone _ _
      · have hwired : (Loop.ofData node.data).isWired site.element = true := by
          simp [hiff, hskips]
        rw [if_pos hwired] at huncut
        rw [if_neg hskips, if_pos hwired, if_pos hwired]
        have hbody : ∀ h h', g.Runs o (g.target? node.id .body) h h' ↔
            h' = ((g.target? node.id .body).elim .stop
              fun next => g.walk ids next (inner.loopBody node.id) false).run o h :=
          runs_elim_iff fun n hn =>
            ihbody n fun hcut => huncut (Or.inl (Script.isCut_elim.mpr ⟨n, hn, hcut⟩))
        simp only [repeats_iff hbody, exists_eq_left]
        exact hdone _ _
  | case4 node scope isRoot hclosed => exact absurd trivial huncut

end Flow

/-- **A test case runs as its flow does.**  For a root from which no cycle can be reached,
the text written for it prints a structured program, and whatever the page decides, the
program performs exactly the actions that a run of the flow from the root performs. -/
theorem text_runs_as_flow (g : Flow) (root : Node) (t : Target) (level : Nat)
    (hnodup : g.ids.Nodup) (hroot : root ∈ g.nodes)
    (hacyclic : ∀ n, ReflTransGen g.Leads root n → ¬ TransGen g.Leads n n) :
    (g.script root).text t level
        = Line.renderAll level (((g.script root).program t).lines t) ∧
      ∀ (o : Oracle) (h : History),
        g.Runs o (some root) [] h ↔ h = ((g.script root).program t).run o [] := by
  have huncut : ¬ (g.script root).IsCut := by
    rw [Flow.script_isCut_iff hnodup hroot]
    rintro ⟨n, hpath, hcycle⟩
    exact hacyclic n hpath hcycle
  have htidy : (g.script root).IsTidy := g.isTidy_walk _ root {} true
  constructor
  · rw [Script.lines_program t _ htidy]
    rfl
  · intro o h
    rw [Script.run_program]
    exact Flow.runs_iff_run_walk root {} true huncut [] h

/-- A branch of which one arm goes through a loop; the other arm, the body and what
follows the loop all meet at the end. -/
def meetingArms : Flow where
  nodes := [⟨"start", .entry, []⟩, ⟨"ask", .branch, []⟩, ⟨"again", .loop, []⟩,
    ⟨"press", .interact, []⟩, ⟨"end", .capture, []⟩]
  edges := [.flow "e1" "start" "ask", .via "e2" "ask" .whenTrue "again",
    .via "e3" "ask" .whenFalse "end", .via "e4" "again" .body "press",
    .flow "e5" "press" "end", .via "e6" "again" .done "end"]

/-- A flow whose edges all lead from a lower to a higher rank has no cycle. -/
theorem Flow.not_cycle_of_rank {g : Flow} {root : Node} (hroot : root ∈ g.nodes)
    (rank : Node → Nat) (hrank : ∀ n ∈ g.nodes, ∀ m, g.Leads n m → rank n < rank m) :
    ∀ n, ReflTransGen g.Leads root n → ¬ TransGen g.Leads n n := by
  have hmem : ∀ {n m}, n ∈ g.nodes → ReflTransGen g.Leads n m → m ∈ g.nodes := by
    intro n m hn hpath
    induction hpath with
    | refl => exact hn
    | tail _ hleads _ => exact hleads.mem
  have hlt : ∀ {n m}, n ∈ g.nodes → TransGen g.Leads n m → rank n < rank m := by
    intro n m hn hpath
    induction hpath with
    | single hleads => exact hrank _ hn _ hleads
    | tail hbefore hleads ih =>
        exact Nat.lt_trans ih (hrank _ (hmem hn hbefore.to_reflTransGen) _ hleads)
  intro n hpath hcycle
  exact Nat.lt_irrefl _ (hlt (hmem hroot hpath) hcycle)

theorem meetingArms_acyclic : ∀ n, ReflTransGen meetingArms.Leads ⟨"start", .entry, []⟩ n →
    ¬ TransGen meetingArms.Leads n n := by
  refine Flow.not_cycle_of_rank (by simp [meetingArms])
    (fun n => ["start", "ask", "again", "press", "end"].idxOf n.id) ?_
  intro n hn m hleads
  simp only [meetingArms, List.mem_cons, List.not_mem_nil, or_false] at hn
  rcases hn with rfl | rfl | rfl | rfl | rfl
  · cases (Flow.leads_iff_of_action rfl).mp hleads
    decide
  · rcases (Flow.leads_iff_of_branch rfl).mp hleads with htarget | htarget
    · cases htarget
      decide
    · cases htarget
      decide
  · rcases (Flow.leads_iff_of_loop rfl).mp hleads with ⟨-, htarget⟩ | htarget
    · cases htarget
      decide
    · cases htarget
      decide
  · cases (Flow.leads_iff_of_action rfl).mp hleads
    decide
  · cases (Flow.leads_iff_of_action rfl).mp hleads

/-- The page says yes to every question and twice to every loop. -/
def Oracle.twice : Oracle := ⟨fun _ _ => true, fun _ _ => 2⟩

theorem meetingArms_runs_twice :
    meetingArms.Runs .twice (some ⟨"start", .entry, []⟩) []
      ["start", "ask", "again", "press", "end", "press", "end", "end"] := by
  have hend : ∀ h, meetingArms.Runs .twice (some ⟨"end", .capture, []⟩) h (h ++ ["end"]) :=
    fun h => (Flow.runs_iff_of_action rfl).mpr Flow.Runs.stop
  have hpress : ∀ h, meetingArms.Runs .twice (some ⟨"press", .interact, []⟩) h
      (h ++ ["press"] ++ ["end"]) :=
    fun h => (Flow.runs_iff_of_action rfl).mpr (hend _)
  refine (Flow.runs_iff_of_action rfl).mpr ((Flow.runs_iff_of_branch rfl).mpr ?_)
  refine (Flow.runs_iff_of_loop rfl).mpr
    ⟨_, ?_, hend ["start", "ask", "again", "press", "end", "press", "end"]⟩
  exact .succ (hpress ["start", "ask", "again"])
    (.succ (hpress ["start", "ask", "again", "press", "end"]) .zero)

theorem meetingArms_program_run_twice :
    meetingArms.ids.Nodup ∧ ⟨"start", .entry, []⟩ ∈ meetingArms.nodes ∧
      ((meetingArms.script ⟨"start", .entry, []⟩).program .cypress).run .twice []
        = ["start", "ask", "again", "press", "end", "press", "end", "end"] := by
  have hnodup : meetingArms.ids.Nodup := by decide
  have hstart : ⟨"start", .entry, []⟩ ∈ meetingArms.nodes := by simp [meetingArms]
  have hruns := (text_runs_as_flow meetingArms ⟨"start", .entry, []⟩ .cypress 0 hnodup hstart
    meetingArms_acyclic).2 .twice _ |>.mp meetingArms_runs_twice
  exact ⟨hnodup, hstart, hruns.symm⟩

end FlowSuite

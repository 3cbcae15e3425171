/-
A script is cut exactly where the control graph has a cycle.

A walk knows the ids it must not meet again, but it forgets most of them whenever it
goes into the body of a loop, so neither half is plain.

  * A cut is a cycle.  Forgotten ids do no harm here: what a scope still holds was
    passed on the way to the node at hand, so from each of these nodes the control
    graph leads to it.  That is `Trace`, and every step of a walk keeps it.
  * A cycle is cut.  Here nothing has to be said about what the scope holds.  A walk
    that is not cut visits every node the control graph leads to, and each visit
    lowers the rank of the scope; so from a node whose script has no cut there is no
    endless way through the control graph.
-/
import FlowSuite.Proofs.ControlGraph
import FlowSuite.Report.Diagnostic
import Mathlib.Logic.Relation

namespace FlowSuite

open Relation (ReflTransGen TransGen)

/-- Somewhere the script is cut. -/
def Script.IsCut : Script → Prop
  | .stop => False
  | .cut _ => True
  | .action _ _ next => next.IsCut
  | .branch _ _ yes no => yes.IsCut ∨ no.IsCut
  | .loop _ _ body next => body.IsCut ∨ next.IsCut

/-- From the root the control graph leads into a cycle. -/
def Flow.HasCycle (g : Flow) (root : Node) : Prop :=
  ∃ n, ReflTransGen g.Leads root n ∧ TransGen g.Leads n n

theorem Script.isCut_elim {target : Option Node} {f : Node → Script} :
    (target.elim .stop f).IsCut ↔ ∃ n, target = some n ∧ (f n).IsCut := by
  cases target with
  | none => simp [IsCut]
  | some n => simp

/-! ### A cut is a cycle -/

/-- What a walk knows of the way it has come. -/
structure Trace (g : Flow) (root node : Node) (scope : Scope) : Prop where
  mem : node ∈ g.nodes
  reached : ReflTransGen g.Leads root node
  closed : ∀ i, scope.closes i = true → ∃ m ∈ g.nodes, m.id = i ∧ TransGen g.Leads m node

theorem Scope.closes_loopBody {s : Scope} {id i : String}
    (h : ((s.enter id).loopBody id).closes i = true) : i = id ∨ s.closes i = true := by
  simp only [closes, enter, loopBody, List.contains_nil, Bool.false_or, List.contains_cons,
    Bool.or_eq_true, beq_iff_eq] at h ⊢
  rcases h with h | h
  · exact Or.inl h
  · exact Or.inr (Or.inr h)

namespace Trace

variable {g : Flow} {root node next : Node} {scope scope' : Scope}

theorem start (hroot : root ∈ g.nodes) : Trace g root root {} where
  mem := hroot
  reached := ReflTransGen.refl
  closed := by
    intro i hi
    simp [Scope.closes] at hi

/-- A step along an edge keeps the trace, whatever the scope forgets. -/
theorem step (h : Trace g root node scope) (hleads : g.Leads node next)
    (hscope : ∀ i, scope'.closes i = true → i = node.id ∨ scope.closes i = true) :
    Trace g root next scope' where
  mem := hleads.mem
  reached := h.reached.tail hleads
  closed := by
    intro i hi
    rcases hscope i hi with rfl | hi
    · exact ⟨node, h.mem, rfl, TransGen.single hleads⟩
    · obtain ⟨m, hm, hid, hpath⟩ := h.closed i hi
      exact ⟨m, hm, hid, hpath.tail hleads⟩

theorem enter (h : Trace g root node scope) (hleads : g.Leads node next) :
    Trace g root next (scope.enter node.id) := by
  refine h.step hleads ?_
  intro i hi
  simpa using hi

theorem loopBody (h : Trace g root node scope) (hleads : g.Leads node next) :
    Trace g root next ((scope.enter node.id).loopBody node.id) :=
  h.step hleads fun _ => Scope.closes_loopBody

end Trace

namespace Flow

variable {g : Flow} {root : Node} {ids : List String}

theorem hasCycle_of_walk_isCut (hnodup : g.ids.Nodup) (hids : ∀ n ∈ g.nodes, n.id ∈ ids)
    (node : Node) (scope : Scope) (isRoot : Bool) (htrace : Trace g root node scope)
    (hcut : (g.walk ids node scope isRoot).IsCut) : g.HasCycle root := by
  fun_induction Flow.walk g ids node scope isRoot with
  | case1 node scope isRoot hopen inner site a hstep ih =>
      obtain ⟨next, htarget, hcut⟩ := Script.isCut_elim.mp hcut
      have hleads := (leads_iff_of_action hstep).mpr htarget
      exact ih next (htrace.enter hleads) hcut
  | case2 node scope isRoot hopen inner site c hstep ih =>
      rcases hcut with hcut | hcut
      · obtain ⟨next, htarget, hcut⟩ := Script.isCut_elim.mp hcut
        have hleads := (leads_iff_of_branch hstep).mpr (Or.inl htarget)
        exact ih next (htrace.enter hleads) hcut
      · obtain ⟨next, htarget, hcut⟩ := Script.isCut_elim.mp hcut
        have hleads := (leads_iff_of_branch hstep).mpr (Or.inr htarget)
        exact ih next (htrace.enter hleads) hcut
  | case3 node scope isRoot hopen inner site l hstep ihbody ihdone =>
      rcases hcut with hcut | hcut
      · split at hcut
        · rename_i hwired
          obtain ⟨next, htarget, hcut⟩ := Script.isCut_elim.mp hcut
          have hleads := (leads_iff_of_loop hstep).mpr (Or.inl ⟨hwired, htarget⟩)
          exact ihbody next (htrace.loopBody hleads) hcut
        · exact hcut.elim
      · obtain ⟨next, htarget, hcut⟩ := Script.isCut_elim.mp hcut
        have hleads := (leads_iff_of_loop hstep).mpr (Or.inr htarget)
        exact ihdone next (htrace.enter hleads) hcut
  | case4 node scope isRoot hclosed =>
      -- The node is one of the flow, so it is the scope that closes here.
      have hcloses : scope.closes node.id = true := by
        by_contra hopen
        exact hclosed ⟨hids node htrace.mem, by simpa using hopen⟩
      obtain ⟨m, hm, hid, hpath⟩ := htrace.closed node.id hcloses
      rw [eq_of_id_eq hnodup hm htrace.mem hid] at hpath
      exact ⟨node, htrace.reached, hpath⟩

/-! ### A cycle is cut -/

/-- There is no endless way through the control graph from here. -/
def Settles (g : Flow) (n : Node) : Prop :=
  Acc (fun m n => g.Leads n m) n

theorem settles_of_walk (node : Node) (scope : Scope) (isRoot : Bool)
    (huncut : ¬ (g.walk ids node scope isRoot).IsCut) : g.Settles node := by
  fun_induction Flow.walk g ids node scope isRoot with
  | case1 node scope isRoot hopen inner site a hstep ih =>
      refine Acc.intro node fun m hleads => ?_
      have htarget := (leads_iff_of_action hstep).mp hleads
      exact ih m fun hcut => huncut (Script.isCut_elim.mpr ⟨m, htarget, hcut⟩)
  | case2 node scope isRoot hopen inner site c hstep ih =>
      refine Acc.intro node fun m hleads => ?_
      rcases (leads_iff_of_branch hstep).mp hleads with htarget | htarget
      · exact ih m fun hcut => huncut (Or.inl (Script.isCut_elim.mpr ⟨m, htarget, hcut⟩))
      · exact ih m fun hcut => huncut (Or.inr (Script.isCut_elim.mpr ⟨m, htarget, hcut⟩))
  | case3 node scope isRoot hopen inner site l hstep ihbody ihdone =>
      refine Acc.intro node fun m hleads => ?_
      rcases (leads_iff_of_loop hstep).mp hleads with ⟨hwired, htarget⟩ | htarget
      · refine ihbody m fun hcut => huncut (Or.inl ?_)
        rw [if_pos hwired]
        exact Script.isCut_elim.mpr ⟨m, htarget, hcut⟩
      · exact ihdone m fun hcut => huncut (Or.inr (Script.isCut_elim.mpr ⟨m, htarget, hcut⟩))
  | case4 node scope isRoot hclosed => exact absurd trivial huncut

theorem Settles.not_cycle {n : Node} (h : g.Settles n) : ¬ TransGen g.Leads n n := by
  induction h with
  | intro n _ ih =>
      intro hcycle
      obtain ⟨m, hleads, hback⟩ := TransGen.head'_iff.mp hcycle
      exact ih m hleads (TransGen.tail' hback hleads)

theorem Settles.of_reached {n m : Node} (h : g.Settles n)
    (hpath : ReflTransGen g.Leads n m) : g.Settles m := by
  induction hpath with
  | refl => exact h
  | tail _ hleads ih => exact ih.inv hleads

/-- A script is cut if and only if its root leads into a cycle. -/
theorem script_isCut_iff (hnodup : g.ids.Nodup) (hroot : root ∈ g.nodes) :
    (g.script root).IsCut ↔ g.HasCycle root := by
  constructor
  · refine hasCycle_of_walk_isCut hnodup ?_ root {} true (Trace.start hroot)
    intro n hn
    exact List.mem_cons_of_mem _ (mem_ids hn)
  · rintro ⟨n, hpath, hcycle⟩
    by_contra huncut
    exact ((settles_of_walk root {} true huncut).of_reached hpath).not_cycle hcycle

end Flow

/-! ### What the report says of it -/

theorem Problem.kind_eq_cycleTruncated_iff {p : Problem} :
    p.kind = .cycleTruncated ↔ p = .cycle := by
  cases p <;> simp [kind]

/-! The problems of a step are its own: none of them is a cycle. -/

theorem Element.cycle_notMem_problems (e : Element) : Problem.cycle ∉ e.problems := by
  simp [problems]

theorem Check.cycle_notMem_problems (c : Check) (element : Option Element) :
    Problem.cycle ∉ c.problems element := by
  unfold problems
  cases c.question element with
  | error fault => cases fault <;> simp [CheckFault.problem]
  | ok q =>
      cases hq : q.element? with
      | none => simp [hq]
      | some e => simpa [hq] using e.cycle_notMem_problems

theorem Interaction.cycle_notMem_problems (i : Interaction) : Problem.cycle ∉ i.problems := by
  unfold problems
  cases i.gesture with
  | captureText => by_cases h : i.saveTo.isNone <;> simp [h]
  | _ => simp

namespace Target

theorem cycle_notMem_actionProblems (t : Target) (site : Site) (a : Action) :
    Problem.cycle ∉ t.actionProblems site a := by
  cases a with
  | session s =>
      simp only [actionProblems]
      by_cases hroot : site.isRoot
      · rw [if_pos hroot]
        cases t <;> cases s.driver? <;> simp
      · rw [if_neg hroot]
        simp
  | interact i =>
      simp only [actionProblems]
      cases site.element with
      | none => simp
      | some e => simp [e.cycle_notMem_problems, i.cycle_notMem_problems]
  | assertion a =>
      simp only [actionProblems]
      split
      · simp
      · exact a.check.cycle_notMem_problems site.element
  | pause p =>
      cases p with
      | network route => cases t <;> simp [actionProblems, seesNetwork]
      | _ => simp [actionProblems]
  | intercept i => cases t <;> simp [actionProblems, seesNetwork]
  | _ => simp [actionProblems]

theorem cycle_notMem_branchProblems (t : Target) (site : Site) (c : Check) :
    Problem.cycle ∉ t.branchProblems site c := by
  unfold branchProblems
  split
  · simp
  · exact c.cycle_notMem_problems site.element

theorem cycle_notMem_loopProblems (site : Site) (l : Loop) :
    Problem.cycle ∉ Target.loopProblems site l := by
  unfold loopProblems
  cases l.mode with
  | counter => simp
  | unknown raw => simp
  | whileVisible =>
      have hcondition : Problem.cycle ∉ l.condition.loopProblems := by
        cases l.condition <;> simp [Condition.loopProblems]
      cases site.element with
      | none => simp [hcondition]
      | some e => simp [hcondition, e.cycle_notMem_problems]

end Target

theorem Script.cycle_mem_diagnostics_iff (t : Target) (s : Script) :
    (∃ d ∈ s.diagnostics t, d.problem = .cycle) ↔ s.IsCut := by
  induction s with
  | stop => simp [diagnostics, IsCut]
  | cut id => simp [diagnostics, IsCut]
  | action site a next ih =>
      have hown := t.cycle_notMem_actionProblems site a
      simp only [diagnostics, List.mem_append, or_and_right, exists_or, ih]
      simp [IsCut, hown]
  | branch site c yes no ihyes ihno =>
      have hown := t.cycle_notMem_branchProblems site c
      simp only [diagnostics, List.mem_append, or_and_right, exists_or, ihyes, ihno]
      simp [IsCut, hown]
  | loop site l body next ihbody ihnext =>
      have hown := Target.cycle_notMem_loopProblems site l
      simp only [diagnostics, List.mem_append, or_and_right, exists_or, ihbody, ihnext]
      simp [IsCut, hown]

/-- **The report of a script names a cycle if and only if the control graph has one that
can be reached from the root.** -/
theorem cycleTruncated_iff_cycle (g : Flow) (root : Node) (t : Target) (hnodup : g.ids.Nodup)
    (hroot : root ∈ g.nodes) :
    (∃ d ∈ (g.script root).diagnostics t, d.problem.kind = .cycleTruncated) ↔
      ∃ n, ReflTransGen g.Leads root n ∧ TransGen g.Leads n n := by
  simp only [Problem.kind_eq_cycleTruncated_iff]
  rw [Script.cycle_mem_diagnostics_iff, Flow.script_isCut_iff hnodup hroot, Flow.HasCycle]

/-- A loop whose body leads back to it. -/
def returningLoop : Flow where
  nodes := [⟨"again", .loop, []⟩, ⟨"press", .interact, []⟩]
  edges := [.via "e1" "again" .body "press", .flow "e2" "press" "again"]

theorem returningLoop_isReported :
    returningLoop.ids.Nodup ∧ ⟨"again", .loop, []⟩ ∈ returningLoop.nodes ∧
      ∃ d ∈ (returningLoop.script ⟨"again", .loop, []⟩).diagnostics .selenium,
        d.problem.kind = .cycleTruncated := by
  have hnodup : returningLoop.ids.Nodup := by decide
  have hagain : ⟨"again", .loop, []⟩ ∈ returningLoop.nodes := by simp [returningLoop]
  have hbody : returningLoop.Leads ⟨"again", .loop, []⟩ ⟨"press", .interact, []⟩ :=
    (Flow.leads_iff_of_loop rfl).mpr (Or.inl ⟨rfl, rfl⟩)
  have hback : returningLoop.Leads ⟨"press", .interact, []⟩ ⟨"again", .loop, []⟩ :=
    (Flow.leads_iff_of_action rfl).mpr rfl
  refine ⟨hnodup, hagain, ?_⟩
  exact (cycleTruncated_iff_cycle _ _ .selenium hnodup hagain).mpr
    ⟨_, ReflTransGen.refl, (TransGen.single hbody).tail hback⟩

end FlowSuite

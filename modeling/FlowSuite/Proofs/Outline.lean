/-
Fields do not steer.

Which steps a suite writes follows from the nodes, their kinds and the edges between
them.  The fields of a step say what its code is and what is wrong with it, but no field
makes a walk pass over what follows the step: not a name that nothing is called by, not a
variable that is missing, not a page element that is not wired in, and not something the
target cannot do.  Only the way a loop ends counts, since a loop that is to watch an
element and has none is skipped.

The outline of a script is what is left of it without the fields: the ids of its steps,
of its cuts and of the entry points that it meets on its way.  Walks through two flows
that are alike have the same outline, by induction along both at once, and what a suite
tells of its control flow is read off the outline.
-/
import FlowSuite.Proofs.Nesting
import FlowSuite.Suite.Project
import Mathlib.Data.List.Forall2

namespace FlowSuite

/-! ### Flows that differ in their fields -/

/-- A loop that goes on as long as an element is seen. -/
def Node.watches (n : Node) : Bool :=
  n.kind == .loop && (Loop.ofData n.data).mode == .whileVisible

/-- Nodes that differ in their fields only, and not in whether they watch an element. -/
structure Node.Alike (n n' : Node) : Prop where
  id : n.id = n'.id
  kind : n.kind = n'.kind
  watches : n.watches = n'.watches

/-- Flows that differ in the fields of their nodes only. -/
structure Flow.Alike (g g' : Flow) : Prop where
  edges : g.edges = g'.edges
  nodes : List.Forall₂ Node.Alike g.nodes g'.nodes

/-! ### Outlines -/

/-- A place in a script, without the fields of its step. -/
inductive Mark where
  /-- A step is written. -/
  | step (id : String)
  /-- The step is an entry point, and not the one that the script starts with. -/
  | misplaced (id : String)
  /-- The script is cut. -/
  | cut (id : String)
  deriving DecidableEq, Repr

/-- Whether an action is the start of a test case. -/
def Action.isSession : Action → Bool
  | .session _ => true
  | _ => false

/-- The marks of a step with an action. -/
def Mark.ofAction (id : String) (isEntry isRoot : Bool) : List Mark :=
  .step id :: (if isEntry && !isRoot then [.misplaced id] else [])

/-- The outline of a script, in the order in which it is written. -/
def Script.outline : Script → List Mark
  | .stop => []
  | .cut id => [.cut id]
  | .action site a next => Mark.ofAction site.id a.isSession site.isRoot ++ next.outline
  | .branch site _ yes no => .step site.id :: (yes.outline ++ no.outline)
  | .loop site _ body next => .step site.id :: (body.outline ++ next.outline)

/-- The step that a mark is of, if one is written. -/
def Mark.step? : Mark → Option String
  | .step id => some id
  | _ => none

/-- The ids of the steps that are written, in order. -/
def Script.written (s : Script) : List String :=
  s.outline.filterMap Mark.step?

/-! ### Alike flows have alike look-ups -/

theorem Node.isSession_of_step {n : Node} {a : Action} (h : n.step = .action a) :
    a.isSession = (n.kind == .entry) := by
  unfold step Step.ofData at h
  cases hkind : n.kind with
  | branch => simp [hkind] at h
  | loop => simp [hkind] at h
  | _ =>
      simp only [hkind, Step.action.injEq] at h
      rw [← h]
      rfl

namespace Flow.Alike

variable {g g' : Flow}

theorem node? (h : g.Alike g') (id : String) :
    Option.Rel Node.Alike (g.node? id) (g'.node? id) := by
  unfold Flow.node?
  have hnodes := h.nodes
  generalize g.nodes = nodes, g'.nodes = nodes' at hnodes
  induction hnodes with
  | nil => exact .none
  | @cons n n' ns ns' hn _ ih =>
      rw [List.find?_cons, List.find?_cons, ← hn.id]
      cases n.id == id with
      | true => exact .some hn
      | false => exact ih

theorem target? (h : g.Alike g') (id : String) (outlet : Outlet) :
    Option.Rel Node.Alike (g.target? id outlet) (g'.target? id outlet) := by
  unfold Flow.target?
  rw [← h.edges]
  induction g.edges with
  | nil => exact .none
  | cons e es ih =>
      rw [List.findSome?_cons, List.findSome?_cons]
      split_ifs with hmatch
      · have hfound := h.node? e.target
        generalize g.node? e.target = found, g'.node? e.target = found' at hfound
        cases hfound with
        | none => exact ih
        | some hn => exact .some hn
      · exact ih

/-- Whether an element is wired in is told by the edges and the kinds. -/
theorem isSome_elementOf (h : g.Alike g') (id : String) :
    (g.elementOf id).isSome = (g'.elementOf id).isSome := by
  unfold Flow.elementOf Flow.element?
  rw [← h.edges, Option.isSome_map, Option.isSome_map]
  induction g.edges with
  | nil => rfl
  | cons e es ih =>
      rw [List.findSome?_cons, List.findSome?_cons]
      split_ifs with hmatch
      · have hfound := h.node? e.source
        generalize g.node? e.source = found, g'.node? e.source = found' at hfound
        cases hfound with
        | none => exact ih
        | @some n n' hn =>
            simp only [Option.filter_some, ← hn.kind]
            cases n.kind == .element with
            | true => rfl
            | false => exact ih
      · exact ih

theorem entries (h : g.Alike g') : List.Forall₂ Node.Alike g.entries g'.entries := by
  refine List.rel_filter ?_ h.nodes
  intro n n' hn
  simp only [hn.kind]

theorem entries_eq_nil_iff (h : g.Alike g') : g.entries = [] ↔ g'.entries = [] := by
  rw [← List.length_eq_zero_iff, ← List.length_eq_zero_iff, h.entries.length_eq]

/-- What is the same for alike nodes is the same along a list of them. -/
theorem map_eq {α : Type} {ns ns' : List Node} (h : List.Forall₂ Node.Alike ns ns')
    {f f' : Node → α} (hf : ∀ n n', n.Alike n' → f n = f' n') : ns.map f = ns'.map f' := by
  rw [← List.forall₂_eq_eq_eq, List.forall₂_map_left_iff, List.forall₂_map_right_iff]
  exact h.imp hf

theorem ids_eq (h : g.Alike g') : g.ids = g'.ids :=
  map_eq h.nodes fun _ _ hn => hn.id

end Flow.Alike

namespace Node.Alike

variable {n n' : Node}

theorem step_action (h : n.Alike n') {a : Action} (hstep : n.step = .action a) :
    ∃ a', n'.step = .action a' ∧ a.isSession = a'.isSession := by
  obtain ⟨hbranch, hloop⟩ := Node.kind_of_action hstep
  obtain ⟨a', hstep'⟩ := Node.step_of_other (h.kind ▸ hbranch) (h.kind ▸ hloop)
  refine ⟨a', hstep', ?_⟩
  rw [Node.isSession_of_step hstep, Node.isSession_of_step hstep', h.kind]

theorem step_branch (h : n.Alike n') {c : Check} (hstep : n.step = .branch c) :
    ∃ c', n'.step = .branch c' :=
  ⟨_, Node.step_of_branch (h.kind ▸ Node.kind_of_branch hstep)⟩

theorem step_loop (h : n.Alike n') {l : Loop} (hstep : n.step = .loop l) :
    ∃ l', n'.step = .loop l' ∧
      ∀ element element' : Option Element, element.isSome = element'.isSome →
        l.isWired element = l'.isWired element' := by
  obtain ⟨hkind, rfl⟩ := Node.kind_of_loop hstep
  refine ⟨_, Node.step_of_loop (h.kind ▸ hkind), ?_⟩
  intro element element' hsome
  have hmode : ((Loop.ofData n.data).mode == .whileVisible)
      = ((Loop.ofData n'.data).mode == .whileVisible) := by
    simpa [Node.watches, hkind, ← h.kind] using h.watches
  simp only [Loop.isWired, bne, hmode, hsome]

end Node.Alike

/-! ### Walks through alike flows -/

theorem Script.outline_elim {target target' : Option Node} {f f' : Node → Script}
    (h : Option.Rel Node.Alike target target')
    (hf : ∀ n n', n.Alike n' → (f n).outline = (f' n').outline) :
    (target.elim .stop f).outline = (target'.elim .stop f').outline := by
  cases h with
  | none => rfl
  | some hn => exact hf _ _ hn

/-- **Walks through alike flows have the same outline**, wherever they have been. -/
theorem Flow.Alike.outline_walk {g g' : Flow} (h : g.Alike g') (ids : List String)
    (node node' : Node) (scope : Scope) (isRoot : Bool) (hnode : node.Alike node') :
    (g.walk ids node scope isRoot).outline = (g'.walk ids node' scope isRoot).outline := by
  fun_induction Flow.walk g ids node scope isRoot generalizing node' with
  | case1 node scope isRoot hopen inner site a hstep ih =>
      obtain ⟨a', hstep', hsession⟩ := hnode.step_action hstep
      have hnext := Script.outline_elim (h.target? node.id .flow) ih
      rw [Flow.walk, dif_pos (hnode.id ▸ hopen)]
      simp only [hstep', Script.outline, ← hsession, ← hnode.id]
      rw [hnext]
  | case2 node scope isRoot hopen inner site c hstep ih =>
      obtain ⟨c', hstep'⟩ := hnode.step_branch hstep
      have hyes := Script.outline_elim (h.target? node.id .whenTrue) ih
      have hno := Script.outline_elim (h.target? node.id .whenFalse) ih
      rw [Flow.walk, dif_pos (hnode.id ▸ hopen)]
      simp only [hstep', Script.outline, ← hnode.id]
      rw [hyes, hno]
  | case3 node scope isRoot hopen inner site l hstep ihbody ihdone =>
      obtain ⟨l', hstep', hwired⟩ := hnode.step_loop hstep
      have hbody := Script.outline_elim (h.target? node.id .body) ihbody
      have hdone := Script.outline_elim (h.target? node.id .done) ihdone
      have hsame := hwired _ _ (h.isSome_elementOf node.id)
      rw [Flow.walk, dif_pos (hnode.id ▸ hopen)]
      simp only [hstep', Script.outline, ← hnode.id, ← hsame]
      rw [hdone]
      congr 2
      split_ifs
      · exact hbody
      · rfl
  | case4 node scope isRoot hclosed =>
      rw [Flow.walk, dif_neg (hnode.id ▸ hclosed)]
      simp only [Script.outline, hnode.id]

/-! ### What a report says of the way control takes -/

/-- A problem with the way control takes, and not with what a step does. -/
def Problem.isControl (p : Problem) : Bool :=
  p.kind == .cycleTruncated || p.kind == .misplacedStep

/-- What is reported of the way control takes: the node and the kind of its problem. -/
def Diagnostic.control? (d : Diagnostic) : Option (String × ProblemKind) :=
  if d.problem.isControl then some (d.node, d.problem.kind) else none

/-- The same, read off a mark. -/
def Mark.control? : Mark → Option (String × ProblemKind)
  | .step _ => none
  | .misplaced id => some (id, .misplacedStep)
  | .cut id => some (id, .cycleTruncated)

/-! Apart from an entry point that is met on the way, no step has a problem of that sort. -/

theorem Element.control_problems (e : Element) : e.problems.filter Problem.isControl = [] := by
  unfold problems
  cases e.unknownStrategy <;> rfl

theorem Interaction.control_problems (i : Interaction) :
    i.problems.filter Problem.isControl = [] := by
  unfold problems
  split
  · split <;> rfl
  · rfl
  · rfl

theorem Check.control_problems (c : Check) (element : Option Element) :
    (c.problems element).filter Problem.isControl = [] := by
  unfold problems
  split
  · rename_i fault _
    cases fault <;> rfl
  · split
    · exact Element.control_problems _
    · rfl

namespace Target

theorem control_actionProblems (t : Target) (site : Site) (a : Action) :
    (t.actionProblems site a).filter Problem.isControl
      = if a.isSession && !site.isRoot then [.entryMidFlow] else [] := by
  cases a with
  | session s =>
      simp only [actionProblems, Action.isSession, Bool.true_and]
      cases site.isRoot with
      | true => cases t <;> cases s.driver? <;> rfl
      | false => rfl
  | interact i =>
      simp only [actionProblems]
      cases site.element with
      | none => rfl
      | some e =>
          simp only [List.filter_append, e.control_problems, i.control_problems]
          rfl
  | assertion a =>
      simp only [actionProblems]
      split
      · rfl
      · exact a.check.control_problems site.element
  | pause p => cases t <;> cases p <;> rfl
  | intercept i => cases t <;> rfl
  | element | screenshot | assign | fixture | command => rfl

theorem control_branchProblems (t : Target) (site : Site) (c : Check) :
    (t.branchProblems site c).filter Problem.isControl = [] := by
  unfold branchProblems
  split
  · rfl
  · exact c.control_problems site.element

theorem control_loopProblems (site : Site) (l : Loop) :
    (loopProblems site l).filter Problem.isControl = [] := by
  have hcondition : l.condition.loopProblems.filter Problem.isControl = [] := by
    cases l.condition <;> rfl
  unfold loopProblems
  split
  · rfl
  · rfl
  · rw [List.filter_append, hcondition]
    split
    · exact Element.control_problems _
    · rfl

end Target

/-- Of the problems of one node, those of that sort are told. -/
theorem filterMap_control? (id : String) (ps : List Problem) :
    (ps.map (Diagnostic.mk id)).filterMap Diagnostic.control?
      = (ps.filter Problem.isControl).map fun p => (id, p.kind) := by
  induction ps with
  | nil => rfl
  | cons p ps ih =>
      cases hp : p.isControl with
      | true => simp [Diagnostic.control?, hp, ih]
      | false => simp [Diagnostic.control?, hp, ih]

namespace Script

/-- A report says of the way control takes what the outline does, for either target. -/
theorem filterMap_diagnostics (t : Target) (s : Script) :
    (s.diagnostics t).filterMap Diagnostic.control? = s.outline.filterMap Mark.control? := by
  induction s with
  | stop => rfl
  | cut id => rfl
  | action site a next ih =>
      have hown : (Mark.ofAction site.id a.isSession site.isRoot).filterMap Mark.control?
          = (if a.isSession && !site.isRoot then [Problem.entryMidFlow] else []).map
              fun p => (site.id, p.kind) := by
        unfold Mark.ofAction
        split <;> rfl
      simp only [diagnostics, outline, List.filterMap_append, filterMap_control?,
        Target.control_actionProblems, hown, ih]
  | branch site c yes no ihyes ihno =>
      simp only [diagnostics, outline, List.filterMap_append, filterMap_control?,
        Target.control_branchProblems, List.filterMap_cons, Mark.control?, List.map_nil,
        List.nil_append, ihyes, ihno]
  | loop site l body next ihbody ihnext =>
      simp only [diagnostics, outline, List.filterMap_append, filterMap_control?,
        Target.control_loopProblems, List.filterMap_cons, Mark.control?, List.map_nil,
        List.nil_append, ihbody, ihnext]

/-- The steps of a script are those that are written. -/
theorem length_written (s : Script) : s.written.length = s.size := by
  induction s with
  | stop => rfl
  | cut id => rfl
  | action site a next ih =>
      have hown : (Mark.ofAction site.id a.isSession site.isRoot).filterMap Mark.step?
          = [site.id] := by
        unfold Mark.ofAction
        split <;> rfl
      rw [written, outline, List.filterMap_append, hown, size, ← ih]
      rfl
  | branch site c yes no ihyes ihno =>
      simp only [written, outline, List.filterMap_cons, Mark.step?, List.filterMap_append,
        List.length_cons, List.length_append] at ihyes ihno ⊢
      rw [ihyes, ihno, size]
  | loop site l body next ihbody ihnext =>
      simp only [written, outline, List.filterMap_cons, Mark.step?, List.filterMap_append,
        List.length_cons, List.length_append] at ihbody ihnext ⊢
      rw [ihbody, ihnext, size]

end Script

/-! ### What follows a step is written -/

namespace Script

theorem infix_arm (t : Target) (f : Fork) {s p : Script} (h : p ∈ s.part) :
    shift f.depth (p.lines t) <:+: f.arm s (s.lines t) := by
  cases s with
  | stop => cases h
  | _ =>
      obtain rfl := List.mem_singleton.mp h
      exact List.infix_rfl

theorem infix_of_mem_part (t : Target) {s p : Script} (h : p ∈ s.part) (depth : Nat) :
    shift depth (p.lines t) <:+: shift depth (s.lines t) := by
  cases s with
  | stop => cases h
  | _ =>
      obtain rfl := List.mem_singleton.mp h
      exact List.infix_rfl

theorem shift_zero (ls : List Line) : shift 0 ls = ls :=
  List.map_id ls

/-- The lines of what stands right inside a script stand in its lines, as one block. -/
theorem infix_of_mem_parts (t : Target) {s p : Script} (h : p ∈ s.parts) :
    ∃ depth, shift depth (p.lines t) <:+: s.lines t := by
  cases s with
  | stop => cases h
  | cut id => cases h
  | action site a next =>
      refine ⟨0, (infix_of_mem_part t h 0).trans ?_⟩
      rw [shift_zero]
      exact (List.suffix_append _ _).isInfix
  | branch site c yes no =>
      refine ⟨(t.fork c site.element).depth, ?_⟩
      rcases List.mem_append.mp h with h | h
      · exact (infix_arm t _ h).trans <| (List.infix_append _ _ _).trans <|
          (List.prefix_append _ _).isInfix.trans (List.prefix_append _ _).isInfix
      · exact (infix_arm t _ h).trans (List.infix_append _ _ _)
  | loop site l body next =>
      rcases List.mem_append.mp h with h | h
      · refine ⟨(t.rounds site l).depth, (infix_of_mem_part t h _).trans ?_⟩
        exact (List.infix_append _ _ _).trans (List.prefix_append _ _).isInfix
      · refine ⟨0, (infix_of_mem_part t h 0).trans ?_⟩
        rw [shift_zero]
        exact (List.suffix_append _ _).isInfix

end Script

namespace Flow

theorem mem_follow {g : Flow} {id : String} {outlet : Outlet} {scope : Scope} {m : Node}
    (h : g.target? id outlet = some m) : ⟨m, scope⟩ ∈ g.follow id outlet scope := by
  simp [follow, h]

/-- A visit that closes no cycle goes on to everything that control leads to. -/
theorem exists_visit_of_leads {g : Flow} {v : Visit} {m : Node}
    (hopen : v.scope.closes v.node.id = false) (hleads : g.Leads v.node m) :
    ∃ w ∈ g.visits v, w.node = m := by
  have hnot : ¬ v.scope.closes v.node.id = true := by simp [hopen]
  unfold visits
  rw [if_neg hnot]
  cases hstep : v.node.step with
  | action a =>
      have htarget := (leads_iff_of_action hstep).mp hleads
      exact ⟨_, mem_follow htarget, rfl⟩
  | branch c =>
      rcases (leads_iff_of_branch hstep).mp hleads with htarget | htarget
      · exact ⟨_, List.mem_append_left _ (mem_follow htarget), rfl⟩
      · exact ⟨_, List.mem_append_right _ (mem_follow htarget), rfl⟩
  | loop l =>
      rcases (leads_iff_of_loop hstep).mp hleads with ⟨hwired, htarget⟩ | htarget
      · refine ⟨⟨m, (v.scope.enter v.node.id).loopBody v.node.id⟩, List.mem_append_left _ ?_, rfl⟩
        rw [if_pos hwired]
        exact mem_follow htarget
      · exact ⟨_, List.mem_append_right _ (mem_follow htarget), rfl⟩

end Flow

/-! ### Suites -/

/-- What is told of the way control takes through a suite: of each case the entry point,
how many steps it has and which, and the problems of all cases. -/
structure ControlReport where
  cases : List (String × Nat × List String)
  problems : List (String × ProblemKind)
  deriving DecidableEq, Repr

def Suite.control (s : Suite) : ControlReport where
  cases := s.cases.map fun c => (c.entry, c.steps, c.script.written)
  problems := s.diagnostics.filterMap Diagnostic.control?

/-- The same, read off the outlines of a flow. -/
def Flow.control (g : Flow) : ControlReport where
  cases := g.entries.map fun n => (n.id, (g.script n).size, (g.script n).written)
  problems := g.entries.flatMap fun n => (g.script n).outline.filterMap Mark.control?

theorem Suite.control_eq {p : Project} {s : Suite} (h : p.suite = .ok s) :
    s.control = p.flow.control := by
  rw [Project.eq_of_suite_eq_ok h, control, Flow.control, diagnostics, List.filterMap_flatMap]
  congr 1
  · exact p.map_zipWith_case _ _ fun _ _ => rfl
  · exact p.flatMap_zipWith_case _ _ fun _ _ => Script.filterMap_diagnostics _ _

namespace Flow.Alike

variable {g g' : Flow}

theorem outline_script (h : g.Alike g') {n n' : Node} (hn : n.Alike n') :
    (g.script n).outline = (g'.script n').outline := by
  rw [Flow.script, Flow.script, ← hn.id, ← h.ids_eq]
  exact h.outline_walk _ n n' {} true hn

theorem control_eq (h : g.Alike g') : g.control = g'.control := by
  rw [Flow.control, Flow.control, List.flatMap_def, List.flatMap_def]
  congr 1
  · refine map_eq h.entries fun n n' hn => ?_
    rw [← Script.length_written, ← Script.length_written, Script.written, Script.written,
      h.outline_script hn, hn.id]
  · refine congrArg List.flatten (map_eq h.entries fun n n' hn => ?_)
    rw [h.outline_script hn]

end Flow.Alike

/-- **Fields do not steer.**  Two projects whose flows differ in fields only, and not in which
loops watch an element, have suites with the same entry points, the same steps and the same
reports of the way control takes, whatever their targets; or neither of them has a suite.
And whatever is wrong with a step, the script of everything that control leads to from it is
a part of its script, and is written as one block among its lines. -/
theorem fields_do_not_steer (p p' : Project) (h : p.flow.Alike p'.flow) :
    p.suite.map Suite.control = p'.suite.map Suite.control ∧
    ∀ root ∈ p.flow.nodes, ∀ v : Visit, v.node ∈ p.flow.nodes →
      v.scope.closes v.node.id = false → ∀ m, p.flow.Leads v.node m → ∀ isRoot, ∃ scope,
        let whole := p.flow.walk (root.id :: p.flow.ids) v.node v.scope isRoot
        let next := p.flow.walk (root.id :: p.flow.ids) m scope false
        next ∈ whole.parts ∧
          ∀ t : Target, ∃ depth, shift depth (next.lines t) <:+: whole.lines t := by
  refine ⟨?_, ?_⟩
  · by_cases hnone : p.flow.entries = []
    · have hnone' := h.entries_eq_nil_iff.mp hnone
      rw [Project.suite_eq_error hnone, Project.suite_eq_error hnone']
    · have hsome' := mt h.entries_eq_nil_iff.mpr hnone
      obtain ⟨s, hs⟩ : ∃ s, p.suite = .ok s := ⟨_, Project.suite_eq_ok hnone⟩
      obtain ⟨s', hs'⟩ : ∃ s, p'.suite = .ok s := ⟨_, Project.suite_eq_ok hsome'⟩
      rw [hs, hs', Except.map, Except.map, Suite.control_eq hs, Suite.control_eq hs',
        h.control_eq]
  · intro root _ v hv hopen m hleads isRoot
    obtain ⟨w, hw, rfl⟩ := Flow.exists_visit_of_leads hopen hleads
    have hnext : p.flow.walk (root.id :: p.flow.ids) w.node w.scope false
        ∈ (p.flow.walk (root.id :: p.flow.ids) v.node v.scope isRoot).parts := by
      rw [Flow.walk_parts v isRoot (List.mem_cons_of_mem _ (Flow.mem_ids hv))]
      exact List.mem_map_of_mem hw
    exact ⟨w.scope, hnext, fun t => Script.infix_of_mem_parts t hnext⟩

/-- A loop that watches a button and holds a step that leads to another entry point, from
where the flow returns to the step.  The fields of the entry points and of the step are open. -/
def returningFlow (start press : Object) : Flow where
  nodes := [⟨"start", .entry, start⟩, ⟨"button", .element, []⟩,
    ⟨"watch", .loop, [("loopType", .string "while")]⟩, ⟨"press", .interact, press⟩,
    ⟨"again", .entry, start⟩]
  edges := [.flow "e1" "start" "watch", .data "e2" "button" "watch",
    .via "e3" "watch" .body "press", .flow "e4" "press" "again", .flow "e5" "again" "press"]

theorem returningFlow_alike (start press start' press' : Object) :
    (returningFlow start press).Alike (returningFlow start' press') :=
  ⟨rfl, .cons ⟨rfl, rfl, rfl⟩ <| .cons ⟨rfl, rfl, rfl⟩ <| .cons ⟨rfl, rfl, rfl⟩ <|
    .cons ⟨rfl, rfl, rfl⟩ <| .cons ⟨rfl, rfl, rfl⟩ .nil⟩

/-- An unknown browser and an unknown gesture change nothing of the way control takes. -/
theorem returningFlow_control :
    (returningFlow [] []).Alike
      (returningFlow [("browser", .string "Lynx")] [("action", .string "shake")]) ∧
    (Project.suite ⟨returningFlow [("browser", .string "Lynx")]
        [("action", .string "shake")], .selenium, "Return"⟩).map Suite.control
      = .ok
        { cases := [("start", 4, ["start", "watch", "press", "again"]),
            ("again", 2, ["again", "press"])]
          problems := [("again", .misplacedStep), ("press", .cycleTruncated),
            ("again", .cycleTruncated)] } := by
  have halike := returningFlow_alike [] [] [("browser", .string "Lynx")]
    [("action", .string "shake")]
  have hsame := fields_do_not_steer ⟨returningFlow [] [], .cypress, "Return"⟩
    ⟨_, .selenium, "Return"⟩ halike
  refine ⟨halike, hsame.1.symm.trans ?_⟩
  decide +kernel

end FlowSuite

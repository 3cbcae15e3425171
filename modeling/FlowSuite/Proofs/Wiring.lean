/-
Which edges of a flow count.

Edges compete for slots.  An edge into a flow inlet wants the outlet that it leaves, one
into a data inlet the place for an element of the step that it enters.  Of all edges that
want a slot the first one gets it that brings something there: a node to go on to, or a
page element.  An edge that names a node that does not exist brings nothing.

So a flow can be pruned to the edges that get their slots, and its nodes can be put into
any order that keeps the entry points as they are, and what is made of it stays the same.
A look-up in the pruned list finds what it found before, by induction along the edges; the
walk looks at a flow through its look-ups only.

The two sorts of slots are apart.  An edge to an element never takes the outlet it leaves
from an edge that hands on control, although both name the same outlet.
-/
import FlowSuite.Proofs.ControlGraph
import FlowSuite.Suite.Project

namespace FlowSuite

/-- What edges compete for. -/
inductive Slot where
  /-- An outlet of a step. -/
  | outlet (step : String) (outlet : Outlet)
  /-- A step's place for a page element. -/
  | element (step : String)
  deriving DecidableEq, Repr

/-- The step that a slot belongs to. -/
def Slot.step : Slot → String
  | .outlet step _ => step
  | .element step => step

/-- The slot that an edge wants. -/
def Edge.slot (e : Edge) : Slot :=
  match e.inlet with
  | .flow => .outlet e.source e.outlet
  | .data => .element e.target

/-- Edges that want the same slot. -/
def Edge.rivals (e e' : Edge) : Bool :=
  e.slot == e'.slot

namespace Flow

/-- What an edge brings to its slot. -/
def brings (g : Flow) (e : Edge) : Option Node :=
  match e.inlet with
  | .flow => g.node? e.target
  | .data => (g.node? e.source).filter (·.kind == .element)

/-- Both ends of the edge are nodes, and one into a data inlet starts at an element. -/
def resolves (g : Flow) (e : Edge) : Bool :=
  (g.node? e.source).isSome && (g.node? e.target).isSome && (g.brings e).isSome

/-- The edges that survive, after others that did.  An edge goes if it does not resolve or
if a survivor before it is its rival. -/
def prune (g : Flow) (rivals : Edge → Edge → Bool) : List Edge → List Edge → List Edge
  | _, [] => []
  | kept, e :: es =>
      if g.resolves e && !kept.any (rivals e) then e :: g.prune rivals (e :: kept) es
      else g.prune rivals kept es

/-! ### Look-ups by slot -/

/-- What the first edge that brings something brings to a slot. -/
def filling (g : Flow) (slot : Slot) (es : List Edge) : Option Node :=
  es.findSome? fun e => if e.slot = slot then g.brings e else none

variable {g g' : Flow}

theorem target?_eq_filling (g : Flow) (id : String) (outlet : Outlet) :
    g.target? id outlet = g.filling (.outlet id outlet) g.edges := by
  unfold target? filling
  congr 1
  funext e
  cases hinlet : e.inlet with
  | flow => simp [Edge.slot, brings, hinlet]
  | data => simp [Edge.slot, hinlet]

theorem element?_eq_filling (g : Flow) (id : String) :
    g.element? id = g.filling (.element id) g.edges := by
  unfold element? filling
  congr 1
  funext e
  cases hinlet : e.inlet with
  | flow => simp [Edge.slot, hinlet]
  | data => simp [Edge.slot, brings, hinlet]

theorem isSome_node? {id : String} (h : id ∈ g.ids) : (g.node? id).isSome = true := by
  obtain ⟨n, hn, rfl⟩ := List.mem_map.mp h
  exact List.find?_isSome.mpr ⟨n, hn, by simp⟩

/-- For the slots of the nodes it is enough that an edge brings something. -/
theorem resolves_eq {e : Edge} (h : e.slot.step ∈ g.ids) : g.resolves e = (g.brings e).isSome := by
  have hnear := isSome_node? h
  unfold resolves
  cases hinlet : e.inlet with
  | flow =>
      have hsource : (g.node? e.source).isSome = true := by
        simpa [Edge.slot, Slot.step, hinlet] using hnear
      simp [brings, hinlet, hsource]
  | data =>
      have htarget : (g.node? e.target).isSome = true := by
        simpa [Edge.slot, Slot.step, hinlet] using hnear
      cases hsource : g.node? e.source with
      | none => simp [brings, hinlet, hsource]
      | some n => simp [htarget]

/-- **A slot is filled by the same edge in the pruned list**, if no survivor so far wants it. -/
theorem filling_prune {slot : Slot} (hstep : slot.step ∈ g.ids) (es : List Edge) :
    ∀ kept : List Edge, (∀ e ∈ kept, e.slot ≠ slot) →
      g.filling slot (g.prune Edge.rivals kept es) = g.filling slot es := by
  unfold filling
  induction es with
  | nil => intro kept _; rfl
  | cons e es ih =>
      intro kept hkept
      by_cases hslot : e.slot = slot
      · have hnone : kept.any e.rivals = false := by
          simp only [List.any_eq_false, Edge.rivals, beq_iff_eq]
          intro e' he' hsame
          exact hkept e' he' (hsame.symm.trans hslot)
        have hresolves : g.resolves e = (g.brings e).isSome := resolves_eq (hslot ▸ hstep)
        rw [prune, hnone, hresolves]
        cases hbrings : g.brings e with
        | none => simp [hslot, hbrings, ih kept hkept]
        | some n => simp [hslot, hbrings]
      · rw [prune, List.findSome?_cons, if_neg hslot]
        split
        · rw [List.findSome?_cons, if_neg hslot]
          refine ih (e :: kept) ?_
          intro e' he'
          rcases List.mem_cons.mp he' with rfl | he'
          · exact hslot
          · exact hkept e' he'
        · exact ih kept hkept

/-! ### The order of the nodes -/

/-- In a flow whose ids are distinct a node is found by its id. -/
theorem node?_eq_some_iff (hnodup : g.ids.Nodup) {id : String} {n : Node} :
    g.node? id = some n ↔ n ∈ g.nodes ∧ n.id = id := by
  constructor
  · intro h
    exact ⟨mem_of_node? h, by simpa using List.find?_some h⟩
  · rintro ⟨hn, rfl⟩
    obtain ⟨m, hm⟩ := Option.isSome_iff_exists.mp (isSome_node? (mem_ids hn))
    have hid : m.id = n.id := by simpa using List.find?_some hm
    rw [hm, eq_of_id_eq hnodup (mem_of_node? hm) hn hid]

theorem node?_perm (hnodup : g.ids.Nodup) (hperm : g'.nodes.Perm g.nodes) (id : String) :
    g'.node? id = g.node? id := by
  have hnodup' : g'.ids.Nodup := (hperm.map _).nodup_iff.mpr hnodup
  apply Option.ext
  intro n
  rw [node?_eq_some_iff hnodup, node?_eq_some_iff hnodup', hperm.mem_iff]

/-! ### Flows that look the same from their nodes -/

/-- Every look-up that starts at a node has the same outcome in both flows, and they start
the same cases. -/
structure LooksLike (g' g : Flow) : Prop where
  target? : ∀ n ∈ g.nodes, ∀ outlet, g'.target? n.id outlet = g.target? n.id outlet
  element? : ∀ n ∈ g.nodes, g'.element? n.id = g.element? n.id
  ids : ∀ n ∈ g.nodes, n.id ∈ g'.ids
  entries : g'.entries = g.entries

theorem looksLike_of_pruned (hnodup : g.ids.Nodup)
    (hedges : g'.edges = g.prune Edge.rivals [] g.edges)
    (hnodes : g'.nodes.Perm g.nodes) (hentries : g'.entries = g.entries) :
    g'.LooksLike g := by
  have hbrings : g'.brings = g.brings := by
    funext e
    simp only [brings, node?_perm hnodup hnodes]
  have hfilling : ∀ slot : Slot, slot.step ∈ g.ids →
      g'.filling slot g'.edges = g.filling slot g.edges := by
    intro slot hstep
    rw [← filling_prune hstep g.edges [] (by simp), hedges]
    simp only [filling, hbrings]
  refine ⟨?_, ?_, ?_, hentries⟩
  · intro n hn outlet
    rw [target?_eq_filling, target?_eq_filling]
    exact hfilling (.outlet n.id outlet) (mem_ids hn)
  · intro n hn
    rw [element?_eq_filling, element?_eq_filling]
    exact hfilling (.element n.id) (mem_ids hn)
  · intro n hn
    exact mem_ids (hnodes.mem_iff.mpr hn)

namespace LooksLike

theorem elim_congr {target : Option Node} {f f' : Node → Script}
    (h : ∀ n, target = some n → f n = f' n) : target.elim .stop f = target.elim .stop f' := by
  cases target with
  | none => rfl
  | some n => exact h n rfl

/-- Walks from the same node are the same, if they may meet all nodes. -/
theorem walk_eq (h : g'.LooksLike g) {ids ids' : List String} (hids : ∀ n ∈ g.nodes, n.id ∈ ids)
    (hids' : ∀ n ∈ g.nodes, n.id ∈ ids') (node : Node) (scope : Scope) (isRoot : Bool)
    (hmem : node ∈ g.nodes) :
    g'.walk ids' node scope isRoot = g.walk ids node scope isRoot := by
  have helement : ∀ n ∈ g.nodes, g'.elementOf n.id = g.elementOf n.id := by
    intro n hn
    rw [elementOf, elementOf, h.element? n hn]
  fun_induction Flow.walk g ids node scope isRoot with
  | case1 node scope isRoot hopen inner site a hstep ih =>
      rw [Flow.walk, dif_pos ⟨hids' node hmem, hopen.2⟩]
      simp only [hstep, h.target? node hmem, helement node hmem]
      rw [elim_congr fun n hn => ih n (mem_of_target? hn)]
  | case2 node scope isRoot hopen inner site c hstep ih =>
      rw [Flow.walk, dif_pos ⟨hids' node hmem, hopen.2⟩]
      simp only [hstep, h.target? node hmem, helement node hmem]
      rw [elim_congr fun n hn => ih n (mem_of_target? hn),
        elim_congr fun n hn => ih n (mem_of_target? hn)]
  | case3 node scope isRoot hopen inner site l hstep ihbody ihdone =>
      rw [Flow.walk, dif_pos ⟨hids' node hmem, hopen.2⟩]
      simp only [hstep, h.target? node hmem, helement node hmem]
      rw [elim_congr fun n hn => ihbody n (mem_of_target? hn),
        elim_congr fun n hn => ihdone n (mem_of_target? hn)]
  | case4 node scope isRoot hclosed =>
      have hcloses : ¬ scope.closes node.id = false := fun hopen => hclosed ⟨hids node hmem, hopen⟩
      rw [Flow.walk, dif_neg fun hopen => hcloses hopen.2]

theorem script_eq (h : g'.LooksLike g) {root : Node} (hroot : root ∈ g.nodes) :
    g'.script root = g.script root :=
  h.walk_eq (fun _ hn => List.mem_cons_of_mem _ (mem_ids hn))
    (fun n hn => List.mem_cons_of_mem _ (h.ids n hn)) root {} true hroot

end LooksLike

end Flow

/-! ### Projects -/

namespace Project

theorem mem_of_mem_entries {p : Project} {e : Entry} (h : e ∈ p.entries) :
    e.node ∈ p.flow.nodes := by
  obtain ⟨⟨n, i⟩, hn, rfl⟩ := List.mem_map.mp h
  exact (List.mem_filter.mp (List.fst_mem_of_mem_zipIdx hn)).1

/-- What is made of every entry point alike comes to the same for all of them. -/
theorem zipWith_entries_congr {α β : Type} (p : Project) (names : List α) {f f' : α → Entry → β}
    (h : ∀ name, ∀ e ∈ p.entries, f name e = f' name e) :
    names.zipWith f p.entries = names.zipWith f' p.entries := by
  apply List.ext_getElem
  · simp
  · intro i _ _
    rw [List.getElem_zipWith, List.getElem_zipWith]
    exact h _ _ (List.getElem_mem _)

variable {p : Project} {g' : Flow}

theorem case_eq_of_looksLike (h : g'.LooksLike p.flow) (name : String) {e : Entry}
    (he : e ∈ p.entries) : ({ p with flow := g' } : Project).case name e = p.case name e := by
  rw [case, case, h.script_eq (mem_of_mem_entries he)]

theorem entries_eq_of_looksLike (h : g'.LooksLike p.flow) :
    ({ p with flow := g' } : Project).entries = p.entries := by
  simp only [entries, h.entries]

theorem suite_eq_of_looksLike (h : g'.LooksLike p.flow) :
    ({ p with flow := g' } : Project).suite = p.suite := by
  by_cases hnone : p.flow.entries = []
  · rw [suite_eq_error hnone, suite_eq_error (h.entries.trans hnone)]
  · rw [suite_eq_ok hnone, suite_eq_ok (h.entries ▸ hnone), entries_eq_of_looksLike h]
    congr 2
    exact zipWith_entries_congr p _ fun name e he => case_eq_of_looksLike h name he

theorem files_eq_of_looksLike (h : g'.LooksLike p.flow) :
    ({ p with flow := g' } : Project).files = p.files := by
  by_cases hnone : p.flow.entries = []
  · rw [files_eq_error hnone, files_eq_error (h.entries.trans hnone)]
  · rw [files_eq_ok hnone, files_eq_ok (h.entries ▸ hnone), entries_eq_of_looksLike h]
    congr 1
    refine zipWith_entries_congr p _ fun stem e he => ?_
    simp only [file, case_eq_of_looksLike h _ he]
    rfl

end Project

/-- **Only the first edges count, and the order of the nodes does not.**  A flow with distinct
ids, pruned to the first edge that resolves of each slot and with its nodes in another order
that keeps the entry points as they are, has the same suite and the same files. -/
theorem only_first_edges_count (p : Project) (g' : Flow) (hnodup : p.flow.ids.Nodup)
    (hedges : g'.edges = p.flow.prune Edge.rivals [] p.flow.edges)
    (hnodes : g'.nodes.Perm p.flow.nodes) (hentries : g'.entries = p.flow.entries) :
    ({ p with flow := g' } : Project).suite = p.suite ∧
      ({ p with flow := g' } : Project).files = p.files := by
  have hlooks := Flow.looksLike_of_pruned hnodup hedges hnodes hentries
  exact ⟨Project.suite_eq_of_looksLike hlooks, Project.files_eq_of_looksLike hlooks⟩

/-- Edges that lead nowhere, come too late, or bring what is no element. -/
def crowdedFlow : Flow where
  nodes := [⟨"start", .entry, []⟩, ⟨"button", .element, []⟩, ⟨"label", .element, []⟩,
    ⟨"press", .interact, []⟩, ⟨"rest", .wait, []⟩]
  edges := [.flow "e1" "start" "nowhere", .flow "e2" "start" "press", .flow "e3" "start" "rest",
    .data "e4" "start" "press", .data "e5" "button" "press", .data "e6" "label" "press",
    .flow "e7" "press" "rest", .flow "e8" "nowhere" "rest"]

/-- The edges of the crowded flow that count, and its nodes from back to front. -/
def sparseFlow : Flow where
  nodes := [⟨"rest", .wait, []⟩, ⟨"press", .interact, []⟩, ⟨"label", .element, []⟩,
    ⟨"button", .element, []⟩, ⟨"start", .entry, []⟩]
  edges := [.flow "e2" "start" "press", .data "e5" "button" "press", .flow "e7" "press" "rest"]

theorem sparseFlow_makes_the_same :
    crowdedFlow.ids.Nodup ∧ sparseFlow.edges = crowdedFlow.prune Edge.rivals [] crowdedFlow.edges ∧
      sparseFlow.nodes.Perm crowdedFlow.nodes ∧ sparseFlow.entries = crowdedFlow.entries ∧
      Project.suite ⟨sparseFlow, .cypress, "Crowd"⟩
        = Project.suite ⟨crowdedFlow, .cypress, "Crowd"⟩ ∧
      Project.files ⟨sparseFlow, .cypress, "Crowd"⟩
        = Project.files ⟨crowdedFlow, .cypress, "Crowd"⟩ := by
  have hnodup : crowdedFlow.ids.Nodup := by decide
  have hedges : sparseFlow.edges = crowdedFlow.prune Edge.rivals [] crowdedFlow.edges := by decide
  have hnodes : sparseFlow.nodes.Perm crowdedFlow.nodes := List.reverse_perm crowdedFlow.nodes
  have hentries : sparseFlow.entries = crowdedFlow.entries := rfl
  exact ⟨hnodup, hedges, hnodes, hentries, only_first_edges_count
    ⟨crowdedFlow, .cypress, "Crowd"⟩ sparseFlow hnodup hedges hnodes hentries⟩

/-! ### Elements and outlets -/

/-- Edges that leave the same outlet, or that bring an element to the same step.  Here an
edge of either sort stands in the way of one that hands on control. -/
def Edge.sharesEnd (e e' : Edge) : Bool :=
  match e.inlet with
  | .flow => e'.source == e.source && e'.outlet == e.outlet
  | .data => e'.inlet == .data && e'.target == e.target

/-- An element that is wired into the step that control goes on to from it. -/
def passingFlow : Flow where
  nodes := [⟨"start", .entry, []⟩, ⟨"button", .element, []⟩, ⟨"press", .interact, []⟩]
  edges := [.flow "e1" "start" "button", .data "e2" "button" "press",
    .flow "e3" "button" "press"]

/-- An edge to an element must not count as the first edge of the outlet that it leaves: a
flow that is pruned as if it did can lose a step. -/
theorem element_edge_takes_no_outlet :
    ¬ ∀ (p : Project) (g' : Flow), p.flow.ids.Nodup →
      g'.edges = p.flow.prune Edge.sharesEnd [] p.flow.edges →
      g'.nodes.Perm p.flow.nodes → g'.entries = p.flow.entries →
      ({ p with flow := g' } : Project).suite = p.suite ∧
        ({ p with flow := g' } : Project).files = p.files := by
  intro h
  have hsame := (h ⟨passingFlow, .cypress, "Pass"⟩
    ⟨passingFlow.nodes, [.flow "e1" "start" "button", .data "e2" "button" "press"]⟩
    (by decide) (by decide) (.refl _) rfl).1
  have hdiffers : Project.suite ⟨⟨passingFlow.nodes,
        [.flow "e1" "start" "button", .data "e2" "button" "press"]⟩, .cypress, "Pass"⟩
      ≠ Project.suite ⟨passingFlow, .cypress, "Pass"⟩ := by
    decide +kernel
  exact hdiffers hsame

end FlowSuite

/-
How deep a walk can nest.

The walk over a node calls itself for every node that follows, and the calls it is
inside of form a chain.  No property of the flow is needed to bound such a chain:
ids may be repeated, edges may dangle, and the flow may run in circles.

The bound comes from the rank of a scope, read more sharply than the walk itself needs
it.  Only the ids of loops can ever become loops of a scope, and of every id only one
occurrence counts; with `r` distinct ids of loops and `n` distinct ids in all, the
rank starts at `r * n + n` and each call but the last lowers it.

The calls are written down as `visits`.  That they are the calls of the walk is
`walk_parts`: the script of a visit has as its parts, in order, the scripts of the
visits inside it.
-/
import FlowSuite.Proofs.ControlGraph
import Mathlib.Data.List.Dedup

namespace FlowSuite

/-- A call of the walk: the node it is about to look at, and where it has been. -/
structure Visit where
  node : Node
  scope : Scope

namespace Flow

/-- The visit that follows through an outlet, in a scope. -/
def follow (g : Flow) (id : String) (outlet : Outlet) (scope : Scope) : List Visit :=
  (g.target? id outlet).toList.map fun next => ⟨next, scope⟩

/-- The visits right inside a visit, in order.  One that closes a cycle has none. -/
def visits (g : Flow) (v : Visit) : List Visit :=
  if v.scope.closes v.node.id then []
  else
    let inner := v.scope.enter v.node.id
    match v.node.step with
    | .action _ => g.follow v.node.id .flow inner
    | .branch _ => g.follow v.node.id .whenTrue inner ++ g.follow v.node.id .whenFalse inner
    | .loop l =>
        (if l.isWired (g.elementOf v.node.id) then
          g.follow v.node.id .body (inner.loopBody v.node.id)
        else []) ++ g.follow v.node.id .done inner

/-- The ids of the loops. -/
def loopIds (g : Flow) : List String :=
  (g.nodes.filter (·.kind == .loop)).map (·.id)

end Flow

namespace Script

/-- The script as a part of another: nothing if it is empty. -/
def part : Script → List Script
  | .stop => []
  | s => [s]

/-- The scripts right inside a script, in order. -/
def parts : Script → List Script
  | .stop => []
  | .cut _ => []
  | .action _ _ next => next.part
  | .branch _ _ yes no => yes.part ++ no.part
  | .loop _ _ body next => body.part ++ next.part

/-- How many scripts stand inside each other, the cuts counted. -/
def height : Script → Nat
  | .stop => 0
  | .cut _ => 1
  | .action _ _ next => next.height + 1
  | .branch _ _ yes no => max yes.height no.height + 1
  | .loop _ _ body next => max body.height next.height + 1

theorem height_le_of_mem_part {s p : Script} (h : p ∈ s.part) : p.height ≤ s.height := by
  cases s with
  | stop => cases h
  | _ =>
      have heq := List.mem_singleton.mp h
      exact Nat.le_of_eq (congrArg height heq)

theorem height_lt_of_mem_parts {s p : Script} (h : p ∈ s.parts) : p.height < s.height := by
  cases s with
  | stop => cases h
  | cut id => cases h
  | action site a next => exact Nat.lt_succ_of_le (height_le_of_mem_part h)
  | branch site c yes no =>
      rcases List.mem_append.mp h with h | h
      · exact Nat.lt_succ_of_le (Nat.le_trans (height_le_of_mem_part h) (Nat.le_max_left _ _))
      · exact Nat.lt_succ_of_le (Nat.le_trans (height_le_of_mem_part h) (Nat.le_max_right _ _))
  | loop site l body next =>
      rcases List.mem_append.mp h with h | h
      · exact Nat.lt_succ_of_le (Nat.le_trans (height_le_of_mem_part h) (Nat.le_max_left _ _))
      · exact Nat.lt_succ_of_le (Nat.le_trans (height_le_of_mem_part h) (Nat.le_max_right _ _))

theorem height_elim_le {target : Option Node} {f : Node → Script} {bound : Nat}
    (h : ∀ n, target = some n → (f n).height ≤ bound) :
    (target.elim .stop f).height ≤ bound := by
  cases target with
  | none => exact Nat.zero_le bound
  | some n => exact h n rfl

end Script

namespace Flow

variable {g : Flow} {root : Node} {ids : List String}

/-! ### Visits are the calls of the walk -/

/-- A walk always gives something. -/
theorem part_walk (g : Flow) (ids : List String) (node : Node) (scope : Scope)
    (isRoot : Bool) :
    (g.walk ids node scope isRoot).part = [g.walk ids node scope isRoot] := by
  unfold Flow.walk
  split
  · cases node.step <;> rfl
  · rfl

theorem part_elim_walk (id : String) (outlet : Outlet) (scope : Scope) :
    ((g.target? id outlet).elim .stop fun next => g.walk ids next scope false).part
      = (g.follow id outlet scope).map fun w => g.walk ids w.node w.scope false := by
  unfold follow
  cases g.target? id outlet with
  | none => rfl
  | some next => exact part_walk g ids next scope false

/-- The script of a visit is put together from the scripts of the visits inside it. -/
theorem walk_parts (v : Visit) (isRoot : Bool) (hmem : v.node.id ∈ ids) :
    (g.walk ids v.node v.scope isRoot).parts
      = (g.visits v).map fun w => g.walk ids w.node w.scope false := by
  unfold visits
  fun_cases Flow.walk g ids v.node v.scope isRoot with
  | case1 hopen inner site a hstep =>
      have hnot : ¬ v.scope.closes v.node.id = true := by simp [hopen.2]
      rw [if_neg hnot, hstep]
      exact part_elim_walk _ _ _
  | case2 hopen inner site c hstep =>
      have hnot : ¬ v.scope.closes v.node.id = true := by simp [hopen.2]
      rw [if_neg hnot, hstep]
      simp only [Script.parts, part_elim_walk, List.map_append]
      rfl
  | case3 hopen inner site l hstep =>
      have hnot : ¬ v.scope.closes v.node.id = true := by simp [hopen.2]
      rw [if_neg hnot, hstep]
      simp only [Script.parts, part_elim_walk, List.map_append]
      congr 1
      by_cases hwired : l.isWired (g.elementOf v.node.id) = true
      · rw [if_pos hwired, if_pos hwired]
        exact part_elim_walk _ _ _
      · rw [if_neg hwired, if_neg hwired]
        rfl
  | case4 hclosed =>
      have hcloses : v.scope.closes v.node.id = true := by
        by_contra hopen
        exact hclosed ⟨hmem, by simpa using hopen⟩
      rw [if_pos hcloses]
      rfl

theorem mem_of_mem_follow {id : String} {outlet : Outlet} {scope : Scope} {w : Visit}
    (h : w ∈ g.follow id outlet scope) : w.node ∈ g.nodes := by
  obtain ⟨next, hnext, rfl⟩ := List.mem_map.mp h
  exact mem_of_target? (Option.mem_toList.mp hnext)

theorem mem_of_mem_visits {v w : Visit} (h : w ∈ g.visits v) : w.node ∈ g.nodes := by
  unfold visits at h
  split at h
  · cases h
  · split at h
    · exact mem_of_mem_follow h
    · rcases List.mem_append.mp h with h | h
      · exact mem_of_mem_follow h
      · exact mem_of_mem_follow h
    · rcases List.mem_append.mp h with h | h
      · split at h
        · exact mem_of_mem_follow h
        · cases h
      · exact mem_of_mem_follow h

/-! ### The height of a walk -/

theorem mem_loopIds {n : Node} (hmem : n ∈ g.nodes) (hkind : n.kind = .loop) :
    n.id ∈ g.loopIds :=
  List.mem_map_of_mem (List.mem_filter.mpr ⟨hmem, by simp [hkind]⟩)

/-- The height of a script is at most one more than the rank its walk starts with. -/
theorem height_walk_le (node : Node) (scope : Scope) (isRoot : Bool)
    (hmem : node ∈ g.nodes) :
    (g.walk ids node scope isRoot).height
      ≤ scope.rank g.loopIds.dedup g.ids.dedup + 1 := by
  fun_induction Flow.walk g ids node scope isRoot with
  | case1 node scope isRoot hopen inner site a hstep ih =>
      have hrank : inner.rank g.loopIds.dedup g.ids.dedup
          < scope.rank g.loopIds.dedup g.ids.dedup :=
        Scope.rank_enter_lt (List.mem_dedup.mpr (mem_ids hmem)) hopen.2
      refine Nat.succ_le_succ (Script.height_elim_le fun n hn => ?_)
      exact Nat.le_trans (ih n (mem_of_target? hn)) hrank
  | case2 node scope isRoot hopen inner site c hstep ih =>
      have hrank : inner.rank g.loopIds.dedup g.ids.dedup
          < scope.rank g.loopIds.dedup g.ids.dedup :=
        Scope.rank_enter_lt (List.mem_dedup.mpr (mem_ids hmem)) hopen.2
      refine Nat.succ_le_succ (Nat.max_le.mpr ⟨?_, ?_⟩)
      · exact Script.height_elim_le fun n hn => Nat.le_trans (ih n (mem_of_target? hn)) hrank
      · exact Script.height_elim_le fun n hn => Nat.le_trans (ih n (mem_of_target? hn)) hrank
  | case3 node scope isRoot hopen inner site l hstep ihbody ihdone =>
      have hid : node.id ∈ g.ids.dedup := List.mem_dedup.mpr (mem_ids hmem)
      have hloop : node.id ∈ g.loopIds.dedup :=
        List.mem_dedup.mpr (mem_loopIds hmem (Node.kind_of_loop hstep).1)
      have hrank : inner.rank g.loopIds.dedup g.ids.dedup
          < scope.rank g.loopIds.dedup g.ids.dedup := Scope.rank_enter_lt hid hopen.2
      have hbody : (inner.loopBody node.id).rank g.loopIds.dedup g.ids.dedup
          < scope.rank g.loopIds.dedup g.ids.dedup := Scope.rank_loopBody_lt hloop hid hopen.2
      refine Nat.succ_le_succ (Nat.max_le.mpr ⟨?_, ?_⟩)
      · split
        · exact Script.height_elim_le fun n hn => Nat.le_trans (ihbody n (mem_of_target? hn)) hbody
        · exact Nat.zero_le _
      · exact Script.height_elim_le fun n hn => Nat.le_trans (ihdone n (mem_of_target? hn)) hrank
  | case4 node scope isRoot hclosed => exact Nat.succ_le_succ (Nat.zero_le _)

end Flow

theorem Scope.rank_start (loops ids : List String) :
    ({} : Scope).rank loops ids = (loops.length + 1) * ids.length := by
  have houter : ({} : Scope).outer loops = loops.length := by
    simp [Scope.outer]
  have hfresh : ({} : Scope).fresh ids = ids.length := by
    simp [Scope.fresh, Scope.closes]
  rw [Scope.rank, houter, hfresh, Nat.succ_mul]

namespace Flow

variable {g : Flow} {root : Node}

/-! ### Chains of visits -/

/-- A visit inside another gives a script of smaller height. -/
theorem height_walk_lt_of_mem_visits {ids : List String} {v w : Visit} {isRoot : Bool}
    (hmem : v.node.id ∈ ids) (hw : w ∈ g.visits v) :
    (g.walk ids w.node w.scope false).height < (g.walk ids v.node v.scope isRoot).height := by
  refine Script.height_lt_of_mem_parts ?_
  rw [walk_parts v isRoot hmem]
  exact List.mem_map_of_mem hw

theorem height_walk_pos (g : Flow) (ids : List String) (node : Node) (scope : Scope)
    (isRoot : Bool) : 0 < (g.walk ids node scope isRoot).height := by
  fun_cases Flow.walk g ids node scope isRoot with
  | case1 => exact Nat.succ_pos _
  | case2 => exact Nat.succ_pos _
  | case3 => exact Nat.succ_pos _
  | case4 => exact Nat.succ_pos _

theorem length_chain_le_height {ids : List String} (hids : ∀ n ∈ g.nodes, n.id ∈ ids)
    (chain : List Visit) (v : Visit) (isRoot : Bool) (hmem : v.node ∈ g.nodes)
    (hchain : List.IsChain (fun v w => w ∈ g.visits v) (v :: chain)) :
    (v :: chain).length ≤ (g.walk ids v.node v.scope isRoot).height := by
  induction chain generalizing v isRoot with
  | nil => exact height_walk_pos g ids v.node v.scope isRoot
  | cons w rest ih =>
      obtain ⟨hw, hrest⟩ := List.isChain_cons_cons.mp hchain
      have hshort := ih w false (mem_of_mem_visits hw) hrest
      have hlower : (g.walk ids w.node w.scope false).height
          < (g.walk ids v.node v.scope isRoot).height :=
        height_walk_lt_of_mem_visits (hids v.node hmem) hw
      exact Nat.lt_of_le_of_lt hshort hlower

theorem acc_visits (v : Visit) (hmem : v.node ∈ g.nodes) :
    Acc (fun w v => w ∈ g.visits v) v := by
  have hacc : ∀ bound, ∀ v : Visit, v.node ∈ g.nodes →
      (g.walk g.ids v.node v.scope false).height < bound →
      Acc (fun w v => w ∈ g.visits v) v := by
    intro bound
    induction bound with
    | zero => intro v _ hlt; exact absurd hlt (Nat.not_lt_zero _)
    | succ bound ih =>
        intro v hv hlt
        refine Acc.intro v fun w hw => ih w (mem_of_mem_visits hw) ?_
        have hlower : (g.walk g.ids w.node w.scope false).height
            < (g.walk g.ids v.node v.scope false).height :=
          height_walk_lt_of_mem_visits (mem_ids hv) hw
        exact Nat.lt_of_lt_of_le hlower (Nat.lt_succ_iff.mp hlt)
  exact hacc _ v hmem (Nat.lt_succ_self _)

end Flow

/-- **A walk ends, and it nests no deeper than the number of distinct ids times one more
than the number of distinct ids of loops, and one.**  Ids may be repeated and the flow
may have cycles. -/
theorem nested_visits_bounded (g : Flow) (root : Node) (hroot : root ∈ g.nodes) :
    (∀ v : Visit, v.node ∈ g.nodes → ∀ isRoot,
        (g.walk (root.id :: g.ids) v.node v.scope isRoot).parts
          = (g.visits v).map fun w => g.walk (root.id :: g.ids) w.node w.scope false) ∧
      Acc (fun w v => w ∈ g.visits v) ⟨root, {}⟩ ∧
      ∀ chain : List Visit,
        List.IsChain (fun v w => w ∈ g.visits v) (⟨root, {}⟩ :: chain) →
        (⟨root, {}⟩ :: chain : List Visit).length
          ≤ (g.loopIds.dedup.length + 1) * g.ids.dedup.length + 1 := by
  have hids : ∀ n ∈ g.nodes, n.id ∈ root.id :: g.ids := by
    intro n hn
    exact List.mem_cons_of_mem _ (Flow.mem_ids hn)
  refine ⟨?_, Flow.acc_visits ⟨root, {}⟩ hroot, ?_⟩
  · intro v hv isRoot
    exact Flow.walk_parts v isRoot (hids v.node hv)
  · intro chain hchain
    calc (⟨root, {}⟩ :: chain : List Visit).length
        ≤ (g.script root).height :=
          Flow.length_chain_le_height hids chain ⟨root, {}⟩ true hroot hchain
      _ ≤ ({} : Scope).rank g.loopIds.dedup g.ids.dedup + 1 :=
          Flow.height_walk_le root {} true hroot
      _ = (g.loopIds.dedup.length + 1) * g.ids.dedup.length + 1 := by
          rw [Scope.rank_start]

/-- A loop that follows itself, a second node with its id, and an edge to nowhere. -/
def tangledFlow : Flow where
  nodes := [⟨"again", .loop, []⟩, ⟨"press", .interact, []⟩, ⟨"again", .wait, []⟩]
  edges := [.via "e1" "again" .body "press", .flow "e2" "press" "nowhere",
    .flow "e3" "press" "again", .via "e4" "again" .done "again"]

theorem tangledFlow_nests_at_most_five :
    ⟨"again", .loop, []⟩ ∈ tangledFlow.nodes ∧
      ∀ chain : List Visit,
        List.IsChain (fun v w => w ∈ tangledFlow.visits v) (⟨⟨"again", .loop, []⟩, {}⟩ :: chain) →
        chain.length + 1 ≤ 5 := by
  have hagain : ⟨"again", .loop, []⟩ ∈ tangledFlow.nodes := by simp [tangledFlow]
  refine ⟨hagain, ?_⟩
  intro chain hchain
  have hle := (nested_visits_bounded tangledFlow ⟨"again", .loop, []⟩ hagain).2.2 chain hchain
  have hloops : tangledFlow.loopIds.dedup.length = 1 := by decide
  have hids : tangledFlow.ids.dedup.length = 2 := by decide
  rw [hloops, hids] at hle
  simpa using hle

end FlowSuite

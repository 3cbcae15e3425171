/-
The control graph of a flow.

Control passes from a node to another along an edge of the flow, and which outlets
count depends on the kind of the node: the flow outlet of a plain step, both sides of
a branch, the body and the done outlet of a loop.  The body of a loop that is skipped
does not count, since no walk and no run ever goes there.

`Leads` says this once, by kinds and without any scope.  The lemmas below it say the
same by steps, which is how a walk looks at a node; everything later about cycles,
about the length of a walk and about what a script does when it runs goes through
them.
-/
import FlowSuite.Script.Unfold
import Mathlib.Data.List.Nodup

namespace FlowSuite

/-- A loop that is to watch an element and has none. -/
def Flow.skips (g : Flow) (n : Node) : Bool :=
  (Loop.ofData n.data).mode == .whileVisible && (g.element? n.id).isNone

/-- Control can pass from a node straight to another. -/
inductive Flow.Leads (g : Flow) (n : Node) : Node → Prop where
  | next {m : Node} (hbranch : n.kind ≠ .branch) (hloop : n.kind ≠ .loop)
      (htarget : g.target? n.id .flow = some m) : Leads g n m
  | yes {m : Node} (hkind : n.kind = .branch)
      (htarget : g.target? n.id .whenTrue = some m) : Leads g n m
  | no {m : Node} (hkind : n.kind = .branch)
      (htarget : g.target? n.id .whenFalse = some m) : Leads g n m
  | body {m : Node} (hkind : n.kind = .loop) (hskips : g.skips n = false)
      (htarget : g.target? n.id .body = some m) : Leads g n m
  | done {m : Node} (hkind : n.kind = .loop)
      (htarget : g.target? n.id .done = some m) : Leads g n m

/-! ### The step of a node and its kind -/

namespace Node

theorem step_of_branch {n : Node} (h : n.kind = .branch) :
    n.step = .branch (Check.ofData n.data) := by
  rw [step, h]
  rfl

theorem step_of_loop {n : Node} (h : n.kind = .loop) :
    n.step = .loop (Loop.ofData n.data) := by
  rw [step, h]
  rfl

theorem kind_of_action {n : Node} {a : Action} (h : n.step = .action a) :
    n.kind ≠ .branch ∧ n.kind ≠ .loop := by
  constructor
  · intro hkind
    rw [step_of_branch hkind] at h
    cases h
  · intro hkind
    rw [step_of_loop hkind] at h
    cases h

theorem step_of_other {n : Node} (hbranch : n.kind ≠ .branch) (hloop : n.kind ≠ .loop) :
    ∃ a, n.step = .action a := by
  unfold step
  cases hkind : n.kind with
  | branch => exact absurd hkind hbranch
  | loop => exact absurd hkind hloop
  | _ => exact ⟨_, rfl⟩

theorem kind_of_branch {n : Node} {c : Check} (h : n.step = .branch c) :
    n.kind = .branch := by
  by_contra hbranch
  by_cases hloop : n.kind = .loop
  · rw [step_of_loop hloop] at h
    cases h
  · obtain ⟨a, ha⟩ := step_of_other hbranch hloop
    rw [ha] at h
    cases h

theorem kind_of_loop {n : Node} {l : Loop} (h : n.step = .loop l) :
    n.kind = .loop ∧ l = Loop.ofData n.data := by
  by_cases hloop : n.kind = .loop
  · rw [step_of_loop hloop] at h
    exact ⟨hloop, (Step.loop.inj h).symm⟩
  · exfalso
    by_cases hbranch : n.kind = .branch
    · rw [step_of_branch hbranch] at h
      cases h
    · obtain ⟨a, ha⟩ := step_of_other hbranch hloop
      rw [ha] at h
      cases h

end Node

namespace Flow

/-! ### The edges, by the step of their source -/

variable {g : Flow} {n m : Node}

theorem isWired_eq (g : Flow) (n : Node) :
    (Loop.ofData n.data).isWired (g.elementOf n.id) = !g.skips n := by
  rw [Loop.isWired, skips, elementOf, Option.isSome_map]
  cases g.element? n.id <;> simp [bne]

theorem leads_iff_of_action {a : Action} (h : n.step = .action a) :
    g.Leads n m ↔ g.target? n.id .flow = some m := by
  obtain ⟨hbranch, hloop⟩ := Node.kind_of_action h
  constructor
  · intro hleads
    cases hleads with
    | next _ _ htarget => exact htarget
    | yes hkind => exact absurd hkind hbranch
    | no hkind => exact absurd hkind hbranch
    | body hkind => exact absurd hkind hloop
    | done hkind => exact absurd hkind hloop
  · exact Leads.next hbranch hloop

theorem leads_iff_of_branch {c : Check} (h : n.step = .branch c) :
    g.Leads n m ↔
      g.target? n.id .whenTrue = some m ∨ g.target? n.id .whenFalse = some m := by
  have hbranch := Node.kind_of_branch h
  have hloop : n.kind ≠ .loop := by rw [hbranch]; decide
  constructor
  · intro hleads
    cases hleads with
    | next hother => exact absurd hbranch hother
    | yes _ htarget => exact Or.inl htarget
    | no _ htarget => exact Or.inr htarget
    | body hkind => exact absurd hkind hloop
    | done hkind => exact absurd hkind hloop
  · rintro (htarget | htarget)
    · exact Leads.yes hbranch htarget
    · exact Leads.no hbranch htarget

theorem leads_iff_of_loop {l : Loop} (h : n.step = .loop l) :
    g.Leads n m ↔
      (l.isWired (g.elementOf n.id) = true ∧ g.target? n.id .body = some m) ∨
        g.target? n.id .done = some m := by
  obtain ⟨hloop, rfl⟩ := Node.kind_of_loop h
  have hbranch : n.kind ≠ .branch := by rw [hloop]; decide
  rw [isWired_eq, Bool.not_eq_true']
  constructor
  · intro hleads
    cases hleads with
    | next _ hother => exact absurd hloop hother
    | yes hkind => exact absurd hkind hbranch
    | no hkind => exact absurd hkind hbranch
    | body _ hskips htarget => exact Or.inl ⟨hskips, htarget⟩
    | done _ htarget => exact Or.inr htarget
  · rintro (⟨hskips, htarget⟩ | htarget)
    · exact Leads.body hloop hskips htarget
    · exact Leads.done hloop htarget

/-! ### Edges end at nodes -/

theorem mem_of_node? {id : String} (h : g.node? id = some n) : n ∈ g.nodes :=
  List.mem_of_find?_eq_some h

theorem mem_of_target? {id : String} {outlet : Outlet} (h : g.target? id outlet = some n) :
    n ∈ g.nodes := by
  obtain ⟨e, -, he⟩ := List.exists_of_findSome?_eq_some h
  split at he
  · exact mem_of_node? he
  · cases he

theorem Leads.mem (h : g.Leads n m) : m ∈ g.nodes := by
  cases h with
  | next _ _ htarget => exact mem_of_target? htarget
  | yes _ htarget => exact mem_of_target? htarget
  | no _ htarget => exact mem_of_target? htarget
  | body _ _ htarget => exact mem_of_target? htarget
  | done _ htarget => exact mem_of_target? htarget

theorem mem_ids (h : n ∈ g.nodes) : n.id ∈ g.ids :=
  List.mem_map_of_mem h

/-- In a flow whose ids are distinct a node is known by its id. -/
theorem eq_of_id_eq (hnodup : g.ids.Nodup) (hn : n ∈ g.nodes) (hm : m ∈ g.nodes)
    (h : n.id = m.id) : n = m :=
  List.inj_on_of_nodup_map hnodup hn hm h

end Flow

end FlowSuite

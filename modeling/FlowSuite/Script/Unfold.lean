/-
Unfolding a flow.

From a step the walk goes on along the flow outlet; a branch goes both ways, and a
loop goes into its body with a scope of its own and then on to what follows it.  The
body of a loop that is skipped is not walked at all.
-/
import FlowSuite.Script.Basic
import FlowSuite.Script.Scope
import FlowSuite.Step.Decode

namespace FlowSuite

/-- The page element that is wired into a step. -/
def Flow.elementOf (g : Flow) (id : String) : Option Element :=
  (g.element? id).map fun n => Element.ofData n.data

/-- The script from a node on, for a walk that has been where `scope` says and can only
meet the given ids. -/
def Flow.walk (g : Flow) (ids : List String) (node : Node) (scope : Scope) (isRoot : Bool) :
    Script :=
  if _h : node.id ∈ ids ∧ scope.closes node.id = false then
    let inner := scope.enter node.id
    let site : Site := ⟨node.id, isRoot, g.elementOf node.id⟩
    match node.step with
    | .action a =>
        .action site a
          ((g.target? node.id .flow).elim .stop fun next => g.walk ids next inner false)
    | .branch c =>
        .branch site c
          ((g.target? node.id .whenTrue).elim .stop fun next => g.walk ids next inner false)
          ((g.target? node.id .whenFalse).elim .stop fun next => g.walk ids next inner false)
    | .loop l =>
        .loop site l
          (if l.isWired site.element then
            (g.target? node.id .body).elim .stop fun next =>
              g.walk ids next (inner.loopBody node.id) false
          else .stop)
          ((g.target? node.id .done).elim .stop fun next => g.walk ids next inner false)
  else .cut node.id
termination_by scope.rank ids ids
decreasing_by
  all_goals first
    | exact Scope.rank_enter_lt _h.1 _h.2
    | exact Scope.rank_loopBody_lt _h.1 _h.1 _h.2

/-- The script from a root on.  No walk can meet an id that is neither the root's nor a
node's. -/
def Flow.script (g : Flow) (root : Node) : Script :=
  g.walk (root.id :: g.ids) root {} true

end FlowSuite

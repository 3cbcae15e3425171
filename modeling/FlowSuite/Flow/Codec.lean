/-
Flows as JSON documents.

A flow is an object with its nodes and its edges; an end of an edge that was not
said is left out.  Reading takes what writing gives, and more: records may be arrays
of their fields, unknown fields are passed over, and a node without data has none.
-/
import FlowSuite.Flow.Basic
import FlowSuite.Flow.Error
import FlowSuite.Json.Read

namespace FlowSuite

open Document (required withDefault optional)

/-! ### Writing -/

/-- A node as a JSON object. -/
def Node.toJson (n : Node) : Json :=
  .object [("id", .string n.id), ("kind", .string n.kind.name), ("data", .object n.data)]

/-- An edge as a JSON object. -/
def Edge.toJson (e : Edge) : Json :=
  .object
    ([("id", Json.string e.id), ("sourceNodeId", .string e.source),
        ("targetNodeId", .string e.target)] ++
      (e.outlet?.map fun o => ("sourceRole", Json.string o.name)).toList ++
      (e.inlet?.map fun i => ("targetRole", Json.string i.name)).toList)

/-- A flow as a JSON object. -/
def Flow.toJson (g : Flow) : Json :=
  .object [("nodes", .array (g.nodes.map Node.toJson)), ("edges", .array (g.edges.map Edge.toJson))]

/-! ### Reading -/

/-- A node, in a document where at most `levels` containers nest. -/
def Node.ofDocument? (levels : Nat) (d : Document) : Option Node := do
  match ← d.record? [["id"], ["kind"], ["data"]] with
  | [id, kind, data] =>
      return {
        id := ← required Document.text? id
        kind := ← required (fun d => d.name? >>= Kind.ofName?) kind
        data := ← withDefault [] (Document.fields? (levels - 1)) data }
  | _ => none

/-- An edge. -/
def Edge.ofDocument? (d : Document) : Option Edge := do
  match ← d.record?
      [["id"], ["sourceNodeId"], ["targetNodeId"], ["sourceRole"], ["targetRole"]] with
  | [id, source, target, outlet, inlet] =>
      return {
        id := ← required Document.text? id
        source := ← required Document.text? source
        target := ← required Document.text? target
        outlet? := ← optional (fun d => d.name? >>= Outlet.ofName?) outlet
        inlet? := ← optional (fun d => d.name? >>= Inlet.ofName?) inlet }
  | _ => none

/-- A flow.  Its nodes stand inside of two containers. -/
def Flow.ofDocument? (d : Document) : Option Flow := do
  match ← d.record? [["nodes"], ["edges"]] with
  | [nodes, edges] =>
      let nodes ← required Document.items? nodes
      let edges ← required Document.items? edges
      return {
        nodes := ← nodes.mapM (Node.ofDocument? (nestingLimit - 2))
        edges := ← edges.mapM Edge.ofDocument? }
  | _ => none

/-- The node that a JSON text holds. -/
def Node.parse? (s : String) : Option Node := do
  ofDocument? nestingLimit (← Document.parse? s)

/-- The flow that a JSON text holds. -/
def Flow.parse (s : String) : Except FlowError Flow :=
  match Document.parse? s >>= Flow.ofDocument? with
  | some g => .ok g
  | none => .error .malformed

end FlowSuite

/-
The canvas of the visual editor.

On the canvas a step is a block, named by its type and placed somewhere, and an edge
is a wire between the handles of two blocks.  Making a flow of a canvas gives every
wire both of its ends and an id, and refuses a block that repeats an id or has a type
that no step has; of several such blocks the first one is reported, and a repeated id
before an unknown type.
-/
import FlowSuite.Flow.Codec

namespace FlowSuite

/-- The type of the blocks that stand for a kind of step. -/
def Kind.blockType : Kind → String
  | .entry => "start_session"
  | .element => "element"
  | .interact => "interact"
  | .assertion => "assert"
  | .branch => "condition"
  | .loop => "loop"
  | .wait => "wait"
  | .capture => "screenshot"
  | .setVariable => "set_variable"
  | .networkRule => "network"
  | .loadFixture => "load_fixture"
  | .customCall => "custom_command"

/-- The kind of step that blocks of a type stand for. -/
def Kind.ofBlockType? (s : String) : Option Kind :=
  Kind.all.find? (·.blockType == s)

/-- The outlet behind a source handle; any other handle is the flow outlet. -/
def Outlet.ofHandle : Option String → Outlet
  | some "true-out" => .whenTrue
  | some "false-out" => .whenFalse
  | some "loop-body" => .body
  | some "loop-done" => .done
  | _ => .flow

/-- The inlet behind a target handle; any other handle is the flow inlet. -/
def Inlet.ofHandle : Option String → Inlet
  | some "data-in" => .data
  | _ => .flow

namespace Canvas

/-- A place on the canvas. -/
structure Position where
  x : Float
  y : Float

/-- A step on the canvas. -/
structure Block where
  id : String
  type : String
  data : Object := []
  position : Option Position := none

/-- A wire between two handles. -/
structure Wire where
  id : Option String := none
  source : String
  target : String
  sourceHandle : Option String := none
  targetHandle : Option String := none

end Canvas

/-- What the visual editor saves. -/
structure Canvas where
  blocks : List Canvas.Block
  wires : List Canvas.Wire := []

namespace Canvas

open Document (required withDefault optional)

/-! ### Reading -/

/-- A place on the canvas. -/
def Position.ofDocument? (d : Document) : Option Position := do
  match ← d.record? [["x"], ["y"]] with
  | [x, y] => return ⟨← required Document.double? x, ← required Document.double? y⟩
  | _ => none

/-- A block, in a document where at most `levels` containers nest. -/
def Block.ofDocument? (levels : Nat) (d : Document) : Option Block := do
  match ← d.record? [["id"], ["type"], ["data"], ["position"]] with
  | [id, type, data, position] =>
      return {
        id := ← required Document.text? id
        type := ← required Document.text? type
        data := ← withDefault [] (Document.fields? (levels - 1)) data
        position := ← optional Position.ofDocument? position }
  | _ => none

/-- A wire. -/
def Wire.ofDocument? (d : Document) : Option Wire := do
  match ← d.record?
      [["id"], ["source"], ["target"], ["source_handle", "sourceHandle"],
        ["target_handle", "targetHandle"]] with
  | [id, source, target, sourceHandle, targetHandle] =>
      return {
        id := ← optional Document.text? id
        source := ← required Document.text? source
        target := ← required Document.text? target
        sourceHandle := ← optional Document.text? sourceHandle
        targetHandle := ← optional Document.text? targetHandle }
  | _ => none

/-- A canvas.  Its blocks stand inside of two containers. -/
def ofDocument? (d : Document) : Option Canvas := do
  match ← d.record? [["nodes"], ["edges"]] with
  | [blocks, wires] =>
      let blocks ← required Document.items? blocks
      let wires ← withDefault [] Document.items? wires
      return {
        blocks := ← blocks.mapM (Block.ofDocument? (nestingLimit - 2))
        wires := ← wires.mapM Wire.ofDocument? }
  | _ => none

/-- The canvas that a JSON text holds. -/
def parse (s : String) : Except FlowError Canvas :=
  match Document.parse? s >>= ofDocument? with
  | some c => .ok c
  | none => .error .malformed

/-! ### Making a flow -/

/-- The node of a block, after blocks with the given ids. -/
def Block.toNode (seen : List String) (b : Block) : Except FlowError Node :=
  if b.id ∈ seen then .error (.duplicateId b.id)
  else match Kind.ofBlockType? b.type with
    | none => .error (.unknownType b.id b.type)
    | some kind => .ok ⟨b.id, kind, b.data⟩

/-- The nodes of blocks, after blocks with the given ids. -/
def nodes : List String → List Block → Except FlowError (List Node)
  | _, [] => .ok []
  | seen, b :: bs =>
      match b.toNode seen with
      | .error e => .error e
      | .ok n =>
          match nodes (b.id :: seen) bs with
          | .error e => .error e
          | .ok ns => .ok (n :: ns)

/-- The edge of the wire at a position. -/
def Wire.toEdge (position : Nat) (w : Wire) : Edge where
  id := w.id.getD s!"edge-{position}"
  source := w.source
  target := w.target
  outlet? := some (Outlet.ofHandle w.sourceHandle)
  inlet? := some (Inlet.ofHandle w.targetHandle)

/-- The flow on a canvas. -/
def toFlow (c : Canvas) : Except FlowError Flow :=
  match nodes [] c.blocks with
  | .error e => .error e
  | .ok ns => .ok ⟨ns, c.wires.mapIdx Wire.toEdge⟩

end Canvas

end FlowSuite

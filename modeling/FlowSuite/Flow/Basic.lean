/-
Flows: the steps of a test and the wires between them.

A node is a step with its fields; an edge leaves its source through an outlet and
enters its target through an inlet.  Control runs along edges into a flow inlet; an
edge into a data inlet only says which page element a step works on.  An edge may
leave either end unsaid, which means the flow end, but whether it was said is kept.

Looking something up always takes the first match: the first node of an id, and the
first edge whose far end is a node.
-/
import FlowSuite.Json.Basic

namespace FlowSuite

/-- The kinds of steps. -/
inductive Kind where
  | entry
  | element
  | interact
  | assertion
  | branch
  | loop
  | wait
  | capture
  | setVariable
  | networkRule
  | loadFixture
  | customCall
  deriving DecidableEq, Repr

namespace Kind

/-- Every kind. -/
def all : List Kind :=
  [.entry, .element, .interact, .assertion, .branch, .loop, .wait, .capture, .setVariable,
    .networkRule, .loadFixture, .customCall]

/-- The kind's name in a flow document. -/
def name : Kind → String
  | .entry => "EntryPoint"
  | .element => "ElementDescriptor"
  | .interact => "Interact"
  | .assertion => "Assert"
  | .branch => "Branch"
  | .loop => "Repeat"
  | .wait => "Delay"
  | .capture => "Capture"
  | .setVariable => "SetVariable"
  | .networkRule => "NetworkRule"
  | .loadFixture => "LoadFixture"
  | .customCall => "CustomCall"

/-- The kind with a given name. -/
def ofName? (s : String) : Option Kind :=
  all.find? (·.name == s)

end Kind

/-- Where an edge leaves its source. -/
inductive Outlet where
  | flow
  | whenTrue
  | whenFalse
  | body
  | done
  deriving DecidableEq, Repr

namespace Outlet

/-- Every outlet. -/
def all : List Outlet := [.flow, .whenTrue, .whenFalse, .body, .done]

/-- The outlet's name in a flow document. -/
def name : Outlet → String
  | .flow => "flow"
  | .whenTrue => "true"
  | .whenFalse => "false"
  | .body => "repeatBody"
  | .done => "repeatDone"

/-- The outlet with a given name. -/
def ofName? (s : String) : Option Outlet :=
  all.find? (·.name == s)

end Outlet

/-- Where an edge enters its target. -/
inductive Inlet where
  | flow
  | data
  deriving DecidableEq, Repr

namespace Inlet

/-- Every inlet. -/
def all : List Inlet := [.flow, .data]

/-- The inlet's name in a flow document. -/
def name : Inlet → String
  | .flow => "flow"
  | .data => "dataIn"

/-- The inlet with a given name. -/
def ofName? (s : String) : Option Inlet :=
  all.find? (·.name == s)

end Inlet

/-- A step: its id, its kind, and its fields as they came. -/
structure Node where
  id : String
  kind : Kind
  data : Object := []
  deriving BEq, Repr

/-- The node with one more field, or with that field changed. -/
def Node.set (n : Node) (key : String) (value : Json) : Node :=
  { n with data := Object.insert key value n.data }

/-- A wire from one step to another. -/
structure Edge where
  id : String
  source : String
  target : String
  /-- The outlet, if it was said. -/
  outlet? : Option Outlet := none
  /-- The inlet, if it was said. -/
  inlet? : Option Inlet := none
  deriving DecidableEq, Repr

namespace Edge

/-- The outlet; `flow` unless something else was said. -/
def outlet (e : Edge) : Outlet := e.outlet?.getD .flow

/-- The inlet; `flow` unless something else was said. -/
def inlet (e : Edge) : Inlet := e.inlet?.getD .flow

/-- An edge that hands control to the next step. -/
def flow (id source target : String) : Edge :=
  ⟨id, source, target, none, none⟩

/-- An edge that hands control on through a given outlet. -/
def via (id source : String) (outlet : Outlet) (target : String) : Edge :=
  ⟨id, source, target, some outlet, none⟩

/-- An edge that tells a step its page element. -/
def data (id element step : String) : Edge :=
  ⟨id, element, step, none, some .data⟩

end Edge

/-- The steps of a test and the wires between them. -/
structure Flow where
  nodes : List Node
  edges : List Edge
  deriving BEq, Repr

namespace Flow

/-- The ids of the nodes. -/
def ids (g : Flow) : List String := g.nodes.map (·.id)

/-- The first node with an id. -/
def node? (g : Flow) (id : String) : Option Node :=
  g.nodes.find? (·.id == id)

/-- The nodes that start a test case, in order. -/
def entries (g : Flow) : List Node :=
  g.nodes.filter (·.kind == .entry)

/-- Where control goes when it leaves a step through an outlet. -/
def target? (g : Flow) (id : String) (outlet : Outlet) : Option Node :=
  g.edges.findSome? fun e =>
    if e.source = id ∧ e.outlet = outlet ∧ e.inlet = .flow then g.node? e.target else none

/-- The page element that is wired into a step. -/
def element? (g : Flow) (id : String) : Option Node :=
  g.edges.findSome? fun e =>
    if e.target = id ∧ e.inlet = .data then
      (g.node? e.source).filter (·.kind == .element)
    else none

end Flow

end FlowSuite

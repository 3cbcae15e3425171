/-
Why a document is not a flow.
-/

namespace FlowSuite

/-- A reason for refusing a document. -/
inductive FlowError where
  /-- The text is not JSON, or not JSON of the expected shape. -/
  | malformed
  /-- A block of a type that no step has. -/
  | unknownType (id type : String)
  /-- A block with the id of an earlier one. -/
  | duplicateId (id : String)
  deriving DecidableEq, Repr

/-- The reason in words. -/
def FlowError.message : FlowError → String
  | .malformed => "Failed to parse graph JSON:"
  | .unknownType id type => s!"Node '{id}' has an unregistered step type: '{type}'"
  | .duplicateId id => s!"Invalid graph data: duplicate node id '{id}'"

end FlowSuite

/-
Paths to stored variables.

A path is written with dots, as in `user.tags.0`: the first name is looked up among
the variables of the running test, each further one is a key into what was found.
Blanks around a name and empty names do not count, so a path is its names.
-/
import FlowSuite.Text.Blank

namespace FlowSuite

/-- A variable and the keys that lead into its value. -/
structure Path where
  root : String
  keys : List String
  deriving DecidableEq, Repr

namespace Path

/-- The path that the characters write, if they hold a name at all. -/
def ofChars? (cs : List Char) : Option Path :=
  match Text.items '.' cs with
  | [] => none
  | root :: keys => some ⟨root, keys⟩

/-- The path that a text writes. -/
def parse? (s : String) : Option Path :=
  ofChars? s.toList

/-- The path in writing, its names joined by dots. -/
def text (p : Path) : String :=
  ".".intercalate (p.root :: p.keys)

end Path

end FlowSuite

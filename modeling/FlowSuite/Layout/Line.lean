/-
Lines of generated code.

A line knows how many levels it stands below its block, not where the block stands.
Where it does is said once, when the lines are put on a sheet; a block is moved as a
whole by shifting its lines.

A line may hold a text with line breaks in it.  Each of its parts is then indented on
its own, and an empty part stays empty.
-/
import FlowSuite.Text.Lines

namespace FlowSuite

/-- A line, so many levels below its block. -/
structure Line where
  depth : Nat
  text : String
  deriving DecidableEq, Repr

/-- A line of the block itself. -/
def line (text : String) : Line := ⟨0, text⟩

/-- A line below its block. -/
def below (depth : Nat) (text : String) : Line := ⟨depth, text⟩

/-- The blanks that a level of indentation stands for. -/
def indentation (level : Nat) : String :=
  String.ofList (List.replicate (4 * level) ' ')

namespace Line

/-- The line, some levels further down. -/
def shift (depth : Nat) (l : Line) : Line :=
  { l with depth := l.depth + depth }

/-- One part of a line, at a level of indentation. -/
def part (level : Nat) (text : String) : String :=
  if text.isEmpty then "\n" else indentation level ++ text ++ "\n"

/-- The line in a block at a level of indentation. -/
def render (level : Nat) (l : Line) : String :=
  if l.text.isEmpty then "\n"
  else String.join ((Text.lines l.text).map (part (level + l.depth)))

/-- Lines in a block at a level of indentation. -/
def renderAll (level : Nat) (ls : List Line) : String :=
  String.join (ls.map (render level))

end Line

/-- A block of lines, some levels further down. -/
def shift (depth : Nat) (ls : List Line) : List Line :=
  ls.map (Line.shift depth)

@[simp] theorem Line.shift_line (depth : Nat) (text : String) :
    (line text).shift depth = below depth text := by
  simp [Line.shift, line, below]

@[simp] theorem Line.shift_below (depth depth' : Nat) (text : String) :
    (below depth' text).shift depth = below (depth' + depth) text := rfl

@[simp] theorem shift_nil (depth : Nat) : shift depth [] = [] := rfl

@[simp] theorem shift_cons (depth : Nat) (l : Line) (ls : List Line) :
    shift depth (l :: ls) = l.shift depth :: shift depth ls := rfl

@[simp] theorem shift_append (depth : Nat) (ls ls' : List Line) :
    shift depth (ls ++ ls') = shift depth ls ++ shift depth ls' :=
  List.map_append

@[simp] theorem shift_shift (depth depth' : Nat) (ls : List Line) :
    shift depth (shift depth' ls) = shift (depth' + depth) ls := by
  induction ls with
  | nil => rfl
  | cons l ls ih => simp [ih, Line.shift, Nat.add_assoc]

namespace Line

@[simp] theorem renderAll_nil (level : Nat) : renderAll level [] = "" := rfl

@[simp] theorem renderAll_append (level : Nat) (ls ls' : List Line) :
    renderAll level (ls ++ ls') = renderAll level ls ++ renderAll level ls' := by
  apply String.toList_inj.mp
  simp [renderAll, String.toList_join]

theorem render_shift (level depth : Nat) (l : Line) :
    render level (l.shift depth) = render (level + depth) l := by
  have hlevel : level + (l.depth + depth) = level + depth + l.depth := by omega
  simp only [render, shift, hlevel]

/-- A block that is moved down stands at a deeper level. -/
theorem renderAll_shift (level depth : Nat) (ls : List Line) :
    renderAll level (FlowSuite.shift depth ls) = renderAll (level + depth) ls := by
  rw [renderAll, renderAll, FlowSuite.shift, List.map_map]
  congr 2
  funext l
  exact render_shift level depth l

end Line

/-- Text that is being written, at a level of indentation. -/
structure Sheet where
  level : Nat
  text : String := ""
  deriving DecidableEq, Repr

namespace Sheet

/-- The sheet with lines added. -/
def write (s : Sheet) (ls : List Line) : Sheet :=
  { s with text := s.text ++ Line.renderAll s.level ls }

/-- The sheet with finished text added as it is. -/
def paste (s : Sheet) (text : String) : Sheet :=
  { s with text := s.text ++ text }

end Sheet

end FlowSuite

/-
Field texts with references.

A reference is a path between a dollar sign with an opening brace and the next
closing brace.  Where the braces hold no name, or are never closed, the characters
stand for themselves.  Scanning splits a text into references and the longest
stretches of plain text between them.
-/
import FlowSuite.Template.Path
import FlowSuite.Text.Runs

namespace FlowSuite

/-- A part of a field text. -/
inductive Segment where
  | text (s : String)
  | ref (p : Path)
  deriving DecidableEq, Repr

namespace Segment

/-- Whether the part is a reference. -/
def isRef : Segment → Bool
  | .text _ => false
  | .ref _ => true

/-- The smallest parts: a character that stands for itself, or a reference. -/
inductive Atom where
  | char (c : Char)
  | ref (p : Path)

/-- Characters that stand for themselves. -/
def plain (cs : List Char) : List Atom :=
  cs.map .char

/-- What a closed pair of braces stands for. -/
def braces (inside : List Char) : List Atom :=
  match Path.ofChars? inside with
  | some p => [.ref p]
  | none => plain ('$' :: '{' :: (inside ++ ['}']))

/-- The atoms of a text.  The first argument is `none` outside of braces; inside of them
it holds the characters since they were opened, last one first. -/
def atoms : Option (List Char) → List Char → List Atom
  | none, [] => []
  | none, '$' :: '{' :: cs => atoms (some []) cs
  | none, c :: cs => .char c :: atoms none cs
  | some inside, [] => plain ('$' :: '{' :: inside.reverse)
  | some inside, '}' :: cs => braces inside.reverse ++ atoms none cs
  | some inside, c :: cs => atoms (some (c :: inside)) cs

/-- An atom among segments: a character of a text, or a segment of its own. -/
def Atom.part : Atom → Char ⊕ Segment
  | .char c => .inl c
  | .ref p => .inr (.ref p)

/-- Characters side by side become one text.  The first argument holds the characters
collected so far, last one first. -/
def gather : List Char → List Atom → List Segment :=
  Text.gather .text Atom.part

/-- The segments of a character list. -/
def scanChars (cs : List Char) : List Segment :=
  gather [] (atoms none cs)

/-- The segments of a text. -/
def scan (s : String) : List Segment :=
  scanChars s.toList

/-- The path of a list that is one reference and nothing else. -/
def single? : List Segment → Option Path
  | [.ref p] => some p
  | _ => none

end Segment

end FlowSuite

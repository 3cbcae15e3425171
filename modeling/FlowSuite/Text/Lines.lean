/-
Lines of a text.

Text is cut at line feeds, and a carriage return right before a line feed belongs
to the cut.  A final line feed ends the last line and opens no new one.  A carriage
return anywhere else is an ordinary character.
-/

namespace FlowSuite.Text

/-- The lines of a character list. -/
def splitLines : List Char → List (List Char)
  | [] => []
  | '\n' :: cs => [] :: splitLines cs
  | '\r' :: '\n' :: cs => [] :: splitLines cs
  | c :: cs =>
      match splitLines cs with
      | [] => [[c]]
      | l :: ls => (c :: l) :: ls

/-- The lines of a text. -/
def lines (s : String) : List String :=
  (splitLines s.toList).map String.ofList

/-- Every line break becomes one space. -/
def joinLines : List Char → List Char
  | [] => []
  | '\r' :: '\n' :: cs => ' ' :: joinLines cs
  | '\n' :: cs => ' ' :: joinLines cs
  | '\r' :: cs => ' ' :: joinLines cs
  | c :: cs => c :: joinLines cs

/-- The text on one line: a carriage return with its line feed, or either of them
alone, becomes a space. -/
def oneLine (s : String) : String :=
  String.ofList (joinLines s.toList)

end FlowSuite.Text

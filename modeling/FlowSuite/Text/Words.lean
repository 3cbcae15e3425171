/-
Words of a free text, and the names made from them.

A word is a longest run of ASCII letters and digits; everything between two words
only separates them.  File names, method names, class names and the keys that
choices are matched by are all built from the words, so none of them can hold a
character outside the ASCII letters, the digits and the underscore.
-/

namespace FlowSuite.Text

/-- The words of a text, in order. -/
def words (s : String) : List (List Char) :=
  (s.toList.splitOnP (!·.isAlphanum)).filter (!·.isEmpty)

/-- The words in lower case, joined by underscores. -/
def snake (s : String) : String :=
  "_".intercalate ((words s).map fun w => String.ofList (w.map Char.toLower))

/-- A word with its first letter in upper case. -/
def capitalize : List Char → List Char
  | [] => []
  | c :: cs => c.toUpper :: cs

/-- The words, each with a capital, joined without a mark. -/
def pascal (s : String) : String :=
  String.join ((words s).map fun w => String.ofList (capitalize w))

/-- The key a choice is matched by: letters and digits only, in lower case, so that
`Is Visible`, `isVisible` and `is_visible` are one choice. -/
def choiceKey (s : String) : String :=
  String.ofList ((s.toList.filter Char.isAlphanum).map Char.toLower)

/-- A name that does not start with a digit; `fallback` stands in for an empty one. -/
def identifier (candidate fallback : String) : String :=
  match candidate.toList with
  | [] => fallback
  | c :: _ => if c.isDigit then "_" ++ candidate else candidate

/-- Whether a text starts with another. -/
def startsWith (s start : String) : Bool :=
  start.toList.isPrefixOf s.toList

theorem startsWith_self (s : String) : startsWith s s = true := by
  simp [startsWith]

theorem startsWith_append {s start : String} (rest : String) (h : startsWith s start = true) :
    startsWith (s ++ rest) start = true := by
  simp only [startsWith, List.isPrefixOf_iff_prefix, String.toList_append] at *
  exact h.trans (List.prefix_append _ _)

/-- Of two texts that differ at some place, no text starts with both. -/
theorem startsWith_eq_false {s start start' : String} (h : startsWith s start = true)
    (hlonger : startsWith start start' = false) (hshorter : startsWith start' start = false) :
    startsWith s start' = false := by
  simp only [startsWith, ← Bool.not_eq_true, List.isPrefixOf_iff_prefix] at *
  intro h'
  rcases List.prefix_or_prefix_of_prefix h' h with hle | hle
  · exact hlonger hle
  · exact hshorter hle

/-- The text with its ASCII letters in lower case. -/
def lower (s : String) : String :=
  String.ofList (s.toList.map Char.toLower)

/-- The text with its ASCII letters in upper case. -/
def upper (s : String) : String :=
  String.ofList (s.toList.map Char.toUpper)

end FlowSuite.Text

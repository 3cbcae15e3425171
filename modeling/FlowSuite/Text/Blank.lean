/-
Blank characters and trimming.

A field is trimmed before it is read, and a field of blanks only counts as absent.
Blank means the Unicode property White_Space: twenty-five code points, far more
than the ASCII ones, so the table is written out here once and everything that
trims goes through it.
-/

namespace FlowSuite.Text

/-- The code points with the Unicode property White_Space. -/
def isBlank (c : Char) : Bool :=
  let n := c.toNat
  (0x09 ≤ n && n ≤ 0x0D) || n == 0x20 || n == 0x85 || n == 0xA0 || n == 0x1680 ||
    (0x2000 ≤ n && n ≤ 0x200A) || n == 0x2028 || n == 0x2029 || n == 0x202F ||
    n == 0x205F || n == 0x3000

/-- The characters without the blanks at their end. -/
def dropBlankEnd (cs : List Char) : List Char :=
  (cs.reverse.dropWhile isBlank).reverse

/-- The characters without the blanks at both ends. -/
def trimChars (cs : List Char) : List Char :=
  dropBlankEnd (cs.dropWhile isBlank)

/-- The text without the blanks at both ends. -/
def trim (s : String) : String :=
  String.ofList (trimChars s.toList)

/-- Nothing but blanks, or nothing at all. -/
def isBlankText (s : String) : Bool :=
  s.toList.all isBlank

@[simp] theorem toList_trim (s : String) : (trim s).toList = trimChars s.toList := by
  simp [trim]

/-- The pieces between the separators, trimmed, the empty ones left out. -/
def items (sep : Char) (cs : List Char) : List String :=
  (((cs.splitOn sep).map trimChars).filter (!·.isEmpty)).map String.ofList

end FlowSuite.Text

/-
Names in Python files.

Three kinds of names come from free text: the methods of the test cases, the files, and the
class of a suite.  All are made of the words of the text, so they are names whatever the
text is.  What else they have to be differs.

Methods and files must be found: their names start with `test`, also with a number behind
them, and a file is called as the method it is for.

A class must not get in the way of anything else: Python has its keywords, and the header of
the file has bound names that the test cases go on to use.  A class is called by words with
capitals, joined, with an underscore before a digit in front.  Nearly everything that is
spoken for starts with a small letter; what does not is one capital and small letters behind
it, and so it is the name of a class exactly if the text has it for its only word.
-/
import FlowSuite.Proofs.Expression.Segments
import FlowSuite.Proofs.FileNames
import FlowSuite.Proofs.Indentation.Block

namespace FlowSuite

/-! ### Names of Python -/

namespace Python

/-- A character that names are made of, among the ASCII ones. -/
def isNameChar (c : Char) : Bool :=
  c.isAlphanum || c == '_'

/-- Letters, digits and underscores, at least one of them, and no digit in front. -/
def isIdentifier (s : String) : Bool :=
  match s.toList with
  | [] => false
  | c :: cs => !c.isDigit && (c :: cs).all isNameChar

/-- The words that are no names. -/
def keywords : List String :=
  ["False", "None", "True", "and", "as", "assert", "async", "await", "break", "class",
    "continue", "def", "del", "elif", "else", "except", "finally", "for", "from", "global",
    "if", "import", "in", "is", "lambda", "nonlocal", "not", "or", "pass", "raise", "return",
    "try", "while", "with", "yield"]

/-- The names and keywords of a line of code, in order. -/
def tokens (code : String) : List String :=
  ((code.toList.splitOnP (!isNameChar ·)).filter (!·.isEmpty)).map String.ofList

/-- The names that stand before an equals sign, or between two of them. -/
def assigned (code : String) : List String :=
  ((code.toList.splitOn '=').dropLast.map fun part =>
    String.ofList (Text.trimChars part)).filter isIdentifier

/-- The names that a line binds, by an import, a definition or an assignment. -/
def bound (code : String) : List String :=
  match tokens code with
  | "import" :: names => names
  | "from" :: rest => (rest.dropWhile (· != "import")).drop 1
  | "def" :: name :: _ => [name]
  | "class" :: name :: _ => [name]
  | _ => assigned code

/-- Whether the lines below a line have names of their own. -/
def opensScope (code : String) : Bool :=
  (tokens code).head?.any (· ∈ ["def", "class"])

/-- The lines that are not below a definition.  The first argument is the level of the
definition that the lines are below, as long as they are. -/
def moduleLines : Option Nat → List Line → List Line
  | _, [] => []
  | inside, l :: ls =>
      if l.text.isEmpty || inside.any (· < l.depth) then moduleLines inside ls
      else l :: moduleLines (if opensScope l.text then some l.depth else none) ls

/-- The names that lines bind in their module. -/
def moduleNames (ls : List Line) : List String :=
  (moduleLines none ls).flatMap fun l => bound l.text

theorem moduleNames_header : moduleNames Selenium.header
    = ["datetime", "json", "os", "re", "time", "unittest", "webdriver", "By", "Fore", "Style",
        "init", "_NoColor", "Fore", "Style", "log_step", "log_pass", "log_fail", "log_info"] := by
  decide +kernel

theorem isNameChar_of_isAlphanum {c : Char} (h : c.isAlphanum = true) :
    isNameChar c = true := by
  rw [isNameChar, h, Bool.true_or]

theorem isIdentifier_of_cons {s : String} {c : Char} {cs : List Char} (hs : s.toList = c :: cs)
    (hc : c.isDigit = false) (hall : ∀ d ∈ c :: cs, isNameChar d = true) :
    isIdentifier s = true := by
  simp only [isIdentifier, hs, hc, Bool.not_false, Bool.true_and, List.all_eq_true]
  exact hall

theorem isNameChar_of_mem {s : String} (h : isIdentifier s = true) {c : Char}
    (hc : c ∈ s.toList) : isNameChar c = true := by
  unfold isIdentifier at h
  split at h
  · cases h
  · rename_i d ds hs
    rw [Bool.and_eq_true, List.all_eq_true] at h
    rw [hs] at hc
    exact h.2 c hc

end Python

/-! ### Methods and files -/

namespace Text

/-- The characters of small words and of what joins them. -/
def isSmall (c : Char) : Bool :=
  c.isLower || c.isDigit || c == '_'

/-- A letter that has no smaller form is a small one. -/
theorem isSmall_of_toLower {c : Char} (h : c.isAlphanum = true) :
    c.toLower = c → isSmall c = true := by
  apply of_isAlphanum h
  decide

theorem isNameChar_of_isSmall {c : Char} (h : isSmall c = true) :
    Python.isNameChar c = true := by
  have halphanum : c.isAlphanum = (c.isUpper || c.isLower || c.isDigit) := rfl
  simp only [isSmall, Bool.or_eq_true] at h
  simp only [Python.isNameChar, halphanum, Bool.or_eq_true]
  tauto

theorem IsSnake.isSmall {s : String} (h : IsSnake s) : ∀ c ∈ s.toList, isSmall c = true := by
  obtain ⟨ws, hws, hs⟩ := h
  intro c hc
  rw [hs] at hc
  rcases mem_intercalate hc with rfl | ⟨w, hw, hc⟩
  · rfl
  · have hword := hws w hw
    exact isSmall_of_toLower (hword.isAlphanum c hc) (hword.toLower c hc)

end Text

namespace Selenium

/-- The name that goes out for a test case is one by which it is found. -/
theorem isTestName_uniqueName (title : Option String) (position : Nat) (taken : List String) :
    IsTestName (uniqueName (testName title position) taken) := by
  obtain ⟨k, hname, -, -⟩ := exists_uniqueName_eq (testName title position) taken
  rw [hname]
  exact (isTestName_testName title position).nameChoice k

/-- It can stand in a definition, since it starts with a letter. -/
theorem IsTestName.isIdentifier {name : String} (h : IsTestName name) :
    Python.isIdentifier name = true := by
  obtain ⟨rest, hname⟩ := List.isPrefixOf_iff_prefix.mp h.startsWith
  refine Python.isIdentifier_of_cons hname.symm rfl ?_
  intro c hc
  exact Text.isNameChar_of_isSmall (h.isSnake.isSmall c (hname ▸ hc))

/-- Every file is called by such a name. -/
theorem exists_fileName_eq (stem : String) :
    ∃ name, IsTestName name ∧ fileName stem = name ++ ".py" := by
  have hsnake := Text.isSnake_snake stem
  unfold fileName
  generalize Text.snake stem = name at hsnake
  by_cases htest : Text.startsWith name "test" = true
  · refine ⟨name, ⟨hsnake, htest⟩, ?_⟩
    simp only [htest, if_true]
    rfl
  · simp only [htest, Bool.false_eq_true, if_false]
    by_cases hempty : name.isEmpty = true
    · have hword : Text.IsWord "suite".toList := .of_all (by decide) (by decide)
      refine ⟨"test_suite", ?_, ?_⟩
      · exact isTestName_test_append (Text.isSnake_word hword) (by decide)
      · simp only [hempty, if_true]
        decide
    · refine ⟨"test_" ++ name, isTestName_test_append hsnake (by simpa using hempty), ?_⟩
      simp only [hempty]
      rfl

end Selenium

/-- **Methods and files of Selenium are found, and a file is called as its method.**  Whatever
the title and whichever names are taken, the name that goes out is an identifier of small
letters, digits and underscores that starts with `test`, and its file has the same name; and
whatever a file is called after, its name is of this kind. -/
theorem test_names_are_found (title : Option String) (position : Nat) (taken : List String)
    (stem : String) :
    (∃ v, uniqueName (Selenium.testName title position) taken = v ∧
      (∀ c ∈ v.toList, Text.isSmall c = true) ∧ Text.startsWith v "test" = true ∧
      Python.isIdentifier v = true ∧ Selenium.fileName v = v ++ ".py") ∧
    ∃ name, Selenium.fileName stem = name ++ ".py" ∧
      (∀ c ∈ name.toList, Text.isSmall c = true) ∧ Text.startsWith name "test" = true := by
  have hv := Selenium.isTestName_uniqueName title position taken
  obtain ⟨name, hname, hfile⟩ := Selenium.exists_fileName_eq stem
  refine ⟨⟨_, rfl, hv.isSnake.isSmall, hv.startsWith, hv.isIdentifier, hv.fileName_eq⟩, ?_⟩
  exact ⟨name, hfile, hname.isSnake.isSmall, hname.startsWith⟩

/-! ### Classes -/

namespace Text

/-- A letter becomes a capital, and a digit stays one. -/
theorem toUpper_of_isAlphanum {c : Char} (h : c.isAlphanum = true) :
    c.toUpper.isAlphanum = true ∧ (c.toUpper.isUpper = true ∨ c.toUpper.isDigit = true) := by
  apply of_isAlphanum h
  decide

/-- A word is there after its first letter became a capital. -/
theorem exists_capitalize_eq {s : String} {w : List Char} (hw : w ∈ words s) :
    ∃ c cs, capitalize w = c :: cs ∧ (c.isUpper = true ∨ c.isDigit = true) ∧
      ∀ d ∈ c :: cs, d.isAlphanum = true := by
  obtain ⟨hne, hall⟩ := of_mem_words hw
  obtain ⟨c, cs, rfl⟩ := List.exists_cons_of_ne_nil hne
  obtain ⟨hc, hcs⟩ := List.forall_mem_cons.mp hall
  obtain ⟨halphanum, hfirst⟩ := toUpper_of_isAlphanum hc
  exact ⟨c.toUpper, cs, rfl, hfirst, List.forall_mem_cons.mpr ⟨halphanum, hcs⟩⟩

theorem toList_pascal (s : String) : (pascal s).toList = (words s).flatMap capitalize := by
  rw [pascal, String.toList_join, List.flatMap_map]
  simp only [String.toList_ofList]

theorem isAlphanum_of_mem_pascal {s : String} {c : Char} (hc : c ∈ (pascal s).toList) :
    c.isAlphanum = true := by
  rw [toList_pascal] at hc
  obtain ⟨w, hw, hc⟩ := List.mem_flatMap.mp hc
  obtain ⟨d, ds, hcap, -, hall⟩ := exists_capitalize_eq hw
  rw [hcap] at hc
  exact hall c hc

/-- What the words make up starts as a word does. -/
theorem pascal_cases (s : String) :
    words s = [] ∨
      ∃ c cs, (pascal s).toList = c :: cs ∧ (c.isUpper = true ∨ c.isDigit = true) := by
  cases hwords : words s with
  | nil => exact Or.inl rfl
  | cons w rest =>
      have hw : w ∈ words s := by
        rw [hwords]
        exact List.mem_cons_self
      obtain ⟨c, cs, hcap, hfirst, -⟩ := exists_capitalize_eq hw
      refine Or.inr ⟨c, cs ++ rest.flatMap capitalize, ?_, hfirst⟩
      rw [toList_pascal, hwords, List.flatMap_cons, hcap, List.cons_append]

theorem isDigit_eq_false_of_isUpper {c : Char} (h : c.isAlphanum = true) :
    c.isUpper = true → c.isDigit = false := by
  apply of_isAlphanum h
  decide

/-- Neither a capital nor a digit is a small letter. -/
theorem isLower_eq_false_of_first {c : Char} (h : c.isAlphanum = true) :
    c.isUpper = true ∨ c.isDigit = true → c.isLower = false := by
  apply of_isAlphanum h
  decide

/-- Small letters behind the first one leave no room for a second word. -/
theorem exists_words_eq {s : String} {c : Char} {cs : List Char}
    (h : (pascal s).toList = c :: cs) (hcs : cs.all Char.isLower = true) :
    ∃ w, words s = [w] ∧ capitalize w = c :: cs := by
  have hfirst := fun w (hw : w ∈ words s) => exists_capitalize_eq hw
  rw [toList_pascal] at h
  cases hwords : words s with
  | nil =>
      rw [hwords] at h
      cases h
  | cons w rest =>
      rw [hwords] at h hfirst
      cases rest with
      | nil =>
          refine ⟨w, rfl, ?_⟩
          rwa [List.flatMap_singleton] at h
      | cons w' rest =>
          -- The first character of the second word would be one of the small letters.
          obtain ⟨d, ds, hcap, -, -⟩ := hfirst w List.mem_cons_self
          obtain ⟨d', ds', hcap', hd', hall⟩ :=
            hfirst w' (List.mem_cons_of_mem w List.mem_cons_self)
          rw [List.flatMap_cons, List.flatMap_cons, hcap, hcap'] at h
          have hmem : d' ∈ cs := by
            rw [← (List.cons.inj h).2]
            simp
          have hlower := List.all_eq_true.mp hcs d' hmem
          rw [isLower_eq_false_of_first (hall d' List.mem_cons_self) hd'] at hlower
          cases hlower

end Text

/-- A line at the margin is its text. -/
theorem Line.render_line {text : String} (hne : text ≠ "") (h : Text.OneLine text) :
    (line text).render 0 = text ++ "\n" := by
  have hmargin : (line text).indented 0 = text := by
    apply String.toList_inj.mp
    simp [indented, line, indentation]
  rw [render_of_oneLine (l := line text) hne h, hmargin]

namespace Selenium

/-- The name of a class is what the words make up, with an underscore if need be; without
words it is a fixed one. -/
theorem className_cases (suite : String) :
    (Text.words suite = [] ∧ className suite = "TestSuite") ∨
      (∃ c cs, (Text.pascal suite).toList = c :: cs ∧ c.isDigit = true ∧
        (className suite).toList = '_' :: c :: cs) ∨
      ∃ c cs, (Text.pascal suite).toList = c :: cs ∧ c.isUpper = true ∧
        className suite = Text.pascal suite := by
  rcases Text.pascal_cases suite with hwords | ⟨c, cs, hpascal, hfirst⟩
  · have hempty : (Text.pascal suite).toList = [] := by
      rw [Text.toList_pascal, hwords]
      rfl
    refine Or.inl ⟨hwords, ?_⟩
    rw [className, Text.identifier, hempty]
  · right
    by_cases hdigit : c.isDigit = true
    · refine Or.inl ⟨c, cs, hpascal, hdigit, ?_⟩
      simp only [className, Text.identifier, hpascal, hdigit, if_true, String.toList_append]
      rfl
    · refine Or.inr ⟨c, cs, hpascal, hfirst.resolve_right hdigit, ?_⟩
      simp only [className, Text.identifier, hpascal, hdigit]
      rfl

theorem isIdentifier_className (suite : String) :
    Python.isIdentifier (className suite) = true := by
  have hpart : ∀ c ∈ (Text.pascal suite).toList, Python.isNameChar c = true := fun c hc =>
    Python.isNameChar_of_isAlphanum (Text.isAlphanum_of_mem_pascal hc)
  rcases className_cases suite with
    ⟨-, hfixed⟩ | ⟨c, cs, hpascal, -, hname⟩ | ⟨c, cs, hpascal, hc, hname⟩
  · rw [hfixed]
    decide
  · rw [hpascal] at hpart
    exact Python.isIdentifier_of_cons hname rfl (List.forall_mem_cons.mpr ⟨rfl, hpart⟩)
  · have halphanum := Text.isAlphanum_of_mem_pascal (hpascal ▸ List.mem_cons_self)
    have hdigit := Text.isDigit_eq_false_of_isUpper halphanum hc
    rw [hpascal] at hpart
    exact Python.isIdentifier_of_cons (hname ▸ hpascal) hdigit hpart

/-- The class follows the header on a line of its own. -/
theorem exists_prologue_eq (suite : String) (cases : Nat) :
    ∃ rest, prologue suite cases = Line.renderAll 0 header ++
      ("class " ++ className suite ++ "(unittest.TestCase):\n" ++ rest) := by
  obtain ⟨tail, htail⟩ : ∃ tail, classHead suite cases
      = [line ("class " ++ className suite ++ "(unittest.TestCase):")] ++ tail := ⟨_, rfl⟩
  have hname : '\n' ∉ (className suite).toList := by
    intro hmem
    exact absurd (Python.isNameChar_of_mem (isIdentifier_className suite) hmem) (by decide)
  have honeLine : Text.OneLine ("class " ++ className suite ++ "(unittest.TestCase):") := by
    simpa [Text.OneLine] using hname
  have hclass : Line.renderAll 0 [line ("class " ++ className suite ++ "(unittest.TestCase):")]
      = "class " ++ className suite ++ "(unittest.TestCase):" ++ "\n" := by
    rw [← Line.render_line (by simp) honeLine]
    simp [Line.renderAll]
  refine ⟨Line.renderAll 0 tail, ?_⟩
  rw [prologue, htail, Line.renderAll_append, Line.renderAll_append, hclass]
  apply String.toList_inj.mp
  simp

/-- A class starts with a capital, or with an underscore and a digit. -/
def startsClass (cs : List Char) : Bool :=
  cs.head?.any Char.isUpper || (cs.head? == some '_' && cs.tail.head?.any Char.isDigit)

theorem startsClass_className (suite : String) : startsClass (className suite).toList = true := by
  rcases className_cases suite with
    ⟨-, hfixed⟩ | ⟨c, cs, -, hc, hname⟩ | ⟨c, cs, hpascal, hc, hname⟩
  · rw [hfixed]
    decide
  · rw [hname]
    simp [startsClass, hc]
  · rw [hname, hpascal]
    simp [startsClass, hc]

/-- The keywords and the names of the header that start as a class does. -/
def capitalNames : List String :=
  ["False", "None", "True", "By", "Fore", "Style"]

theorem mem_capitalNames : ∀ name ∈ Python.keywords ++ Python.moduleNames header,
    startsClass name.toList = true → name ∈ capitalNames := by
  rw [Python.moduleNames_header]
  decide +kernel

theorem capitalNames_subset : ∀ name ∈ capitalNames,
    name ∈ Python.keywords ++ Python.moduleNames header := by
  rw [Python.moduleNames_header]
  decide +kernel

/-- They are one capital and small letters. -/
theorem isLower_of_mem_capitalNames : ∀ name ∈ capitalNames,
    name.toList.head?.any Char.isUpper = true ∧ name.toList.tail.all Char.isLower = true := by
  decide +kernel

/-- A class takes what is spoken for exactly if its text has one word, and that word is it. -/
theorem className_mem_iff (suite : String) :
    className suite ∈ Python.keywords ++ Python.moduleNames header ↔
      ∃ w, Text.words suite = [w] ∧ String.ofList (Text.capitalize w) ∈ capitalNames := by
  constructor
  · intro hmem
    have hcapital := mem_capitalNames _ hmem (startsClass_className suite)
    -- The name is one capital and small letters, so it is neither the fixed one nor one with
    -- an underscore, and no second word went into it.
    obtain ⟨hupper, hlower⟩ := isLower_of_mem_capitalNames _ hcapital
    rcases className_cases suite with
      ⟨-, hfixed⟩ | ⟨c, cs, -, -, hname⟩ | ⟨c, cs, hpascal, -, hname⟩
    · rw [hfixed] at hcapital
      exact absurd hcapital (by decide)
    · rw [hname] at hupper
      cases hupper
    · rw [hname, hpascal] at hlower
      obtain ⟨w, hwords, hcap⟩ := Text.exists_words_eq hpascal hlower
      refine ⟨w, hwords, ?_⟩
      rw [hcap, ← hpascal, String.ofList_toList, ← hname]
      exact hcapital
  · rintro ⟨w, hwords, hcapital⟩
    have hpascal : Text.pascal suite = String.ofList (Text.capitalize w) := by
      apply String.toList_inj.mp
      rw [Text.toList_pascal, hwords, List.flatMap_singleton, String.toList_ofList]
    obtain ⟨hupper, -⟩ := isLower_of_mem_capitalNames _ hcapital
    rw [← hpascal] at hupper hcapital
    rcases className_cases suite with
      ⟨hnone, -⟩ | ⟨c, cs, hcs, hdigit, -⟩ | ⟨c, cs, -, -, hname⟩
    · rw [hwords] at hnone
      cases hnone
    · have hc := Text.isAlphanum_of_mem_pascal (hcs ▸ List.mem_cons_self)
      rw [hcs] at hupper
      rw [Text.isDigit_eq_false_of_isUpper hc hupper] at hdigit
      cases hdigit
    · rw [hname]
      exact capitalNames_subset _ hcapital

end Selenium

/-- **A class can be called by its name, unless the name is spoken for.**  The prologue has the
class on a line behind the header.  Its name is an identifier whatever the suite is called; it
is no keyword and none of the names that the header binds exactly if the text does not have
one of six words for its only word, up to the first letter. -/
theorem class_name_is_free_iff (suite : String) (cases : Nat) :
    (∃ rest, Selenium.prologue suite cases = Line.renderAll 0 Selenium.header ++
      ("class " ++ Selenium.className suite ++ "(unittest.TestCase):\n" ++ rest)) ∧
    Python.isIdentifier (Selenium.className suite) = true ∧
    (Selenium.className suite ∉ Python.keywords ∧
        Selenium.className suite ∉ Python.moduleNames Selenium.header ↔
      ∀ w, Text.words suite = [w] → String.ofList (Text.capitalize w) ∉
        ["False", "None", "True", "By", "Fore", "Style"]) := by
  refine ⟨Selenium.exists_prologue_eq suite cases, Selenium.isIdentifier_className suite, ?_⟩
  have hmem := Selenium.className_mem_iff suite
  rw [List.mem_append] at hmem
  rw [← not_or, hmem, not_exists]
  simp only [not_and]
  rfl

/-- One title becomes a keyword, another the name by which test cases find their elements. -/
theorem shortTitles_are_taken :
    Selenium.className "none" = "None" ∧ "None" ∈ Python.keywords ∧
      Selenium.className " by! " = "By" ∧ "By" ∈ Python.moduleNames Selenium.header := by
  rw [Python.moduleNames_header]
  decide +kernel

end FlowSuite

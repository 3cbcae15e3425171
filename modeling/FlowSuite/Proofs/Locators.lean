/-
Elements found by name.

Selenium is handed the name of an element in a literal and looks for that name.  Cypress
has no such strategy and is handed a selector for it, so the name goes through two
languages: it stands in a string of the selector, and the selector in a literal of
JavaScript.  The literal gives the selector back whatever is in it.  The string of the
selector has marks of its own, a quote that ends it and a backslash that takes the next
character as it is, and nothing is done about them: a name that has none of the two is
found by both targets, and any other name is lost on its way to Cypress.

That a backslash cannot come out right by chance is a matter of length.  A string has no
more characters than are read for it, and each backslash makes it one shorter.
-/
import FlowSuite.Cypress.Expression
import FlowSuite.Proofs.Expression.Literal
import FlowSuite.Selenium.Expression
import Mathlib.Data.List.Basic

namespace FlowSuite

/-! ### Strings of selectors -/

namespace Css

/-- The string at the front, behind its opening single quote, and what follows it.  It ends
at the first quote, but a character behind a backslash is taken as it is. -/
def readString : List Char → Option (List Char × List Char)
  | [] => none
  | '\x27' :: rest => some ([], rest)
  | '\\' :: c :: cs => (readString cs).map fun read => (c :: read.1, read.2)
  | c :: cs => (readString cs).map fun read => (c :: read.1, read.2)

/-- What a selector for a name starts with. -/
def nameHead : List Char :=
  "[name='".toList

/-- The name that a selector asks for, if it asks for a name and for nothing else. -/
def name? (selector : List Char) : Option (List Char) :=
  match nameHead.isPrefixOf? selector with
  | none => none
  | some cs =>
      match readString cs with
      | some (name, [']']) => some name
      | _ => none

/-- A character that stands for itself in a string. -/
def IsPlain (c : Char) : Prop :=
  c ≠ '\x27' ∧ c ≠ '\\'

theorem readString_quote (rest : List Char) : readString ('\x27' :: rest) = some ([], rest) := by
  rw [readString]

theorem readString_escaped (c : Char) (cs : List Char) :
    readString ('\\' :: c :: cs) = (readString cs).map fun read => (c :: read.1, read.2) := by
  rw [readString]

theorem readString_plain {c : Char} (hc : IsPlain c) (cs : List Char) :
    readString (c :: cs) = (readString cs).map fun read => (c :: read.1, read.2) := by
  rw [readString]
  · exact fun h => hc.1 h
  · exact fun d ds h => absurd h hc.2

/-- A character in front of what is read on. -/
theorem exists_of_map_cons {c : Char} {read : Option (List Char × List Char)}
    {value rest : List Char}
    (h : (read.map fun read => (c :: read.1, read.2)) = some (value, rest)) :
    ∃ tail, value = c :: tail ∧ read = some (tail, rest) := by
  obtain ⟨⟨tail, rest'⟩, hread, heq⟩ := Option.map_eq_some_iff.mp h
  obtain ⟨rfl, rfl⟩ := Prod.mk.inj heq
  exact ⟨tail, rfl, hread⟩

/-- The closing quote is read and is not part of the string. -/
theorem length_of_readString {cs value rest : List Char}
    (h : readString cs = some (value, rest)) : value.length + rest.length < cs.length := by
  fun_induction readString cs generalizing value with
  | case1 => cases h
  | case2 rest' =>
      cases h
      simp
  | case3 c cs ih =>
      obtain ⟨tail, rfl, hread⟩ := exists_of_map_cons h
      have hshorter := ih hread
      simp only [List.length_cons]
      omega
  | case4 c cs hquote hslash ih =>
      obtain ⟨tail, rfl, hread⟩ := exists_of_map_cons h
      have hshorter := ih hread
      simp only [List.length_cons]
      omega

/-- Plain characters are read as they are. -/
theorem readString_append {cs : List Char} (h : ∀ c ∈ cs, IsPlain c) (rest : List Char) :
    readString (cs ++ '\x27' :: rest) = some (cs, rest) := by
  induction cs with
  | nil => exact readString_quote rest
  | cons c cs ih =>
      obtain ⟨hc, hcs⟩ := List.forall_mem_cons.mp h
      rw [List.cons_append, readString_plain hc, ih hcs]
      rfl

/-- Nothing else is read as it is. -/
theorem isPlain_of_readString_append {cs rest : List Char}
    (h : readString (cs ++ '\x27' :: rest) = some (cs, rest)) : ∀ c ∈ cs, IsPlain c := by
  induction cs with
  | nil => simp
  | cons c cs ih =>
      rw [List.cons_append] at h
      have hquote : c ≠ '\x27' := by
        rintro rfl
        rw [readString_quote] at h
        cases h
      have hslash : c ≠ '\\' := by
        rintro rfl
        cases cs with
        | nil =>
            -- The backslash takes the closing quote, so what follows is read on.
            rw [List.nil_append, readString_escaped] at h
            obtain ⟨tail, htail, -⟩ := exists_of_map_cons h
            cases htail
        | cons d cs =>
            -- It takes the next character, and what is left is too short for the rest.
            rw [List.cons_append, readString_escaped] at h
            obtain ⟨tail, htail, hread⟩ := exists_of_map_cons h
            obtain ⟨-, rfl⟩ := List.cons.inj htail
            have hshorter := length_of_readString hread
            simp only [List.length_append, List.length_cons] at hshorter
            omega
      have hc : IsPlain c := ⟨hquote, hslash⟩
      rw [readString_plain hc] at h
      obtain ⟨tail, htail, hread⟩ := exists_of_map_cons h
      obtain ⟨-, rfl⟩ := List.cons.inj htail
      exact List.forall_mem_cons.mpr ⟨hc, ih hread⟩

/-- The selector that a name is put into. -/
def nameSelector (name : List Char) : List Char :=
  nameHead ++ (name ++ ['\x27', ']'])

/-- A name is what its selector asks for exactly if all its characters are plain. -/
theorem name?_nameSelector_iff (name : List Char) :
    name? (nameSelector name) = some name ↔ ∀ c ∈ name, IsPlain c := by
  have hhead : ∀ cs, nameHead.isPrefixOf? (nameHead ++ cs) = some cs := by
    intro cs
    rw [List.isPrefixOf?_eq_some_iff_append_eq]
  rw [nameSelector, name?, hhead]
  dsimp only
  constructor
  · intro h
    apply isPlain_of_readString_append
    split at h
    · rename_i value hread
      cases h
      exact hread
    · cases h
  · intro h
    rw [readString_append h]
    rfl

end Css

/-! ### Names for both targets -/

namespace Selenium

/-- The name itself goes into the literal. -/
theorem locate_name {e : Element} {v : String} (hname : e.strategy = .name)
    (hvalue : LocatorValue.resolve e.value = .literal v) :
    locate e = "By.NAME, " ++ Text.quote v := by
  have hquoted : (LocatorValue.literal v).expression .selenium = Text.quote v := by
    rw [LocatorValue.expression, LocatorValue.between, String.empty_append, String.append_empty]
  simp only [locate, hvalue, hquoted, hname, strategy]
  rfl

end Selenium

namespace Cypress

theorem selector?_name {e : Element} {v : String} (hname : e.strategy = .name)
    (hvalue : LocatorValue.resolve e.value = .literal v) :
    selector? e = some (Text.quote ("[name='" ++ v ++ "']")) := by
  simp only [selector?, hvalue, hname, LocatorValue.between]

theorem query_of_selector? {e : Element} {selector : String}
    (h : selector? e = some selector) : query e = "cy.get(" ++ selector ++ ")" := by
  simp only [query, h]
  rfl

theorem look_of_selector? {e : Element} {selector : String}
    (h : selector? e = some selector) : look e = "$body.find(" ++ selector ++ ")" := by
  simp only [look, h]
  rfl

end Cypress

/-- **Both targets look for the same name exactly if it has neither a single quote nor a
backslash.**  Selenium is always handed the name.  Cypress is handed a selector, and the
same one for a command as for a look at the page; it asks for the name, and ends where it
should, if all characters of the name stand for themselves in a string of a selector, and
never otherwise. -/
theorem name_locators_agree_iff {e : Element} {v : String} (hname : e.strategy = .name)
    (hvalue : LocatorValue.resolve e.value = .literal v) :
    (∃ literal, Selenium.locate e = "By.NAME, " ++ literal ∧
      Text.readQuoted literal.toList = some (v.toList, [])) ∧
    ∃ literal selector, Cypress.query e = "cy.get(" ++ literal ++ ")" ∧
      Cypress.look e = "$body.find(" ++ literal ++ ")" ∧
      Text.readQuoted literal.toList = some (selector, []) ∧
      (Css.name? selector = some v.toList ↔ '\x27' ∉ v.toList ∧ '\\' ∉ v.toList) := by
  refine ⟨⟨_, Selenium.locate_name hname hvalue, Text.readQuoted_quote v⟩, ?_⟩
  have hselector := Cypress.selector?_name hname hvalue
  refine ⟨_, _, Cypress.query_of_selector? hselector, Cypress.look_of_selector? hselector,
    Text.readQuoted_quote _, ?_⟩
  have hchars : ("[name='" ++ v ++ "']").toList = Css.nameSelector v.toList := by
    rw [String.toList_append, String.toList_append, List.append_assoc]
    rfl
  rw [hchars, Css.name?_nameSelector_iff]
  constructor
  · intro hplain
    exact ⟨fun hmem => (hplain _ hmem).1 rfl, fun hmem => (hplain _ hmem).2 rfl⟩
  · rintro ⟨hquote, hslash⟩ c hc
    exact ⟨fun h => hquote (h ▸ hc), fun h => hslash (h ▸ hc)⟩

/-- A name with brackets and double quotes, which mean something to the selector around the
string and to the literal, but not to the string. -/
def mailField : Element where
  name := "Mail"
  strategy := .name
  value := " user[\"mail\"] "
  unknownStrategy := none

theorem mailField_is_found :
    LocatorValue.resolve mailField.value = .literal "user[\"mail\"]" ∧
      Selenium.locate mailField = "By.NAME, \"user[\\\"mail\\\"]\"" ∧
      Cypress.query mailField = "cy.get(\"[name='user[\\\"mail\\\"]']\")" ∧
      ∃ literal selector, Cypress.query mailField = "cy.get(" ++ literal ++ ")" ∧
        Text.readQuoted literal.toList = some (selector, []) ∧
        Css.name? selector = some "user[\"mail\"]".toList := by
  have hvalue : LocatorValue.resolve mailField.value = .literal "user[\"mail\"]" := by
    decide +kernel
  obtain ⟨-, literal, selector, hquery, -, hread, hfound⟩ :=
    name_locators_agree_iff (e := mailField) rfl hvalue
  refine ⟨hvalue, by decide +kernel, by decide +kernel, literal, selector, hquery, hread, ?_⟩
  exact hfound.mpr ⟨by decide, by decide⟩

/-- A name with an apostrophe: the string of the selector ends at it. -/
def ownerField : Element :=
  { mailField with value := "owner's mail" }

theorem ownerField_is_lost :
    LocatorValue.resolve ownerField.value = .literal "owner's mail" ∧
      Selenium.locate ownerField = "By.NAME, \"owner's mail\"" ∧
      Cypress.query ownerField = "cy.get(\"[name='owner's mail']\")" ∧
      Text.readQuoted "\"[name='owner's mail']\"".toList
        = some ("[name='owner's mail']".toList, []) ∧
      Css.readString "owner's mail']".toList = some ("owner".toList, "s mail']".toList) ∧
      Css.name? "[name='owner's mail']".toList = none := by
  refine ⟨?_, ?_, ?_, ?_, ?_, ?_⟩
  all_goals decide +kernel

end FlowSuite

/-
The fields that a step is made of.

Each kind of step has its own fields, and what else stands in a node is not looked at.  Of
its own fields a step asks one of two things: a flag, whether it says yes, and any other
field, which text it has.  Two nodes of one kind that answer alike are the same step, so it
is enough to see that an edit changes no answer.

Three kinds of edits change none.  A field that holds nothing answers like one that is not
there, a key that is no field is never asked, and a number or a truth value has the same
text as the string of its text.  The last one is not so for flags, where a number says yes
and its text does not.
-/
import FlowSuite.Proofs.Json.Value
import FlowSuite.Proofs.Number.Writing
import FlowSuite.Step.Decode
import Mathlib.Logic.Relation

namespace FlowSuite

/-! ### Keys -/

namespace Object

/-- The fields without a key. -/
def erase (key : String) (o : Object) : Object :=
  o.filter (·.1 != key)

/-- Deleting a key deletes the value under this key and no other. -/
theorem get?_erase (key : String) (o : Object) (k : String) :
    (erase key o).get? k = if k = key then none else o.get? k := by
  induction o with
  | nil => simp [erase, get?]
  | cons f o ih =>
      rw [erase] at ih ⊢
      by_cases hf : f.1 = key
      · rw [List.filter_cons_of_neg (by simp [hf]), ih, get?_cons]
        by_cases hk : k = key
        · simp [hk]
        · simp [hk, hf]
      · rw [List.filter_cons_of_pos (by simp [hf]), get?_cons, ih, get?_cons]
        by_cases hk : k = key
        · simp [hk, Ne.symm hf]
        · simp [hk]

end Object

/-! ### Fields by kind -/

namespace Kind

/-- The fields of which a step takes the text. -/
def texts : Kind → List String
  | .entry => ["testName", "browser", "url", "framework"]
  | .element => ["name", "selectorType", "selectorValue"]
  | .interact => ["action", "value", "saveTo"]
  | .assertion => ["condition", "value", "propertyName", "networkAlias", "expectedStatus"]
  | .branch => ["condition", "value", "propertyName", "networkAlias", "expectedStatus"]
  | .loop => ["loopType", "count", "condition"]
  | .wait => ["waitType", "duration", "networkAlias"]
  | .capture => ["directory", "filename"]
  | .setVariable => ["varName", "varValue"]
  | .networkRule => ["method", "urlPattern", "alias", "statusCode", "responseBody"]
  | .loadFixture => ["filePath", "varName"]
  | .customCall => ["commandName", "arguments"]

/-- The fields that a step asks for a yes. -/
def flags : Kind → List String
  | .entry => ["clearCookies", "clearLocalStorage", "clearSessionStorage"]
  | .assertion => ["printResults"]
  | .capture => ["autoIncrement"]
  | .networkRule => ["mockResponse"]
  | _ => []

/-- The fields of a kind of step. -/
def fields (kind : Kind) : List String :=
  kind.texts ++ kind.flags

/-- Two objects answer alike to what a kind of step asks. -/
structure Alike (kind : Kind) (o o' : Object) : Prop where
  text : ∀ key ∈ kind.texts, o.text? key = o'.text? key
  flag : ∀ key ∈ kind.flags, o.flag key = o'.flag key

theorem Alike.refl (kind : Kind) (o : Object) : kind.Alike o o :=
  ⟨fun _ _ => rfl, fun _ _ => rfl⟩

theorem Alike.trans {kind : Kind} {o o' o'' : Object} (h : kind.Alike o o')
    (h' : kind.Alike o' o'') : kind.Alike o o'' where
  text := fun key hkey => (h.text key hkey).trans (h'.text key hkey)
  flag := fun key hkey => (h.flag key hkey).trans (h'.flag key hkey)

end Kind

/-- A question needs its five texts and nothing else. -/
theorem Check.ofData_congr {o o' : Object}
    (h : ∀ key ∈ Kind.branch.texts, o.text? key = o'.text? key) : ofData o = ofData o' := by
  simp only [Kind.texts, List.forall_mem_cons] at h
  simp only [ofData, Object.choice?, Object.textD, h]

/-- **Objects that answer alike make the same step.** -/
theorem Step.ofData_congr {kind : Kind} {o o' : Object} (h : kind.Alike o o') :
    ofData kind o = ofData kind o' := by
  obtain ⟨htext, hflag⟩ := h
  cases kind with
  | assertion =>
      have hcheck : Check.ofData o = Check.ofData o' := Check.ofData_congr htext
      simp only [Kind.flags, List.forall_mem_cons] at hflag
      simp only [ofData, Assertion.ofData, hcheck, hflag]
  | branch =>
      have hcheck : Check.ofData o = Check.ofData o' := Check.ofData_congr htext
      simp only [ofData, hcheck]
  | _ =>
      simp only [Kind.texts, Kind.flags, List.forall_mem_cons] at htext hflag
      simp only [ofData, Session.ofData, Element.ofData, Interaction.ofData, Loop.ofData,
        Pause.ofData, Screenshot.ofData, Assignment.ofData, Interception.ofData,
        MockResponse.ofData, Fixture.ofData, Command.ofData, Object.textD, Object.choice?,
        htext, hflag]

/-! ### Edits -/

namespace Json

/-- A value that counts as absent: null, an array, an object, or a blank text. -/
def isVoid : Json → Bool
  | .null => true
  | .string s => Text.isBlankText s
  | .array _ => true
  | .object _ => true
  | _ => false

/-- The text of a number or of a truth value. -/
def scalarText? : Json → Option String
  | .number n => some n.text
  | .bool b => some (if b then "true" else "false")
  | _ => none

theorem valueText?_of_isVoid {v : Json} (h : v.isVoid = true) : Object.valueText? v = none := by
  cases v with
  | string s => exact if_pos h
  | bool b => cases h
  | number n => cases h
  | _ => rfl

/-- A blank text does not say yes. -/
theorem isYes_of_isVoid {v : Json} (h : v.isVoid = true) : Object.isYes v = false := by
  cases v with
  | string s =>
      have htrim : Text.trim s = "" := by
        apply String.toList_inj.mp
        rw [Text.toList_trim, Text.trimChars, List.dropWhile_eq_nil_iff.mpr (List.all_eq_true.mp h)]
        rfl
      rw [Object.isYes, htrim]
      decide
  | bool b => cases h
  | number n => cases h
  | _ => rfl

theorem not_isBlankText_of_isDecimal {s : String} (h : isDecimal s = true) :
    Text.isBlankText s = false := by
  obtain ⟨c, cs, hs, -⟩ := exists_cons_of_isDecimal h
  have hmark := Numeral.marks_of_isDecimal h c (by rw [hs]; exact List.mem_cons_self)
  simp [Text.isBlankText, hs, Numeral.isBlank_of_isMark hmark]

/-- The string of a scalar's text counts as the same text as the scalar. -/
theorem valueText?_string_of_scalarText? {v : Json} {t : String} (h : v.scalarText? = some t) :
    Object.valueText? (.string t) = Object.valueText? v := by
  have hfull : Text.isBlankText t = false := by
    cases v with
    | number n =>
        obtain rfl := Option.some.inj h
        exact not_isBlankText_of_isDecimal n.isDecimal_text
    | bool b =>
        obtain rfl := Option.some.inj h
        cases b <;> decide
    | _ => cases h
  have hstring : Object.valueText? (.string t) = some t := if_neg (by simp [hfull])
  cases v with
  | number n => exact hstring.trans h.symm
  | bool b => exact hstring.trans h.symm
  | _ => cases h

end Json

/-- An edit of a node's fields that a kind of step does not see. -/
inductive Kind.Edit (kind : Kind) : Object → Object → Prop
  /-- A key with a value that counts as absent is deleted. -/
  | clear {o : Object} (key : String) {v : Json} (hget : o.get? key = some v)
      (hvoid : v.isVoid = true) : Edit kind o (Object.erase key o)
  /-- A key that is no field of the kind is added or changed. -/
  | set {o : Object} (key : String) (v : Json) (hkey : key ∉ kind.fields) :
      Edit kind o (Object.insert key v o)
  /-- A key that is no field of the kind is deleted. -/
  | unset {o : Object} (key : String) (hkey : key ∉ kind.fields) :
      Edit kind o (Object.erase key o)
  /-- A number or a truth value that is no flag is replaced by the string of its text. -/
  | spell {o : Object} (key t : String) {v : Json} (hkey : key ∉ kind.flags)
      (hget : o.get? key = some v) (htext : v.scalarText? = some t) :
      Edit kind o (Object.insert key (.string t) o)

namespace Kind

variable {kind : Kind} {o o' : Object}

/-- Objects that have the same under each field answer alike. -/
theorem alike_of_get? (h : ∀ key ∈ kind.fields, o.get? key = o'.get? key) : kind.Alike o o' where
  text := by
    intro key hkey
    rw [Object.text?, Object.text?, h key (List.mem_append_left _ hkey)]
  flag := by
    intro key hkey
    rw [Object.flag, Object.flag, h key (List.mem_append_right _ hkey)]

/-- **No edit changes an answer.** -/
theorem Edit.alike (h : kind.Edit o o') : kind.Alike o o' := by
  cases h with
  | clear key hget hvoid =>
      constructor
      · intro k _
        by_cases hk : k = key
        · rw [Object.text?, Object.text?, Object.get?_erase, if_pos hk, hk, hget]
          exact Json.valueText?_of_isVoid hvoid
        · rw [Object.text?, Object.text?, Object.get?_erase, if_neg hk]
      · intro k _
        by_cases hk : k = key
        · rw [Object.flag, Object.flag, Object.get?_erase, if_pos hk, hk, hget]
          exact Json.isYes_of_isVoid hvoid
        · rw [Object.flag, Object.flag, Object.get?_erase, if_neg hk]
  | set key v hkey =>
      apply alike_of_get?
      intro k hk
      rw [Object.get?_insert, if_neg (ne_of_mem_of_not_mem hk hkey)]
  | unset key hkey =>
      apply alike_of_get?
      intro k hk
      rw [Object.get?_erase, if_neg (ne_of_mem_of_not_mem hk hkey)]
  | spell key t hkey hget htext =>
      constructor
      · intro k _
        by_cases hk : k = key
        · rw [Object.text?, Object.text?, Object.get?_insert, if_pos hk, hk, hget]
          exact (Json.valueText?_string_of_scalarText? htext).symm
        · rw [Object.text?, Object.text?, Object.get?_insert, if_neg hk]
      · intro k hk
        rw [Object.flag, Object.flag, Object.get?_insert, if_neg (ne_of_mem_of_not_mem hk hkey)]

/-- Neither does any number of edits. -/
theorem alike_of_edits (h : Relation.ReflTransGen kind.Edit o o') : kind.Alike o o' := by
  induction h with
  | refl => exact Alike.refl kind o
  | tail _ hedit ih => exact ih.trans hedit.alike

/-- Fields under which a text is looked at: the name of a request in a wait for a request,
every other text in a rule that makes up its answer. -/
def openData (key : String) : Object :=
  if key = "networkAlias" then [("waitType", .string "network")]
  else [("mockResponse", .bool true)]

/-- No field is idle: each makes a difference to some step of its kind. -/
theorem exists_ne_of_mem_fields {key : String} (h : key ∈ kind.fields) :
    ∃ o v, Step.ofData kind (Object.insert key v o) ≠ Step.ofData kind o := by
  rcases List.mem_append.mp h with htext | hflag
  · have hseen : ∀ key ∈ kind.texts,
        Step.ofData kind (Object.insert key (.string "other") (openData key))
          ≠ Step.ofData kind (openData key) := by
      cases kind <;> decide +kernel
    exact ⟨openData key, .string "other", hseen key htext⟩
  · have hseen : ∀ key ∈ kind.flags,
        Step.ofData kind (Object.insert key (.bool true) []) ≠ Step.ofData kind [] := by
      cases kind <;> decide +kernel
    exact ⟨[], .bool true, hseen key hflag⟩

end Kind

/-- **A step sees its own fields and nothing else.**  The step of a node stays what it is
under any sequence of edits that delete what counts as absent, set or delete what is no field
of the node's kind, and replace numbers and truth values outside of flags by their texts.
And the list of fields is no longer than it must be: a key belongs to it exactly if setting
it makes a difference to some node of the kind. -/
theorem step_sees_own_fields (n : Node) :
    (∀ data, Relation.ReflTransGen n.kind.Edit n.data data →
      { n with data := data }.step = n.step) ∧
    ∀ key, key ∈ n.kind.fields ↔
      ∃ data v, ({ n with data := data }.set key v).step ≠ { n with data := data }.step := by
  constructor
  · intro data hedits
    exact (Step.ofData_congr (Kind.alike_of_edits hedits)).symm
  · intro key
    constructor
    · exact Kind.exists_ne_of_mem_fields
    · rintro ⟨data, v, hne⟩
      by_contra hkey
      have hedit : n.kind.Edit data (Object.insert key v data) := .set key v hkey
      exact hne (Step.ofData_congr hedit.alike).symm

/-- A rule for requests as an editor may leave it: a method that was cleared, numbers in
place of texts, and a key of another kind of step. -/
def clutteredRule : Node where
  id := "rule"
  kind := .networkRule
  data := [("alias", .number (.int 7)), ("method", .string " \t"),
    ("mockResponse", .number (.int 1)), ("statusCode", .number (.int 404)),
    ("url", .string "/"), ("urlPattern", .null)]

/-- The same rule with its texts spelled out, without what is not seen, and with a remark. -/
def tidyRule : Node where
  id := "rule"
  kind := .networkRule
  data := [("alias", .string "7"), ("mockResponse", .number (.int 1)),
    ("remark", .array [.bool true]), ("statusCode", .string "404")]

theorem clutteredRule_is_tidyRule :
    Relation.ReflTransGen Kind.networkRule.Edit clutteredRule.data tidyRule.data ∧
      tidyRule.step = clutteredRule.step ∧
      clutteredRule.step
        = .action (.intercept ⟨"GET", "**/api/*", "7", some ⟨"404", "\x7b\x7d"⟩⟩) := by
  have hedits : Relation.ReflTransGen Kind.networkRule.Edit clutteredRule.data tidyRule.data := by
    refine .head (.spell "alias" "7" (by decide) rfl rfl) ?_
    refine .head (.clear "method" rfl (by decide)) ?_
    refine .head (.spell "statusCode" "404" (by decide) rfl rfl) ?_
    refine .head (.unset "url" (by decide)) ?_
    refine .head (.clear "urlPattern" rfl rfl) ?_
    exact .single (.set "remark" (.array [.bool true]) (by decide))
  exact ⟨hedits, (step_sees_own_fields clutteredRule).1 tidyRule.data hedits, by decide +kernel⟩

end FlowSuite

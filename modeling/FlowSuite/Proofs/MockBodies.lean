/-
Mock bodies.

The body of a mocked response is written by hand and goes into the generated code as compact
JSON on one line.  What goes there denotes the value that the body denotes.  A body that is no
JSON gives an empty object.  Writing a written body again changes nothing.

A value is written so that its text denotes it: the keys of every object are in order, each
once, and the nesting is that of the value.  Of the numbers, only integers are considered.
One of them is not held as an integer: zero with a minus sign is a float, and is written with
a decimal.
-/
import FlowSuite.Proofs.Json.Grammar
import FlowSuite.Step.Basic

namespace FlowSuite

/-! ### Integers -/

/-- The number is of 64 bits, with the sign if there is one. -/
def Numeral.FitsWord (n : Numeral) : Prop :=
  if n.negative then n.coefficient ≤ Nat.pow 2 63 else n.coefficient < Nat.pow 2 64

namespace Number

/-- A number that can be written as an integer of 64 bits. -/
def IsInteger (x : Number) : Prop :=
  ∃ n : Numeral, n.isInteger = true ∧ n.FitsWord ∧ ofNumeral? n = some x

theorem isWord_int {n : Int} (hlow : -(Nat.pow 2 63 : Int) ≤ n) (hhigh : n < (Nat.pow 2 64 : Int)) :
    isWord (.int n) = true :=
  decide_eq_true ⟨hlow, hhigh⟩

theorem fitsWord_ofInt {n : Int} (h : isWord (.int n) = true) : (Numeral.ofInt n).FitsWord := by
  have hrange : -(Nat.pow 2 63 : Int) ≤ n ∧ n < (Nat.pow 2 64 : Int) := of_decide_eq_true h
  cases n with
  | ofNat n =>
      have hn : n < Nat.pow 2 64 := Int.ofNat_lt.mp hrange.2
      simpa [Numeral.FitsWord, Numeral.ofInt, Numeral.coefficient, Numeral.digitsValue_toDigits]
        using hn
  | negSucc n =>
      have hn : n + 1 ≤ Nat.pow 2 63 := by
        have hge := hrange.1
        omega
      simpa [Numeral.FitsWord, Numeral.ofInt, Numeral.coefficient, Numeral.digitsValue_toDigits]
        using hn

/-- An integer is held as one, unless it is zero with a minus sign. -/
theorem IsInteger.cases {x : Number} (h : x.IsInteger) : x.isWord = true ∨ x = .float (-0) := by
  obtain ⟨n, hint, hfits, hx⟩ := h
  unfold Numeral.FitsWord at hfits
  by_cases hneg : n.negative = true
  · rw [if_pos hneg] at hfits
    by_cases hzero : n.coefficient = 0
    · have hfloat : n.toFloat = -0 := by simp [Numeral.toFloat, hzero, hneg]
      have hinf : (-0 : Float).isInf = false := by decide
      refine Or.inr ?_
      simpa [ofNumeral?, hint, hneg, hzero, hfloat, hinf] using hx.symm
    · refine Or.inl ?_
      have hpos : 0 < n.coefficient := Nat.pos_of_ne_zero hzero
      obtain rfl : Number.int (-n.coefficient) = x := by
        simpa [ofNumeral?, hint, hneg, hpos, hfits] using hx
      exact isWord_int (by omega) (by omega)
  · rw [if_neg hneg] at hfits
    refine Or.inl ?_
    obtain rfl : Number.int n.coefficient = x := by
      simpa [ofNumeral?, hint, hneg, hfits] using hx
    exact isWord_int (by omega) (by omega)

theorem isInteger_int_iff {n : Int} : (int n).IsInteger ↔ (int n).isWord = true := by
  constructor
  · intro h
    exact h.cases.resolve_right nofun
  · intro hword
    exact ⟨.ofInt n, by cases n <;> rfl, fitsWord_ofInt hword, ofNumeral?_numeral hword⟩

theorem isInteger_float_iff {x : Float} : (float x).IsInteger ↔ x = -0 := by
  constructor
  · intro h
    exact Number.float.inj (h.cases.resolve_left nofun)
  · rintro rfl
    exact ⟨⟨true, ['0'], [], none⟩, rfl, Nat.zero_le _, rfl⟩

instance : (x : Number) → Decidable x.IsInteger
  | .int _ => decidable_of_iff _ isInteger_int_iff.symm
  | .float _ => decidable_of_iff _ isInteger_float_iff.symm

end Number

namespace Json

/-- All numbers in a value can be written as integers of 64 bits, so a zero with a sign is
no exception. -/
def IntegersOnly (v : Json) : Prop :=
  v.Everywhere fun
    | .number x => decide x.IsInteger
    | _ => true

instance (v : Json) : Decidable v.IntegersOnly :=
  inferInstanceAs (Decidable (Everywhere _ v))

theorem integersOnly_number {x : Number} : (number x).IntegersOnly ↔ x.IsInteger :=
  (everywhere_of_parts_eq rfl).trans decide_eq_true_iff

theorem integersOnly_array {items : List Json} :
    (array items).IntegersOnly ↔ ∀ v ∈ items, v.IntegersOnly := by
  simp [IntegersOnly, everywhere_array]

theorem integersOnly_object {fields : List (String × Json)} :
    (object fields).IntegersOnly ↔ ∀ f ∈ fields, f.2.IntegersOnly := by
  simp [IntegersOnly, everywhere_object]

/-! ### A written value denotes itself -/

theorem denotes_number {levels : Nat} {x : Number} (h : x.IsInteger) :
    Denotes levels x.text.toList (.number x) := by
  rcases h.cases with hword | rfl
  · cases x with
    | float x => cases hword
    | int n =>
        have hread := Numeral.read_text n Document.ends_nil
        obtain ⟨front, heq, hwritten⟩ := Numeral.exists_isWritten_of_read hread
        rw [List.append_cancel_right heq]
        exact .number hwritten (Number.ofNumeral?_numeral hword)
  · have htext : (Number.float (-0)).text = "-0.0" := by decide +kernel
    rw [htext]
    refine .number (n := ⟨true, ['0'], ['0'], none⟩) ?_ rfl
    exact ⟨['.', '0'], [], rfl, Or.inl rfl, Or.inr ⟨Numeral.isDigits_singleton rfl, rfl⟩, rfl⟩

/-- The member that a field is written as. -/
def memberOf (f : String × Json) : Member :=
  { before := [], body := f.1.toList.flatMap Text.escape, key := f.1, behind := []
    chars := f.2.render.toList, value := f.2 }

theorem denotes_render_array {levels : Nat} {items : List Json}
    (h : ∀ v ∈ items, Denotes levels v.render.toList v) :
    Denotes (levels + 1) (array items).render.toList (.array items) := by
  rw [toList_render_array]
  by_cases hnil : items = []
  · subst hnil
    exact .emptyArray isGap_nil
  · have hwritten : ∀ i ∈ items.map fun v => (v.render.toList, v), Denotes levels i.1 i.2 := by
      intro i hi
      obtain ⟨v, hv, rfl⟩ := List.mem_map.mp hi
      exact h v hv
    simpa [Function.comp_def] using Denotes.array (by simpa using hnil) hwritten

theorem text_memberOf (f : String × Json) : (memberOf f).text = fieldChars f := by
  simp [memberOf, Member.text, fieldChars, Text.quoteChars]

theorem isKeyed_memberOf (f : String × Json) : (memberOf f).IsKeyed :=
  ⟨isGap_nil, Document.spells_flatMap_escape f.1.toList, isGap_nil⟩

theorem denotes_render_object {levels : Nat} {fields : List (String × Json)}
    (hsorted : Object.Sorted fields) (h : ∀ f ∈ fields, Denotes levels f.2.render.toList f.2) :
    Denotes (levels + 1) (object fields).render.toList (.object fields) := by
  rw [toList_render_object]
  by_cases hnil : fields = []
  · subst hnil
    exact .emptyObject isGap_nil
  · have hkeys : ∀ m ∈ fields.map memberOf, m.IsKeyed := by
      intro m hm
      obtain ⟨f, -, rfl⟩ := List.mem_map.mp hm
      exact isKeyed_memberOf f
    have hvalues : ∀ m ∈ fields.map memberOf, Denotes levels m.chars m.value := by
      intro m hm
      obtain ⟨f, hf, rfl⟩ := List.mem_map.mp hm
      exact h f hf
    have hfields : (fields.map memberOf).map Member.field = fields := by
      simp [Function.comp_def, Member.field, memberOf]
    have htexts : (fields.map memberOf).map Member.text = fields.map fieldChars := by
      simp [text_memberOf]
    rw [← htexts]
    refine .object (by simpa using hnil) hkeys hvalues hsorted ?_
    intro key
    rw [hfields, ← Object.get?_ofFields, Object.ofFields_of_sorted hsorted]

/-- **What is written for a value denotes the value.** -/
theorem denotes_render {levels : Nat} {v : Json} (hints : v.IntegersOnly) (hord : v.IsOrdered)
    (hdepth : v.depth ≤ levels) : Denotes levels v.render.toList v := by
  induction levels using Nat.strongRecOn generalizing v with
  | _ levels ih =>
      cases v with
      | null => exact .null
      | bool b =>
          cases b with
          | true => exact .yes
          | false => exact .no
      | string s =>
          rw [render, Text.toList_quote]
          exact .string (Document.spells_flatMap_escape s.toList)
      | number x => exact denotes_number (integersOnly_number.mp hints)
      | array items =>
          cases levels with
          | zero => exact absurd hdepth (Nat.not_succ_le_zero _)
          | succ levels =>
              have hitems : ∀ v ∈ items, Denotes levels v.render.toList v := by
                intro v hv
                exact ih levels (Nat.lt_succ_self levels) (integersOnly_array.mp hints v hv)
                  (isOrdered_array.mp hord v hv) (depth_array_le_iff.mp hdepth v hv)
              exact denotes_render_array hitems
      | object fields =>
          cases levels with
          | zero => exact absurd hdepth (Nat.not_succ_le_zero _)
          | succ levels =>
              obtain ⟨hsorted, hordered⟩ := isOrdered_object.mp hord
              have hfields : ∀ f ∈ fields, Denotes levels f.2.render.toList f.2 := by
                intro f hf
                exact ih levels (Nat.lt_succ_self levels) (integersOnly_object.mp hints f hf)
                  (hordered f hf) (depth_object_le_iff.mp hdepth f hf)
              exact denotes_render_object hsorted hfields

/-! ### Line breaks -/

/-- There are no control characters. -/
def isPrintable (s : String) : Bool :=
  s.toList.all (0x20 ≤ ·.toNat)

theorem isPrintable_append (s t : String) :
    isPrintable (s ++ t) = (isPrintable s && isPrintable t) := by
  simp [isPrintable]

theorem isPrintable_quote (s : String) : isPrintable (Text.quote s) = true := by
  rw [isPrintable, Text.toList_quote, List.all_eq_true]
  intro c hc
  exact decide_eq_true (Text.not_control_of_mem_quoteChars hc)

theorem isPrintable_text (n : Number) : isPrintable n.text = true := by
  rw [isPrintable, List.all_eq_true]
  intro c hc
  refine decide_eq_true ?_
  have hmark := n.marks_text c hc
  rw [Numeral.isMark, Bool.or_eq_true, decide_eq_true_eq] at hmark
  rcases hmark with hdigit | hmem
  · exact Nat.le_trans (by decide) (Char.isDigit_iff_toNat.mp hdigit).1
  · simp only [List.mem_cons, List.not_mem_nil, or_false] at hmem
    rcases hmem with rfl | rfl | rfl | rfl | rfl <;> decide

mutual

theorem isPrintable_render (v : Json) : isPrintable v.render = true := by
  cases v with
  | null => rfl
  | bool b => cases b <;> rfl
  | number n => exact isPrintable_text n
  | string s => exact isPrintable_quote s
  | array items =>
      rw [render, isPrintable_append, isPrintable_append, isPrintable_renderItems items]
      rfl
  | object fields =>
      rw [render, isPrintable_append, isPrintable_append, isPrintable_renderFields fields]
      rfl

theorem isPrintable_renderItems (items : List Json) : isPrintable (renderItems items) = true := by
  match items with
  | [] => rfl
  | [v] => exact isPrintable_render v
  | v :: w :: rest =>
      rw [renderItems, isPrintable_append, isPrintable_append, isPrintable_render v,
        isPrintable_renderItems (w :: rest)]
      rfl

theorem isPrintable_renderFields (fields : List (String × Json)) :
    isPrintable (renderFields fields) = true := by
  match fields with
  | [] => rfl
  | [(k, v)] =>
      rw [renderFields, isPrintable_append, isPrintable_append, isPrintable_quote,
        isPrintable_render v]
      rfl
  | (k, v) :: f :: rest =>
      rw [renderFields, isPrintable_append, isPrintable_append, isPrintable_append,
        isPrintable_append, isPrintable_quote, isPrintable_render v,
        isPrintable_renderFields (f :: rest)]
      rfl

end

/-! ### Mock bodies -/

/-- The text is JSON, and the value is the only one that it denotes. -/
def Means (s : String) (v : Json) : Prop :=
  ∀ w, Denotes nestingLimit s.toList w ↔ w = v

theorem Denotes.means {s : String} {v : Json} (h : Denotes nestingLimit s.toList v) :
    Means s v := by
  intro w
  rw [← parse?_eq_some_iff, parse?_eq_some_iff.mpr h, Option.some.injEq, eq_comm]

/-- What is written for the value of a text denotes it as well. -/
theorem Denotes.render {levels : Nat} {cs : List Char} {v : Json} (h : Denotes levels cs v)
    (hints : v.IntegersOnly) : Denotes levels v.render.toList v := by
  obtain ⟨d, hd, -⟩ := h.isRead
  obtain ⟨hord, hdepth⟩ := isOrdered_and_depth_le_of_ofDocument? hd
  exact denotes_render hints hord hdepth

end Json

namespace MockResponse

open Json (Denotes Means)

variable {m : MockResponse}

theorem json_of_denotes {v : Json} (h : Denotes nestingLimit m.body.toList v) :
    m.json = v.render := by
  rw [json, Json.parse?_eq_some_iff.mpr h]

theorem json_of_not_denotes (h : ¬∃ v, Denotes nestingLimit m.body.toList v) :
    m.json = "\x7b\x7d" := by
  have hparse : Json.parse? m.body = none := by
    rw [Option.eq_none_iff_forall_ne_some]
    intro v hv
    exact h ⟨v, Json.parse?_eq_some_iff.mp hv⟩
  rw [json, hparse]

/-- What is written is always the text of a value that it denotes. -/
theorem exists_json_eq_render (h : ∀ v, Denotes nestingLimit m.body.toList v → v.IntegersOnly) :
    ∃ v : Json, m.json = v.render ∧ Denotes nestingLimit m.json.toList v := by
  by_cases hbody : ∃ v, Denotes nestingLimit m.body.toList v
  · obtain ⟨v, hv⟩ := hbody
    rw [json_of_denotes hv]
    exact ⟨v, rfl, hv.render (h v hv)⟩
  · rw [json_of_not_denotes hbody]
    exact ⟨.object [], rfl, .emptyObject Json.isGap_nil⟩

end MockResponse

/-- **Mock bodies are normalized JSON.**  If all numbers of a body are integers, what is
written has no line break and is JSON.  It denotes what the body denotes, or is an empty object
if the body denotes nothing.  Written again, it stays as it is. -/
theorem mock_body_is_normalized (m : MockResponse)
    (h : ∀ v, Json.Denotes nestingLimit m.body.toList v → v.IntegersOnly) :
    (∀ c ∈ m.json.toList, c ≠ '\n' ∧ c ≠ '\r') ∧
      (∃ v, Json.Means m.json v) ∧
      (∀ v, Json.Denotes nestingLimit m.body.toList v → Json.Means m.json v) ∧
      ((¬∃ v, Json.Denotes nestingLimit m.body.toList v) → m.json = "\x7b\x7d") ∧
      ∀ m' : MockResponse, m'.body = m.json → m'.json = m.json := by
  obtain ⟨v, hrender, hjson⟩ := MockResponse.exists_json_eq_render h
  refine ⟨?_, ⟨v, hjson.means⟩, ?_, MockResponse.json_of_not_denotes, ?_⟩
  · intro c hc
    have hprintable := Json.isPrintable_render v
    rw [← hrender, Json.isPrintable, List.all_eq_true] at hprintable
    have hcontrol := of_decide_eq_true (hprintable c hc)
    constructor <;> rintro rfl <;> exact absurd hcontrol (by decide)
  · intro w hw
    rw [MockResponse.json_of_denotes hw]
    exact (hw.render (h w hw)).means
  · intro m' hbody
    rw [← hbody] at hjson
    rw [MockResponse.json_of_denotes hjson, hrender]

/-- A body on several lines, with a key that is given twice and a zero with a sign. -/
def looseBody : MockResponse where
  status := "200"
  body := "\x7b\n  \"b\": 1,\r\n  \"a\": [-0, \"\\u000a\"],\n  \"b\": 18446744073709551615\n\x7d"

theorem looseBody_is_normalized :
    looseBody.json = "\x7b\"a\":[-0.0,\"\\n\"],\"b\":18446744073709551615\x7d" ∧
      (∃ v, Json.Means looseBody.json v) ∧
      ∀ m : MockResponse, m.body = looseBody.json → m.json = looseBody.json := by
  have hall : (Json.parse? looseBody.body).all (decide ·.IntegersOnly) = true := by decide +kernel
  have hints : ∀ v, Json.Denotes nestingLimit looseBody.body.toList v → v.IntegersOnly := by
    intro v hv
    rw [Json.parse?_eq_some_iff.mpr hv] at hall
    exact of_decide_eq_true hall
  obtain ⟨-, hjson, -, -, hagain⟩ := mock_body_is_normalized looseBody hints
  exact ⟨by decide +kernel, hjson, hagain⟩

end FlowSuite

/-
Reading what was written.

A value is written without blanks, and what follows it in a document is a comma, a closing
bracket or nothing.  None of these can go on with a number, and nothing else could be taken
for a part of the value, so the reader stops where the writer stopped.  The bound that the
reader is given is enough: a part of a value is written with fewer characters than the
value.
-/
import FlowSuite.Proofs.Expression.Literal
import FlowSuite.Proofs.Expression.Numeral
import FlowSuite.Proofs.Json.Value

namespace FlowSuite

/-- What may follow a value. -/
def Document.Ends (rest : List Char) : Prop :=
  ∀ c, rest.head? = some c → c ∈ [',', ']', '\x7d']

namespace Document

theorem ends_nil : Ends [] := by simp [Ends]

theorem ends_cons {c : Char} (h : c ∈ [',', ']', '\x7d']) (rest : List Char) :
    Ends (c :: rest) := by
  intro d hd
  obtain rfl := Option.some.inj hd
  exact h

end Document

open Document (Ends)

/-! ### Integers -/

namespace Numeral

theorem toDigits_eq_cons (n : Nat) : ∃ d ds, Nat.toDigits 10 n = d :: ds ∧ d.isDigit = true := by
  obtain ⟨d, ds, heq⟩ := List.exists_cons_of_ne_nil (Nat.toDigits_ne_nil (n := n) (b := 10))
  exact ⟨d, ds, heq, isDigit_of_mem_toDigits (heq ▸ List.mem_cons_self)⟩

theorem head?_toDigits_ne_zero {n : Nat} (h : 0 < n) : (Nat.toDigits 10 n).head? ≠ some '0' := by
  induction n using Nat.strongRecOn with
  | _ n ih =>
      by_cases hlt : n < 10
      · rw [Nat.toDigits_of_lt_base hlt]
        have hdigit : ∀ n, n < 10 → 0 < n → Nat.digitChar n ≠ '0' := by decide
        simpa using hdigit n hlt h
      · have hdiv : 0 < n / 10 := by omega
        rw [Nat.toDigits_of_base_le (by decide) (by omega),
          List.head?_append_of_ne_nil _ Nat.toDigits_ne_nil]
        exact ih (n / 10) (by omega) hdiv

theorem not_isDigit_of_ends {rest : List Char} (h : Ends rest) {c : Char}
    (hc : rest.head? = some c) : c.isDigit = false := by
  have hmem := h c hc
  simp only [List.mem_cons, List.not_mem_nil, or_false] at hmem
  rcases hmem with rfl | rfl | rfl <;> decide

/-- The digits of a number are a whole part. -/
theorem readWhole_toDigits (n : Nat) {rest : List Char} (hrest : Ends rest) :
    readWhole (Nat.toDigits 10 n ++ rest) = some (Nat.toDigits 10 n, rest) := by
  by_cases hn : 0 < n
  · have hhead : (Nat.toDigits 10 n ++ rest).head? ≠ some '0' := by
      rw [List.head?_append_of_ne_nil _ Nat.toDigits_ne_nil]
      exact head?_toDigits_ne_zero hn
    unfold readWhole
    split
    · rename_i heq
      exact absurd (congrArg List.head? heq) hhead
    · exact readDigits_append Nat.toDigits_ne_nil
        (fun _ => isDigit_of_mem_toDigits) fun c hc => not_isDigit_of_ends hrest hc
  · obtain rfl : n = 0 := by omega
    rfl

theorem readFraction_of_ends {rest : List Char} (h : Ends rest) :
    readFraction rest = some ([], rest) := by
  unfold readFraction
  split
  · exact absurd (h '.' rfl) (by decide)
  · rfl

theorem readExponent_of_ends {rest : List Char} (h : Ends rest) :
    readExponent rest = some (none, rest) := by
  cases rest with
  | nil => rfl
  | cons c rest =>
      have hc := h c rfl
      have hmark : ¬ (c = 'e' ∨ c = 'E') := by
        rintro (rfl | rfl) <;> revert hc <;> decide
      rw [readExponent, if_neg hmark]

/-- An integer is read as its numeral. -/
theorem read_text (n : Int) {rest : List Char} (hrest : Ends rest) :
    read ((Number.text (.int n)).toList ++ rest) = some (ofInt n, rest) := by
  cases n with
  | ofNat n =>
      rw [Number.toList_text_ofNat]
      have hsign : readSign (Nat.toDigits 10 n ++ rest) = (false, Nat.toDigits 10 n ++ rest) := by
        obtain ⟨d, ds, heq, hd⟩ := toDigits_eq_cons n
        have hminus : d ≠ '-' := by
          rintro rfl
          exact absurd hd (by decide)
        simp [heq, readSign, hminus]
      simp [read, hsign, readWhole_toDigits n hrest, readFraction_of_ends hrest,
        readExponent_of_ends hrest, ofInt]
  | negSucc n =>
      rw [Number.toList_text_negSucc]
      simp [read, readSign, readWhole_toDigits (n + 1) hrest, readFraction_of_ends hrest,
        readExponent_of_ends hrest, ofInt]

end Numeral

theorem Number.text_int_eq_cons (n : Int) :
    ∃ c cs, (text (.int n)).toList = c :: cs ∧ (c = '-' ∨ c.isDigit = true) := by
  cases n with
  | ofNat n =>
      obtain ⟨d, ds, heq, hd⟩ := Numeral.toDigits_eq_cons n
      exact ⟨d, ds, (toList_text_ofNat n).trans heq, Or.inr hd⟩
  | negSucc n => exact ⟨'-', _, toList_text_negSucc n, Or.inl rfl⟩

/-! ### Values -/

namespace Document

theorem skip_of_not_isSpace {c : Char} (h : isSpace c = false) (cs : List Char) :
    skip (c :: cs) = c :: cs := by
  simp [skip, h]

theorem skip_quote (cs : List Char) : skip ('"' :: cs) = '"' :: cs :=
  skip_of_not_isSpace (by decide) cs

theorem skip_colon (cs : List Char) : skip (':' :: cs) = ':' :: cs :=
  skip_of_not_isSpace (by decide) cs

theorem skip_of_ends {rest : List Char} (h : Ends rest) : skip rest = rest := by
  cases rest with
  | nil => rfl
  | cons c rest =>
      have hc := h c rfl
      refine skip_of_not_isSpace ?_ rest
      simp only [List.mem_cons, List.not_mem_nil, or_false] at hc
      rcases hc with rfl | rfl | rfl <;> decide

theorem not_isSpace_of_numeral {c : Char} (hc : c = '-' ∨ c.isDigit = true) :
    isSpace c = false := by
  rw [Bool.eq_false_iff]
  intro hspace
  simp only [isSpace, decide_eq_true_eq] at hspace
  rcases hspace with rfl | rfl | rfl | rfl <;> revert hc <;> decide

/-- What starts with a minus sign or a digit is read as a numeral. -/
theorem readValue_of_numeral (bound : Nat) {c : Char} (hc : c = '-' ∨ c.isDigit = true)
    (cs : List Char) :
    readValue (bound + 1) (c :: cs)
      = (Numeral.read (c :: cs)).map fun (n, cs) => (.number n, cs) := by
  rw [readValue, skip_of_not_isSpace (not_isSpace_of_numeral hc)]
  split <;> simp_all

theorem readValue_of_quote (bound : Nat) (cs : List Char) :
    readValue (bound + 1) ('"' :: cs) = (readString cs).map fun (s, cs) => (.string s, cs) := by
  rw [readValue, skip_quote]
  rfl

theorem readValue_of_items (bound : Nat) {c : Char} (hspace : isSpace c = false) (hc : c ≠ ']')
    (cs : List Char) :
    readValue (bound + 1) ('[' :: c :: cs)
      = (readItems (readValue bound) bound (c :: cs)).map fun (items, cs) =>
          (.array items, cs) := by
  rw [readValue, skip_of_not_isSpace (by decide)]
  simp [skip_of_not_isSpace hspace, hc]

theorem readValue_of_members (bound : Nat) (cs : List Char) :
    readValue (bound + 1) ('\x7b' :: '"' :: cs)
      = (readMembers (readValue bound) bound ('"' :: cs)).map fun (members, cs) =>
          (.object members, cs) := by
  rw [readValue, skip_of_not_isSpace (by decide)]
  simp [skip_quote]

end Document

namespace Json

/-- The characters of a field of an object. -/
def fieldChars (f : String × Json) : List Char :=
  Text.quoteChars f.1.toList ++ ':' :: f.2.render.toList

theorem fieldChars_append (f : String × Json) (rest : List Char) :
    fieldChars f ++ rest
      = '"' :: (f.1.toList.flatMap Text.escape ++ '"' :: ':' :: (f.2.render.toList ++ rest)) := by
  rw [fieldChars, List.append_assoc, Text.quoteChars_append]
  rfl

theorem toList_render_array (items : List Json) :
    (array items).render.toList
      = '[' :: ([','].intercalate (items.map (·.render.toList)) ++ [']']) := by
  have hitems : (renderItems items).toList = [','].intercalate (items.map (·.render.toList)) := by
    induction items with
    | nil => rfl
    | cons v items ih =>
        cases items with
        | nil => simp [renderItems]
        | cons w items =>
            rw [renderItems, String.toList_append, String.toList_append, ih]
            simp
  simp [render, hitems]

theorem toList_render_object (fields : List (String × Json)) :
    (object fields).render.toList
      = '\x7b' :: ([','].intercalate (fields.map fieldChars) ++ ['\x7d']) := by
  have hfields : (renderFields fields).toList = [','].intercalate (fields.map fieldChars) := by
    induction fields with
    | nil => rfl
    | cons f fields ih =>
        cases fields with
        | nil => simp [renderFields, fieldChars]
        | cons g fields =>
            rw [renderFields, String.toList_append, String.toList_append, ih]
            simp [fieldChars]
  simp [render, hfields]

/-- A written value starts neither with a blank nor with a closing bracket. -/
theorem render_eq_cons {v : Json} (h : v.IsIntegral) :
    ∃ c cs, v.render.toList = c :: cs ∧ Document.isSpace c = false ∧ c ≠ ']' := by
  cases v with
  | null => exact ⟨'n', _, rfl, by decide⟩
  | bool b =>
      cases b with
      | false => exact ⟨'f', _, rfl, by decide⟩
      | true => exact ⟨'t', _, rfl, by decide⟩
  | number n =>
      cases n with
      | float x => cases isIntegral_number.mp h
      | int n =>
          obtain ⟨c, cs, heq, hc⟩ := Number.text_int_eq_cons n
          refine ⟨c, cs, heq, Document.not_isSpace_of_numeral hc, ?_⟩
          rintro rfl
          revert hc
          decide
  | string s => exact ⟨'"', _, Text.toList_quote s, by decide⟩
  | array items => exact ⟨'[', _, toList_render_array items, by decide⟩
  | object fields => exact ⟨'\x7b', _, toList_render_object fields, by decide⟩

theorem exists_intercalate_cons (piece : List Char) (pieces : List (List Char)) :
    ∃ tail, [','].intercalate (piece :: pieces) = piece ++ tail := by
  cases pieces with
  | nil => exact ⟨[], by simp⟩
  | cons p pieces => exact ⟨[','] ++ [','].intercalate (p :: pieces), by simp⟩

theorem length_le_length_intercalate {pieces : List (List Char)} {piece : List Char}
    (h : piece ∈ pieces) : piece.length ≤ ([','].intercalate pieces).length := by
  induction pieces with
  | nil => cases h
  | cons p pieces ih =>
      cases pieces with
      | nil =>
          obtain rfl := List.mem_singleton.mp h
          simp
      | cons q pieces =>
          rw [List.intercalate_cons_cons, List.length_append, List.length_append]
          rcases List.mem_cons.mp h with rfl | h
          · omega
          · have hrest := ih h
            omega

theorem length_le_intercalate {pieces : List (List Char)} (h : ∀ p ∈ pieces, p ≠ []) :
    pieces.length ≤ ([','].intercalate pieces).length := by
  induction pieces with
  | nil => exact Nat.zero_le _
  | cons p pieces ih =>
      have hp : 1 ≤ p.length := List.length_pos_iff.mpr (h p List.mem_cons_self)
      have hrest := ih fun q hq => h q (List.mem_cons_of_mem _ hq)
      cases pieces with
      | nil => simpa using hp
      | cons q pieces =>
          rw [List.intercalate_cons_cons, List.length_append, List.length_append, List.length_cons]
          omega

/-! ### Containers -/

theorem length_render_lt_of_mem_items {items : List Json} {v : Json} (h : v ∈ items) :
    v.render.toList.length < (array items).render.toList.length := by
  have hpiece : v.render.toList ∈ items.map (·.render.toList) := List.mem_map_of_mem h
  have hle := length_le_length_intercalate hpiece
  rw [toList_render_array, List.length_cons, List.length_append]
  omega

theorem length_render_lt_of_mem_fields {fields : List (String × Json)} {f : String × Json}
    (h : f ∈ fields) : f.2.render.toList.length < (object fields).render.toList.length := by
  have hpiece : fieldChars f ∈ fields.map fieldChars := List.mem_map_of_mem h
  have hle := length_le_length_intercalate hpiece
  rw [fieldChars, List.length_append, List.length_cons] at hle
  rw [toList_render_object, List.length_cons, List.length_append]
  omega

/-- There are fewer items than characters. -/
theorem length_items_lt {items : List Json} (h : ∀ v ∈ items, v.IsIntegral) :
    items.length < (array items).render.toList.length := by
  have hle : (items.map (·.render.toList)).length
      ≤ ([','].intercalate (items.map (·.render.toList))).length := by
    apply length_le_intercalate
    intro p hp
    obtain ⟨v, hv, rfl⟩ := List.mem_map.mp hp
    obtain ⟨c, cs, heq, -⟩ := render_eq_cons (h v hv)
    rw [heq]
    exact List.cons_ne_nil c cs
  rw [List.length_map] at hle
  rw [toList_render_array, List.length_cons, List.length_append]
  omega

/-- There are fewer fields than characters. -/
theorem length_fields_lt (fields : List (String × Json)) :
    fields.length < (object fields).render.toList.length := by
  have hle : (fields.map fieldChars).length
      ≤ ([','].intercalate (fields.map fieldChars)).length := by
    apply length_le_intercalate
    intro p hp
    obtain ⟨f, -, rfl⟩ := List.mem_map.mp hp
    exact List.cons_ne_nil _ _
  rw [List.length_map] at hle
  rw [toList_render_object, List.length_cons, List.length_append]
  omega

section Containers

variable {read : List Char → Option (Document × List Char)}

/-- The texts of some values are read right, whatever follows them. -/
def Reads (read : List Char → Option (Document × List Char)) (vs : List Json) : Prop :=
  ∀ v ∈ vs, ∀ rest, Ends rest → read (v.render.toList ++ rest) = some (v.document, rest)

/-- Items that are read right one by one are read up to the closing bracket. -/
theorem readItems_intercalate {items : List Json} (hne : items ≠ []) (hread : Reads read items)
    {bound : Nat} (hbound : items.length ≤ bound) (rest : List Char) :
    Document.readItems read bound
        ([','].intercalate (items.map (·.render.toList)) ++ ']' :: rest)
      = some (items.map document, rest) := by
  induction items generalizing bound with
  | nil => exact absurd rfl hne
  | cons v items ih =>
      cases bound with
      | zero => exact absurd hbound (Nat.not_succ_le_zero _)
      | succ bound =>
          have hv := hread v List.mem_cons_self
          cases items with
          | nil =>
              have hends : Ends (']' :: rest) := Document.ends_cons (by decide) rest
              simp [Document.readItems, hv _ hends, Document.skip_of_ends hends]
          | cons w items =>
              have hrest := ih (List.cons_ne_nil w items)
                (fun v hv => hread v (List.mem_cons_of_mem _ hv)) (Nat.le_of_succ_le_succ hbound)
              rw [List.map_cons] at hrest
              have hends : Ends (',' :: ([','].intercalate
                  (w.render.toList :: items.map (·.render.toList)) ++ ']' :: rest)) :=
                Document.ends_cons (by decide) _
              simp [Document.readItems, hv _ hends, Document.skip_of_ends hends, hrest]

/-- Fields whose values are read right one by one are read up to the closing brace. -/
theorem readMembers_intercalate {fields : List (String × Json)} (hne : fields ≠ [])
    (hread : Reads read (fields.map (·.2))) {bound : Nat} (hbound : fields.length ≤ bound)
    (rest : List Char) :
    Document.readMembers read bound
        ([','].intercalate (fields.map fieldChars) ++ '\x7d' :: rest)
      = some (fields.map fun f => (some f.1, f.2.document), rest) := by
  induction fields generalizing bound with
  | nil => exact absurd rfl hne
  | cons f fields ih =>
      cases bound with
      | zero => exact absurd hbound (Nat.not_succ_le_zero _)
      | succ bound =>
          have hv := hread f.2 List.mem_cons_self
          cases fields with
          | nil =>
              have hends : Ends ('\x7d' :: rest) := Document.ends_cons (by decide) rest
              simp [Document.readMembers, fieldChars_append, Text.readString_flatMap_escape,
                hv _ hends, Document.skip_of_ends hends, Document.skip_quote, Document.skip_colon]
          | cons g fields =>
              have hrest := ih (List.cons_ne_nil g fields)
                (fun v hv => hread v (List.mem_cons_of_mem _ hv)) (Nat.le_of_succ_le_succ hbound)
              rw [List.map_cons] at hrest
              have hends : Ends (',' :: ([','].intercalate
                  (fieldChars g :: fields.map fieldChars) ++ '\x7d' :: rest)) :=
                Document.ends_cons (by decide) _
              simp [Document.readMembers, fieldChars_append, Text.readString_flatMap_escape,
                hv _ hends, Document.skip_of_ends hends, Document.skip_quote, Document.skip_colon,
                hrest]

theorem readValue_array {items : List Json} (hint : ∀ v ∈ items, v.IsIntegral) {bound : Nat}
    (hread : Reads (Document.readValue bound) items) (hbound : items.length ≤ bound)
    (rest : List Char) :
    Document.readValue (bound + 1) ((array items).render.toList ++ rest)
      = some ((array items).document, rest) := by
  rw [toList_render_array, document_array]
  cases items with
  | nil => rfl
  | cons v items =>
      have hitems := readItems_intercalate (List.cons_ne_nil v items) hread hbound rest
      obtain ⟨c, cs, heq, hspace, hc⟩ := render_eq_cons (hint v List.mem_cons_self)
      obtain ⟨tail, htail⟩ :=
        exists_intercalate_cons v.render.toList (items.map (·.render.toList))
      rw [List.map_cons, htail, heq] at hitems ⊢
      simp only [List.cons_append, List.append_assoc, List.nil_append] at hitems ⊢
      rw [Document.readValue_of_items bound hspace hc, hitems]
      rfl

theorem readValue_object {fields : List (String × Json)} {bound : Nat}
    (hread : Reads (Document.readValue bound) (fields.map (·.2)))
    (hbound : fields.length ≤ bound) (rest : List Char) :
    Document.readValue (bound + 1) ((object fields).render.toList ++ rest)
      = some ((object fields).document, rest) := by
  rw [toList_render_object, document_object]
  cases fields with
  | nil => rfl
  | cons f fields =>
      have hfields := readMembers_intercalate (List.cons_ne_nil f fields) hread hbound rest
      obtain ⟨tail, htail⟩ := exists_intercalate_cons (fieldChars f) (fields.map fieldChars)
      rw [List.map_cons, htail, List.append_assoc, fieldChars_append] at hfields
      rw [List.map_cons, htail, List.cons_append, List.append_assoc, List.append_assoc,
        fieldChars_append]
      rw [List.singleton_append, Document.readValue_of_members, hfields]
      rfl

end Containers

/-- **A written value is read as its document, and the reading stops right behind it.** -/
theorem readValue_render {v : Json} (hint : v.IsIntegral) {bound : Nat}
    (hbound : v.render.toList.length ≤ bound) {rest : List Char} (hrest : Ends rest) :
    Document.readValue bound (v.render.toList ++ rest) = some (v.document, rest) := by
  induction bound generalizing v rest with
  | zero =>
      obtain ⟨c, cs, heq, -⟩ := render_eq_cons hint
      rw [heq] at hbound
      exact absurd hbound (Nat.not_succ_le_zero _)
  | succ bound ih =>
      cases v with
      | null => rfl
      | bool b =>
          cases b with
          | false => rfl
          | true => rfl
      | number n =>
          cases n with
          | float x => cases isIntegral_number.mp hint
          | int n =>
              obtain ⟨c, cs, heq, hc⟩ := Number.text_int_eq_cons n
              have hread := Numeral.read_text n hrest
              rw [heq, List.cons_append] at hread
              rw [render, heq, List.cons_append, Document.readValue_of_numeral bound hc, hread]
              rfl
      | string s =>
          rw [render, Text.toList_quote, Text.quoteChars_append, Document.readValue_of_quote,
            Text.readString_flatMap_escape, String.ofList_toList]
          rfl
      | array items =>
          have hparts := isIntegral_array.mp hint
          have hcount := length_items_lt hparts
          refine readValue_array hparts (fun w hw rest hrest => ?_) (by omega) rest
          have hlt := length_render_lt_of_mem_items hw
          exact ih (hparts w hw) (by omega) hrest
      | object fields =>
          have hparts := isIntegral_object.mp hint
          have hcount := length_fields_lt fields
          refine readValue_object (fun w hw rest hrest => ?_) (by omega) rest
          obtain ⟨f, hf, rfl⟩ := List.mem_map.mp hw
          have hlt := length_render_lt_of_mem_fields hf
          exact ih (hparts f hf) (by omega) hrest

/-- **The text of a value holds the value's document.** -/
theorem parse?_render_document {v : Json} (hint : v.IsIntegral) :
    Document.parse? v.render = some v.document := by
  have hread := readValue_render hint (Nat.le_succ _) Document.ends_nil
  rw [List.append_nil] at hread
  simp [Document.parse?, hread, Document.skip]

end Json

end FlowSuite

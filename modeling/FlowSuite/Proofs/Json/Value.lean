/-
JSON values and the documents that stand for them.

Two things are asked of a value and of everything inside it: that its numbers are integers
of 64 bits, and that its objects have their keys in order, each once.  The second is how
objects are kept.  Whatever is made of a document has it, since fields are put into their
places one by one; and fields that are in order already stay where they are, so a value
that has it is made again of the document that stands for it, if it does not nest too
deep.
-/
import FlowSuite.Json.Read
import Mathlib.Data.List.Induction

namespace FlowSuite

namespace Json

/-! ### Values inside a value -/

mutual

/-- A value and all values inside it. -/
def parts : Json → List Json
  | .array items => .array items :: itemParts items
  | .object fields => .object fields :: fieldParts fields
  | v => [v]

/-- The items of an array and all values inside them. -/
def itemParts : List Json → List Json
  | [] => []
  | v :: items => v.parts ++ itemParts items

/-- The values under an object's keys and all values inside them. -/
def fieldParts : List (String × Json) → List Json
  | [] => []
  | (_, v) :: fields => v.parts ++ fieldParts fields

end

mutual

/-- How many containers stand inside each other in a value. -/
def depth : Json → Nat
  | .array items => itemDepth items + 1
  | .object fields => fieldDepth fields + 1
  | _ => 0

/-- The depth of the deepest item. -/
def itemDepth : List Json → Nat
  | [] => 0
  | v :: items => max v.depth (itemDepth items)

/-- The depth of the deepest value under a key. -/
def fieldDepth : List (String × Json) → Nat
  | [] => 0
  | (_, v) :: fields => max v.depth (fieldDepth fields)

end

theorem mem_itemParts {items : List Json} {w : Json} :
    w ∈ itemParts items ↔ ∃ v ∈ items, w ∈ v.parts := by
  induction items with
  | nil => simp [itemParts]
  | cons v items ih => simp [itemParts, ih]

theorem mem_fieldParts {fields : List (String × Json)} {w : Json} :
    w ∈ fieldParts fields ↔ ∃ f ∈ fields, w ∈ f.2.parts := by
  induction fields with
  | nil => simp [fieldParts]
  | cons f fields ih => simp [fieldParts, ih]

@[simp] theorem depth_string (s : String) : (string s).depth = 0 := rfl

theorem depth_array_le_iff {items : List Json} {n : Nat} :
    (array items).depth ≤ n + 1 ↔ ∀ v ∈ items, v.depth ≤ n := by
  rw [depth, Nat.add_le_add_iff_right]
  induction items with
  | nil => simp [itemDepth]
  | cons v items ih => rw [itemDepth, Nat.max_le, ih, List.forall_mem_cons]

theorem depth_object_le_iff {fields : List (String × Json)} {n : Nat} :
    (object fields).depth ≤ n + 1 ↔ ∀ f ∈ fields, f.2.depth ≤ n := by
  rw [depth, Nat.add_le_add_iff_right]
  induction fields with
  | nil => simp [fieldDepth]
  | cons f fields ih => rw [fieldDepth, Nat.max_le, ih, List.forall_mem_cons]

/-- A test that a value and all values inside it pass. -/
def Everywhere (p : Json → Bool) (v : Json) : Prop :=
  ∀ w ∈ v.parts, p w = true

instance (p : Json → Bool) (v : Json) : Decidable (Everywhere p v) :=
  List.decidableBAll _ v.parts

theorem everywhere_of_parts_eq {p : Json → Bool} {v : Json} (h : v.parts = [v]) :
    Everywhere p v ↔ p v = true := by
  rw [Everywhere, h, List.forall_mem_singleton]

theorem everywhere_array {p : Json → Bool} {items : List Json} :
    Everywhere p (.array items) ↔ p (.array items) = true ∧ ∀ v ∈ items, Everywhere p v := by
  simp only [Everywhere, parts, List.forall_mem_cons, mem_itemParts]
  exact and_congr_right' ⟨fun h v hv w hw => h w ⟨v, hv, hw⟩, fun h w ⟨v, hv, hw⟩ => h v hv w hw⟩

theorem everywhere_object {p : Json → Bool} {fields : List (String × Json)} :
    Everywhere p (.object fields) ↔
      p (.object fields) = true ∧ ∀ f ∈ fields, Everywhere p f.2 := by
  simp only [Everywhere, parts, List.forall_mem_cons, mem_fieldParts]
  exact and_congr_right' ⟨fun h f hf w hw => h w ⟨f, hf, hw⟩, fun h w ⟨f, hf, hw⟩ => h f hf w hw⟩

end Json

/-! ### Objects in order -/

namespace Object

/-- The keys are in order, each of them once. -/
def Sorted (o : Object) : Prop :=
  o.Pairwise (·.1 < ·.1)

instance (o : Object) : Decidable o.Sorted :=
  inferInstanceAs (Decidable (List.Pairwise _ o))

theorem mem_insert {key : String} {value : Json} {o : Object} {f : String × Json}
    (h : f ∈ insert key value o) : f = (key, value) ∨ f ∈ o := by
  induction o with
  | nil => exact Or.inl (List.mem_singleton.mp h)
  | cons g o ih =>
      rw [insert] at h
      by_cases heq : key = g.1
      · rw [if_pos heq] at h
        exact (List.mem_cons.mp h).imp_right (List.mem_cons_of_mem _)
      · rw [if_neg heq] at h
        by_cases hlt : key < g.1
        · rw [if_pos hlt] at h
          exact List.mem_cons.mp h
        · rw [if_neg hlt] at h
          rcases List.mem_cons.mp h with rfl | h
          · exact Or.inr List.mem_cons_self
          · exact (ih h).imp_right (List.mem_cons_of_mem _)

/-- Setting a key keeps the order. -/
theorem Sorted.insert {o : Object} (h : o.Sorted) (key : String) (value : Json) :
    (insert key value o).Sorted := by
  induction o with
  | nil => exact List.pairwise_singleton _ _
  | cons g o ih =>
      obtain ⟨hfirst, hrest⟩ := List.pairwise_cons.mp h
      rw [Object.insert]
      by_cases heq : key = g.1
      · rw [if_pos heq]
        exact List.pairwise_cons.mpr ⟨fun f hf => heq ▸ hfirst f hf, hrest⟩
      · rw [if_neg heq]
        by_cases hlt : key < g.1
        · rw [if_pos hlt]
          refine List.pairwise_cons.mpr ⟨?_, h⟩
          intro f hf
          rcases List.mem_cons.mp hf with rfl | hf
          · exact hlt
          · exact String.lt_trans hlt (hfirst f hf)
        · rw [if_neg hlt]
          have hbehind : g.1 < key := by
            by_contra hnot
            exact heq (String.le_antisymm (String.not_lt.mp hnot) (String.not_lt.mp hlt))
          refine List.pairwise_cons.mpr ⟨?_, ih hrest⟩
          intro f hf
          rcases mem_insert hf with rfl | hf
          · exact hbehind
          · exact hfirst f hf

/-- A key behind all others goes to the end. -/
theorem insert_of_forall_lt {o : Object} {key : String} (value : Json)
    (h : ∀ f ∈ o, f.1 < key) : insert key value o = o ++ [(key, value)] := by
  induction o with
  | nil => rfl
  | cons g o ih =>
      have hg : g.1 < key := h g List.mem_cons_self
      have hne : key ≠ g.1 := fun heq => String.lt_irrefl key (heq ▸ hg)
      have hnlt : ¬ key < g.1 := String.lt_asymm hg
      rw [insert, if_neg hne, if_neg hnlt, ih fun f hf => h f (List.mem_cons_of_mem _ hf)]
      rfl

theorem get?_cons (f : String × Json) (o : Object) (k : String) :
    get? (f :: o) k = if k = f.1 then some f.2 else o.get? k := by
  obtain ⟨key, value⟩ := f
  by_cases hk : k = key
  · simp [get?, hk]
  · have hne : (k == key) = false := by simpa using hk
    simp [get?, hk, List.lookup_cons, hne]

/-- Setting a key changes the value under this key and no other, in whatever order the
fields are. -/
theorem get?_insert (key : String) (value : Json) (o : Object) (k : String) :
    (insert key value o).get? k = if k = key then some value else o.get? k := by
  induction o with
  | nil => rw [insert, get?_cons]
  | cons f o ih =>
      rw [insert]
      by_cases heq : key = f.1
      · rw [if_pos heq, get?_cons, get?_cons]
        by_cases hk : k = key
        · simp [hk]
        · simp [hk, ← heq]
      · rw [if_neg heq]
        by_cases hlt : key < f.1
        · rw [if_pos hlt, get?_cons]
        · rw [if_neg hlt, get?_cons, ih, get?_cons]
          by_cases hk : k = key
          · simp [hk, heq]
          · simp [hk]

theorem sorted_ofFields (fields : List (String × Json)) : (ofFields fields).Sorted :=
  List.foldlRecOn fields _ List.Pairwise.nil fun _ ho f _ => ho.insert f.1 f.2

/-- Of a key that is given several times the last value counts. -/
theorem get?_ofFields (fields : List (String × Json)) (key : String) :
    (ofFields fields).get? key = get? fields.reverse key := by
  induction fields using List.reverseRecOn with
  | nil => rfl
  | append_singleton fields f ih =>
      have hlast : ofFields (fields ++ [f]) = insert f.1 f.2 (ofFields fields) := by
        rw [ofFields, List.foldl_append]
        rfl
      rw [hlast, get?_insert, ih, List.reverse_append, List.reverse_singleton,
        List.singleton_append, get?_cons]

theorem get?_eq_none_of_forall_lt {o : Object} {key : String} (h : ∀ f ∈ o, key < f.1) :
    o.get? key = none := by
  induction o with
  | nil => rfl
  | cons f o ih =>
      have hne : key ≠ f.1 := by
        intro heq
        have hlt := h f List.mem_cons_self
        rw [heq] at hlt
        exact String.lt_irrefl f.1 hlt
      rw [get?_cons, if_neg hne]
      exact ih fun g hg => h g (List.mem_cons_of_mem _ hg)

theorem Sorted.get?_tail {f : String × Json} {o : Object} (h : Sorted (f :: o)) :
    o.get? f.1 = none :=
  get?_eq_none_of_forall_lt (List.pairwise_cons.mp h).1

/-- In an object with keys in order, nothing is found under a key before the first one. -/
theorem Sorted.get?_of_lt {f : String × Json} {o : Object} (h : Sorted (f :: o)) {key : String}
    (hkey : key < f.1) : get? (f :: o) key = none := by
  apply get?_eq_none_of_forall_lt
  intro g hg
  rcases List.mem_cons.mp hg with rfl | hg
  · exact hkey
  · exact String.lt_trans hkey ((List.pairwise_cons.mp h).1 g hg)

theorem get?_self (f : String × Json) (o : Object) : get? (f :: o) f.1 = some f.2 := by
  rw [get?_cons, if_pos rfl]

/-- Objects with keys in order that have the same under every key are equal. -/
theorem Sorted.ext {o o' : Object} (h : o.Sorted) (h' : o'.Sorted)
    (hget : ∀ key, o.get? key = o'.get? key) : o = o' := by
  induction o generalizing o' with
  | nil =>
      cases o' with
      | nil => rfl
      | cons g o' =>
          have hg := hget g.1
          rw [get?_self] at hg
          cases hg
  | cons f o ih =>
      cases o' with
      | nil =>
          have hf := hget f.1
          rw [get?_self] at hf
          cases hf
      | cons g o' =>
          have hkey : f.1 = g.1 := by
            by_contra hne
            by_cases hlt : f.1 < g.1
            · have hf := hget f.1
              rw [get?_self, h'.get?_of_lt hlt] at hf
              cases hf
            · have hgt : g.1 < f.1 := by
                by_contra hnot
                exact hne (String.le_antisymm (String.not_lt.mp hnot) (String.not_lt.mp hlt))
              have hg := hget g.1
              rw [get?_self, h.get?_of_lt hgt] at hg
              cases hg
          have hvalue : f.2 = g.2 := by
            have hf := hget f.1
            rw [get?_self, hkey, get?_self] at hf
            exact Option.some.inj hf
          have hrest : o = o' := by
            refine ih (List.pairwise_cons.mp h).2 (List.pairwise_cons.mp h').2 fun key => ?_
            by_cases hk : key = f.1
            · rw [hk, h.get?_tail, hkey, h'.get?_tail]
            · have hk' := hget key
              rwa [get?_cons, if_neg hk, get?_cons, if_neg (hkey ▸ hk)] at hk'
          rw [hrest, Prod.ext hkey hvalue]

theorem mem_of_mem_ofFields {fields : List (String × Json)} :
    ∀ f ∈ ofFields fields, f ∈ fields := by
  refine List.foldlRecOn (motive := fun o => ∀ f ∈ o, f ∈ fields) fields _ (by simp) ?_
  intro o ho g hg f hf
  rcases mem_insert hf with rfl | hf
  · exact hg
  · exact ho f hf

/-- Fields that come behind the others in their order are added at the end. -/
theorem foldl_insert_of_sorted {o : Object} {fields : List (String × Json)}
    (h : Sorted (o ++ fields)) :
    fields.foldl (fun o (k, v) => insert k v o) o = o ++ fields := by
  induction fields generalizing o with
  | nil => exact (List.append_nil o).symm
  | cons f fields ih =>
      have hbehind : ∀ g ∈ o, g.1 < f.1 := fun g hg =>
        (List.pairwise_append.mp h).2.2 g hg f List.mem_cons_self
      have hnext : o ++ f :: fields = (o ++ [f]) ++ fields := by simp
      have hstep : insert f.1 f.2 o = o ++ [f] := insert_of_forall_lt f.2 hbehind
      show fields.foldl (fun o (k, v) => insert k v o) (insert f.1 f.2 o) = o ++ f :: fields
      rw [hstep, hnext]
      exact ih (hnext ▸ h)

theorem ofFields_of_sorted {fields : List (String × Json)} (h : Sorted fields) :
    ofFields fields = fields :=
  foldl_insert_of_sorted h

end Object

/-! ### Integers -/

/-- The numeral of an integer. -/
def Numeral.ofInt : Int → Numeral
  | .ofNat n => ⟨false, Nat.toDigits 10 n, [], none⟩
  | .negSucc n => ⟨true, Nat.toDigits 10 (n + 1), [], none⟩

theorem Numeral.digitsValue_toDigits (n : Nat) : digitsValue (Nat.toDigits 10 n) = n :=
  Nat.ofDigitChars_ten_toDigits

namespace Number

/-- An integer that is a signed or an unsigned word of 64 bits. -/
def isWord : Number → Bool
  | .int n => -(Nat.pow 2 63 : Int) ≤ n ∧ n < (Nat.pow 2 64 : Int)
  | .float _ => false

/-- The numeral that the text of a number is. -/
def numeral : Number → Numeral
  | .int n => .ofInt n
  | .float x => (Numeral.parse? (floatText x)).getD (.ofInt 0)

/-- A word is held as the integer that it is. -/
theorem ofNumeral?_numeral {n : Number} (h : n.isWord = true) : ofNumeral? n.numeral = some n := by
  cases n with
  | float x => cases h
  | int n =>
      have hrange : -(Nat.pow 2 63 : Int) ≤ n ∧ n < (Nat.pow 2 64 : Int) := of_decide_eq_true h
      cases n with
      | ofNat n =>
          have hn : n < Nat.pow 2 64 := Int.ofNat_lt.mp hrange.2
          simp [numeral, Numeral.ofInt, ofNumeral?, Numeral.isInteger, Numeral.coefficient,
            Numeral.digitsValue_toDigits, hn]
      | negSucc n =>
          have hn : n + 1 ≤ Nat.pow 2 63 := by
            have hge := hrange.1
            omega
          simp [numeral, Numeral.ofInt, ofNumeral?, Numeral.isInteger, Numeral.coefficient,
            Numeral.digitsValue_toDigits, hn, Int.negSucc_eq]

end Number

namespace Json

/-- All numbers in a value are integers of 64 bits. -/
def IsIntegral (v : Json) : Prop :=
  v.Everywhere fun
    | .number n => n.isWord
    | _ => true

/-- All objects in a value have their keys in order, each once. -/
def IsOrdered (v : Json) : Prop :=
  v.Everywhere fun
    | .object fields => decide (Object.Sorted fields)
    | _ => true

instance (v : Json) : Decidable v.IsIntegral :=
  inferInstanceAs (Decidable (Everywhere _ v))

instance (v : Json) : Decidable v.IsOrdered :=
  inferInstanceAs (Decidable (Everywhere _ v))

@[simp] theorem isIntegral_string (s : String) : (string s).IsIntegral :=
  (everywhere_of_parts_eq rfl).mpr rfl

@[simp] theorem isIntegral_number {n : Number} : (number n).IsIntegral ↔ n.isWord = true :=
  everywhere_of_parts_eq rfl

@[simp] theorem isIntegral_array {items : List Json} :
    (array items).IsIntegral ↔ ∀ v ∈ items, v.IsIntegral := by
  simp [IsIntegral, everywhere_array]

@[simp] theorem isIntegral_object {fields : List (String × Json)} :
    (object fields).IsIntegral ↔ ∀ f ∈ fields, f.2.IsIntegral := by
  simp [IsIntegral, everywhere_object]

@[simp] theorem isOrdered_array {items : List Json} :
    (array items).IsOrdered ↔ ∀ v ∈ items, v.IsOrdered := by
  simp [IsOrdered, everywhere_array]

@[simp] theorem isOrdered_object {fields : List (String × Json)} :
    (object fields).IsOrdered ↔ Object.Sorted fields ∧ ∀ f ∈ fields, f.2.IsOrdered := by
  simp [IsOrdered, everywhere_object]

/-! ### Values of documents -/

theorem exists_mem_of_mapM_eq_some {α β : Type} {f : α → Option β} {as : List α} {bs : List β}
    (h : as.mapM f = some bs) {b : β} (hb : b ∈ bs) : ∃ a ∈ as, f a = some b := by
  induction as generalizing bs with
  | nil =>
      cases h
      cases hb
  | cons a as ih =>
      simp only [List.mapM_cons, Option.bind_eq_bind, Option.bind_eq_some_iff, Option.pure_def,
        Option.some.injEq] at h
      obtain ⟨b', hhead, bs', htail, rfl⟩ := h
      rcases List.mem_cons.mp hb with rfl | hb
      · exact ⟨a, List.mem_cons_self, hhead⟩
      · obtain ⟨a', ha', hfa⟩ := ih htail hb
        exact ⟨a', List.mem_cons_of_mem _ ha', hfa⟩

theorem mapM_map_eq_some {α β γ : Type} {f : β → Option γ} {g : α → β} {k : α → γ} {as : List α}
    (h : ∀ a ∈ as, f (g a) = some (k a)) : (as.map g).mapM f = some (as.map k) := by
  induction as with
  | nil => rfl
  | cons a as ih =>
      have htail := ih fun a' ha' => h a' (List.mem_cons_of_mem _ ha')
      simp [h a List.mem_cons_self, htail]

/-- Whatever is made of a document is in order and nests no deeper than was asked. -/
theorem isOrdered_and_depth_le_of_ofDocument? {levels : Nat} {d : Document} {v : Json}
    (h : ofDocument? levels d = some v) : v.IsOrdered ∧ v.depth ≤ levels := by
  induction levels using Nat.strongRecOn generalizing d v with
  | _ levels ih =>
      cases d with
      | null =>
          rw [ofDocument?] at h
          cases h
          exact ⟨(everywhere_of_parts_eq rfl).mpr rfl, Nat.zero_le _⟩
      | bool b =>
          rw [ofDocument?] at h
          cases h
          exact ⟨(everywhere_of_parts_eq rfl).mpr rfl, Nat.zero_le _⟩
      | number n =>
          rw [ofDocument?] at h
          obtain ⟨m, -, rfl⟩ := Option.map_eq_some_iff.mp h
          exact ⟨(everywhere_of_parts_eq rfl).mpr rfl, Nat.zero_le _⟩
      | string s =>
          rw [ofDocument?] at h
          obtain ⟨m, -, rfl⟩ := Option.map_eq_some_iff.mp h
          exact ⟨(everywhere_of_parts_eq rfl).mpr rfl, Nat.zero_le _⟩
      | array items =>
          cases levels with
          | zero => cases h
          | succ levels =>
              obtain ⟨vs, hvs, rfl⟩ := Option.map_eq_some_iff.mp h
              have hparts : ∀ v ∈ vs, v.IsOrdered ∧ v.depth ≤ levels := by
                intro v hv
                obtain ⟨d, -, hd⟩ := exists_mem_of_mapM_eq_some hvs hv
                exact ih levels (Nat.lt_succ_self levels) hd
              exact ⟨isOrdered_array.mpr fun v hv => (hparts v hv).1,
                depth_array_le_iff.mpr fun v hv => (hparts v hv).2⟩
      | object members =>
          cases levels with
          | zero => cases h
          | succ levels =>
              obtain ⟨fields, hfields, hv⟩ := Option.bind_eq_some_iff.mp h
              cases hv
              have hparts : ∀ f ∈ Object.ofFields fields, f.2.IsOrdered ∧ f.2.depth ≤ levels := by
                intro f hf
                obtain ⟨m, -, hm⟩ :=
                  exists_mem_of_mapM_eq_some hfields (Object.mem_of_mem_ofFields f hf)
                obtain ⟨k, -, hm⟩ := Option.bind_eq_some_iff.mp hm
                obtain ⟨v, hv, hm⟩ := Option.bind_eq_some_iff.mp hm
                cases hm
                exact ih levels (Nat.lt_succ_self levels) hv
              exact ⟨isOrdered_object.mpr
                  ⟨Object.sorted_ofFields fields, fun f hf => (hparts f hf).1⟩,
                depth_object_le_iff.mpr fun f hf => (hparts f hf).2⟩

mutual

/-- The document of a value. -/
def document : Json → Document
  | .null => .null
  | .bool b => .bool b
  | .number n => .number n.numeral
  | .string s => .string (some s)
  | .array items => .array (itemDocuments items)
  | .object fields => .object (fieldDocuments fields)

/-- The documents of an array's items. -/
def itemDocuments : List Json → List Document
  | [] => []
  | v :: items => v.document :: itemDocuments items

/-- The members of the document of an object. -/
def fieldDocuments : List (String × Json) → List (Option String × Document)
  | [] => []
  | (k, v) :: fields => (some k, v.document) :: fieldDocuments fields

end

theorem document_array (items : List Json) :
    (array items).document = .array (items.map document) := by
  have hitems : itemDocuments items = items.map document := by
    induction items with
    | nil => rfl
    | cons v items ih => rw [itemDocuments, List.map_cons, ih]
  rw [document, hitems]

theorem document_object (fields : List (String × Json)) :
    (object fields).document = .object (fields.map fun f => (some f.1, f.2.document)) := by
  have hfields : fieldDocuments fields = fields.map fun f => (some f.1, f.2.document) := by
    induction fields with
    | nil => rfl
    | cons f fields ih => rw [fieldDocuments, List.map_cons, ih]
  rw [document, hfields]

/-- A value is made again of its document. -/
theorem ofDocument?_document {levels : Nat} {v : Json} (hint : v.IsIntegral) (hord : v.IsOrdered)
    (hdepth : v.depth ≤ levels) : ofDocument? levels v.document = some v := by
  induction levels using Nat.strongRecOn generalizing v with
  | _ levels ih =>
      cases v with
      | null => simp [document, ofDocument?]
      | bool b => simp [document, ofDocument?]
      | string s => simp [document, ofDocument?]
      | number n =>
          simp [document, ofDocument?, Number.ofNumeral?_numeral (isIntegral_number.mp hint)]
      | array items =>
          cases levels with
          | zero => exact absurd hdepth (Nat.not_succ_le_zero _)
          | succ levels =>
              have hitems : ∀ v ∈ items, ofDocument? levels v.document = some (id v) := by
                intro v hv
                exact ih levels (Nat.lt_succ_self levels) (isIntegral_array.mp hint v hv)
                  (isOrdered_array.mp hord v hv) (depth_array_le_iff.mp hdepth v hv)
              rw [document_array, ofDocument?, mapM_map_eq_some hitems, List.map_id]
              rfl
      | object fields =>
          cases levels with
          | zero => exact absurd hdepth (Nat.not_succ_le_zero _)
          | succ levels =>
              obtain ⟨hsorted, hordered⟩ := isOrdered_object.mp hord
              have hfields : ∀ f ∈ fields,
                  (do return (← some f.1, ← ofDocument? levels f.2.document)) = some (id f) := by
                intro f hf
                have hv := ih levels (Nat.lt_succ_self levels) (isIntegral_object.mp hint f hf)
                  (hordered f hf) (depth_object_le_iff.mp hdepth f hf)
                simp [hv]
              rw [document_object, ofDocument?, mapM_map_eq_some hfields, List.map_id]
              simp [Object.ofFields_of_sorted hsorted]

end Json

end FlowSuite

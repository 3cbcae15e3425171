/-
Reading accessors.

The expression for a path is a look-up of its root with a subscript for each key.  It
can be read back from left to right: the head of the look-up is fixed, the root is a
literal, and a subscript holds a literal or, for a key of digits, the digits.  Keys may
hold brackets, quotes and whatever else looks like the end of a subscript; they are
literals then, and literals cannot be left early.

The reader keeps for every subscript which of the two it is.  The path comes from the
keys alone; which of them stand bare is a question of its own.
-/
import FlowSuite.Proofs.Expression.Literal
import FlowSuite.Proofs.Expression.Numeral
import FlowSuite.Target.Expression
import Mathlib.Data.List.Basic

namespace FlowSuite

/-! ### The reader -/

/-- What stands between the brackets of a subscript: digits, or a quoted key. -/
inductive Subscript where
  | index (ds : List Char)
  | key (cs : List Char)
  deriving DecidableEq, Repr

/-- The key that a subscript is for. -/
def Subscript.name : Subscript → String
  | .index ds => String.ofList ds
  | .key cs => String.ofList cs

namespace Target

/-- What a look-up starts with. -/
def lookupHead : Target → List Char
  | .selenium => "self.vars.get(".toList
  | .cypress => "Cypress.env(".toList

/-- The subscript at the front, behind its opening bracket. -/
def readSubscript : List Char → Option (Subscript × List Char)
  | '"' :: cs => (Text.readQuoted ('"' :: cs)).map fun read => (.key read.1, read.2)
  | cs => (Numeral.readDigits cs).map fun read => (.index read.1, read.2)

/-- The subscripts at the front.  The bound limits their number; one that is not below
the number of characters never stops a reading. -/
def readSubscripts : Nat → List Char → Option (List Subscript × List Char)
  | bound + 1, '[' :: cs =>
      match readSubscript cs with
      | some (subscript, ']' :: cs) =>
          (readSubscripts bound cs).map fun (subscripts, rest) => (subscript :: subscripts, rest)
      | _ => none
  | 0, '[' :: _ => none
  | _, cs => some ([], cs)

/-- The look-up at the front: its root, its subscripts, and what follows them. -/
def readLookup (t : Target) (cs : List Char) : Option (String × List Subscript × List Char) :=
  match t.lookupHead.isPrefixOf? cs with
  | none => none
  | some cs =>
      match Text.readQuoted cs with
      | some (root, ')' :: cs) =>
          (readSubscripts cs.length cs).map fun (subscripts, rest) =>
            (String.ofList root, subscripts, rest)
      | _ => none

/-- The accessor at the front, as the path it spells. -/
def readAccessor (t : Target) (cs : List Char) : Option (Path × List Char) :=
  (t.readLookup cs).map fun (root, subscripts, rest) =>
    (⟨root, subscripts.map Subscript.name⟩, rest)

/-- The subscripts of code that is an accessor from end to end. -/
def subscripts? (t : Target) (code : List Char) : Option (List Subscript) :=
  match t.readLookup code with
  | some (_, subscripts, []) => some subscripts
  | _ => none

/-! ### The characters of an accessor -/

/-- How a key is written inside a subscript. -/
def keyChars (key : String) : List Char :=
  if isIndex key then key.toList else Text.quoteChars key.toList

theorem toList_subscript (key : String) :
    (subscript key).toList = '[' :: (keyChars key ++ [']']) := by
  unfold subscript keyChars
  by_cases h : isIndex key = true
  · simp [h]
  · simp [h]

theorem toList_lookup (t : Target) (root : String) :
    (t.lookup root).toList = t.lookupHead ++ (Text.quoteChars root.toList ++ [')']) := by
  have hcall : ∀ head : String, (head ++ Text.quote root ++ ")").toList
      = head.toList ++ (Text.quoteChars root.toList ++ [')']) := by
    intro head
    rw [String.toList_append, String.toList_append, Text.toList_quote, List.append_assoc]
    rfl
  cases t with
  | selenium => exact hcall "self.vars.get("
  | cypress => exact hcall "Cypress.env("

theorem toList_accessor (t : Target) (p : Path) :
    (t.accessor p).toList
      = t.lookupHead ++ (Text.quoteChars p.root.toList ++
          ')' :: p.keys.flatMap fun key => '[' :: (keyChars key ++ [']'])) := by
  have hkeys : (String.join (p.keys.map subscript)).toList
      = p.keys.flatMap fun key => '[' :: (keyChars key ++ [']']) := by
    rw [String.toList_join, List.flatMap_map]
    simp only [toList_subscript]
  rw [accessor, String.toList_append, hkeys, toList_lookup]
  simp only [List.append_assoc, List.singleton_append]

/-! ### Reading an accessor gives its path -/

/-- The subscript that a key becomes. -/
def subscriptOf (key : String) : Subscript :=
  if isIndex key then .index key.toList else .key key.toList

theorem name_subscriptOf (key : String) : (subscriptOf key).name = key := by
  unfold subscriptOf
  split <;> exact String.ofList_toList

/-- A subscript without a quote in front is read as digits. -/
theorem readSubscript_of_ne {c : Char} (hc : c ≠ '"') (cs : List Char) :
    readSubscript (c :: cs)
      = (Numeral.readDigits (c :: cs)).map fun read => (.index read.1, read.2) := by
  unfold readSubscript
  split
  · rename_i heq
    exact absurd (List.cons.inj heq).1 hc
  · rfl

theorem readSubscript_keyChars (key : String) (rest : List Char) :
    readSubscript (keyChars key ++ ']' :: rest) = some (subscriptOf key, ']' :: rest) := by
  unfold keyChars subscriptOf
  by_cases h : isIndex key = true
  · rw [if_pos h, if_pos h]
    simp only [isIndex, Bool.and_eq_true, List.all_eq_true] at h
    obtain ⟨hempty, hdigits⟩ := h
    cases hkey : key.toList with
    | nil =>
        rw [String.toList_eq_nil_iff.mp hkey] at hempty
        simp at hempty
    | cons d ds =>
        rw [hkey] at hdigits
        have hd : d ≠ '"' := by
          rintro rfl
          exact absurd (hdigits '"' List.mem_cons_self) (by decide)
        have hread : Numeral.readDigits (d :: ds ++ ']' :: rest) = some (d :: ds, ']' :: rest) := by
          refine Numeral.readDigits_append (List.cons_ne_nil d ds) hdigits fun c hc => ?_
          obtain rfl := Option.some.inj hc
          decide
        rw [List.cons_append] at hread ⊢
        rw [readSubscript_of_ne hd, hread]
        rfl
  · have hread := Text.readQuoted_quoteChars key.toList (']' :: rest)
    rw [if_neg h, if_neg h]
    rw [Text.quoteChars, List.cons_append] at hread ⊢
    rw [readSubscript, hread]
    rfl

theorem readSubscripts_stop (bound : Nat) {rest : List Char} (hrest : rest.head? ≠ some '[') :
    readSubscripts bound rest = some ([], rest) := by
  unfold readSubscripts
  split
  · exact absurd rfl hrest
  · exact absurd rfl hrest
  · rfl

/-- There is a subscript for each key, in their order. -/
theorem readSubscripts_keys (keys : List String) (bound : Nat) {rest : List Char}
    (hrest : rest.head? ≠ some '[') (hbound : keys.length ≤ bound) :
    readSubscripts bound ((keys.flatMap fun key => '[' :: (keyChars key ++ [']'])) ++ rest)
      = some (keys.map subscriptOf, rest) := by
  induction keys generalizing bound with
  | nil => exact readSubscripts_stop bound hrest
  | cons key keys ih =>
      cases bound with
      | zero => simp at hbound
      | succ bound =>
          simp only [List.flatMap_cons, List.cons_append, List.append_assoc,
            List.nil_append, readSubscripts, readSubscript_keyChars]
          rw [ih bound (by simpa using hbound)]
          rfl

/-- There are not more subscripts than characters. -/
theorem length_le_subscripts (keys : List String) (rest : List Char) :
    keys.length
      ≤ ((keys.flatMap fun key => '[' :: (keyChars key ++ [']'])) ++ rest).length := by
  induction keys with
  | nil => exact Nat.zero_le _
  | cons key keys ih =>
      simp only [List.flatMap_cons, List.length_append, List.length_cons] at ih ⊢
      omega

theorem readLookup_accessor (t : Target) (p : Path) {rest : List Char}
    (hrest : rest.head? ≠ some '[') :
    t.readLookup ((t.accessor p).toList ++ rest)
      = some (p.root, p.keys.map subscriptOf, rest) := by
  have hhead : ∀ cs, t.lookupHead.isPrefixOf? (t.lookupHead ++ cs) = some cs := by
    intro cs
    rw [List.isPrefixOf?_eq_some_iff_append_eq]
  rw [toList_accessor, List.append_assoc, readLookup, hhead]
  simp only [List.append_assoc, List.cons_append, Text.readQuoted_quoteChars]
  rw [readSubscripts_keys p.keys _ hrest (length_le_subscripts p.keys rest)]
  simp

/-- **An accessor is read back as its path, unless a further subscript follows it.** -/
theorem readAccessor_accessor (t : Target) (p : Path) {rest : List Char}
    (hrest : rest.head? ≠ some '[') :
    t.readAccessor ((t.accessor p).toList ++ rest) = some (p, rest) := by
  have hkeys : (p.keys.map subscriptOf).map Subscript.name = p.keys := by
    simp [Function.comp_def, name_subscriptOf]
  rw [readAccessor, t.readLookup_accessor p hrest]
  dsimp only [Option.map_some]
  rw [hkeys]

/-- An accessor alone is read to its end. -/
theorem readAccessor_accessor_nil (t : Target) (p : Path) :
    t.readAccessor (t.accessor p).toList = some (p, []) := by
  have hnil : ([] : List Char).head? ≠ some '[' := by simp
  simpa using t.readAccessor_accessor p hnil

/-- **An accessor tells which path it is for.**  Reading it from the left to its end, the
look-up with its quoted root and then one subscript after the other, gives the root and the
keys of the path, so no two paths are written alike. -/
theorem accessor_determines_path (t : Target) :
    (∀ p : Path, t.readAccessor (t.accessor p).toList = some (p, [])) ∧
      ∀ p q : Path, t.accessor p = t.accessor q → p = q := by
  refine ⟨t.readAccessor_accessor_nil, ?_⟩
  intro p q hsame
  have hread : t.readAccessor (t.accessor p).toList = some (q, []) := by
    rw [hsame]
    exact t.readAccessor_accessor_nil q
  rw [t.readAccessor_accessor_nil p] at hread
  exact congrArg Prod.fst (Option.some.inj hread)

/-- A look-up does not start as a number does. -/
theorem exists_lookupHead_eq (t : Target) :
    ∃ c cs, t.lookupHead = c :: cs ∧ ¬(c = '-' ∨ c.isDigit = true) := by
  cases t with
  | selenium => exact ⟨'s', "elf.vars.get(".toList, by decide, by decide⟩
  | cypress => exact ⟨'C', "ypress.env(".toList, by decide, by decide⟩

theorem readAccessor_of_numeral (t : Target) {c : Char} (cs : List Char)
    (hc : c = '-' ∨ c.isDigit = true) : t.readAccessor (c :: cs) = none := by
  obtain ⟨d, ds, hhead, hd⟩ := t.exists_lookupHead_eq
  have hne : d ≠ c := by
    rintro rfl
    exact hd hc
  simp [readAccessor, readLookup, hhead, List.isPrefixOf?, hne]

end Target

end FlowSuite

/-
What JSON texts denote.

The grammar says which texts are JSON and which value each of them denotes, without a reader.
Space may stand around every value, literals and numbers are spelled as their own grammars
say, and the parts of a container stand between its brackets with commas between them.  The
fields of an object are in the order of their keys, and of a repeated key the last value
counts.  Containers nest only so deep, and this counts everything that is written, also what
a repeated key throws away.

Reading agrees with the grammar both ways.  The reader goes in two steps, from the text to a
tree and from the tree to a value, and gives back the space behind a value unread.
-/
import FlowSuite.Proofs.Json.Spelling
import FlowSuite.Proofs.Json.Text
import FlowSuite.Proofs.Number.Reading

namespace FlowSuite

namespace Json

/-! ### The grammar -/

/-- Space between two tokens. -/
def IsGap (cs : List Char) : Prop :=
  ∀ c ∈ cs, Document.isSpace c = true

/-- A member of an object as it is written. -/
structure Member where
  /-- The space in front of the key. -/
  before : List Char
  /-- The key between its quotes. -/
  body : List Char
  key : String
  /-- The space between the key and the colon. -/
  behind : List Char
  /-- The text of the value. -/
  chars : List Char
  value : Json

namespace Member

/-- The text of a member. -/
def text (m : Member) : List Char :=
  m.before ++ '"' :: (m.body ++ '"' :: (m.behind ++ ':' :: m.chars))

/-- The key is spelled, and there is nothing but space around it. -/
def IsKeyed (m : Member) : Prop :=
  IsGap m.before ∧ Document.Spells m.body m.key.toList ∧ IsGap m.behind

/-- The field that a member gives. -/
def field (m : Member) : String × Json :=
  (m.key, m.value)

end Member

/-- Texts and the values that they denote, with so many levels of containers at most. -/
inductive Denotes : Nat → List Char → Json → Prop
  /-- Space around a value does not matter. -/
  | spaced {levels : Nat} {before cs after : List Char} {v : Json} (hbefore : IsGap before)
      (hafter : IsGap after) (h : Denotes levels cs v) : Denotes levels (before ++ cs ++ after) v
  | null {levels : Nat} : Denotes levels ['n', 'u', 'l', 'l'] .null
  | yes {levels : Nat} : Denotes levels ['t', 'r', 'u', 'e'] (.bool true)
  | no {levels : Nat} : Denotes levels ['f', 'a', 'l', 's', 'e'] (.bool false)
  | number {levels : Nat} {cs : List Char} {n : Numeral} {x : Number} (hwritten : n.IsWritten cs)
      (hx : Number.ofNumeral? n = some x) : Denotes levels cs (.number x)
  | string {levels : Nat} {body : List Char} {s : String} (hbody : Document.Spells body s.toList) :
      Denotes levels ('"' :: (body ++ ['"'])) (.string s)
  | emptyArray {levels : Nat} {gap : List Char} (hgap : IsGap gap) :
      Denotes (levels + 1) ('[' :: (gap ++ [']'])) (.array [])
  /-- The items of an array with commas between them. -/
  | array {levels : Nat} {items : List (List Char × Json)} (hne : items ≠ [])
      (hitems : ∀ i ∈ items, Denotes levels i.1 i.2) :
      Denotes (levels + 1) ('[' :: ([','].intercalate (items.map (·.1)) ++ [']']))
        (.array (items.map (·.2)))
  | emptyObject {levels : Nat} {gap : List Char} (hgap : IsGap gap) :
      Denotes (levels + 1) ('\x7b' :: (gap ++ ['\x7d'])) (.object [])
  /-- The members of an object with commas between them.  Under each key there is what the
  last member with this key has. -/
  | object {levels : Nat} {members : List Member} {o : Object} (hne : members ≠ [])
      (hkeys : ∀ m ∈ members, m.IsKeyed) (hvalues : ∀ m ∈ members, Denotes levels m.chars m.value)
      (hsorted : o.Sorted)
      (hlast : ∀ key, o.get? key = Object.get? (members.map Member.field).reverse key) :
      Denotes (levels + 1) ('\x7b' :: ([','].intercalate (members.map Member.text) ++ ['\x7d']))
        (.object o)

/-! ### Space -/

theorem isGap_nil : IsGap [] := by simp [IsGap]

theorem exists_gap (cs : List Char) : ∃ gap, cs = gap ++ Document.skip cs ∧ IsGap gap :=
  ⟨cs.takeWhile Document.isSpace, List.takeWhile_append_dropWhile.symm,
    fun _ hc => List.all_eq_true.mp List.all_takeWhile _ hc⟩

theorem IsGap.skip_append {gap : List Char} (h : IsGap gap) (cs : List Char) :
    Document.skip (gap ++ cs) = Document.skip cs :=
  List.dropWhile_append_of_pos h

theorem skip_skip (cs : List Char) :
    Document.skip (Document.skip cs) = Document.skip cs := by
  obtain ⟨gap, hcs, hgap⟩ := exists_gap cs
  have hskip := hgap.skip_append (Document.skip cs)
  rw [← hcs] at hskip
  exact hskip.symm

/-- Every reader passes over the space in front. -/
theorem readValue_skip (bound : Nat) (cs : List Char) :
    Document.readValue bound (Document.skip cs) = Document.readValue bound cs := by
  cases bound with
  | zero => rfl
  | succ bound => rw [Document.readValue, Document.readValue, skip_skip]

theorem readItems_skip (inner bound : Nat) (cs : List Char) :
    Document.readItems (Document.readValue inner) bound (Document.skip cs)
      = Document.readItems (Document.readValue inner) bound cs := by
  cases bound with
  | zero => rfl
  | succ bound => rw [Document.readItems, Document.readItems, readValue_skip]

theorem readMembers_skip (read : List Char → Option (Document × List Char)) (bound : Nat)
    (cs : List Char) :
    Document.readMembers read bound (Document.skip cs) = Document.readMembers read bound cs := by
  cases bound with
  | zero => rfl
  | succ bound => rw [Document.readMembers, Document.readMembers, skip_skip]

/-- A value is denoted also with the space in front of it. -/
theorem exists_denotes_of_skip {levels : Nat} {cs rest : List Char} {v : Json}
    (h : ∃ front, Document.skip cs = front ++ rest ∧ Denotes levels front v) :
    ∃ front, cs = front ++ rest ∧ Denotes levels front v := by
  obtain ⟨front, hskip, hfront⟩ := h
  obtain ⟨gap, hcs, hgap⟩ := exists_gap cs
  refine ⟨gap ++ front ++ [], ?_, .spaced hgap isGap_nil hfront⟩
  rw [hskip] at hcs
  simpa using hcs

/-! ### What is read is denoted -/

/-- The field of an object that a member of a document gives. -/
def field? (levels : Nat) (m : Option String × Document) : Option (String × Json) := do
  return (← m.1, ← ofDocument? levels m.2)

theorem of_field? {levels : Nat} {m : Option String × Document} {f : String × Json}
    (h : field? levels m = some f) : m.1 = some f.1 ∧ ofDocument? levels m.2 = some f.2 := by
  obtain ⟨key, hkey, h⟩ := Option.bind_eq_some_iff.mp h
  obtain ⟨v, hv, h⟩ := Option.bind_eq_some_iff.mp h
  cases h
  exact ⟨hkey, hv⟩

theorem of_ofDocument?_array {levels : Nat} {items : List Document} {v : Json}
    (h : ofDocument? levels (.array items) = some v) :
    ∃ inner vs, levels = inner + 1 ∧ v = .array vs ∧
      items.mapM (ofDocument? inner) = some vs := by
  cases levels with
  | zero => cases h
  | succ inner =>
      obtain ⟨vs, hvs, rfl⟩ := Option.map_eq_some_iff.mp h
      exact ⟨inner, vs, rfl, rfl, hvs⟩

theorem of_ofDocument?_object {levels : Nat} {members : List (Option String × Document)} {v : Json}
    (h : ofDocument? levels (.object members) = some v) :
    ∃ inner fields, levels = inner + 1 ∧ v = .object (Object.ofFields fields) ∧
      members.mapM (field? inner) = some fields := by
  cases levels with
  | zero => cases h
  | succ inner =>
      obtain ⟨fields, hfields, hv⟩ := Option.bind_eq_some_iff.mp h
      cases hv
      exact ⟨inner, fields, rfl, rfl, hfields⟩

theorem of_mapM_cons {α β : Type} {f : α → Option β} {a : α} {as : List α} {bs : List β}
    (h : (a :: as).mapM f = some bs) :
    ∃ b bs', bs = b :: bs' ∧ f a = some b ∧ as.mapM f = some bs' := by
  simp only [List.mapM_cons, Option.bind_eq_bind, Option.bind_eq_some_iff, Option.pure_def,
    Option.some.injEq] at h
  obtain ⟨b, hb, bs', hbs, rfl⟩ := h
  exact ⟨b, bs', rfl, hb, hbs⟩

/-- A part in front of others is followed by a comma. -/
theorem intercalate_cons (piece : List Char) {pieces : List (List Char)} (h : pieces ≠ []) :
    [','].intercalate (piece :: pieces) = piece ++ ',' :: [','].intercalate pieces := by
  obtain ⟨p, pieces, rfl⟩ := List.exists_cons_of_ne_nil h
  simp

/-- What a reader takes off the front denotes every value that is made of what it gives. -/
def IsSound (read : List Char → Option (Document × List Char)) : Prop :=
  ∀ {cs rest : List Char} {d : Document} {levels : Nat} {v : Json}, read cs = some (d, rest) →
    ofDocument? levels d = some v → ∃ front, cs = front ++ rest ∧ Denotes levels front v

section Sound

variable {read : List Char → Option (Document × List Char)}

/-- The space up to what stands behind a value belongs to the value. -/
theorem IsSound.exists_denotes (hread : IsSound read) {cs cs₁ rest : List Char} {d : Document}
    {levels : Nat} {v : Json} (h : read cs = some (d, cs₁)) (hrest : Document.skip cs₁ = rest)
    (hv : ofDocument? levels d = some v) :
    ∃ front, cs = front ++ rest ∧ Denotes levels front v := by
  obtain ⟨front, rfl, hfront⟩ := hread h hv
  obtain ⟨gap, hcs₁, hgap⟩ := exists_gap cs₁
  refine ⟨[] ++ front ++ gap, ?_, .spaced isGap_nil hgap hfront⟩
  rw [hrest] at hcs₁
  rw [hcs₁, List.nil_append, List.append_assoc]

theorem exists_items_of_readItems (hread : IsSound read) {bound levels : Nat}
    {cs rest : List Char} {ds : List Document} {vs : List Json}
    (h : Document.readItems read bound cs = some (ds, rest))
    (hvs : ds.mapM (ofDocument? levels) = some vs) :
    ∃ items : List (List Char × Json), items ≠ [] ∧ (∀ i ∈ items, Denotes levels i.1 i.2) ∧
      vs = items.map (·.2) ∧ cs = [','].intercalate (items.map (·.1)) ++ ']' :: rest := by
  induction bound generalizing cs ds vs with
  | zero => cases h
  | succ bound ih =>
      obtain ⟨⟨d, cs₁⟩, hd, h⟩ := Option.bind_eq_some_iff.mp h
      dsimp only at h
      split at h
      · rename_i cs₂ hskip
        obtain ⟨⟨ds', rest'⟩, hmore, h⟩ := Option.bind_eq_some_iff.mp h
        cases h
        obtain ⟨v, vs', rfl, hv, hvs'⟩ := of_mapM_cons hvs
        obtain ⟨items, hne, hitems, rfl, rfl⟩ := ih hmore hvs'
        obtain ⟨front, rfl, hfront⟩ := hread.exists_denotes hd hskip hv
        refine ⟨(front, v) :: items, List.cons_ne_nil _ _, ?_, rfl, ?_⟩
        · exact List.forall_mem_cons.mpr ⟨hfront, hitems⟩
        · rw [List.map_cons, intercalate_cons front (by simpa using hne)]
          simp
      · rename_i cs₂ hskip
        cases h
        obtain ⟨v, vs', rfl, hv, hvs'⟩ := of_mapM_cons hvs
        cases hvs'
        obtain ⟨front, rfl, hfront⟩ := hread.exists_denotes hd hskip hv
        refine ⟨[(front, v)], List.cons_ne_nil _ _, ?_, rfl, by simp⟩
        exact List.forall_mem_singleton.mpr hfront
      · cases h

/-- A member: a key between space, a colon, and a value with the space behind it. -/
theorem IsSound.exists_member (hread : IsSound read) {cs cs₀ cs₁ cs₂ cs₃ rest : List Char}
    {key : Option String} {d : Document} {levels : Nat} {f : String × Json}
    (hquote : Document.skip cs = '"' :: cs₀) (hkey : Document.readString cs₀ = some (key, cs₁))
    (hcolon : Document.skip cs₁ = ':' :: cs₂) (hd : read cs₂ = some (d, cs₃))
    (hrest : Document.skip cs₃ = rest) (hf : field? levels (key, d) = some f) :
    ∃ m : Member, m.IsKeyed ∧ Denotes levels m.chars m.value ∧ m.field = f ∧
      cs = m.text ++ rest := by
  obtain ⟨rfl, hv⟩ := of_field? hf
  obtain ⟨before, hcs, hbefore⟩ := exists_gap cs
  obtain ⟨body, rfl, hbody⟩ := Document.readString_eq_some_iff.mp hkey
  obtain ⟨behind, hcs₁, hbehind⟩ := exists_gap cs₁
  obtain ⟨chars, rfl, hchars⟩ := hread.exists_denotes hd hrest hv
  refine ⟨⟨before, body, f.1, behind, chars, f.2⟩, ⟨hbefore, hbody, hbehind⟩, hchars, rfl, ?_⟩
  rw [hquote, hcs₁, hcolon] at hcs
  simpa [Member.text] using hcs

theorem exists_members_of_readMembers (hread : IsSound read) {bound levels : Nat}
    {cs rest : List Char} {ds : List (Option String × Document)} {fields : List (String × Json)}
    (h : Document.readMembers read bound cs = some (ds, rest))
    (hfields : ds.mapM (field? levels) = some fields) :
    ∃ members : List Member, members ≠ [] ∧ (∀ m ∈ members, m.IsKeyed) ∧
      (∀ m ∈ members, Denotes levels m.chars m.value) ∧ fields = members.map Member.field ∧
      cs = [','].intercalate (members.map Member.text) ++ '\x7d' :: rest := by
  induction bound generalizing cs ds fields with
  | zero => cases h
  | succ bound ih =>
      rw [Document.readMembers] at h
      split at h
      · rename_i cs₀ hquote
        obtain ⟨⟨key, cs₁⟩, hkey, h⟩ := Option.bind_eq_some_iff.mp h
        dsimp only at h
        split at h
        · rename_i cs₂ hcolon
          obtain ⟨⟨d, cs₃⟩, hd, h⟩ := Option.bind_eq_some_iff.mp h
          dsimp only at h
          split at h
          · rename_i cs₄ hcomma
            obtain ⟨⟨ds', rest'⟩, hmore, h⟩ := Option.bind_eq_some_iff.mp h
            cases h
            obtain ⟨f, fields', rfl, hf, hfields'⟩ := of_mapM_cons hfields
            obtain ⟨members, hne, hkeyed, hvalues, rfl, rfl⟩ := ih hmore hfields'
            obtain ⟨m, hm, hv, rfl, rfl⟩ := hread.exists_member hquote hkey hcolon hd hcomma hf
            refine ⟨m :: members, List.cons_ne_nil _ _, List.forall_mem_cons.mpr ⟨hm, hkeyed⟩,
              List.forall_mem_cons.mpr ⟨hv, hvalues⟩, rfl, ?_⟩
            rw [List.map_cons, intercalate_cons m.text (by simpa using hne)]
            simp
          · rename_i cs₄ hbrace
            cases h
            obtain ⟨f, fields', rfl, hf, hfields'⟩ := of_mapM_cons hfields
            cases hfields'
            obtain ⟨m, hm, hv, rfl, rfl⟩ := hread.exists_member hquote hkey hcolon hd hbrace hf
            exact ⟨[m], List.cons_ne_nil _ _, List.forall_mem_singleton.mpr hm,
              List.forall_mem_singleton.mpr hv, rfl, by simp⟩
          · cases h
        · cases h
      · cases h

theorem exists_emptyArray {cs rest : List Char} {levels : Nat} {v : Json}
    (hskip : Document.skip cs = ']' :: rest) (hv : ofDocument? levels (.array []) = some v) :
    ∃ front, '[' :: cs = front ++ rest ∧ Denotes levels front v := by
  obtain ⟨gap, hcs, hgap⟩ := exists_gap cs
  obtain ⟨inner, vs, rfl, rfl, hvs⟩ := of_ofDocument?_array hv
  cases hvs
  refine ⟨'[' :: (gap ++ [']']), ?_, .emptyArray hgap⟩
  rw [hcs, hskip]
  simp

theorem IsSound.exists_array (hread : IsSound read) {bound levels : Nat} {cs rest : List Char}
    {ds : List Document} {v : Json} (h : Document.readItems read bound cs = some (ds, rest))
    (hv : ofDocument? levels (.array ds) = some v) :
    ∃ front, '[' :: cs = front ++ rest ∧ Denotes levels front v := by
  obtain ⟨inner, vs, rfl, rfl, hvs⟩ := of_ofDocument?_array hv
  obtain ⟨items, hne, hdenotes, rfl, rfl⟩ := exists_items_of_readItems hread h hvs
  exact ⟨_, by simp, .array hne hdenotes⟩

theorem exists_emptyObject {cs rest : List Char} {levels : Nat} {v : Json}
    (hskip : Document.skip cs = '\x7d' :: rest) (hv : ofDocument? levels (.object []) = some v) :
    ∃ front, '\x7b' :: cs = front ++ rest ∧ Denotes levels front v := by
  obtain ⟨gap, hcs, hgap⟩ := exists_gap cs
  obtain ⟨inner, fields, rfl, rfl, hfields⟩ := of_ofDocument?_object hv
  cases hfields
  refine ⟨'\x7b' :: (gap ++ ['\x7d']), ?_, .emptyObject hgap⟩
  rw [hcs, hskip]
  simp

theorem IsSound.exists_object (hread : IsSound read) {bound levels : Nat} {cs rest : List Char}
    {ds : List (Option String × Document)} {v : Json}
    (h : Document.readMembers read bound cs = some (ds, rest))
    (hv : ofDocument? levels (.object ds) = some v) :
    ∃ front, '\x7b' :: cs = front ++ rest ∧ Denotes levels front v := by
  obtain ⟨inner, fields, rfl, rfl, hfields⟩ := of_ofDocument?_object hv
  obtain ⟨members, hne, hkeys, hvalues, rfl, rfl⟩ := exists_members_of_readMembers hread h hfields
  exact ⟨_, by simp, .object hne hkeys hvalues (Object.sorted_ofFields _) (Object.get?_ofFields _)⟩

end Sound

/-- **What is read is denoted.** -/
theorem isSound_readValue (bound : Nat) : IsSound (Document.readValue bound) := by
  induction bound with
  | zero =>
      intro cs rest d levels v h
      cases h
  | succ bound ih =>
      intro cs rest d levels v h hv
      apply exists_denotes_of_skip
      rw [Document.readValue] at h
      generalize Document.skip cs = cs' at h ⊢
      -- The reader goes by what it finds behind the space: three words, a quote, the two
      -- brackets, and a numeral if it is none of these.
      split at h
      · cases h
        rw [ofDocument?] at hv
        cases hv
        exact ⟨_, rfl, .null⟩
      · cases h
        rw [ofDocument?] at hv
        cases hv
        exact ⟨_, rfl, .yes⟩
      · cases h
        rw [ofDocument?] at hv
        cases hv
        exact ⟨_, rfl, .no⟩
      · obtain ⟨⟨text, rest'⟩, hread, heq⟩ := Option.map_eq_some_iff.mp h
        cases heq
        rw [ofDocument?] at hv
        obtain ⟨s, rfl, rfl⟩ := Option.map_eq_some_iff.mp hv
        obtain ⟨body, rfl, hbody⟩ := Document.readString_eq_some_iff.mp hread
        exact ⟨'"' :: (body ++ ['"']), by simp, .string hbody⟩
      · split at h
        · rename_i hskip
          cases h
          exact exists_emptyArray hskip hv
        · obtain ⟨⟨ds, rest'⟩, hitems, heq⟩ := Option.map_eq_some_iff.mp h
          cases heq
          rw [readItems_skip] at hitems
          exact ih.exists_array hitems hv
      · split at h
        · rename_i hskip
          cases h
          exact exists_emptyObject hskip hv
        · obtain ⟨⟨ds, rest'⟩, hmembers, heq⟩ := Option.map_eq_some_iff.mp h
          cases heq
          rw [readMembers_skip] at hmembers
          exact ih.exists_object hmembers hv
      · obtain ⟨⟨n, rest'⟩, hread, heq⟩ := Option.map_eq_some_iff.mp h
        cases heq
        rw [ofDocument?] at hv
        obtain ⟨x, hx, rfl⟩ := Option.map_eq_some_iff.mp hv
        obtain ⟨front, rfl, hfront⟩ := Numeral.exists_isWritten_of_read hread
        exact ⟨front, rfl, .number hfront hx⟩

/-! ### What is denoted is read -/

/-- The text is read as a tree, whatever follows that no number could go on with.  Space
behind the text may be read or left. -/
def ReadsAs (cs : List Char) (d : Document) : Prop :=
  ∀ (bound : Nat) (rest : List Char), cs.length ≤ bound → Numeral.Stops rest →
    ∃ after, Document.readValue bound (cs ++ rest) = some (d, after) ∧
      Document.skip after = Document.skip rest

/-- The text is read as a tree that the value is made of. -/
def IsRead (levels : Nat) (cs : List Char) (v : Json) : Prop :=
  ∃ d, ofDocument? levels d = some v ∧ ReadsAs cs d

theorem stops_cons {c : Char} (h : c ∈ [',', ']', '\x7d', ' ', '\t', '\n', '\r'])
    (rest : List Char) : Numeral.Stops (c :: rest) := by
  intro d hd
  obtain rfl : c = d := Option.some.inj hd
  simp only [List.mem_cons, List.not_mem_nil, or_false] at h
  rcases h with rfl | rfl | rfl | rfl | rfl | rfl | rfl <;> decide

theorem IsGap.stops {gap rest : List Char} (h : IsGap gap) (hrest : Numeral.Stops rest) :
    Numeral.Stops (gap ++ rest) := by
  cases gap with
  | nil => exact hrest
  | cons c gap =>
      refine stops_cons ?_ (gap ++ rest)
      have hc := h c List.mem_cons_self
      simp only [Document.isSpace, decide_eq_true_eq] at hc
      simp only [List.mem_cons]
      tauto

/-- A comma or a closing bracket is found behind the text. -/
theorem ReadsAs.exists_after {cs : List Char} {d : Document} (h : ReadsAs cs d) {bound : Nat}
    (hbound : cs.length ≤ bound) {c : Char} (hc : c ∈ [',', ']', '\x7d']) (rest : List Char) :
    ∃ after, Document.readValue bound (cs ++ c :: rest) = some (d, after) ∧
      Document.skip after = c :: rest := by
  have hmem : c ∈ [',', ']', '\x7d', ' ', '\t', '\n', '\r'] := List.mem_append_left _ hc
  obtain ⟨after, hread, hafter⟩ := h bound (c :: rest) hbound (stops_cons hmem rest)
  rw [Document.skip_of_ends (Document.ends_cons hc rest)] at hafter
  exact ⟨after, hread, hafter⟩

section Containers

variable {read : List Char → Option (Document × List Char)} {bound : Nat} {d : Document}
  {after rest : List Char}

theorem readItems_last {cs : List Char} (hread : read cs = some (d, after))
    (hafter : Document.skip after = ']' :: rest) :
    Document.readItems read (bound + 1) cs = some ([d], rest) := by
  simp [Document.readItems, hread, hafter]

theorem readItems_more {cs cs' : List Char} {ds : List Document}
    (hread : read cs = some (d, after)) (hafter : Document.skip after = ',' :: cs')
    (hmore : Document.readItems read bound cs' = some (ds, rest)) :
    Document.readItems read (bound + 1) cs = some (d :: ds, rest) := by
  simp [Document.readItems, hread, hafter, hmore]

section Members

variable {m : Member} {tail : List Char}

theorem Member.IsKeyed.skip_text (h : m.IsKeyed) : Document.skip (m.text ++ tail)
    = '"' :: (m.body ++ '"' :: (m.behind ++ ':' :: (m.chars ++ tail))) := by
  have htext : m.text ++ tail
      = m.before ++ '"' :: (m.body ++ '"' :: (m.behind ++ ':' :: (m.chars ++ tail))) := by
    simp [text]
  rw [htext, h.1.skip_append, Document.skip_quote]

theorem Member.IsKeyed.skip_behind (h : m.IsKeyed) :
    Document.skip (m.behind ++ ':' :: (m.chars ++ tail)) = ':' :: (m.chars ++ tail) := by
  rw [h.2.2.skip_append, Document.skip_colon]

theorem Member.IsKeyed.readString (h : m.IsKeyed) :
    Document.readString (m.body ++ '"' :: (m.behind ++ ':' :: (m.chars ++ tail)))
      = some (some m.key, m.behind ++ ':' :: (m.chars ++ tail)) :=
  Document.readString_eq_some_iff.mpr ⟨m.body, rfl, h.2.1⟩

theorem readMembers_last (h : m.IsKeyed) (hread : read (m.chars ++ tail) = some (d, after))
    (hafter : Document.skip after = '\x7d' :: rest) :
    Document.readMembers read (bound + 1) (m.text ++ tail) = some ([(some m.key, d)], rest) := by
  simp [Document.readMembers, h.skip_text, h.readString, h.skip_behind, hread, hafter]

theorem readMembers_more {cs' : List Char} {ds : List (Option String × Document)} (h : m.IsKeyed)
    (hread : read (m.chars ++ tail) = some (d, after))
    (hafter : Document.skip after = ',' :: cs')
    (hmore : Document.readMembers read bound cs' = some (ds, rest)) :
    Document.readMembers read (bound + 1) (m.text ++ tail)
      = some ((some m.key, d) :: ds, rest) := by
  simp [Document.readMembers, h.skip_text, h.readString, h.skip_behind, hread, hafter, hmore]

end Members

end Containers

section Complete

variable {levels : Nat}

theorem exists_readItems {items : List (List Char × Json)} (hne : items ≠ [])
    (h : ∀ i ∈ items, IsRead levels i.1 i.2) :
    ∃ ds, ds.mapM (ofDocument? levels) = some (items.map (·.2)) ∧
      ∀ {inner bound : Nat} (rest : List Char), (∀ i ∈ items, i.1.length ≤ inner) →
        items.length ≤ bound →
        Document.readItems (Document.readValue inner) bound
          ([','].intercalate (items.map (·.1)) ++ ']' :: rest) = some (ds, rest) := by
  induction items with
  | nil => exact absurd rfl hne
  | cons i items ih =>
      obtain ⟨⟨d, hd, hread⟩, hitems⟩ := List.forall_mem_cons.mp h
      by_cases hlast : items = []
      · subst hlast
        refine ⟨[d], by simp [hd], ?_⟩
        intro inner bound rest hinner hbound
        obtain ⟨bound, rfl⟩ := Nat.exists_eq_add_one.mpr hbound
        obtain ⟨after, hvalue, hafter⟩ :=
          hread.exists_after (hinner i List.mem_cons_self) (c := ']') (by simp) rest
        simpa using readItems_last hvalue hafter
      · obtain ⟨ds, hds, hmore⟩ := ih hlast hitems
        refine ⟨d :: ds, by simp [hd, hds], ?_⟩
        intro inner bound rest hinner hbound
        obtain ⟨bound, rfl⟩ := Nat.exists_eq_add_one.mpr (Nat.zero_lt_of_lt hbound)
        have hbehind := hmore rest (fun i hi => hinner i (List.mem_cons_of_mem _ hi))
          (Nat.le_of_succ_le_succ hbound)
        obtain ⟨after, hvalue, hafter⟩ := hread.exists_after (hinner i List.mem_cons_self)
          (c := ',') (by simp) ([','].intercalate (items.map (·.1)) ++ ']' :: rest)
        rw [List.map_cons, intercalate_cons i.1 (by simpa using hlast), List.append_assoc,
          List.cons_append]
        exact readItems_more hvalue hafter hbehind

theorem exists_readMembers {members : List Member} (hne : members ≠ [])
    (hkeys : ∀ m ∈ members, m.IsKeyed) (h : ∀ m ∈ members, IsRead levels m.chars m.value) :
    ∃ ds, ds.mapM (field? levels) = some (members.map Member.field) ∧
      ∀ {inner bound : Nat} (rest : List Char), (∀ m ∈ members, m.chars.length ≤ inner) →
        members.length ≤ bound →
        Document.readMembers (Document.readValue inner) bound
          ([','].intercalate (members.map Member.text) ++ '\x7d' :: rest) = some (ds, rest) := by
  induction members with
  | nil => exact absurd rfl hne
  | cons m members ih =>
      obtain ⟨hm, hkeys⟩ := List.forall_mem_cons.mp hkeys
      obtain ⟨⟨d, hd, hread⟩, hmembers⟩ := List.forall_mem_cons.mp h
      have hfield : field? levels (some m.key, d) = some m.field := by
        simp [field?, hd, Member.field]
      by_cases hlast : members = []
      · subst hlast
        refine ⟨[(some m.key, d)], by simp [hfield], ?_⟩
        intro inner bound rest hinner hbound
        obtain ⟨bound, rfl⟩ := Nat.exists_eq_add_one.mpr hbound
        obtain ⟨after, hvalue, hafter⟩ :=
          hread.exists_after (hinner m List.mem_cons_self) (c := '\x7d') (by simp) rest
        simpa using readMembers_last hm hvalue hafter
      · obtain ⟨ds, hds, hmore⟩ := ih hlast hkeys hmembers
        refine ⟨(some m.key, d) :: ds, by simp [hfield, hds], ?_⟩
        intro inner bound rest hinner hbound
        obtain ⟨bound, rfl⟩ := Nat.exists_eq_add_one.mpr (Nat.zero_lt_of_lt hbound)
        have hbehind := hmore rest (fun m hm => hinner m (List.mem_cons_of_mem _ hm))
          (Nat.le_of_succ_le_succ hbound)
        obtain ⟨after, hvalue, hafter⟩ := hread.exists_after (hinner m List.mem_cons_self)
          (c := ',') (by simp) ([','].intercalate (members.map Member.text) ++ '\x7d' :: rest)
        rw [List.map_cons, intercalate_cons m.text (by simpa using hlast), List.append_assoc,
          List.cons_append]
        exact readMembers_more hm hvalue hafter hbehind

end Complete

theorem readValue_emptyArray {gap : List Char} (h : IsGap gap) (bound : Nat) (rest : List Char) :
    Document.readValue (bound + 1) ('[' :: (gap ++ ']' :: rest)) = some (.array [], rest) := by
  have hskip : Document.skip (gap ++ ']' :: rest) = ']' :: rest := by
    rw [h.skip_append, Document.skip_of_not_isSpace (by decide)]
  rw [Document.readValue, Document.skip_of_not_isSpace (by decide)]
  simp [hskip]

theorem readValue_emptyObject {gap : List Char} (h : IsGap gap) (bound : Nat) (rest : List Char) :
    Document.readValue (bound + 1) ('\x7b' :: (gap ++ '\x7d' :: rest))
      = some (.object [], rest) := by
  have hskip : Document.skip (gap ++ '\x7d' :: rest) = '\x7d' :: rest := by
    rw [h.skip_append, Document.skip_of_not_isSpace (by decide)]
  rw [Document.readValue, Document.skip_of_not_isSpace (by decide)]
  simp [hskip]

/-- There is no value in front of a closing bracket. -/
theorem readItems_bracket (inner bound : Nat) (cs : List Char) :
    Document.readItems (Document.readValue inner) bound (']' :: cs) = none := by
  have hvalue : Document.readValue inner (']' :: cs) = none := by
    cases inner with
    | zero => rfl
    | succ inner => rfl
  cases bound with
  | zero => rfl
  | succ bound => simp [Document.readItems, hvalue]

theorem readValue_array_of_readItems {bound : Nat} {cs rest : List Char} {ds : List Document}
    (h : Document.readItems (Document.readValue bound) bound cs = some (ds, rest)) :
    Document.readValue (bound + 1) ('[' :: cs) = some (.array ds, rest) := by
  rw [← readItems_skip] at h
  have hopen : ∀ cs', Document.skip cs ≠ ']' :: cs' := by
    intro cs' hskip
    rw [hskip, readItems_bracket] at h
    cases h
  rw [Document.readValue, Document.skip_of_not_isSpace (by decide)]
  simp [h]

theorem readValue_object_of_readMembers {bound : Nat} {cs rest : List Char}
    {ds : List (Option String × Document)}
    (h : Document.readMembers (Document.readValue bound) bound cs = some (ds, rest)) :
    Document.readValue (bound + 1) ('\x7b' :: cs) = some (.object ds, rest) := by
  rw [← readMembers_skip] at h
  have hopen : ∀ cs', Document.skip cs ≠ '\x7d' :: cs' := by
    intro cs' hskip
    rw [hskip] at h
    cases bound with
    | zero => cases h
    | succ bound => cases h
  rw [Document.readValue, Document.skip_of_not_isSpace (by decide)]
  simp [h]

theorem length_le_length_intercalate_succ (pieces : List (List Char)) :
    pieces.length ≤ ([','].intercalate pieces).length + 1 := by
  induction pieces with
  | nil => exact Nat.zero_le _
  | cons p pieces ih =>
      by_cases hlast : pieces = []
      · simp [hlast]
      · rw [intercalate_cons p hlast]
        simp only [List.length_cons, List.length_append]
        omega

/-- What is read alike in front of everything. -/
theorem isRead_of_readValue {levels : Nat} {cs : List Char} {d : Document} {v : Json}
    (hd : ofDocument? levels d = some v) (hne : cs ≠ [])
    (h : ∀ bound rest, Document.readValue (bound + 1) (cs ++ rest) = some (d, rest)) :
    IsRead levels cs v := by
  refine ⟨d, hd, ?_⟩
  intro bound rest hbound _
  have hpos := List.length_pos_iff.mpr hne
  obtain ⟨bound, rfl⟩ := Nat.exists_eq_add_one.mpr (Nat.lt_of_lt_of_le hpos hbound)
  exact ⟨rest, h bound rest, rfl⟩

theorem isRead_number {levels : Nat} {cs : List Char} {n : Numeral} {x : Number}
    (hwritten : n.IsWritten cs) (hx : Number.ofNumeral? n = some x) :
    IsRead levels cs (.number x) := by
  refine ⟨.number n, by simp [ofDocument?, hx], ?_⟩
  intro bound rest hbound hrest
  obtain ⟨c, cs', rfl, hc⟩ := hwritten.exists_cons
  obtain ⟨bound, rfl⟩ := Nat.exists_eq_add_one.mpr (Nat.zero_lt_of_lt hbound)
  have hread := hwritten.read_append hrest
  rw [List.cons_append] at hread ⊢
  exact ⟨rest, by rw [Document.readValue_of_numeral bound hc, hread]; rfl, rfl⟩

theorem isRead_array {levels : Nat} {items : List (List Char × Json)} (hne : items ≠ [])
    (h : ∀ i ∈ items, IsRead levels i.1 i.2) :
    IsRead (levels + 1) ('[' :: ([','].intercalate (items.map (·.1)) ++ [']']))
      (.array (items.map (·.2))) := by
  obtain ⟨ds, hds, hread⟩ := exists_readItems hne h
  refine ⟨.array ds, by simp [ofDocument?, hds], ?_⟩
  intro bound rest hbound _
  have hcount := length_le_length_intercalate_succ (items.map (·.1))
  simp only [List.length_cons, List.length_append, List.length_map, List.length_nil]
    at hbound hcount
  obtain ⟨bound, rfl⟩ := Nat.exists_eq_add_one.mpr (Nat.zero_lt_of_lt hbound)
  have hinner : ∀ i ∈ items, i.1.length ≤ bound := by
    intro i hi
    have hle := length_le_length_intercalate (List.mem_map_of_mem (f := (·.1)) hi)
    omega
  have hitems := readValue_array_of_readItems (hread rest hinner (by omega))
  exact ⟨rest, by simpa using hitems, rfl⟩

theorem isRead_object {levels : Nat} {members : List Member} {o : Object} (hne : members ≠ [])
    (hkeys : ∀ m ∈ members, m.IsKeyed) (h : ∀ m ∈ members, IsRead levels m.chars m.value)
    (hsorted : o.Sorted)
    (hlast : ∀ key, o.get? key = Object.get? (members.map Member.field).reverse key) :
    IsRead (levels + 1) ('\x7b' :: ([','].intercalate (members.map Member.text) ++ ['\x7d']))
      (.object o) := by
  obtain ⟨ds, hds, hread⟩ := exists_readMembers hne hkeys h
  have ho : o = Object.ofFields (members.map Member.field) := by
    refine hsorted.ext (Object.sorted_ofFields _) ?_
    intro key
    rw [hlast, Object.get?_ofFields]
  refine ⟨.object ds, ?_, ?_⟩
  · rw [ho]
    exact Option.bind_eq_some_iff.mpr ⟨_, hds, rfl⟩
  · intro bound rest hbound _
    have hcount := length_le_length_intercalate_succ (members.map Member.text)
    simp only [List.length_cons, List.length_append, List.length_map, List.length_nil]
      at hbound hcount
    obtain ⟨bound, rfl⟩ := Nat.exists_eq_add_one.mpr (Nat.zero_lt_of_lt hbound)
    have hinner : ∀ m ∈ members, m.chars.length ≤ bound := by
      intro m hm
      have hle := length_le_length_intercalate (List.mem_map_of_mem (f := Member.text) hm)
      have hchars : m.chars.length ≤ m.text.length := by
        simp only [Member.text, List.length_append, List.length_cons]
        omega
      omega
    have hmembers := readValue_object_of_readMembers (hread rest hinner (by omega))
    exact ⟨rest, by simpa using hmembers, rfl⟩

/-- **What is denoted is read.** -/
theorem Denotes.isRead {levels : Nat} {cs : List Char} {v : Json} (h : Denotes levels cs v) :
    IsRead levels cs v := by
  induction h with
  | @spaced levels before cs after v hbefore hafter _ ih =>
      obtain ⟨d, hd, hread⟩ := ih
      refine ⟨d, hd, ?_⟩
      intro bound rest hbound hrest
      rw [List.length_append, List.length_append] at hbound
      obtain ⟨behind, hvalue, hbehind⟩ := hread bound _ (by omega) (hafter.stops hrest)
      refine ⟨behind, ?_, hbehind.trans (hafter.skip_append rest)⟩
      calc Document.readValue bound (before ++ cs ++ after ++ rest)
          = Document.readValue bound (before ++ (cs ++ (after ++ rest))) := by simp
        _ = Document.readValue bound (cs ++ (after ++ rest)) := by
            rw [← readValue_skip, hbefore.skip_append, readValue_skip]
        _ = some (d, behind) := hvalue
  | null => exact isRead_of_readValue (by simp [ofDocument?]) (List.cons_ne_nil _ _) fun _ _ => rfl
  | yes => exact isRead_of_readValue (by simp [ofDocument?]) (List.cons_ne_nil _ _) fun _ _ => rfl
  | no => exact isRead_of_readValue (by simp [ofDocument?]) (List.cons_ne_nil _ _) fun _ _ => rfl
  | number hwritten hx => exact isRead_number hwritten hx
  | @string levels body s hbody =>
      refine isRead_of_readValue (d := .string (some s)) (by simp [ofDocument?])
        (List.cons_ne_nil _ _) ?_
      intro bound rest
      have hread : Document.readString (body ++ '"' :: rest) = some (some s, rest) :=
        Document.readString_eq_some_iff.mpr ⟨body, rfl, hbody⟩
      simp [Document.readValue_of_quote, hread]
  | @emptyArray levels gap hgap =>
      refine isRead_of_readValue (d := .array []) (by simp [ofDocument?]) (List.cons_ne_nil _ _) ?_
      intro bound rest
      rw [List.cons_append, List.append_assoc]
      exact readValue_emptyArray hgap bound rest
  | array hne _ ih => exact isRead_array hne ih
  | @emptyObject levels gap hgap =>
      refine isRead_of_readValue (d := .object []) (by simp [ofDocument?, Object.ofFields])
        (List.cons_ne_nil _ _) ?_
      intro bound rest
      rw [List.cons_append, List.append_assoc]
      exact readValue_emptyObject hgap bound rest
  | object hne hkeys _ hsorted hlast ih => exact isRead_object hne hkeys ih hsorted hlast

/-- **A text is read as the value that it denotes.** -/
theorem parse?_eq_some_iff {s : String} {v : Json} :
    parse? s = some v ↔ Denotes nestingLimit s.toList v := by
  constructor
  · intro h
    obtain ⟨d, hd, hv⟩ := Option.bind_eq_some_iff.mp h
    unfold Document.parse? at hd
    dsimp only at hd
    split at hd
    · rename_i d' rest hread
      split_ifs at hd with hempty
      cases hd
      obtain ⟨front, hs, hfront⟩ :=
        IsSound.exists_denotes (isSound_readValue _) hread (List.isEmpty_iff.mp hempty) hv
      rw [hs, List.append_nil]
      exact hfront
    · cases hd
  · intro h
    obtain ⟨d, hd, hread⟩ := h.isRead
    obtain ⟨after, hvalue, hafter⟩ :=
      hread (s.toList.length + 1) [] (Nat.le_succ _) fun c hc => nomatch hc
    rw [List.append_nil] at hvalue
    have hparse : Document.parse? s = some d := by
      have hempty : (Document.skip after).isEmpty = true := by rw [hafter]; rfl
      unfold Document.parse?
      simp only [hvalue, hempty, if_true]
    exact Option.bind_eq_some_iff.mpr ⟨d, hparse, hd⟩

end Json

end FlowSuite

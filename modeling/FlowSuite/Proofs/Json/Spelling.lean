/-
Spellings of string literals.

A string literal spells its text character by character.  A character stands for itself, or
is written by an escape of one letter, by its number in four hexadecimal digits, or, beyond
the numbers that four digits can write, by two such numbers that are the halves of a
surrogate pair.  The quotes around the text are not part of it.

The reader does not go by characters: it gives a part for every escape, and joins the halves
of a pair afterwards.  It reads exactly the literals that are spelled this way, and since it
is a function, no literal has two texts or two ends.
-/
import FlowSuite.Proofs.Expression.Literal
import Mathlib.Tactic.SplitIfs

namespace FlowSuite

namespace Document

/-- The ways to write a character inside a literal. -/
inductive Spelling : List Char → Char → Prop
  /-- As it is, unless it would end the literal, start an escape or break the line. -/
  | plain {c : Char} (hquote : c ≠ '"') (hslash : c ≠ '\\') (hcontrol : 0x20 ≤ c.toNat) :
      Spelling [c] c
  /-- By the letter of its escape. -/
  | short {e c : Char} (hescape : unescape? e = some c) : Spelling ['\\', e] c
  /-- By its number. -/
  | number {a b c d : Char} {n : Nat} (hn : hexUnit? a b c d = some n)
      (hhigh : isHigh n = false) (hlow : isLow n = false) :
      Spelling ['\\', 'u', a, b, c, d] (Char.ofNat n)
  /-- By the two halves of a surrogate pair. -/
  | pair {a b c d a' b' c' d' : Char} {n m : Nat} (hn : hexUnit? a b c d = some n)
      (hm : hexUnit? a' b' c' d' = some m) (hhigh : isHigh n = true) (hlow : isLow m = true) :
      Spelling ['\\', 'u', a, b, c, d, '\\', 'u', a', b', c', d']
        (Char.ofNat (0x10000 + (n - 0xD800) * 1024 + (m - 0xDC00)))

/-- The inside of a literal and the text that it spells. -/
inductive Spells : List Char → List Char → Prop
  | nil : Spells [] []
  | cons {cs body text : List Char} {c : Char} (hfirst : Spelling cs c)
      (hrest : Spells body text) : Spells (cs ++ body) (c :: text)

/-! ### What is spelled is read -/

/-- A spelled character is read as one or two parts, and these spell the character. -/
theorem Spelling.exists_units {cs : List Char} {c : Char} (h : Spelling cs c) :
    ∃ front : List Unit16,
      (∀ rest us rest', readUnits rest = some (us, rest') →
        readUnits (cs ++ rest) = some (front ++ us, rest')) ∧
      ∀ us, spell? (front ++ us) = (spell? us).map (c :: ·) := by
  cases h with
  | plain hquote hslash hcontrol =>
      have hnot : ¬ c.toNat < 0x20 := by omega
      refine ⟨[.char c], ?_, fun us => rfl⟩
      intro rest us rest' hrest
      simp [readUnits, hslash, hnot, hrest]
  | @short e c hescape =>
      refine ⟨[.char c], ?_, fun us => rfl⟩
      intro rest us rest' hrest
      have hletter : e ≠ 'u' := by
        rintro rfl
        cases hescape
      simp [readUnits, hletter, hescape, hrest]
  | @number a b c d n hn hhigh hlow =>
      refine ⟨[.unit n], ?_, ?_⟩
      · intro rest us rest' hrest
        simp [readUnits, hn, hrest]
      · intro us
        show spell? (.unit n :: us) = _
        rw [spell?.eq_def]
        simp [hhigh, hlow]
  | @pair a b c d a' b' c' d' n m hn hm hhigh hlow =>
      refine ⟨[.unit n, .unit m], ?_, ?_⟩
      · intro rest us rest' hrest
        simp [readUnits, hn, hm, hrest]
      · intro us
        show spell? (.unit n :: .unit m :: us) = _
        rw [spell?.eq_def]
        simp [hhigh, hlow]

theorem Spells.exists_units {body text : List Char} (h : Spells body text) :
    ∃ us, spell? us = some text ∧
      ∀ rest, readUnits (body ++ '"' :: rest) = some (us, rest) := by
  induction h with
  | nil => exact ⟨[], rfl, fun rest => by simp [readUnits]⟩
  | cons hfirst _ ih =>
      obtain ⟨us, hspell, hread⟩ := ih
      obtain ⟨front, hfront, hfrontSpell⟩ := hfirst.exists_units
      refine ⟨front ++ us, by rw [hfrontSpell, hspell]; rfl, fun rest => ?_⟩
      rw [List.append_assoc]
      exact hfront _ _ _ (hread rest)

/-! ### What is read is spelled -/

/-- What the first part of a literal can be. -/
theorem readUnits_cases {cs rest : List Char} {us : List Unit16}
    (h : readUnits cs = some (us, rest)) :
    (us = [] ∧ cs = '"' :: rest) ∨
    (∃ a b c d n cs' us', cs = '\\' :: 'u' :: a :: b :: c :: d :: cs' ∧ us = .unit n :: us' ∧
      hexUnit? a b c d = some n ∧ readUnits cs' = some (us', rest)) ∨
    ∃ front c cs' us', cs = front ++ cs' ∧ us = .char c :: us' ∧ Spelling front c ∧
      readUnits cs' = some (us', rest) := by
  unfold readUnits at h
  split at h
  · cases h
  · cases h
    exact .inl ⟨rfl, rfl⟩
  · rename_i a b c d cs'
    obtain ⟨n, hn, h⟩ := Option.bind_eq_some_iff.mp h
    obtain ⟨⟨us', rest'⟩, hrest, h⟩ := Option.bind_eq_some_iff.mp h
    cases h
    exact .inr (.inl ⟨a, b, c, d, n, cs', us', rfl, rfl, hn, hrest⟩)
  · rename_i e cs' _
    obtain ⟨c, hc, h⟩ := Option.bind_eq_some_iff.mp h
    obtain ⟨⟨us', rest'⟩, hrest, h⟩ := Option.bind_eq_some_iff.mp h
    cases h
    exact .inr (.inr ⟨['\\', e], c, cs', us', rfl, rfl, .short hc, hrest⟩)
  · rename_i c cs' hquote _ hslash
    split at h
    · cases h
    · rename_i hcontrol
      obtain ⟨⟨us', rest'⟩, hrest, h⟩ := Option.bind_eq_some_iff.mp h
      cases h
      refine .inr (.inr ⟨[c], c, cs', us', rfl, rfl, .plain hquote ?_ (by omega), hrest⟩)
      -- A backslash at the very end would be left to this case, but nothing is read behind it.
      rintro rfl
      cases cs' with
      | nil => cases hrest
      | cons e cs' => exact hslash e cs' rfl rfl

theorem of_readUnits_char {cs rest : List Char} {c : Char} {us : List Unit16}
    (h : readUnits cs = some (.char c :: us, rest)) :
    ∃ front cs', cs = front ++ cs' ∧ Spelling front c ∧ readUnits cs' = some (us, rest) := by
  rcases readUnits_cases h with ⟨heq, -⟩ | ⟨_, _, _, _, _, _, _, -, heq, -⟩
    | ⟨front, _, cs', _, hcs, heq, hfront, hrest⟩
  · cases heq
  · cases heq
  · cases heq
    exact ⟨front, cs', hcs, hfront, hrest⟩

theorem of_readUnits_unit {cs rest : List Char} {n : Nat} {us : List Unit16}
    (h : readUnits cs = some (.unit n :: us, rest)) :
    ∃ a b c d cs', cs = '\\' :: 'u' :: a :: b :: c :: d :: cs' ∧ hexUnit? a b c d = some n ∧
      readUnits cs' = some (us, rest) := by
  rcases readUnits_cases h with ⟨heq, -⟩ | ⟨a, b, c, d, _, cs', _, hcs, heq, hn, hrest⟩
    | ⟨_, _, _, _, -, heq, -⟩
  · cases heq
  · cases heq
    exact ⟨a, b, c, d, cs', hcs, hn, hrest⟩
  · cases heq

/-- What comes first is put in front of what the rest spells. -/
theorem exists_spells_cons {front cs rest text text' : List Char} {c : Char}
    (hfront : Spelling front c) (htext : text = c :: text')
    (hrest : ∃ body, cs = body ++ '"' :: rest ∧ Spells body text') :
    ∃ body, front ++ cs = body ++ '"' :: rest ∧ Spells body text := by
  obtain ⟨body, rfl, hbody⟩ := hrest
  exact ⟨front ++ body, (List.append_assoc ..).symm, htext ▸ .cons hfront hbody⟩

theorem exists_spells_of_readUnits {cs rest text : List Char} {us : List Unit16}
    (h : readUnits cs = some (us, rest)) (hspell : spell? us = some text) :
    ∃ body, cs = body ++ '"' :: rest ∧ Spells body text := by
  fun_induction spell? us generalizing cs text with
  | case1 =>
      cases hspell
      rcases readUnits_cases h with ⟨-, hcs⟩ | ⟨_, _, _, _, _, _, _, -, heq, -⟩
        | ⟨_, _, _, _, -, heq, -⟩
      · exact ⟨[], hcs, .nil⟩
      · cases heq
      · cases heq
  | case2 c us ih =>
      obtain ⟨front, cs', rfl, hfront, hrest⟩ := of_readUnits_char h
      obtain ⟨text', htext, heq⟩ := Option.map_eq_some_iff.mp hspell
      exact exists_spells_cons hfront heq.symm (ih hrest htext)
  | case3 n hhigh m us hlow ih =>
      -- The two halves of a pair are two escapes, one right behind the other.
      obtain ⟨a, b, c, d, cs', rfl, hn, hrest⟩ := of_readUnits_unit h
      obtain ⟨a', b', c', d', cs'', rfl, hm, hrest⟩ := of_readUnits_unit hrest
      obtain ⟨text', htext, heq⟩ := Option.map_eq_some_iff.mp hspell
      exact exists_spells_cons (.pair hn hm hhigh hlow) heq.symm (ih hrest htext)
  | case7 n us hhigh hlow ih =>
      obtain ⟨a, b, c, d, cs', rfl, hn, hrest⟩ := of_readUnits_unit h
      obtain ⟨text', htext, heq⟩ := Option.map_eq_some_iff.mp hspell
      have hnumber : Spelling ['\\', 'u', a, b, c, d] (Char.ofNat n) :=
        .number hn (by simpa using hhigh) (by simpa using hlow)
      exact exists_spells_cons hnumber heq.symm (ih hrest htext)
  | _ => cases hspell

/-- **The reader reads exactly the literals that are spelled.** -/
theorem readString_eq_some_iff {cs rest : List Char} {s : String} :
    readString cs = some (some s, rest) ↔
      ∃ body, cs = body ++ '"' :: rest ∧ Spells body s.toList := by
  constructor
  · intro h
    obtain ⟨⟨us, rest'⟩, hread, heq⟩ := Option.map_eq_some_iff.mp h
    obtain ⟨htext, rfl⟩ := Prod.mk.inj heq
    obtain ⟨text, hspell, rfl⟩ := Option.map_eq_some_iff.mp htext
    rw [String.toList_ofList]
    exact exists_spells_of_readUnits hread hspell
  · rintro ⟨body, rfl, hbody⟩
    obtain ⟨us, hspell, hread⟩ := hbody.exists_units
    simp [readString, hread, hspell]

/-- An escaped text spells the text. -/
theorem spells_flatMap_escape (cs : List Char) : Spells (cs.flatMap Text.escape) cs := by
  obtain ⟨body, heq, hbody⟩ := readString_eq_some_iff.mp (Text.readString_flatMap_escape cs [])
  rw [String.toList_ofList] at hbody
  rwa [List.append_cancel_right heq]

end Document

/-! ### Control characters -/

namespace Text

theorem not_control_of_mem_escape {c d : Char} (h : d ∈ escape c) : 0x20 ≤ d.toNat := by
  by_cases hcontrol : c.toNat < 0x20
  · have hall : ∀ n < 0x20, (escape (Char.ofNat n)).all (0x20 ≤ ·.toNat) = true := by decide
    have hc := hall c.toNat hcontrol
    rw [Char.ofNat_toNat, List.all_eq_true] at hc
    exact of_decide_eq_true (hc d h)
  · have hself : d = '\\' ∨ d = '"' ∨ d = c := by
      unfold escape at h
      split_ifs at h <;> simp_all
    rcases hself with rfl | rfl | rfl
    · decide
    · decide
    · omega

theorem not_control_of_mem_quoteChars {cs : List Char} {d : Char} (h : d ∈ quoteChars cs) :
    0x20 ≤ d.toNat := by
  simp only [quoteChars, List.mem_cons, List.mem_append, List.mem_flatMap, List.not_mem_nil,
    or_false] at h
  rcases h with rfl | ⟨c, -, hd⟩ | rfl
  · decide
  · exact not_control_of_mem_escape hd
  · decide

end Text

end FlowSuite

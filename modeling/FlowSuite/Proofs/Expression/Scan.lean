/-
What scanning a field text finds.

Scanning goes character by character and keeps what stands since an opening brace; at
the closing brace it is decided whether that was a reference.  `Spells` says what the
atoms have to do with the characters, without that memory: an atom is a character of
the text, or it is a reference and stands for braces around a path.  Nothing is lost
and nothing is made up.

Gathering then joins characters side by side, so two texts never meet.
-/
import FlowSuite.Template.Value
import Mathlib.Data.List.Basic

namespace FlowSuite

/-! ### Runs of characters -/

namespace Text

variable {α β : Type} {text : String → β} {part : α → Char ⊕ β}

theorem mem_flush_iff {run : List Char} {b : β} :
    b ∈ flush text run ↔ run ≠ [] ∧ b = text (String.ofList run.reverse) := by
  unfold flush
  by_cases hrun : run = []
  · simp [hrun]
  · simp [hrun]

/-- Characters in front are collected one after the other. -/
theorem gather_map {f : Char → α} (hf : ∀ c, part (f c) = .inl c) (run cs : List Char)
    (as : List α) :
    gather text part run (cs.map f ++ as) = gather text part (cs.reverse ++ run) as := by
  induction cs generalizing run with
  | nil => rfl
  | cons c cs ih =>
      rw [List.map_cons, List.cons_append, gather, hf, List.reverse_cons, List.append_assoc]
      exact ih (c :: run)

end Text

namespace Segment

/-! ### Atoms -/

/-- The characters that atoms stand for. -/
inductive Spells : List Atom → List Char → Prop where
  | nil : Spells [] []
  | char {c : Char} {as : List Atom} {cs : List Char} (hrest : Spells as cs) :
      Spells (.char c :: as) (c :: cs)
  | ref {p : Path} {inside cs : List Char} {as : List Atom} (hinside : '}' ∉ inside)
      (hpath : Path.ofChars? inside = some p) (hrest : Spells as cs) :
      Spells (.ref p :: as) ('$' :: '{' :: (inside ++ '}' :: cs))

/-- The characters that a scan has read but not given out. -/
def opened : Option (List Char) → List Char
  | none => []
  | some inside => '$' :: '{' :: inside.reverse

theorem spells_plain_append {as : List Atom} {ds : List Char} (h : Spells as ds)
    (cs : List Char) : Spells (plain cs ++ as) (cs ++ ds) := by
  induction cs with
  | nil => exact h
  | cons c cs ih => exact Spells.char ih

theorem spells_plain (cs : List Char) : Spells (plain cs) cs := by
  simpa using spells_plain_append Spells.nil cs

/-- The atoms of a text stand for exactly its characters. -/
theorem spells_atoms (state : Option (List Char)) (cs : List Char)
    (hstate : ∀ inside, state = some inside → '}' ∉ inside) :
    Spells (atoms state cs) (opened state ++ cs) := by
  fun_induction atoms state cs with
  | case1 => exact Spells.nil
  | case2 cs ih => exact ih (by simp)
  | case3 c cs hnot ih => exact Spells.char (ih (by simp))
  | case4 inside => simpa [opened] using spells_plain ('$' :: '{' :: inside.reverse)
  | case5 inside cs ih =>
      have hrest : Spells (atoms none cs) cs := ih (by simp)
      have hinside : '}' ∉ inside.reverse := by simpa using hstate inside rfl
      unfold braces
      cases hpath : Path.ofChars? inside.reverse with
      | some p => exact Spells.ref hinside hpath hrest
      | none =>
          have hplain := spells_plain_append hrest ('$' :: '{' :: (inside.reverse ++ ['}']))
          simpa [opened] using hplain
  | case6 inside c cs hc ih =>
      have hnext : ∀ inside', some (c :: inside) = some inside' → '}' ∉ inside' := by
        intro inside' heq
        cases heq
        have hinside := hstate inside rfl
        simp only [List.mem_cons, not_or]
        exact ⟨fun h => hc h.symm, hinside⟩
      simpa [opened] using ih hnext

/-- A character among the atoms is one of the text. -/
theorem Spells.mem_of_char {as : List Atom} {cs : List Char} (h : Spells as cs) {c : Char}
    (hc : .char c ∈ as) : c ∈ cs := by
  induction h with
  | nil => cases hc
  | char hrest ih =>
      rcases List.mem_cons.mp hc with heq | hc
      · cases heq
        exact List.mem_cons_self
      · exact List.mem_cons_of_mem _ (ih hc)
  | ref hinside hpath hrest ih =>
      rcases List.mem_cons.mp hc with heq | hc
      · cases heq
      · simp [ih hc]

/-! ### Segments -/

/-- The string that a segment stands for, given the value at each path. -/
def value (store : Path → String) : Segment → String
  | .text s => s
  | .ref p => store p

@[simp] theorem value_text (store : Path → String) (s : String) :
    (text s).value store = s := rfl

@[simp] theorem value_ref (store : Path → String) (p : Path) :
    (ref p).value store = store p := rfl

/-- The string that segments stand for, one after the other. -/
def meaning (store : Path → String) (segments : List Segment) : String :=
  String.join (segments.map (value store))

@[simp] theorem toList_meaning_nil (store : Path → String) :
    (meaning store []).toList = [] := by
  simp [meaning]

@[simp] theorem toList_meaning_cons (store : Path → String) (s : Segment)
    (segments : List Segment) :
    (meaning store (s :: segments)).toList
      = (s.value store).toList ++ (meaning store segments).toList := by
  simp [meaning, String.toList_join]

@[simp] theorem toList_meaning_append (store : Path → String) (segments more : List Segment) :
    (meaning store (segments ++ more)).toList
      = (meaning store segments).toList ++ (meaning store more).toList := by
  simp [meaning, String.toList_join]

/-- The characters that an atom stands for, given the value at each path. -/
def Atom.value (store : Path → String) : Atom → List Char
  | .char c => [c]
  | .ref p => (store p).toList

theorem gather_nil (run : List Char) : gather run [] = Text.flush text run := rfl

theorem gather_char (run : List Char) (c : Char) (as : List Atom) :
    gather run (.char c :: as) = gather (c :: run) as := rfl

theorem gather_ref (run : List Char) (p : Path) (as : List Atom) :
    gather run (.ref p :: as) = Text.flush text run ++ ref p :: gather [] as := rfl

theorem toList_meaning_flush (store : Path → String) (run : List Char) :
    (meaning store (Text.flush text run)).toList = run.reverse := by
  unfold Text.flush
  cases run with
  | nil => rfl
  | cons c run => simp

/-- Gathering changes nothing of what is stood for. -/
theorem toList_meaning_gather (store : Path → String) (run : List Char) (as : List Atom) :
    (meaning store (gather run as)).toList
      = run.reverse ++ as.flatMap (Atom.value store) := by
  induction as generalizing run with
  | nil => simp [gather_nil, toList_meaning_flush]
  | cons a as ih =>
      cases a with
      | char c => simp [gather_char, ih, Atom.value]
      | ref p => simp [gather_ref, ih, toList_meaning_flush, Atom.value]

theorem ref_mem_gather {run : List Char} {as : List Atom} {p : Path} (h : .ref p ∈ as) :
    .ref p ∈ gather run as := by
  induction as generalizing run with
  | nil => cases h
  | cons a as ih =>
      cases a with
      | char c =>
          rcases List.mem_cons.mp h with heq | h
          · cases heq
          · exact ih h
      | ref q =>
          rw [gather_ref]
          rcases List.mem_cons.mp h with heq | h
          · cases heq
            simp
          · simp [ih h]

/-- A text stands before a reference, where it was collected, or behind it. -/
theorem text_mem_gather_ref {run : List Char} {p : Path} {as : List Atom} {s : String}
    (h : text s ∈ gather run (.ref p :: as)) :
    text s ∈ Text.flush text run ∨ text s ∈ gather [] as := by
  rcases List.mem_append.mp h with h | h
  · exact Or.inl h
  · rcases List.mem_cons.mp h with heq | h
    · cases heq
    · exact Or.inr h

/-- A text that was collected has the characters collected, and there are some. -/
theorem eq_of_mem_flush {run : List Char} {s : String} (h : text s ∈ Text.flush text run) :
    s.toList = run.reverse ∧ s ≠ "" := by
  obtain ⟨hrun, heq⟩ := Text.mem_flush_iff.mp h
  obtain rfl := Segment.text.inj heq
  exact ⟨String.toList_ofList, by simpa using hrun⟩

/-- Every character of a text segment is one of the characters scanned. -/
theorem mem_of_mem_gather {run : List Char} {as : List Atom} {s : String} {c : Char}
    (hs : .text s ∈ gather run as) (hc : c ∈ s.toList) : c ∈ run ∨ .char c ∈ as := by
  have hflush : ∀ {run : List Char}, text s ∈ Text.flush text run → c ∈ run := by
    intro run h
    rw [(eq_of_mem_flush h).1] at hc
    exact List.mem_reverse.mp hc
  induction as generalizing run with
  | nil => exact Or.inl (hflush hs)
  | cons a as ih =>
      cases a with
      | char d =>
          rcases ih hs with h | h
          · rcases List.mem_cons.mp h with rfl | h
            · exact Or.inr List.mem_cons_self
            · exact Or.inl h
          · exact Or.inr (List.mem_cons_of_mem _ h)
      | ref p =>
          rcases text_mem_gather_ref hs with hs | hs
          · exact Or.inl (hflush hs)
          · rcases ih hs with h | h
            · cases h
            · exact Or.inr (List.mem_cons_of_mem _ h)

/-- Of two segments side by side one is a reference. -/
def Apart (s s' : Segment) : Prop :=
  s.isRef = true ∨ s'.isRef = true

theorem isChain_gather (run : List Char) (as : List Atom) :
    (gather run as).IsChain Apart := by
  induction as generalizing run with
  | nil =>
      rw [gather_nil, Text.flush]
      split
      · exact List.IsChain.nil
      · exact List.IsChain.singleton _
  | cons a as ih =>
      cases a with
      | char c => exact ih (c :: run)
      | ref p =>
          have href : (ref p :: gather [] as).IsChain Apart := by
            cases hrest : gather [] as with
            | nil => exact List.IsChain.singleton _
            | cons s ss => exact List.IsChain.cons_cons (Or.inl rfl) (hrest ▸ ih [])
          rw [gather_ref, Text.flush]
          split
          · exact href
          · exact List.IsChain.cons_cons (Or.inr rfl) href

/-! ### Scanning -/

/-- The texts of a scan have no characters but those scanned. -/
theorem mem_of_mem_scanChars {cs : List Char} {s : String} {c : Char}
    (hs : .text s ∈ scanChars cs) (hc : c ∈ s.toList) : c ∈ cs := by
  rcases mem_of_mem_gather hs hc with h | h
  · cases h
  · exact (spells_atoms none cs (by simp)).mem_of_char h

/-- Without a reference the atoms are the characters themselves. -/
theorem Spells.value_of_no_ref {as : List Atom} {cs : List Char} (h : Spells as cs)
    (store : Path → String) (hno : ∀ p, .ref p ∉ as) : as.flatMap (Atom.value store) = cs := by
  induction h with
  | nil => rfl
  | char hrest ih => simp [Atom.value, ih fun p hp => hno p (List.mem_cons_of_mem _ hp)]
  | ref hinside hpath hrest ih => exact absurd List.mem_cons_self (hno _)

/-- Without a reference a scan stands for the characters scanned. -/
theorem meaning_scanChars_of_no_ref (store : Path → String) {cs : List Char}
    (hno : (scanChars cs).any isRef = false) :
    (meaning store (scanChars cs)).toList = cs := by
  have hatoms : ∀ p, .ref p ∉ atoms none cs := by
    intro p hp
    have hmem : .ref p ∈ scanChars cs := ref_mem_gather hp
    simp only [List.any_eq_false] at hno
    exact hno _ hmem rfl
  rw [scanChars, toList_meaning_gather]
  exact (spells_atoms none cs (by simp)).value_of_no_ref store hatoms

end Segment

end FlowSuite

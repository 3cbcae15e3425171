/-
What a field text is cut into.

A field text is cut into references and the texts between them, and the parts are all that
the rest of the compiler sees of it.  So the cut must lose no character, must not miss a
reference, and must not make one up where two parts meet.

What makes this delicate is that braces which hold no name are text: whether a dollar sign
with a brace opens a reference is only known at the closing brace, and if there is none,
everything to the end is text.  `Scans` says what the atoms of a text are without the memory
that the scan needs for this.  It looks ahead instead: a character stands for itself if no
braces are opened by it, and braces are taken whole, with all that is between them.

Two things follow by going along the cut.  The characters before the first reference make up
a text of their own that has the same atoms, so a text scanned again has no reference.  And a
reference may be written in another way, as long as it is read as the same path; the
characters around it do not change what they stand for.  A path in writing is read as that
path, since its names are trimmed and have no dot, so writing the parts and scanning them
gives the parts.
-/
import FlowSuite.Proofs.Expression.Translation
import Mathlib.Data.List.DropRight
import Mathlib.Data.List.Forall2

namespace FlowSuite

namespace Text

/-! ### Items -/

/-- The front of a text that has no blank in front has none either. -/
theorem dropWhile_eq_self_of_prefix {p : Char → Bool} {cs ds : List Char} (h : cs <+: ds)
    (hds : ds.dropWhile p = ds) : cs.dropWhile p = cs := by
  cases cs with
  | nil => rfl
  | cons c cs =>
      obtain ⟨rest, rfl⟩ := h
      by_cases hc : p c = true
      · rw [List.cons_append, List.dropWhile_cons_of_pos hc] at hds
        have hlength := List.length_dropWhile_le p (cs ++ rest)
        rw [hds, List.length_cons] at hlength
        omega
      · exact List.dropWhile_cons_of_neg hc

theorem trimChars_trimChars (cs : List Char) : trimChars (trimChars cs) = trimChars cs := by
  have hfront : (trimChars cs).dropWhile isBlank = trimChars cs :=
    dropWhile_eq_self_of_prefix (List.rdropWhile_prefix isBlank _)
      (List.dropWhile_idempotent isBlank _)
  show ((trimChars cs).dropWhile isBlank).rdropWhile isBlank = trimChars cs
  rw [hfront]
  exact List.rdropWhile_idempotent isBlank _

/-- A piece between separators holds none, and nothing that was not there. -/
theorem of_mem_splitOn {sep : Char} {cs piece : List Char} (h : piece ∈ cs.splitOn sep) :
    sep ∉ piece ∧ ∀ c ∈ piece, c ∈ cs := by
  induction cs generalizing piece with
  | nil =>
      rw [List.splitOn_nil, List.mem_singleton] at h
      subst h
      exact ⟨List.not_mem_nil, fun c hc => hc⟩
  | cons d ds ih =>
      rw [List.splitOn_cons_eq_if_modifyHead] at h
      by_cases hd : (d == sep) = true
      · rw [if_pos hd] at h
        rcases List.mem_cons.mp h with rfl | h
        · exact ⟨List.not_mem_nil, nofun⟩
        · exact ⟨(ih h).1, fun c hc => List.mem_cons_of_mem d ((ih h).2 c hc)⟩
      · rw [if_neg hd] at h
        obtain ⟨first, rest, hsplit⟩ := List.exists_cons_of_ne_nil (List.splitOn_ne_nil sep ds)
        rw [hsplit, List.modifyHead_cons] at h
        rcases List.mem_cons.mp h with rfl | h
        · obtain ⟨hno, hmem⟩ := ih (hsplit ▸ List.mem_cons_self)
          refine ⟨?_, ?_⟩
          · intro hsep
            rcases List.mem_cons.mp hsep with heq | hsep
            · exact hd (by rw [heq]; exact beq_self_eq_true d)
            · exact hno hsep
          · intro c hc
            rcases List.mem_cons.mp hc with rfl | hc
            · exact List.mem_cons_self
            · exact List.mem_cons_of_mem d (hmem c hc)
        · obtain ⟨hno, hmem⟩ := ih (hsplit ▸ List.mem_cons_of_mem first h)
          exact ⟨hno, fun c hc => List.mem_cons_of_mem d (hmem c hc)⟩

theorem mem_intercalate {sep c : Char} {pieces : List (List Char)}
    (h : c ∈ [sep].intercalate pieces) : c = sep ∨ ∃ piece ∈ pieces, c ∈ piece := by
  induction pieces with
  | nil => exact absurd h List.not_mem_nil
  | cons piece rest ih =>
      cases rest with
      | nil =>
          rw [List.intercalate_singleton] at h
          exact Or.inr ⟨piece, List.mem_cons_self, h⟩
      | cons next rest =>
          rw [List.intercalate_cons_cons, List.append_assoc, List.mem_append] at h
          rcases h with h | h
          · exact Or.inr ⟨piece, List.mem_cons_self, h⟩
          · rcases List.mem_cons.mp h with heq | h
            · exact Or.inl heq
            · rcases ih h with heq | ⟨other, hother, hc⟩
              · exact Or.inl heq
              · exact Or.inr ⟨other, List.mem_cons_of_mem piece hother, hc⟩

/-- Characters that can be an item. -/
structure IsItem (sep : Char) (cs : List Char) : Prop where
  ne_nil : cs ≠ []
  trimmed : trimChars cs = cs
  no_sep : sep ∉ cs

theorem isItem_of_mem_items {sep : Char} {cs : List Char} {item : String}
    (h : item ∈ items sep cs) : IsItem sep item.toList ∧ ∀ c ∈ item.toList, c ∈ cs := by
  obtain ⟨kept, hkept, rfl⟩ := List.mem_map.mp h
  obtain ⟨htrimmed, hne⟩ := List.mem_filter.mp hkept
  obtain ⟨piece, hpiece, rfl⟩ := List.mem_map.mp htrimmed
  obtain ⟨hno, hmem⟩ := of_mem_splitOn hpiece
  rw [String.toList_ofList]
  refine ⟨⟨?_, trimChars_trimChars piece, fun hsep => hno (mem_of_mem_trimChars hsep)⟩, ?_⟩
  · intro hnil
    rw [hnil] at hne
    exact Bool.noConfusion hne
  · intro c hc
    exact hmem c (mem_of_mem_trimChars hc)

/-- Items that are joined by separators come back. -/
theorem items_intercalate {sep : Char} {names : List String}
    (h : ∀ name ∈ names, IsItem sep name.toList) :
    items sep ([sep].intercalate (names.map String.toList)) = names := by
  by_cases hne : names = []
  · subst hne
    rfl
  have hpieces : ∀ piece ∈ names.map String.toList, IsItem sep piece := by
    intro piece hpiece
    obtain ⟨name, hname, rfl⟩ := List.mem_map.mp hpiece
    exact h name hname
  have hsplit := List.splitOn_intercalate sep (fun piece hpiece => (hpieces piece hpiece).no_sep)
    (by simpa using hne)
  have htrim : (names.map String.toList).map trimChars = names.map String.toList := by
    conv_rhs => rw [← List.map_id (names.map String.toList)]
    exact List.map_congr_left fun piece hpiece => (hpieces piece hpiece).trimmed
  have hkeep : (names.map String.toList).filter (!·.isEmpty) = names.map String.toList := by
    refine List.filter_eq_self.mpr fun piece hpiece => ?_
    simpa using (hpieces piece hpiece).ne_nil
  rw [items, hsplit, htrim, hkeep, List.map_map]
  conv_rhs => rw [← List.map_id names]
  exact List.map_congr_left fun name _ => String.ofList_toList

end Text

/-! ### Paths in writing -/

namespace Path

theorem items_eq_of_ofChars? {cs : List Char} {p : Path} (h : ofChars? cs = some p) :
    Text.items '.' cs = p.root :: p.keys := by
  unfold ofChars? at h
  split at h
  · cases h
  · cases h
    assumption

theorem toList_text (p : Path) :
    p.text.toList = ['.'].intercalate ((p.root :: p.keys).map String.toList) := by
  rw [text, String.toList_intercalate]
  rfl

/-- A path that was read is read again from its writing. -/
theorem ofChars?_text {cs : List Char} {p : Path} (h : ofChars? cs = some p) :
    ofChars? p.text.toList = some p := by
  have hitems := items_eq_of_ofChars? h
  have hnames : ∀ name ∈ p.root :: p.keys, Text.IsItem '.' name.toList := by
    intro name hname
    rw [← hitems] at hname
    exact (Text.isItem_of_mem_items hname).1
  rw [ofChars?, toList_text, Text.items_intercalate hnames]

/-- The writing of a path has no characters but dots and those it was read from. -/
theorem mem_of_mem_text {cs : List Char} {p : Path} (h : ofChars? cs = some p) {c : Char}
    (hc : c ∈ p.text.toList) : c = '.' ∨ c ∈ cs := by
  rw [toList_text] at hc
  rcases Text.mem_intercalate hc with hdot | ⟨piece, hpiece, hc⟩
  · exact Or.inl hdot
  · obtain ⟨name, hname, rfl⟩ := List.mem_map.mp hpiece
    rw [← items_eq_of_ofChars? h] at hname
    exact Or.inr ((Text.isItem_of_mem_items hname).2 c hc)

/-- A reference to the path. -/
def reference (p : Path) : String :=
  "$\x7b" ++ p.text ++ "\x7d"

/-- A text that is braces around the path, in one of the ways to write it. -/
def Braced (p : Path) (s : String) : Prop :=
  ∃ inside : String,
    '}' ∉ inside.toList ∧ parse? inside = some p ∧ s = "$\x7b" ++ inside ++ "\x7d"

end Path

namespace Segment

/-! ### Atoms, looking ahead -/

/-- Characters and their atoms.  Whether braces are opened or closed is told by what follows. -/
inductive Scans : List Char → List Atom → Prop where
  | nil : Scans [] []
  | char {c : Char} {cs : List Char} {as : List Atom} (hopen : c = '$' → cs.head? ≠ some '{')
      (hrest : Scans cs as) : Scans (c :: cs) (.char c :: as)
  | unclosed {cs : List Char} (hclose : '}' ∉ cs) :
      Scans ('$' :: '{' :: cs) (plain ('$' :: '{' :: cs))
  | braces {inside cs : List Char} {as : List Atom} (hinside : '}' ∉ inside)
      (hrest : Scans cs as) :
      Scans ('$' :: '{' :: (inside ++ '}' :: cs)) (braces inside ++ as)

theorem scans_atoms (state : Option (List Char)) (cs : List Char)
    (hstate : ∀ inside, state = some inside → '}' ∉ inside) :
    Scans (opened state ++ cs) (atoms state cs) := by
  fun_induction atoms state cs with
  | case1 => exact .nil
  | case2 cs ih => exact ih (by simp)
  | case3 c cs hnot ih =>
      refine .char ?_ (ih (by simp))
      intro hc hhead
      obtain ⟨rest, rfl⟩ := List.head?_eq_some_iff.mp hhead
      exact hnot rest hc rfl
  | case4 inside =>
      rw [List.append_nil]
      exact .unclosed (by simpa using hstate inside rfl)
  | case5 inside cs ih =>
      have hinside : '}' ∉ inside.reverse := by simpa using hstate inside rfl
      exact .braces hinside (ih (by simp))
  | case6 inside c cs hc ih =>
      have hnext : ∀ inside', some (c :: inside) = some inside' → '}' ∉ inside' := by
        intro inside' heq hmem
        cases heq
        rcases List.mem_cons.mp hmem with h | h
        · exact hc h.symm
        · exact hstate inside rfl h
      simpa [opened] using ih hnext

theorem atoms_unclosed {cs : List Char} (h : '}' ∉ cs) (inside : List Char) :
    atoms (some inside) cs = plain ('$' :: '{' :: (inside.reverse ++ cs)) := by
  induction cs generalizing inside with
  | nil => simp [atoms]
  | cons c cs ih =>
      have hc : c ≠ '}' := fun hc => h (hc ▸ List.mem_cons_self)
      rw [atoms, ih fun hmem => h (List.mem_cons_of_mem c hmem)]
      · simp
      · exact hc

theorem atoms_closed {cs : List Char} (h : '}' ∉ cs) (inside rest : List Char) :
    atoms (some inside) (cs ++ '}' :: rest)
      = braces (inside.reverse ++ cs) ++ atoms none rest := by
  induction cs generalizing inside with
  | nil => simp [atoms]
  | cons c cs ih =>
      have hc : c ≠ '}' := fun hc => h (hc ▸ List.mem_cons_self)
      rw [List.cons_append, atoms, ih fun hmem => h (List.mem_cons_of_mem c hmem)]
      · simp
      · exact hc

/-- Looking ahead finds the same atoms as the scan. -/
theorem Scans.atoms_eq {cs : List Char} {as : List Atom} (h : Scans cs as) :
    atoms none cs = as := by
  induction h with
  | nil => rfl
  | @char c cs as hopen hrest ih =>
      rw [atoms, ih]
      rintro rest rfl rfl
      exact hopen rfl rfl
  | unclosed hclose => exact atoms_unclosed hclose []
  | braces hinside hrest ih =>
      rw [atoms, atoms_closed hinside, ih]
      rfl

theorem scans_none (cs : List Char) : Scans cs (atoms none cs) :=
  scans_atoms none cs (by simp)

/-- Braces hold a path, or they are text. -/
theorem braces_cases (inside : List Char) :
    (∃ p, Path.ofChars? inside = some p ∧ braces inside = [.ref p]) ∨
      braces inside = plain ('$' :: '{' :: (inside ++ ['}'])) := by
  unfold braces
  cases hpath : Path.ofChars? inside with
  | none => exact Or.inr rfl
  | some p => exact Or.inl ⟨p, rfl, rfl⟩

/-! ### Texts hold no reference -/

/-- The characters before the first reference. -/
def leading : List Atom → List Char
  | .char c :: as => c :: leading as
  | _ => []

theorem leading_plain_append (cs : List Char) (as : List Atom) :
    leading (plain cs ++ as) = cs ++ leading as := by
  induction cs with
  | nil => rfl
  | cons c cs ih => exact congrArg (c :: ·) ih

theorem leading_plain (cs : List Char) : leading (plain cs) = cs := by
  calc leading (plain cs) = leading (plain cs ++ []) := by rw [List.append_nil]
    _ = cs ++ [] := leading_plain_append cs []
    _ = cs := List.append_nil cs

theorem Scans.head?_leading {cs : List Char} {as : List Atom} (h : Scans cs as) {c : Char}
    (hc : (leading as).head? = some c) : cs.head? = some c := by
  cases h with
  | nil => cases hc
  | char hopen hrest => exact hc
  | unclosed hclose => rwa [leading_plain] at hc
  | @braces inside cs as hinside hrest =>
      rcases braces_cases inside with ⟨p, -, hbraces⟩ | hbraces
      · rw [hbraces] at hc
        cases hc
      · rw [hbraces, leading_plain_append] at hc
        exact hc

/-- The characters before the first reference are text when they stand alone. -/
theorem Scans.leading {cs : List Char} {as : List Atom} (h : Scans cs as) :
    Scans (leading as) (plain (leading as)) := by
  induction h with
  | nil => exact .nil
  | char hopen hrest ih => exact .char (fun hc hhead => hopen hc (hrest.head?_leading hhead)) ih
  | unclosed hclose =>
      rw [leading_plain]
      exact .unclosed hclose
  | @braces inside cs as hinside hrest ih =>
      rcases braces_cases inside with ⟨p, -, hbraces⟩ | hbraces
      · rw [hbraces]
        exact .nil
      · have hgroup := Scans.braces hinside ih
        rw [hbraces] at hgroup ⊢
        rw [leading_plain_append]
        simpa [plain] using hgroup

theorem gather_plain (run cs : List Char) (as : List Atom) :
    gather run (plain cs ++ as) = gather (cs.reverse ++ run) as :=
  Text.gather_map (f := Atom.char) (fun _ => rfl) run cs as

/-- Every text among the segments is what stands before the first reference, either of these
atoms or of those after a reference. -/
theorem Scans.exists_leading {cs : List Char} {as : List Atom} (h : Scans cs as)
    {run : List Char} {s : String} (hs : .text s ∈ gather run as) :
    s.toList = run.reverse ++ Segment.leading as ∨
      ∃ ds bs, Scans ds bs ∧ s.toList = Segment.leading bs := by
  induction h generalizing run with
  | nil =>
      refine Or.inl ?_
      rw [(eq_of_mem_flush hs).1]
      exact (List.append_nil _).symm
  | @char c cs as hopen hrest ih =>
      rcases ih hs with heq | hlater
      · refine Or.inl ?_
        rw [heq, List.reverse_cons, List.append_assoc]
        rfl
      · exact Or.inr hlater
  | @unclosed cs hclose =>
      rw [← List.append_nil (plain _), gather_plain] at hs
      refine Or.inl ?_
      rw [(eq_of_mem_flush hs).1, leading_plain, List.reverse_append, List.reverse_reverse]
  | @braces inside cs as hinside hrest ih =>
      rcases braces_cases inside with ⟨p, -, hbraces⟩ | hbraces
      · rw [hbraces] at hs ⊢
        rcases text_mem_gather_ref hs with hs | hs
        · refine Or.inl ?_
          rw [(eq_of_mem_flush hs).1]
          exact (List.append_nil _).symm
        · rcases ih hs with heq | hlater
          · exact Or.inr ⟨cs, as, hrest, heq⟩
          · exact Or.inr hlater
      · rw [hbraces, gather_plain] at hs
        rw [hbraces, leading_plain_append]
        rcases ih hs with heq | hlater
        · refine Or.inl ?_
          rw [heq, List.reverse_append, List.reverse_reverse, List.append_assoc]
        · exact Or.inr hlater

theorem ne_empty_of_mem_gather {run : List Char} {as : List Atom} {s : String}
    (h : .text s ∈ gather run as) : s ≠ "" := by
  induction as generalizing run with
  | nil => exact (eq_of_mem_flush h).2
  | cons a as ih =>
      cases a with
      | char c => exact ih h
      | ref p =>
          rcases text_mem_gather_ref h with h | h
          · exact (eq_of_mem_flush h).2
          · exact ih h

/-- A text among the segments is its own only segment. -/
theorem scan_of_text_mem {raw s : String} (h : .text s ∈ scan raw) : scan s = [.text s] := by
  have hscans : Scans s.toList (plain s.toList) := by
    rcases (scans_none raw.toList).exists_leading h with heq | ⟨ds, bs, hbs, heq⟩
    · rw [List.reverse_nil, List.nil_append] at heq
      rw [heq]
      exact (scans_none raw.toList).leading
    · rw [heq]
      exact hbs.leading
  have hne : s.toList ≠ [] := by
    intro hnil
    exact ne_empty_of_mem_gather h (String.toList_inj.mp hnil)
  have hgather := gather_plain [] s.toList []
  rw [List.append_nil, List.append_nil] at hgather
  rw [scan, scanChars, hscans.atoms_eq, hgather, gather_nil, Text.flush,
    if_neg (by simpa using hne), List.reverse_reverse, String.ofList_toList]

/-! ### Writing the segments -/

/-- The segments in writing: texts as they are, references to their paths. -/
def written (segments : List Segment) : String :=
  meaning Path.reference segments

/-- Characters stand for themselves whatever is stored. -/
theorem flatMap_value_plain (store : Path → String) (cs : List Char) :
    (plain cs).flatMap (Atom.value store) = cs := by
  induction cs with
  | nil => rfl
  | cons c cs ih =>
      show c :: (plain cs).flatMap (Atom.value store) = c :: cs
      rw [ih]

theorem value_reference (p : Path) :
    Atom.value Path.reference (.ref p) = '$' :: '{' :: (p.text.toList ++ ['}']) := by
  show p.reference.toList = _
  rw [Path.reference, String.toList_append, String.toList_append]
  rfl

/-- The atoms in writing start as the text does. -/
theorem Scans.head?_written {cs : List Char} {as : List Atom} (h : Scans cs as) :
    (as.flatMap (Atom.value Path.reference)).head? = cs.head? := by
  cases h with
  | nil => rfl
  | char hopen hrest => rfl
  | unclosed hclose => rw [flatMap_value_plain]
  | @braces inside cs as hinside hrest =>
      rcases braces_cases inside with ⟨p, -, hbraces⟩ | hbraces
      · rw [hbraces, List.singleton_append, List.flatMap_cons, value_reference]
        rfl
      · rw [hbraces, List.flatMap_append, flatMap_value_plain]
        rfl

/-- The atoms in writing have the same atoms. -/
theorem Scans.written {cs : List Char} {as : List Atom} (h : Scans cs as) :
    Scans (as.flatMap (Atom.value Path.reference)) as := by
  induction h with
  | nil => exact .nil
  | char hopen hrest ih =>
      refine .char (fun hc hhead => hopen hc ?_) ih
      rw [← hrest.head?_written]
      exact hhead
  | unclosed hclose =>
      rw [flatMap_value_plain]
      exact .unclosed hclose
  | @braces inside cs as hinside hrest ih =>
      rcases braces_cases inside with ⟨p, hpath, hbraces⟩ | hbraces
      · -- The braces now hold the path in writing, which is read as the same path.
        have hclose : '}' ∉ p.text.toList := by
          intro hmem
          rcases Path.mem_of_mem_text hpath hmem with hdot | hmem
          · exact absurd hdot (by decide)
          · exact hinside hmem
        have hsame : Segment.braces p.text.toList = [.ref p] := by
          rw [Segment.braces, Path.ofChars?_text hpath]
        have hgroup := Scans.braces hclose ih
        rw [hsame] at hgroup
        rw [hbraces, List.singleton_append, List.flatMap_cons, value_reference]
        simpa using hgroup
      · have hgroup := Scans.braces hinside ih
        rw [hbraces] at hgroup ⊢
        rw [List.flatMap_append, flatMap_value_plain]
        simpa using hgroup

theorem scan_written (raw : String) : scan (written (scan raw)) = scan raw := by
  have hchars : (written (scan raw)).toList
      = (atoms none raw.toList).flatMap (Atom.value Path.reference) := by
    rw [written, scan, scanChars, toList_meaning_gather]
    rfl
  rw [scan, scanChars, hchars, (scans_none raw.toList).written.atoms_eq]
  rfl

/-! ### Slices -/

/-- The part of a text that a segment can stand for. -/
def Slice : Segment → String → Prop
  | .text s, slice => slice = s
  | .ref p, slice => p.Braced slice

theorem exists_slices_flush (run : List Char) :
    ∃ slices, List.Forall₂ Slice (Text.flush text run) slices ∧
      (String.join slices).toList = run.reverse := by
  unfold Text.flush
  by_cases hrun : run.isEmpty = true
  · rw [if_pos hrun, List.isEmpty_iff.mp hrun]
    exact ⟨[], .nil, rfl⟩
  · rw [if_neg hrun]
    refine ⟨[String.ofList run.reverse], .cons rfl .nil, ?_⟩
    simp

/-- Segments stand for parts that make up the text of their atoms. -/
theorem Spells.exists_slices {as : List Atom} {cs : List Char} (h : Spells as cs)
    (run : List Char) :
    ∃ slices, List.Forall₂ Slice (gather run as) slices ∧
      (String.join slices).toList = run.reverse ++ cs := by
  induction h generalizing run with
  | nil =>
      rw [List.append_nil]
      exact exists_slices_flush run
  | @char c as cs hrest ih =>
      obtain ⟨slices, hslices, hjoin⟩ := ih (c :: run)
      refine ⟨slices, hslices, ?_⟩
      rw [hjoin, List.reverse_cons, List.append_assoc]
      rfl
  | @ref p inside cs as hinside hpath hrest ih =>
      obtain ⟨before, hbefore, hbeforeJoin⟩ := exists_slices_flush run
      obtain ⟨after, hafter, hafterJoin⟩ := ih []
      have hbraced : p.Braced ("$\x7b" ++ String.ofList inside ++ "\x7d") := by
        refine ⟨String.ofList inside, ?_, ?_, rfl⟩
        · rwa [String.toList_ofList]
        · rwa [Path.parse?, String.toList_ofList]
      refine ⟨before ++ _ :: after, List.rel_append hbefore (.cons hbraced hafter), ?_⟩
      rw [String.toList_join] at hbeforeJoin hafterJoin ⊢
      rw [List.flatMap_append, List.flatMap_cons, hbeforeJoin, hafterJoin]
      simp

/-- A text is made up, in order, of one part for each of its segments. -/
theorem exists_slices (raw : String) :
    ∃ slices, List.Forall₂ Slice (scan raw) slices ∧ String.join slices = raw := by
  obtain ⟨slices, hslices, hjoin⟩ :=
    (spells_atoms none raw.toList (by simp)).exists_slices []
  exact ⟨slices, hslices, String.toList_inj.mp hjoin⟩

/-- **The cut of a field text is faithful.**  No text is empty and no two texts meet; the
parts that the segments stand for make up the field text; a text on its own is one text; and
the segments in writing are cut into the same segments. -/
theorem scan_is_faithful (raw : String) :
    (∀ s, .text s ∈ scan raw → s ≠ "") ∧
      (scan raw).IsChain Apart ∧
      (∃ slices, List.Forall₂ Slice (scan raw) slices ∧ String.join slices = raw) ∧
      (∀ s, .text s ∈ scan raw → scan s = [.text s]) ∧
      scan (written (scan raw)) = scan raw := by
  refine ⟨?_, isChain_gather [] _, exists_slices raw, ?_, scan_written raw⟩
  · intro s hs
    exact ne_empty_of_mem_gather hs
  · intro s hs
    exact scan_of_text_mem hs

/-- Braces in braces, braces without a name, an unclosed pair and a dollar sign at a seam. -/
example :
    scan "$$\x7b a . b\x7d$\x7b \x7d$\x7b$\x7bc\x7d\x7d$\x7bd"
      = [.text "$", .ref ⟨"a", ["b"]⟩, .text "$\x7b \x7d", .ref ⟨"$\x7bc", []⟩,
        .text "\x7d$\x7bd"] := by
  decide +kernel

end Segment

end FlowSuite

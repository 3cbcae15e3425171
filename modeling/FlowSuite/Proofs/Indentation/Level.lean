/-
Moving code further in.

A walk that starts further in writes the same text, moved: every line has so many more
blanks in front of it, and an empty line stays empty.  This is not said line by line of
what each step writes.  Everything that is written comes from lines that know their depth
only, and a line with line feeds in it becomes several lines of the file, each indented on
its own; so the text of any lines is a sequence of lines of the file, none of them with a
line feed inside, and the level adds to the blanks of each.

Lines of a text are here the pieces between its line feeds, the last of them the one after
the final line feed.
-/
import FlowSuite.Proofs.Indentation.OneLine
import FlowSuite.Proofs.Recording

namespace FlowSuite

namespace Text

/-! ### Texts as lines -/

/-- Lines one after the other, each ended by a line feed. -/
def lined (ls : List (List Char)) : List Char :=
  ls.flatMap (· ++ ['\n'])

/-- A line with blanks in front; an empty one stays empty. -/
def indentLine (blanks : Nat) (l : List Char) : List Char :=
  if l.isEmpty then [] else List.replicate blanks ' ' ++ l

/-- A text with blanks in front of every line that is not empty. -/
def indent (blanks : Nat) (s : String) : String :=
  String.ofList (['\n'].intercalate ((s.toList.splitOn '\n').map (indentLine blanks)))

theorem lined_eq_intercalate (ls : List (List Char)) :
    lined ls = ['\n'].intercalate (ls ++ [[]]) := by
  induction ls with
  | nil => rfl
  | cons l ls ih =>
      rw [lined, List.flatMap_cons, ← lined, ih]
      cases ls with
      | nil => simp
      | cons l' ls => simp only [List.cons_append, List.intercalate_cons_cons]

theorem indentLine_indentLine (blanks blanks' : Nat) (l : List Char) :
    indentLine blanks (indentLine blanks' l) = indentLine (blanks + blanks') l := by
  cases l with
  | nil => rfl
  | cons c cs => simp [indentLine, ← List.append_assoc]

theorem newline_notMem_indentLine {l : List Char} (blanks : Nat) (h : '\n' ∉ l) :
    '\n' ∉ indentLine blanks l := by
  unfold indentLine
  split
  · exact List.not_mem_nil
  · simp [h]

/-- Lines that have no line feed inside are the lines of their text. -/
theorem splitOn_lined {ls : List (List Char)} (h : ∀ l ∈ ls, '\n' ∉ l) :
    (lined ls).splitOn '\n' = ls ++ [[]] := by
  have hpieces : ∀ l ∈ ls ++ [[]], '\n' ∉ l := by
    intro l hl
    rcases List.mem_append.mp hl with hl | hl
    · exact h l hl
    · rw [List.mem_singleton.mp hl]
      exact List.not_mem_nil
  rw [lined_eq_intercalate]
  exact List.splitOn_intercalate '\n' hpieces (by simp)

theorem indent_lined (blanks : Nat) {ls : List (List Char)} (h : ∀ l ∈ ls, '\n' ∉ l) :
    indent blanks (String.ofList (lined ls))
      = String.ofList (lined (ls.map (indentLine blanks))) := by
  rw [indent, String.toList_ofList, splitOn_lined h, lined_eq_intercalate, List.map_append]
  rfl

theorem getLast?_lined (ls : List (List Char)) :
    lined ls = [] ∨ (lined ls).getLast? = some '\n' := by
  rcases List.eq_nil_or_concat ls with rfl | ⟨front, l, rfl⟩
  · exact Or.inl rfl
  · refine Or.inr ?_
    simp [lined]

end Text

/-! ### The lines of a file -/

namespace Line

/-- The lines of the file that a line becomes, in a block at a level of indentation. -/
def inFile (level : Nat) (l : Line) : List (List Char) :=
  (if l.text.isEmpty then [[]] else Text.splitLines l.text.toList).map
    (Text.indentLine (4 * (level + l.depth)))

theorem toList_part (level : Nat) (l : List Char) :
    (part level (String.ofList l)).toList = Text.indentLine (4 * level) l ++ ['\n'] := by
  cases l with
  | nil => simp [part, Text.indentLine]
  | cons c cs => simp [part, Text.indentLine, indentation]

theorem toList_render (level : Nat) (l : Line) :
    (l.render level).toList = Text.lined (l.inFile level) := by
  unfold render inFile
  split
  · rfl
  · rw [String.toList_join, Text.lines, List.map_map, List.flatMap_map, Text.lined,
      List.flatMap_map]
    congr 1
    funext piece
    exact toList_part _ piece

theorem toList_renderAll (level : Nat) (ls : List Line) :
    (renderAll level ls).toList = Text.lined (ls.flatMap (inFile level)) := by
  rw [renderAll, String.toList_join, List.flatMap_map, Text.lined, List.flatMap_assoc]
  congr 1
  funext l
  exact toList_render level l

theorem newline_notMem_inFile {level : Nat} {ls : List Line} {l : List Char}
    (h : l ∈ ls.flatMap (inFile level)) : '\n' ∉ l := by
  obtain ⟨written, -, h⟩ := List.mem_flatMap.mp h
  obtain ⟨piece, hpiece, rfl⟩ := List.mem_map.mp h
  apply Text.newline_notMem_indentLine
  split at hpiece
  · rw [List.mem_singleton.mp hpiece]
    exact List.not_mem_nil
  · exact Text.newline_notMem_of_mem_splitLines hpiece

/-- The level adds to the blanks of every line of the file. -/
theorem inFile_add (level depth : Nat) (l : Line) :
    l.inFile (level + depth) = (l.inFile level).map (Text.indentLine (4 * depth)) := by
  have hblanks : 4 * (level + depth + l.depth) = 4 * depth + 4 * (level + l.depth) := by omega
  rw [inFile, inFile, List.map_map, hblanks]
  congr 1
  funext piece
  exact (Text.indentLine_indentLine _ _ piece).symm

/-- Lines that are put further in make the same text, indented. -/
theorem renderAll_add (level depth : Nat) (ls : List Line) :
    renderAll (level + depth) ls = Text.indent (4 * depth) (renderAll level ls) := by
  have htext : renderAll level ls = String.ofList (Text.lined (ls.flatMap (inFile level))) := by
    rw [← toList_renderAll, String.ofList_toList]
  have hlines : ls.flatMap (inFile (level + depth))
      = (ls.flatMap (inFile level)).map (Text.indentLine (4 * depth)) := by
    rw [List.map_flatMap]
    congr 1
    funext l
    exact inFile_add level depth l
  rw [htext, Text.indent_lined _ fun l hl => newline_notMem_inFile hl, ← hlines,
    ← toList_renderAll, String.ofList_toList]

end Line

/-- The steps from a root on, written at a level of indentation. -/
def Flow.recordAt (g : Flow) (t : Target) (root : Node) (level : Nat) : StateM Log String :=
  g.record t (root.id :: g.ids) level root {} true

/-- **Writing commutes with indentation.**  A walk that starts further in writes the text of
the other one with that much more in front of every line that is not empty, and adds the same
steps and problems to the log; the text is empty or ends with a line feed.  It is the text of
the script from the root on. -/
theorem record_commutes_with_indentation (g : Flow) (t : Target) (root : Node)
    (level depth : Nat) (log : Log) :
    ∃ (text : String) (after : Log),
      (g.recordAt t root level).run log = (text, after) ∧
      (g.recordAt t root (level + depth)).run log = (Text.indent (4 * depth) text, after) ∧
      (text = "" ∨ text.toList.getLast? = some '\n') ∧
      text = (g.script root).text t level ∧ after = log.add t (g.script root) := by
  have hrun : ∀ level, (g.recordAt t root level).run log
      = ((g.script root).text t level, log.add t (g.script root)) :=
    fun level => writes_record g t (root.id :: g.ids) level root {} true log
  refine ⟨(g.script root).text t level, log.add t (g.script root), hrun level, ?_, ?_, rfl, rfl⟩
  · rw [hrun (level + depth), Script.text, Line.renderAll_add, Script.text]
  · rw [Script.text, ← String.toList_inj, Line.toList_renderAll]
    exact Text.getLast?_lined _

end FlowSuite

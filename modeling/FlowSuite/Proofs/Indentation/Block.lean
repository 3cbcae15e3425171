/-
Blocks of Python.

Python tells by indentation where a block ends.  A block is a sequence of statements, all
indented alike.  A statement is a line, or a header with a block further in; the header of
a choice has a second block under an `else:`, and that of an attempt has one under an
`except`.  A block must hold something to run, so comments alone do not make one.

`Block` says this of lines as they stand in a file.  Code is written as lines that do not
know yet where their block will stand, so `Code` says of those that they make a block
wherever they are put.  It is closed under everything that code is built with: single
lines, one piece after another, and the compound statements.
-/
import FlowSuite.Proofs.Indentation.OneLine

namespace FlowSuite

namespace Python

/-! ### Lines -/

/-- Whether a line starts with a word and ends with a colon. -/
def opens (word text : String) : Bool :=
  Text.startsWith text word && text.toList.getLast? == some ':'

/-- The header of a statement with one block.  The only test without an `else:` is the one
that ends a loop. -/
def isNest (text : String) : Bool :=
  opens "for " text || text == "while True:" || opens "with " text || opens "if not " text

/-- The header of a choice. -/
def isFork (text : String) : Bool :=
  opens "if " text && !opens "if not " text

/-- The header of what is done when an attempt fails. -/
def isHandler (text : String) : Bool :=
  opens "except " text

/-- Any header. -/
def isHeader (text : String) : Bool :=
  isNest text || isFork text || text == "else:" || text == "try:" || isHandler text

/-- Whether a line of a file is a comment. -/
def isComment (l : String) : Bool :=
  (l.toList.dropWhile (· == ' ')).head? == some '#'

/-- A line that is no header and brings no indentation of its own. -/
structure IsPlain (text : String) : Prop where
  flush : ∃ c, text.toList.head? = some c ∧ Text.isBlank c = false
  not_header : isHeader text = false

/-! ### Headers -/

theorem opens_around {word before after : String} (text : String)
    (hbefore : Text.startsWith before word = true) (hafter : after.toList.getLast? = some ':') :
    opens word (before ++ text ++ after) = true := by
  have hstarts : Text.startsWith (before ++ text ++ after) word = true :=
    Text.startsWith_append _ (Text.startsWith_append _ hbefore)
  have hlast : (before ++ text ++ after).toList.getLast? = some ':' := by
    rw [String.toList_append, List.getLast?_append, hafter, Option.some_or]
  rw [opens, hstarts, hlast]
  rfl

theorem isNest_of_opens {word text : String} (hword : word ∈ ["for ", "with ", "if not "])
    (h : opens word text = true) : isNest text = true := by
  simp only [List.mem_cons, List.not_mem_nil, or_false] at hword
  rcases hword with rfl | rfl | rfl <;> simp [isNest, h]

/-- A test that does not start with an `n` is that of a choice. -/
theorem isFork_around {test : String} (h : test.toList.head? ≠ some 'n') :
    isFork ("if " ++ test ++ ":") = true := by
  have hif : opens "if " ("if " ++ test ++ ":") = true :=
    opens_around test (by decide) (by decide)
  have hnot : Text.startsWith ("if " ++ test ++ ":") "if not " = false := by
    cases hcs : test.toList with
    | nil => simp [Text.startsWith, hcs, List.isPrefixOf]
    | cons c cs =>
        have hc : 'n' ≠ c := by
          rintro rfl
          exact h (by rw [hcs]; rfl)
        simp [Text.startsWith, hcs, hc, List.isPrefixOf]
  rw [isFork, hif, opens, hnot]
  rfl

/-- What a header can start with. -/
def headerWords : List String :=
  ["for ", "while True:", "with ", "if not ", "if ", "else:", "try:", "except "]

theorem exists_opens {text : String} (h : isHeader text = true) :
    ∃ word ∈ headerWords, opens word text = true := by
  simp only [isHeader, isNest, isFork, isHandler, Bool.or_eq_true, Bool.and_eq_true,
    beq_iff_eq] at h
  rcases h with ((((((h | rfl) | h) | h) | h) | rfl) | rfl) | h
  · exact ⟨"for ", by decide, h⟩
  · exact ⟨"while True:", by decide, by decide⟩
  · exact ⟨"with ", by decide, h⟩
  · exact ⟨"if not ", by decide, h⟩
  · exact ⟨"if ", by decide, h.1⟩
  · exact ⟨"else:", by decide, by decide⟩
  · exact ⟨"try:", by decide, by decide⟩
  · exact ⟨"except ", by decide, h⟩

theorem getLast?_of_isHeader {text : String} (h : isHeader text = true) :
    text.toList.getLast? = some ':' := by
  obtain ⟨word, -, hopens⟩ := exists_opens h
  simp only [opens, Bool.and_eq_true, beq_iff_eq] at hopens
  exact hopens.2

/-! ### Blocks -/

/-- Whether there is something to run. -/
def HasCode (ls : List String) : Prop :=
  ∃ l ∈ ls, isComment l = false

/-- Lines of a file that are statements at a level of indentation. -/
inductive Block : Nat → List String → Prop where
  | nil {level : Nat} : Block level []
  | plain {level : Nat} {text : String} {rest : List String} (htext : IsPlain text)
      (hrest : Block level rest) : Block level ((indentation level ++ text) :: rest)
  | nest {level : Nat} {head : String} {body rest : List String} (hhead : isNest head = true)
      (hbody : Block (level + 1) body) (hcode : HasCode body) (hrest : Block level rest) :
      Block level ((indentation level ++ head) :: (body ++ rest))
  | fork {level : Nat} {head : String} {yes no rest : List String} (hhead : isFork head = true)
      (hyes : Block (level + 1) yes) (hyesCode : HasCode yes) (hno : Block (level + 1) no)
      (hnoCode : HasCode no) (hrest : Block level rest) :
      Block level ((indentation level ++ head) :: (yes ++
        (indentation level ++ "else:") :: (no ++ rest)))
  | attempt {level : Nat} {head : String} {body handler rest : List String}
      (hbody : Block (level + 1) body) (hbodyCode : HasCode body) (hhead : isHandler head = true)
      (hhandler : Block (level + 1) handler) (hhandlerCode : HasCode handler)
      (hrest : Block level rest) :
      Block level ((indentation level ++ "try:") :: (body ++
        (indentation level ++ head) :: (handler ++ rest)))

theorem Block.append {level : Nat} {ls ls' : List String} (h : Block level ls)
    (h' : Block level ls') : Block level (ls ++ ls') := by
  induction h with
  | nil => exact h'
  | plain htext hrest ih => exact .plain htext (ih h')
  | nest hhead hbody hcode hrest ihbody ih =>
      rw [List.cons_append, List.append_assoc]
      exact .nest hhead hbody hcode (ih h')
  | fork hhead hyes hyesCode hno hnoCode hrest ihyes ihno ih =>
      rw [List.cons_append, List.append_assoc, List.cons_append, List.append_assoc]
      exact .fork hhead hyes hyesCode hno hnoCode (ih h')
  | attempt hbody hbodyCode hhead hhandler hhandlerCode hrest ihbody ihhandler ih =>
      rw [List.cons_append, List.append_assoc, List.cons_append, List.append_assoc]
      exact .attempt hbody hbodyCode hhead hhandler hhandlerCode (ih h')

/-! ### Lines that are statements by how they start -/

/-- The first three characters of the words of headers, which are enough to tell. -/
def headerStarts : List (List Char) :=
  [['f', 'o', 'r'], ['w', 'h', 'i'], ['w', 'i', 't'], ['i', 'f', ' '], ['e', 'l', 's'],
    ['t', 'r', 'y'], ['e', 'x', 'c']]

theorem exists_headerStart {text : String} (h : isHeader text = true) :
    ∃ start ∈ headerStarts, start <+: text.toList := by
  have hshort : ∀ word ∈ headerWords, ∃ start ∈ headerStarts, start <+: word.toList := by decide
  obtain ⟨word, hmem, hopens⟩ := exists_opens h
  obtain ⟨start, hstart, hword⟩ := hshort word hmem
  have htext : word.toList <+: text.toList := by
    rw [← List.isPrefixOf_iff_prefix]
    exact (Bool.and_eq_true_iff.mp hopens).1
  exact ⟨start, hstart, hword.trans htext⟩

/-- A text with which a line can start that is no header, whatever follows. -/
structure IsStart (text : String) : Prop where
  flush : ∃ c, text.toList.head? = some c ∧ Text.isBlank c = false
  apart : ∀ start ∈ headerStarts, ¬start <+: text.toList ∧ ¬text.toList <+: start
  oneLine : Text.OneLine text

/-- The same as a test. -/
def isStart (cs : List Char) : Bool :=
  cs.head?.any (!Text.isBlank ·) &&
    headerStarts.all (fun start => !start.isPrefixOf cs && !cs.isPrefixOf start) &&
    cs.all (· != '\n')

theorem IsStart.of {cs : List Char} (h : isStart cs = true) : IsStart (String.ofList cs) := by
  simp only [isStart, Bool.and_eq_true] at h
  obtain ⟨⟨hflush, hapart⟩, honeLine⟩ := h
  refine ⟨?_, ?_, .of ?_⟩
  · rw [String.toList_ofList]
    cases hhead : cs.head? with
    | none => simp [hhead] at hflush
    | some c => exact ⟨c, rfl, by simpa [hhead] using hflush⟩
  · intro start hstart
    have hboth := List.all_eq_true.mp hapart start hstart
    rw [String.toList_ofList]
    simpa [← List.isPrefixOf_iff_prefix] using hboth
  · intro hmem
    exact absurd (List.all_eq_true.mp honeLine _ hmem) (by decide)

theorem IsStart.append {text rest : String} (h : IsStart text) (hrest : Text.OneLine rest) :
    IsStart (text ++ rest) := by
  have hlonger : text.toList <+: (text ++ rest).toList := by
    rw [String.toList_append]
    exact List.prefix_append _ _
  refine ⟨?_, ?_, h.oneLine.append hrest⟩
  · obtain ⟨c, hhead, hblank⟩ := h.flush
    refine ⟨c, ?_, hblank⟩
    rw [String.toList_append, List.head?_append, hhead, Option.some_or]
  · intro start hstart
    obtain ⟨hstarts, hshort⟩ := h.apart start hstart
    refine ⟨?_, fun hle => hshort (hlonger.trans hle)⟩
    intro hle
    rcases List.prefix_or_prefix_of_prefix hle hlonger with hle | hle
    · exact hstarts hle
    · exact hshort hle

theorem IsStart.around {before after : List Char} {text : String} (hbefore : isStart before = true)
    (htext : Text.OneLine text) (hafter : '\n' ∉ after) :
    IsStart (String.ofList before ++ text ++ String.ofList after) :=
  ((IsStart.of hbefore).append htext).append (.of hafter)

theorem IsStart.isPlain {text : String} (h : IsStart text) : IsPlain text := by
  refine ⟨h.flush, ?_⟩
  rw [← Bool.not_eq_true]
  intro hheader
  obtain ⟨start, hstart, hstarts⟩ := exists_headerStart hheader
  exact (h.apart start hstart).1 hstarts

end Python

/-! ### Lines that become blocks -/

/-- The line as it stands in a file, in a block at a level of indentation. -/
def Line.indented (level : Nat) (l : Line) : String :=
  indentation (level + l.depth) ++ l.text

theorem Line.indented_shift (level depth : Nat) (l : Line) :
    (l.shift depth).indented level = l.indented (level + depth) := by
  simp only [indented, shift, Nat.add_assoc, Nat.add_comm depth]

theorem map_indented_shift (level depth : Nat) (ls : List Line) :
    (shift depth ls).map (Line.indented level) = ls.map (Line.indented (level + depth)) := by
  simp [shift, Function.comp_def, Line.indented_shift]

namespace Python

/-- Whether a line is something to run, by its first character. -/
def isCode (text : String) : Bool :=
  text.toList.head?.any fun c => c != ' ' && c != '#'

theorem isCode_of {cs : List Char} (h : cs.head?.any (fun c => c != ' ' && c != '#') = true) :
    isCode (String.ofList cs) = true := by
  rwa [isCode, String.toList_ofList]

theorem isCode_append {text : String} (h : isCode text = true) (rest : String) :
    isCode (text ++ rest) = true := by
  unfold isCode at h ⊢
  cases hhead : text.toList.head? with
  | none => simp [hhead] at h
  | some c =>
      rw [String.toList_append, List.head?_append, hhead, Option.some_or]
      rwa [hhead] at h

theorem isCode_around {before : List Char}
    (h : before.head?.any (fun c => c != ' ' && c != '#') = true) (text after : String) :
    isCode (String.ofList before ++ text ++ after) = true :=
  isCode_append (isCode_append (isCode_of h) text) after

theorem isComment_indented {l : Line} (h : isCode l.text = true) (level : Nat) :
    isComment (l.indented level) = false := by
  cases hcs : l.text.toList with
  | nil => simp [isCode, hcs] at h
  | cons c cs =>
      obtain ⟨hblank, hsign⟩ : c ≠ ' ' ∧ c ≠ '#' := by simpa [isCode, hcs] using h
      have hdrop : (l.indented level).toList.dropWhile (· == ' ') = c :: cs := by
        rw [Line.indented, String.toList_append, hcs, indentation, String.toList_ofList,
          List.dropWhile_append_of_pos (by simp),
          List.dropWhile_cons_of_neg (by simpa using hblank)]
      rw [isComment, hdrop]
      simpa using hsign

theorem hasCode_map_indented {ls : List Line} (h : ∃ l ∈ ls, isCode l.text = true)
    (level : Nat) : HasCode (ls.map (Line.indented level)) := by
  obtain ⟨l, hl, hcode⟩ := h
  exact ⟨_, List.mem_map_of_mem hl, isComment_indented hcode level⟩

/-- Lines that make a block, wherever it is put. -/
structure Code (ls : List Line) : Prop where
  oneLine : ∀ l ∈ ls, l.text ≠ "" ∧ Text.OneLine l.text
  block : ∀ level, Block level (ls.map (Line.indented level))

/-- Code with something to run. -/
structure Body (ls : List Line) : Prop extends Code ls where
  hasCode : ∃ l ∈ ls, isCode l.text = true

namespace Code

theorem nil : Code [] := ⟨by simp, fun _ => .nil⟩

theorem append {ls ls' : List Line} (h : Code ls) (h' : Code ls') : Code (ls ++ ls') := by
  refine ⟨?_, ?_⟩
  · intro l hl
    rcases List.mem_append.mp hl with hl | hl
    · exact h.oneLine l hl
    · exact h'.oneLine l hl
  · intro level
    rw [List.map_append]
    exact (h.block level).append (h'.block level)

theorem cons_of_isPlain {text : String} {ls : List Line} (htext : IsPlain text)
    (honeLine : Text.OneLine text) (h : Code ls) : Code (line text :: ls) := by
  have hne : text ≠ "" := by
    rintro rfl
    obtain ⟨c, hhead, -⟩ := htext.flush
    cases hhead
  refine ⟨?_, ?_⟩
  · intro l hl
    rcases List.mem_cons.mp hl with rfl | hl
    · exact ⟨hne, honeLine⟩
    · exact h.oneLine l hl
  · intro level
    exact .plain htext (h.block level)

theorem cons {text : String} {ls : List Line} (htext : IsStart text) (h : Code ls) :
    Code (line text :: ls) :=
  h.cons_of_isPlain htext.isPlain htext.oneLine

/-- The texts of a block do not change when it is moved. -/
theorem oneLine_shift {ls : List Line} (h : Code ls) (depth : Nat) :
    ∀ l ∈ shift depth ls, l.text ≠ "" ∧ Text.OneLine l.text := by
  intro l hl
  obtain ⟨l', hl', rfl⟩ := List.mem_map.mp hl
  exact h.oneLine l' hl'

theorem nest (head : String) (body : List Line) (hhead : isNest head = true)
    (honeLine : Text.OneLine head) (h : Body body) : Code (line head :: shift 1 body) := by
  refine ⟨?_, ?_⟩
  · intro l hl
    rcases List.mem_cons.mp hl with rfl | hl
    · exact ⟨by rintro rfl; exact absurd hhead (by decide), honeLine⟩
    · exact h.oneLine_shift 1 l hl
  · intro level
    have hblock : Block level (_ :: (_ ++ [])) :=
      .nest hhead (h.block (level + 1)) (hasCode_map_indented h.hasCode (level + 1)) .nil
    rw [List.append_nil] at hblock
    rw [List.map_cons, map_indented_shift]
    exact hblock

theorem fork (head : String) (yes no : List Line) (hhead : isFork head = true)
    (honeLine : Text.OneLine head) (hyes : Body yes) (hno : Body no) :
    Code (line head :: (shift 1 yes ++ line "else:" :: shift 1 no)) := by
  refine ⟨?_, ?_⟩
  · intro l hl
    rcases List.mem_cons.mp hl with rfl | hl
    · exact ⟨by rintro rfl; exact absurd hhead (by decide), honeLine⟩
    rcases List.mem_append.mp hl with hl | hl
    · exact hyes.oneLine_shift 1 l hl
    rcases List.mem_cons.mp hl with rfl | hl
    · exact ⟨by decide, by decide⟩
    · exact hno.oneLine_shift 1 l hl
  · intro level
    have hblock : Block level (_ :: (_ ++ _ :: (_ ++ []))) :=
      .fork hhead (hyes.block (level + 1)) (hasCode_map_indented hyes.hasCode (level + 1))
        (hno.block (level + 1)) (hasCode_map_indented hno.hasCode (level + 1)) .nil
    rw [List.append_nil] at hblock
    rw [List.map_cons, List.map_append, List.map_cons, map_indented_shift, map_indented_shift]
    exact hblock

theorem attempt (body : List Line) (head : String) (handler : List Line) (hbody : Body body)
    (hhead : isHandler head = true) (honeLine : Text.OneLine head) (hhandler : Body handler) :
    Code (line "try:" :: (shift 1 body ++ line head :: shift 1 handler)) := by
  refine ⟨?_, ?_⟩
  · intro l hl
    rcases List.mem_cons.mp hl with rfl | hl
    · exact ⟨by decide, by decide⟩
    rcases List.mem_append.mp hl with hl | hl
    · exact hbody.oneLine_shift 1 l hl
    rcases List.mem_cons.mp hl with rfl | hl
    · exact ⟨by rintro rfl; exact absurd hhead (by decide), honeLine⟩
    · exact hhandler.oneLine_shift 1 l hl
  · intro level
    have hblock : Block level (_ :: (_ ++ _ :: (_ ++ []))) :=
      .attempt (hbody.block (level + 1)) (hasCode_map_indented hbody.hasCode (level + 1)) hhead
        (hhandler.block (level + 1)) (hasCode_map_indented hhandler.hasCode (level + 1)) .nil
    rw [List.append_nil] at hblock
    rw [List.map_cons, List.map_append, List.map_cons, map_indented_shift, map_indented_shift]
    exact hblock

end Code

theorem Body.cons {text : String} {ls : List Line} (htext : IsStart text)
    (hcode : isCode text = true) (h : Code ls) : Body (line text :: ls) :=
  ⟨h.cons htext, ⟨_, List.mem_cons_self, hcode⟩⟩

end Python

/-! ### Rendering -/

/-- A text on one line is rendered as that line. -/
theorem Line.render_of_oneLine {l : Line} (hne : l.text ≠ "") (h : Text.OneLine l.text)
    (level : Nat) : l.render level = l.indented level ++ "\n" := by
  have hempty : l.text.isEmpty = false := by simpa using hne
  have hlines : Text.lines l.text = [l.text] := by
    rw [Text.lines, Text.splitLines_of_notMem (by simpa using hne) h]
    simp
  simp [render, part, hempty, hlines, indented]

namespace Python

theorem Code.oneLine_indented {ls : List Line} (h : Code ls) (level : Nat) :
    ∀ l ∈ ls.map (Line.indented level), Text.OneLine l := by
  intro l hl
  obtain ⟨l', hl', rfl⟩ := List.mem_map.mp hl
  have hblanks : Text.OneLine (indentation (level + l'.depth)) := by
    simp [Text.OneLine, indentation]
  exact hblanks.append (h.oneLine l' hl').2

theorem Code.renderAll_eq {ls : List Line} (h : Code ls) (level : Nat) :
    Line.renderAll level ls
      = String.join ((ls.map (Line.indented level)).map (· ++ "\n")) := by
  rw [Line.renderAll, List.map_map]
  congr 1
  apply List.map_congr_left
  intro l hl
  obtain ⟨hne, honeLine⟩ := h.oneLine l hl
  exact Line.render_of_oneLine hne honeLine level

end Python

end FlowSuite

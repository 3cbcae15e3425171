/-
Texts on one line.

A line of code is built around texts from the flow, any of which may hold a line feed.
Almost all of them are quoted, put into a comment or read as a number, and then the line
feed is gone.  Two are not: the name of a command, which stands in the code as it is, and
the source behind an equals sign, of which only the references are rewritten.
-/
import FlowSuite.Proofs.Expression.Numeral
import FlowSuite.Proofs.Expression.Translation
import FlowSuite.Selenium.Expression

namespace FlowSuite

namespace Text

/-- A text without a line feed. -/
def OneLine (s : String) : Prop :=
  '\n' ∉ s.toList

instance (s : String) : Decidable (OneLine s) :=
  inferInstanceAs (Decidable (_ ∉ _))

/-- A fixed text is on one line if its characters say so. -/
theorem OneLine.of {cs : List Char} (h : '\n' ∉ cs) : OneLine (String.ofList cs) := by
  rwa [OneLine, String.toList_ofList]

theorem OneLine.append {s s' : String} (h : OneLine s) (h' : OneLine s') :
    OneLine (s ++ s') := by
  simp only [OneLine, String.toList_append, List.mem_append, not_or] at *
  exact ⟨h, h'⟩

theorem OneLine.around {before after : List Char} {text : String} (hbefore : '\n' ∉ before)
    (htext : OneLine text) (hafter : '\n' ∉ after) :
    OneLine (String.ofList before ++ text ++ String.ofList after) :=
  ((OneLine.of hbefore).append htext).append (.of hafter)

theorem oneLine_join {ss : List String} (h : ∀ s ∈ ss, OneLine s) :
    OneLine (String.join ss) := by
  simp only [OneLine, String.toList_join, List.mem_flatMap, not_exists, not_and]
  exact h

theorem oneLine_intercalate {sep : String} {ss : List String} (hsep : OneLine sep)
    (h : ∀ s ∈ ss, OneLine s) : OneLine (sep.intercalate ss) := by
  induction ss with
  | nil =>
      rw [String.intercalate_nil]
      decide
  | cons s rest ih =>
      have hs : OneLine s := h s List.mem_cons_self
      have hrest : ∀ s' ∈ rest, OneLine s' := fun s' hs' => h s' (List.mem_cons_of_mem s hs')
      cases rest with
      | nil => simpa using hs
      | cons s' rest =>
          rw [String.intercalate_cons_cons]
          exact (hs.append hsep).append (ih hrest)

/-! ### Quoted texts and comments -/

theorem newline_notMem_escape (c : Char) : '\n' ∉ escape c := by
  by_cases hcontrol : c.toNat < 0x20
  · have hall : ∀ n < 0x20, '\n' ∉ escape (Char.ofNat n) := by decide
    simpa only [Char.ofNat_toNat] using hall c.toNat hcontrol
  · have hne : '\n' ≠ c := by
      rintro rfl
      exact hcontrol (by decide)
    unfold escape
    split_ifs <;> simp [hne]

theorem oneLine_quote (s : String) : OneLine (quote s) := by
  simp only [OneLine, toList_quote, quoteChars, List.mem_cons, List.mem_append, List.mem_flatMap]
  rintro (h | ⟨c, -, hc⟩ | h | h)
  · exact absurd h (by decide)
  · exact newline_notMem_escape c hc
  · exact absurd h (by decide)
  · cases h

theorem oneLine_oneLine (s : String) : OneLine (oneLine s) := by
  have hjoin : ∀ cs : List Char, '\n' ∉ joinLines cs := by
    intro cs
    fun_induction joinLines cs with
    | case5 c cs hcrlf hlf hcr ih =>
        have hne : '\n' ≠ c := fun h => hlf h.symm
        simp [ih, hne]
    | _ => simp_all
  rw [OneLine, oneLine, String.toList_ofList]
  exact hjoin s.toList

/-! ### The lines of a text -/

theorem eq_nil_of_splitLines {cs : List Char} (h : splitLines cs = []) : cs = [] := by
  unfold splitLines at h
  split at h
  · rfl
  · cases h
  · cases h
  · split at h <;> cases h

theorem splitLines_of_notMem {cs : List Char} (hne : cs ≠ []) (h : '\n' ∉ cs) :
    splitLines cs = [cs] := by
  fun_induction splitLines cs with
  | case1 => exact absurd rfl hne
  | case2 => simp at h
  | case3 => simp at h
  | case4 c cs hlf hcrlf hempty ih =>
      cases cs with
      | nil => rfl
      | cons d ds => simp_all
  | case5 c cs hlf hcrlf l ls hlines ih =>
      have hcs : cs ≠ [] := by
        rintro rfl
        simp [splitLines] at hlines
      have hwhole := ih hcs fun hmem => h (List.mem_cons_of_mem c hmem)
      obtain ⟨rfl, rfl⟩ := List.cons.inj (hlines.symm.trans hwhole)
      rfl

theorem newline_notMem_of_mem_splitLines {cs l : List Char} (h : l ∈ splitLines cs) :
    '\n' ∉ l := by
  fun_induction splitLines cs generalizing l with
  | case1 => cases h
  | case2 cs ih =>
      rcases List.mem_cons.mp h with rfl | h
      · exact List.not_mem_nil
      · exact ih h
  | case3 cs ih =>
      rcases List.mem_cons.mp h with rfl | h
      · exact List.not_mem_nil
      · exact ih h
  | case4 c cs hfeed hreturn hlines ih =>
      rw [List.mem_singleton.mp h]
      simpa using fun hc : '\n' = c => hfeed hc.symm
  | case5 c cs hfeed hreturn l' ls hlines ih =>
      rw [hlines] at ih
      rcases List.mem_cons.mp h with rfl | h
      · simp only [List.mem_cons, not_or]
        exact ⟨fun hc => hfeed hc.symm, ih List.mem_cons_self⟩
      · exact ih (List.mem_cons_of_mem _ h)

end Text

/-! ### Numbers -/

theorem oneLine_of_isDecimal {s : String} (h : isDecimal s = true) : Text.OneLine s := by
  intro hmem
  exact absurd (Numeral.marks_of_isDecimal h _ hmem) (by decide)

/-! ### Expressions -/

namespace Target

theorem oneLine_subscript (key : String) : Text.OneLine (subscript key) := by
  have hkey : Text.OneLine (if isIndex key then key else Text.quote key) := by
    split
    · rename_i hindex
      have hdigits := (Bool.and_eq_true_iff.mp hindex).2
      intro hmem
      exact absurd (List.all_eq_true.mp hdigits _ hmem) (by decide)
    · exact Text.oneLine_quote key
  exact .around (by decide) hkey (by decide)

theorem oneLine_accessor (t : Target) (p : Path) : Text.OneLine (t.accessor p) := by
  have hlookup : Text.OneLine (t.lookup p.root) := by
    cases t with
    | selenium => exact .around (by decide) (Text.oneLine_quote _) (by decide)
    | cypress => exact .around (by decide) (Text.oneLine_quote _) (by decide)
  refine hlookup.append (Text.oneLine_join ?_)
  intro s hs
  obtain ⟨key, -, rfl⟩ := List.mem_map.mp hs
  exact oneLine_subscript key

theorem oneLine_of_expr_mem {t : Target} {segments : List Segment} {e : String}
    (h : .expr e ∈ segments.map t.piece) : Text.OneLine e := by
  obtain ⟨s, -, hs⟩ := List.mem_map.mp h
  cases s with
  | text text => cases hs
  | ref p =>
      cases hs
      exact t.oneLine_accessor p

end Target

namespace Python

theorem newline_notMem_escapeField (c : Char) : '\n' ∉ escapeField c := by
  by_cases hlf : c = '\n'
  · subst hlf
    decide
  · have hne : '\n' ≠ c := fun h => hlf h.symm
    unfold escapeField
    split_ifs <;> simp [hne]

theorem newline_notMem_field {p : Piece} (h : ∀ e, p = .expr e → Text.OneLine e) :
    '\n' ∉ field p := by
  cases p with
  | text s =>
      simp only [field, List.mem_flatMap, not_exists, not_and]
      exact fun c _ => newline_notMem_escapeField c
  | expr e =>
      have he : '\n' ∉ e.toList := h e rfl
      simp [field, he]

theorem oneLine_of_term? {p : Piece} {s : String} (h : ∀ e, p = .expr e → Text.OneLine e)
    (hs : term? p = some s) : Text.OneLine s := by
  cases p with
  | text text =>
      simp only [term?] at hs
      split at hs
      · cases hs
      · cases hs
        exact Text.oneLine_quote text
  | expr e =>
      cases hs
      exact .around (by decide) (h e rfl) (by decide)

/-- A string that is put together is on one line if its expressions are. -/
theorem oneLine_interpolate {pieces : List Piece} (h : ∀ e, .expr e ∈ pieces → Text.OneLine e) :
    Text.OneLine (interpolate pieces) := by
  have hpiece : ∀ p ∈ pieces, ∀ e, p = .expr e → Text.OneLine e := by
    rintro p hp e rfl
    exact h e hp
  unfold interpolate
  split
  · simp only [Text.OneLine, fString, String.toList_ofList, List.mem_cons, List.mem_append,
      List.mem_flatMap]
    rintro (h | h | ⟨p, hp, hmem⟩ | h | h)
    · exact absurd h (by decide)
    · exact absurd h (by decide)
    · exact newline_notMem_field (hpiece p hp) hmem
    · exact absurd h (by decide)
    · cases h
  · refine Text.oneLine_intercalate (by decide) ?_
    intro s hs
    obtain ⟨p, hp, hterm⟩ := List.mem_filterMap.mp hs
    exact oneLine_of_term? (hpiece p hp) hterm

end Python

/-- A field text that has no line feed if it starts with an equals sign. -/
def Text.OneLineSource (raw : String) : Prop :=
  (trim raw).toList.head? = some '=' → OneLine (trim raw)

instance (raw : String) : Decidable (Text.OneLineSource raw) :=
  inferInstanceAs (Decidable (_ → _))

namespace Selenium

theorem oneLine_interpolated (segments : List Segment) :
    Text.OneLine (Python.interpolate (segments.map Target.selenium.piece)) :=
  Python.oneLine_interpolate fun _ he => Target.oneLine_of_expr_mem he

theorem oneLine_expression_ofChars (cs : List Char) :
    Text.OneLine (Target.selenium.expression (Value.ofChars cs)) := by
  rcases Value.ofChars_cases cs with ⟨p, hvalue, -⟩ | ⟨hvalue, -⟩ | ⟨-, ⟨hvalue, hdecimal⟩ | hvalue⟩
  · rw [hvalue]
    exact Target.oneLine_accessor _ p
  · rw [hvalue]
    exact oneLine_interpolated _
  · rw [hvalue]
    exact oneLine_of_isDecimal hdecimal
  · rw [hvalue]
    exact Text.oneLine_quote _

theorem oneLine_source {source : List Char} (h : '\n' ∉ source) :
    Text.OneLine (Target.selenium.expression
      (.assignment (Segment.scanChars (Text.trimChars source)))) := by
  have hsegments : ∀ s ∈ (Segment.scanChars (Text.trimChars source)).map
      Target.selenium.sourceText, Text.OneLine s := by
    intro s hs
    obtain ⟨segment, hsegment, rfl⟩ := List.mem_map.mp hs
    cases segment with
    | text text =>
        intro hmem
        exact h (Text.mem_of_mem_trimChars (Segment.mem_of_mem_scanChars hsegment hmem))
    | ref p => exact Target.oneLine_accessor _ p
  unfold Target.expression
  dsimp only
  split
  · exact Text.oneLine_quote ""
  · exact Text.oneLine_join hsegments

theorem oneLine_expression {raw : String} (h : Text.OneLineSource raw) :
    Text.OneLine (Target.selenium.expression (Value.classify raw)) := by
  unfold Value.classify
  split
  · rename_i source hsource
    rw [Text.OneLineSource, Text.OneLine, Text.toList_trim, hsource] at h
    exact oneLine_source fun hmem => h rfl (List.mem_cons_of_mem '=' hmem)
  · exact oneLine_expression_ofChars _

theorem oneLine_translate {raw : String} (h : Text.OneLineSource raw) :
    Text.OneLine (translate raw) :=
  oneLine_expression h

theorem oneLine_asText {raw : String} (h : Text.OneLineSource raw) :
    Text.OneLine (asText raw) := by
  unfold asText
  dsimp only
  split
  · exact oneLine_expression h
  · exact .around (by decide) (oneLine_expression h) (by decide)

theorem oneLine_locate (e : Element) : Text.OneLine (locate e) := by
  have hstrategy : ∀ s : Strategy, Text.OneLine (strategy s) := by
    intro s
    cases s <;> decide
  have hvalue : ∀ v : LocatorValue, Text.OneLine (v.expression .selenium) := by
    intro v
    cases v with
    | reference p => exact Target.oneLine_accessor _ p
    | literal s => exact Text.oneLine_quote _
  exact ((hstrategy _).append (.of (by decide))).append (hvalue _)

theorem oneLine_find (e : Element) : Text.OneLine (find e) :=
  .around (by decide) (oneLine_locate e) (by decide)

end Selenium

end FlowSuite

/-
Expressions close the brackets that they open.

What comes from a flow stands in an expression as a literal, as the text of a template
literal, as a number or as JSON, and none of them can leave its place early: a literal ends
at its own quote, since every quote inside is escaped, and in the text of a template a
dollar sign is escaped wherever a brace follows it.  Only two texts side by side could put
an unescaped dollar sign before a brace, and two texts never stand side by side.

Template literals nest: the count of a loop is put into a text, and may be a template
literal itself.  Since a closed expression may stand anywhere in code, the expression of a
substitution needs no more than to be closed.
-/
import FlowSuite.Cypress.Control
import FlowSuite.Proofs.Brackets.Scanner
import FlowSuite.Proofs.Expression.Pieces

namespace FlowSuite

namespace JavaScript

/-! ### Plain text -/

/-- The characters that mean something to a scanner in code. -/
def specials : List Char :=
  ['(', ')', '[', ']', '{', '}', '"', '\x60', '/']

/-- Characters of a sort that has no special ones are read over. -/
theorem closed_of_all {p : Char → Bool} (hp : specials.all (!p ·) = true) {s : String}
    (h : ∀ c ∈ s.toList, p c = true) : Closed s := by
  rw [Closed, Turns]
  generalize s.toList = cs at h
  induction cs with
  | nil => rfl
  | cons c cs ih =>
      have hc : c ∉ specials := by
        intro hspecial
        have hnot := List.all_eq_true.mp hp c hspecial
        rw [h c List.mem_cons_self] at hnot
        cases hnot
      simp only [specials, List.mem_cons, List.not_mem_nil, or_false, not_or] at hc
      have hstep : Scan.step ⟨.code, []⟩ c = some ⟨.code, []⟩ := by
        simp [Scan.step, Scan.code, hc]
      rw [Scan.run, hstep]
      exact ih fun d hd => h d (List.mem_cons_of_mem c hd)

theorem closed_of_isDecimal {s : String} (h : isDecimal s = true) : Closed s :=
  closed_of_all rfl (Numeral.marks_of_isDecimal h)

/-! ### Literals -/

theorem run_escape (c : Char) : Scan.run ⟨.literal, []⟩ (Text.escape c) = some ⟨.literal, []⟩ := by
  by_cases hcontrol : c.toNat < 0x20
  · have hall : ∀ n < 0x20, Scan.run ⟨.literal, []⟩ (Text.escape (Char.ofNat n))
        = some ⟨.literal, []⟩ := by decide
    simpa only [Char.ofNat_toNat] using hall c.toNat hcontrol
  · by_cases hquote : c = '"'
    · subst hquote
      rfl
    · by_cases hbackslash : c = '\\'
      · subst hbackslash
        rfl
      · have hself : Text.escape c = [c] := by
          unfold Text.escape
          split_ifs <;> simp_all
        have hstep : Scan.literal c = .literal := by
          simp [Scan.literal]
        rw [hself, Scan.run, Scan.step, hstep]
        rfl

/-- A literal ends at its own quote. -/
theorem closed_quote (s : String) : Closed (Text.quote s) := by
  have hinside : ∀ cs : List Char, Scan.run ⟨.literal, []⟩ (cs.flatMap Text.escape)
      = some ⟨.literal, []⟩ := by
    intro cs
    induction cs with
    | nil => rfl
    | cons c cs ih =>
        rw [List.flatMap_cons, Scan.run_append, run_escape]
        exact ih
  have hopen : ∀ cs, Scan.run ⟨.code, []⟩ ('"' :: cs) = Scan.run ⟨.literal, []⟩ cs := fun _ => rfl
  rw [Closed, Turns, Text.toList_quote, Text.quoteChars, hopen, Scan.run_append, hinside]
  rfl

/-! ### Template literals -/

section

variable {opened : List Bracket} {rest : List Char}

/-- A dollar sign means nothing unless a brace follows it. -/
theorem run_dollar (hne : rest ≠ []) (hbrace : rest.head? ≠ some '{') :
    Scan.run ⟨.dollar, opened⟩ rest = Scan.run ⟨.template, opened⟩ rest := by
  cases rest with
  | nil => exact absurd rfl hne
  | cons c rest =>
      have hc : c ≠ '{' := by simpa using hbrace
      simp [Scan.run, Scan.step, hc]

/-- The text of a template literal stays in it. -/
theorem run_templateText (cs : List Char) (hne : rest ≠ []) (hbrace : rest.head? ≠ some '{') :
    Scan.run ⟨.template, opened⟩ (templateText cs ++ rest)
      = Scan.run ⟨.template, opened⟩ rest := by
  fun_induction templateText cs with
  | case1 => rfl
  | case2 cs ih => exact ih
  | case3 c cs hnot hc ih => exact ih
  | case4 c cs hnot hc ih =>
      simp only [not_or] at hc
      by_cases hdollar : c = '$'
      · have hhead : (templateText cs ++ rest).head? ≠ some '{' := by
          refine head?_templateText_append ?_ hbrace
          intro hcs
          cases cs with
          | nil => cases hcs
          | cons d cs => exact hnot cs hdollar (by simpa using hcs)
        have hstep : ∀ ds, Scan.run ⟨.template, opened⟩ ('$' :: ds)
            = Scan.run ⟨.dollar, opened⟩ ds := fun _ => rfl
        rw [hdollar, List.cons_append, hstep, run_dollar (by simp [hne]) hhead]
        exact ih
      · have hstep : Scan.template c = .template := by
          simp [Scan.template, hc]
        rw [List.cons_append, Scan.run, Scan.step, hstep]
        exact ih

/-- The expression of a substitution is code, and its brace goes back to the text. -/
theorem run_substitution {e : String} (h : Closed e) :
    Scan.run ⟨.template, opened⟩ ('$' :: '{' :: (e.toList ++ '}' :: rest))
      = Scan.run ⟨.template, opened⟩ rest := by
  have hopen : ∀ cs, Scan.run ⟨.template, opened⟩ ('$' :: '{' :: cs)
      = Scan.run ⟨.code, .substitution :: opened⟩ cs := fun _ => rfl
  rw [hopen, Scan.run_append, h.turns (.substitution :: opened)]
  rfl

end

theorem head?_templateParts {p : Piece} {pieces : List Piece} {s : String} (hp : p = .text s)
    (hchain : (p :: pieces).IsChain Piece.Apart) :
    (pieces.flatMap templatePart ++ ['\x60']).head? ≠ some '{' := by
  cases pieces with
  | nil => simp
  | cons p' pieces =>
      cases p' with
      | text s' =>
          rw [hp] at hchain
          rcases (List.isChain_cons_cons.mp hchain).1 with h | h <;> cases h
      | expr e => simp [templatePart]

/-- A string that is put together is closed if its expressions are. -/
theorem closed_interpolate {pieces : List Piece} (hchain : pieces.IsChain Piece.Apart)
    (h : ∀ e, .expr e ∈ pieces → Closed e) : Closed (interpolate pieces) := by
  have hopen : ∀ cs, Scan.run ⟨.code, []⟩ ('\x60' :: cs) = Scan.run ⟨.template, []⟩ cs :=
    fun _ => rfl
  rw [Closed, Turns, interpolate, String.toList_ofList, hopen]
  induction pieces with
  | nil => rfl
  | cons p pieces ih =>
      have hrest := ih hchain.tail fun e he => h e (List.mem_cons_of_mem p he)
      rw [List.flatMap_cons, List.append_assoc]
      cases p with
      | text s =>
          rw [templatePart, run_templateText s.toList (by simp) (head?_templateParts rfl hchain)]
          exact hrest
      | expr e =>
          have hpart : templatePart (.expr e) ++ (pieces.flatMap templatePart ++ ['\x60'])
              = '$' :: '{' :: (e.toList ++ '}' :: (pieces.flatMap templatePart ++ ['\x60'])) := by
            simp [templatePart]
          rw [hpart, run_substitution (h e List.mem_cons_self)]
          exact hrest

end JavaScript

open JavaScript

/-! ### JSON -/

namespace Json

mutual

theorem closed_render (v : Json) : Closed v.render := by
  cases v with
  | null => exact .of rfl
  | bool b => cases b <;> exact .of rfl
  | number n => exact closed_of_all rfl n.marks_text
  | string s => exact closed_quote s
  | array items => exact (closed_renderItems items).within (b := [.square]) rfl rfl
  | object fields =>
      exact (closed_renderFields fields).within (b := [.curly]) rfl rfl

theorem closed_renderItems (items : List Json) : Closed (renderItems items) := by
  match items with
  | [] => exact .of rfl
  | [v] => exact closed_render v
  | v :: w :: rest =>
      exact ((closed_render v).append (.of rfl)).append (closed_renderItems (w :: rest))

theorem closed_renderFields (fields : List (String × Json)) : Closed (renderFields fields) := by
  match fields with
  | [] => exact .of rfl
  | [(k, v)] => exact ((closed_quote k).append (.of rfl)).append (closed_render v)
  | (k, v) :: f :: rest =>
      have hfield : Closed (Text.quote k ++ ":" ++ v.render) :=
        ((closed_quote k).append (.of rfl)).append (closed_render v)
      exact (hfield.append (.of rfl)).append (closed_renderFields (f :: rest))

end

end Json

theorem MockResponse.closed_json (m : MockResponse) : Closed m.json := by
  unfold json
  split
  · exact Json.closed_render _
  · exact .of rfl

/-! ### Field texts -/

namespace Target

theorem closed_subscript (key : String) : Closed (subscript key) := by
  have hkey : Closed (if isIndex key then key else Text.quote key) := by
    split
    · rename_i hindex
      have hdigits := (Bool.and_eq_true_iff.mp hindex).2
      exact closed_of_all rfl (List.all_eq_true.mp hdigits)
    · exact closed_quote key
  exact hkey.within (b := [.square]) rfl rfl

theorem closed_accessor (p : Path) : Closed (cypress.accessor p) := by
  have hlookup : Closed (cypress.lookup p.root) :=
    (closed_quote p.root).within (b := [.round]) rfl rfl
  refine hlookup.append (closed_join ?_)
  intro s hs
  obtain ⟨key, -, rfl⟩ := List.mem_map.mp hs
  exact closed_subscript key

/-- Scanned segments become pieces of which no two texts stand side by side. -/
theorem isChain_piece (cs : List Char) :
    ((Segment.scanChars cs).map cypress.piece).IsChain Piece.Apart := by
  have hpiece : ∀ s, (cypress.piece s).isExpr = s.isRef := by
    intro s
    cases s <;> rfl
  refine List.isChain_map_of_isChain _ ?_ (Segment.isChain_gather [] _)
  intro s s' h
  rwa [Piece.Apart, hpiece, hpiece]

theorem closed_expression_ofChars (cs : List Char) :
    Closed (cypress.expression (Value.ofChars cs)) := by
  rcases Value.ofChars_cases cs with ⟨p, hvalue, -⟩ | ⟨hvalue, -⟩ | ⟨-, ⟨hvalue, hdecimal⟩ | hvalue⟩
  · rw [hvalue]
    exact closed_accessor p
  · rw [hvalue]
    refine closed_interpolate (isChain_piece cs) ?_
    intro e he
    obtain ⟨s, -, hs⟩ := List.mem_map.mp he
    cases s with
    | text text => cases hs
    | ref p =>
        cases hs
        exact closed_accessor p
  · rw [hvalue]
    exact closed_of_isDecimal hdecimal
  · rw [hvalue]
    exact closed_quote _

end Target

/-- A field text that does not start with an equals sign.  What follows such a sign stands
in the code as it is. -/
def Text.IsValue (raw : String) : Prop :=
  (trim raw).toList.head? ≠ some '='

instance (raw : String) : Decidable (Text.IsValue raw) :=
  inferInstanceAs (Decidable (_ ≠ _))

namespace LocatorValue

theorem closed_between (before after : String) (v : LocatorValue) :
    Closed (v.between .cypress before after) := by
  cases v with
  | literal s => exact closed_quote _
  | reference p =>
      have haffix : ∀ fixed s : String, s ∈ affix fixed → Closed s := by
        intro fixed s hs
        unfold affix at hs
        split at hs
        · cases hs
        · rw [List.mem_singleton.mp hs]
          exact closed_quote fixed
      refine closed_intercalate (.of rfl) ?_
      intro s hs
      rcases List.mem_append.mp hs with hs | hs
      · rcases List.mem_append.mp hs with hs | hs
        · exact haffix before s hs
        · rw [List.mem_singleton.mp hs]
          exact Target.closed_accessor p
      · exact haffix after s hs

theorem closed_expression (v : LocatorValue) : Closed (v.expression .cypress) :=
  closed_between "" "" v

end LocatorValue

namespace Cypress

theorem closed_translate {raw : String} (h : Text.IsValue raw) : Closed (translate raw) := by
  rw [translate, Target.translate, Value.classify_of_ne h]
  exact Target.closed_expression_ofChars _

theorem closed_asText {raw : String} (h : Text.IsValue raw) : Closed (asText raw) := by
  have hexpression : Closed (Target.cypress.expression (Value.classify raw)) :=
    closed_translate h
  unfold asText
  dsimp only
  split
  · exact hexpression
  · exact hexpression.within (b := [.round]) rfl rfl

/-! ### Page elements -/

theorem closed_selector? {e : Element} {selector : String} (h : selector? e = some selector) :
    Closed selector := by
  unfold selector? at h
  dsimp only at h
  split at h
  · cases h
    unfold idSelector
    split
    · exact closed_quote _
    · exact LocatorValue.closed_between _ _ _
  · cases h
    exact LocatorValue.closed_between _ _ _
  · cases h
    exact LocatorValue.closed_between _ _ _
  · cases h
  · cases h

theorem closed_query (e : Element) : Closed (query e) := by
  have hvalue := (LocatorValue.resolve e.value).closed_expression
  unfold query
  dsimp only
  split
  · rename_i selector _ hselector
    exact (closed_selector? hselector).within (b := [.round]) rfl rfl
  · exact hvalue.within (b := [.round]) rfl rfl
  · exact hvalue.within (b := [.round]) rfl rfl

theorem closed_look (e : Element) : Closed (look e) := by
  have hvalue := (LocatorValue.resolve e.value).closed_expression
  unfold look
  dsimp only
  split
  · rename_i selector _ hselector
    exact (closed_selector? hselector).within (b := [.round]) rfl rfl
  · exact hvalue.within (b := [.round, .round]) rfl rfl
  · exact (hvalue.within (b := [.round, .round]) (c := [.round, .round]) rfl rfl).append (.of rfl)

theorem closed_await (route : String) : Closed (await route) :=
  (closed_quote _).within (b := [.round]) rfl rfl

end Cypress

end FlowSuite

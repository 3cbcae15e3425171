/-
The names of files.

Every entry point can have a file of its own, and files with the same name would take each
other's place.  A file is called after a stem, and the stems of a target are kept apart by
numbers, so what is left to ask is whether the name of a file still tells its stem.

A stem for Selenium does not change on its way into the name: it consists of small words
already, and starts with `test`.  A stem for Cypress is the title of a test, any text at
all, and only its words go into the name; titles that differ in marks or in case share one
file.  The targets do not get in each other's way, since their files end differently.
-/
import FlowSuite.Proofs.NumberedNames

namespace FlowSuite

/-! ### Small words -/

namespace Text

/-- A run of digits and small letters. -/
structure IsWord (w : List Char) : Prop where
  ne_nil : w ≠ []
  isAlphanum : ∀ c ∈ w, c.isAlphanum = true
  toLower : ∀ c ∈ w, c.toLower = c

/-- Words joined by underscores. -/
def IsSnake (s : String) : Prop :=
  ∃ ws : List (List Char), (∀ w ∈ ws, IsWord w) ∧ s.toList = ['_'].intercalate ws

theorem isAlphanum_of_mem_splitOnP {cs w : List Char} (hw : w ∈ cs.splitOnP (!·.isAlphanum)) :
    ∀ c ∈ w, c.isAlphanum = true := by
  induction cs generalizing w with
  | nil => simp_all
  | cons c cs ih =>
      rw [List.splitOnP_cons_eq_if_modifyHead] at hw
      split at hw
      · rcases List.mem_cons.mp hw with rfl | hw
        · simp
        · exact ih hw
      · obtain ⟨first, rest, hsplit⟩ := List.exists_cons_of_ne_nil
          (List.splitOnP_ne_nil (!·.isAlphanum) cs)
        rw [hsplit, List.modifyHead_cons] at hw
        rcases List.mem_cons.mp hw with rfl | hw
        · intro d hd
          rcases List.mem_cons.mp hd with rfl | hd
          · simp_all
          · exact ih (hsplit ▸ List.mem_cons_self) d hd
        · exact ih (hsplit ▸ List.mem_cons_of_mem _ hw)

theorem toNat_lt_of_isAlphanum {c : Char} (h : c.isAlphanum = true) : c.toNat < 128 := by
  delta Char.isAlphanum Char.isAlpha Char.isUpper Char.isLower Char.isDigit at h
  simp only [Bool.or_eq_true, Bool.and_eq_true, decide_eq_true_eq, ge_iff_le,
    UInt32.le_iff_toNat_le] at h
  have hbigZ : 'Z'.val.toNat = 90 := rfl
  have hz : 'z'.val.toNat = 122 := rfl
  have hnine : '9'.val.toNat = 57 := rfl
  have hc : c.toNat = c.val.toNat := rfl
  omega

/-- What holds of the letters and digits among the first code points holds of all. -/
theorem of_isAlphanum {p : Char → Prop} {c : Char} (h : c.isAlphanum = true)
    (hall : ∀ n < 128, (Char.ofNat n).isAlphanum = true → p (Char.ofNat n)) : p c := by
  have hc := hall c.toNat (toNat_lt_of_isAlphanum h)
  rw [Char.ofNat_toNat] at hc
  exact hc h

/-- Small letters stay as they are, and capitals become letters of a word. -/
theorem toLower_of_isAlphanum {c : Char} (h : c.isAlphanum = true) :
    c.toLower.isAlphanum = true ∧ c.toLower.toLower = c.toLower ∧
      (c.isDigit = true → c.toLower = c) := by
  apply of_isAlphanum h
  decide

theorem of_mem_words {s : String} {w : List Char} (hw : w ∈ words s) :
    w ≠ [] ∧ ∀ c ∈ w, c.isAlphanum = true := by
  obtain ⟨hw, hne⟩ := List.mem_filter.mp hw
  exact ⟨by simpa using hne, isAlphanum_of_mem_splitOnP hw⟩

theorem isWord_map_toLower {s : String} {w : List Char} (hw : w ∈ words s) :
    IsWord (w.map Char.toLower) := by
  obtain ⟨hne, hall⟩ := of_mem_words hw
  refine ⟨by simpa using hne, ?_, ?_⟩
  · intro c hc
    obtain ⟨d, hd, rfl⟩ := List.mem_map.mp hc
    exact (toLower_of_isAlphanum (hall d hd)).1
  · intro c hc
    obtain ⟨d, hd, rfl⟩ := List.mem_map.mp hc
    exact (toLower_of_isAlphanum (hall d hd)).2.1

theorem isSnake_snake (s : String) : IsSnake (snake s) := by
  refine ⟨(words s).map (·.map Char.toLower), ?_, ?_⟩
  · intro w hw
    obtain ⟨v, hv, rfl⟩ := List.mem_map.mp hw
    exact isWord_map_toLower hv
  · simp [snake, String.toList_intercalate, Function.comp_def]

/-- Splitting at the underscores gives the words back. -/
theorem filter_splitOnP_intercalate {ws : List (List Char)} (hws : ∀ w ∈ ws, IsWord w) :
    ((['_'].intercalate ws).splitOnP (!·.isAlphanum)).filter (!·.isEmpty) = ws := by
  induction ws with
  | nil => rfl
  | cons w rest ih =>
      have hw : IsWord w := hws w List.mem_cons_self
      have hkeep : w.isEmpty = false := List.isEmpty_eq_false_iff.mpr hw.ne_nil
      have hletters : ∀ c ∈ w, (!c.isAlphanum) = false := by
        intro c hc
        rw [hw.isAlphanum c hc, Bool.not_true]
      cases rest with
      | nil =>
          rw [List.intercalate_singleton, List.splitOnP_eq_singleton hletters,
            List.filter_cons_of_pos (by simp [hkeep]), List.filter_nil]
      | cons w' rest =>
          rw [List.intercalate_cons_cons, List.append_assoc, List.singleton_append,
            List.splitOnP_append_cons_of_forall_mem hletters '_' (by decide),
            List.filter_cons_of_pos (by simp [hkeep]),
            ih fun v hv => hws v (List.mem_cons_of_mem _ hv)]

/-- A name of small words is its own name. -/
theorem IsSnake.snake_eq {s : String} (h : IsSnake s) : snake s = s := by
  obtain ⟨ws, hws, hs⟩ := h
  have hlower : ws.map (·.map Char.toLower) = ws := by
    conv_rhs => rw [← List.map_id ws]
    refine List.map_congr_left fun w hw => ?_
    exact (List.map_congr_left (hws w hw).toLower).trans (List.map_id w)
  apply String.toList_inj.mp
  rw [snake, words, hs, filter_splitOnP_intercalate hws, String.toList_intercalate]
  simpa [Function.comp_def] using congrArg ['_'].intercalate hlower

theorem intercalate_append {ws ws' : List (List Char)} (hws : ws ≠ []) (hws' : ws' ≠ []) :
    ['_'].intercalate (ws ++ ws') = ['_'].intercalate ws ++ '_' :: ['_'].intercalate ws' := by
  induction ws with
  | nil => contradiction
  | cons w rest ih =>
      cases rest with
      | nil =>
          obtain ⟨w', rest', rfl⟩ := List.exists_cons_of_ne_nil hws'
          simp [List.intercalate_cons_cons]
      | cons v rest =>
          have ih := ih (List.cons_ne_nil v rest)
          simp only [List.cons_append, List.intercalate_cons_cons] at ih ⊢
          simp [ih]

theorem IsWord.of_all {w : List Char} (hne : w ≠ [])
    (h : (w.all fun c => c.isAlphanum && c.toLower == c) = true) : IsWord w := by
  simp only [List.all_eq_true, Bool.and_eq_true, beq_iff_eq] at h
  exact ⟨hne, fun c hc => (h c hc).1, fun c hc => (h c hc).2⟩

theorem isSnake_word {s : String} (h : IsWord s.toList) : IsSnake s :=
  ⟨[s.toList], by simpa using h, List.intercalate_singleton.symm⟩

theorem IsSnake.append {s s' : String} (h : IsSnake s) (h' : IsSnake s') (hs : s ≠ "")
    (hs' : s' ≠ "") : IsSnake (s ++ "_" ++ s') := by
  obtain ⟨ws, hws, hjoin⟩ := h
  obtain ⟨ws', hws', hjoin'⟩ := h'
  have hne : ws ≠ [] := by
    rintro rfl
    exact hs (String.toList_inj.mp hjoin)
  have hne' : ws' ≠ [] := by
    rintro rfl
    exact hs' (String.toList_inj.mp hjoin')
  refine ⟨ws ++ ws', ?_, ?_⟩
  · intro w hw
    rcases List.mem_append.mp hw with hw | hw
    · exact hws w hw
    · exact hws' w hw
  · rw [intercalate_append hne hne', ← hjoin, ← hjoin']
    simp

theorem isWord_toString (n : Nat) : IsWord (toString n).toList := by
  rw [Nat.toString_eq_repr, Nat.toList_repr]
  have hdigit : ∀ c ∈ Nat.toDigits 10 n, c.isDigit = true := fun c hc =>
    Nat.isDigit_of_mem_toDigits (by decide) (by decide) hc
  have halphanum : ∀ c ∈ Nat.toDigits 10 n, c.isAlphanum = true := by
    intro c hc
    rw [Char.isAlphanum, hdigit c hc, Bool.or_true]
  refine ⟨Nat.toDigits_ne_nil, halphanum, ?_⟩
  intro c hc
  exact (toLower_of_isAlphanum (halphanum c hc)).2.2 (hdigit c hc)

end Text

/-! ### Stems that are names already -/

namespace Selenium

/-- A name by which a test is found: small words, the first of which starts with `test`. -/
structure IsTestName (name : String) : Prop where
  isSnake : Text.IsSnake name
  startsWith : Text.startsWith name "test" = true

theorem IsTestName.ne_empty {name : String} (h : IsTestName name) : name ≠ "" := by
  rintro rfl
  exact absurd h.startsWith (by decide)

theorem isTestName_test_append {name : String} (h : Text.IsSnake name) (hname : name ≠ "") :
    IsTestName ("test_" ++ name) := by
  have hmark : "test_" = "test" ++ "_" := by decide
  rw [hmark]
  have hword : Text.IsWord "test".toList := .of_all (by decide) (by decide)
  refine ⟨(Text.isSnake_word hword).append h (by decide) hname, ?_⟩
  exact Text.startsWith_append name (Text.startsWith_append "_" (Text.startsWith_self "test"))

theorem isTestName_case (position : Nat) : IsTestName s!"test_case_{position}" := by
  have hword : Text.IsWord "case".toList := .of_all (by decide) (by decide)
  have hnumber := Text.isWord_toString position
  have hcase : Text.IsSnake ("case" ++ "_" ++ toString position) :=
    (Text.isSnake_word hword).append (Text.isSnake_word hnumber) (by decide)
      fun hempty => hnumber.ne_nil (by rw [hempty]; rfl)
  have hparts : s!"test_case_{position}" = "test_" ++ ("case" ++ "_" ++ toString position) := by
    apply String.toList_inj.mp
    simp [toString]
  rw [hparts]
  exact isTestName_test_append hcase (by simp)

theorem isTestName_testName (title : Option String) (position : Nat) :
    IsTestName (testName title position) := by
  have hname : Text.IsSnake ((title.map Text.snake).getD "") := by
    cases title with
    | none => exact ⟨[], by simp, rfl⟩
    | some title => exact Text.isSnake_snake title
  unfold testName
  generalize (title.map Text.snake).getD "" = name at hname
  by_cases hempty : name.isEmpty = true
  · simp only [hempty, if_true]
    exact isTestName_case position
  · simp only [hempty]
    have hne : name ≠ "" := by simpa using hempty
    by_cases htest : Text.startsWith name "test" = true
    · simp only [htest, if_true]
      exact ⟨hname, htest⟩
    · simp only [htest]
      exact isTestName_test_append hname hne

theorem IsTestName.nameChoice {name : String} (h : IsTestName name) (k : Nat) :
    IsTestName (nameChoice name k) := by
  cases k with
  | zero => exact h
  | succ k =>
      rw [nameChoice_succ, String.append_assoc]
      have hnumber := Text.isWord_toString (k + 2)
      refine ⟨?_, Text.startsWith_append _ h.startsWith⟩
      rw [← String.append_assoc]
      exact h.isSnake.append (Text.isSnake_word hnumber) h.ne_empty
        fun hempty => hnumber.ne_nil (by rw [hempty]; rfl)

/-- The name of the file is the name of the test. -/
theorem IsTestName.fileName_eq {name : String} (h : IsTestName name) :
    fileName name = name ++ ".py" := by
  simp only [fileName, h.isSnake.snake_eq, h.startsWith, if_true]
  rfl

end Selenium

/-- The part of a name that a Cypress title goes into. -/
def Cypress.slug (title : String) : String :=
  if (Text.snake title).isEmpty then "suite" else Text.snake title

theorem Cypress.fileName_eq (title : String) : fileName title = slug title ++ ".cy.js" := by
  simp only [fileName, slug]
  by_cases hempty : (Text.snake title).isEmpty = true
  · rw [if_pos hempty, if_pos hempty]
    rfl
  · rw [if_neg hempty, if_neg hempty]
    rfl

/-! ### Files -/

namespace Project

/-- The stem of a file, at the position of its entry point. -/
theorem getElem?_stems {p : Project} {i : Nat} {stem : String}
    (h : (p.stems p.entries)[i]? = some stem) :
    ∃ e k, p.entries[i]? = some e ∧ stem = nameChoice (p.testNameOf e) k := by
  obtain ⟨t, asked, k, hasked, hstem⟩ := getElem?_uniqueNames h
  rw [List.getElem?_map, Option.map_eq_some_iff] at hasked
  obtain ⟨e, he, hasked⟩ := hasked
  obtain ⟨-, rfl⟩ := Prod.mk.inj hasked
  exact ⟨e, k, he, hstem⟩

/-- Stems of one target differ. -/
theorem stem_ne {p : Project} {i j : Nat} {e e' : Entry} {stem stem' : String} (hij : i ≠ j)
    (he : p.entries[i]? = some e) (he' : p.entries[j]? = some e')
    (hstem : (p.stems p.entries)[i]? = some stem) (hstem' : (p.stems p.entries)[j]? = some stem')
    (htarget : p.targetOf e = p.targetOf e') : stem ≠ stem' := by
  have hnodup : ((p.entries.map p.targetOf).zip (p.stems p.entries)).Nodup := by
    simpa [stems, Function.comp_def] using
      (nodup_uniqueNames [] (p.entries.map fun e => (p.targetOf e, p.testNameOf e))).1
  have hi : ((p.entries.map p.targetOf).zip (p.stems p.entries))[i]?
      = some (p.targetOf e, stem) := by
    simp [List.getElem?_zip_eq_some, he, hstem]
  have hj : ((p.entries.map p.targetOf).zip (p.stems p.entries))[j]?
      = some (p.targetOf e', stem') := by
    simp [List.getElem?_zip_eq_some, he', hstem']
  rintro rfl
  obtain ⟨hlength, -⟩ := List.getElem?_eq_some_iff.mp hi
  exact hij ((List.getElem?_inj hlength hnodup).mp (by rw [hi, hj, htarget]))

theorem isTestName_testNameOf {p : Project} {e : Entry} (h : p.targetOf e = .selenium) :
    Selenium.IsTestName (p.testNameOf e) := by
  have hname : p.testNameOf e = Selenium.testName (some (p.titleOf e)) e.position := by
    rw [testNameOf, h, Target.testName]
  rw [hname]
  exact Selenium.isTestName_testName _ _

theorem name_file (p : Project) (stem : String) (e : Entry) :
    (p.file stem e).name = (p.targetOf e).fileName stem := rfl

theorem name_file_selenium {p : Project} {e : Entry} (h : p.targetOf e = .selenium) (k : Nat) :
    (p.file (nameChoice (p.testNameOf e) k) e).name = nameChoice (p.testNameOf e) k ++ ".py" := by
  rw [name_file, h, Target.fileName]
  exact ((isTestName_testNameOf h).nameChoice k).fileName_eq

theorem name_file_cypress {p : Project} {e : Entry} (h : p.targetOf e = .cypress)
    (stem : String) : (p.file stem e).name = Cypress.slug stem ++ ".cy.js" := by
  rw [name_file, h, Target.fileName]
  exact Cypress.fileName_eq stem

theorem append_py_ne_append_js (s s' : String) : s ++ ".py" ≠ s' ++ ".cy.js" := by
  intro h
  have hlast := congrArg (·.toList.getLast?) h
  simp at hlast

/-- The names of two files, whose stems differ if they are for the same target. -/
theorem name_file_eq_iff {p : Project} {e e' : Entry} (k k' : Nat)
    (hne : p.targetOf e = p.targetOf e' →
      nameChoice (p.testNameOf e) k ≠ nameChoice (p.testNameOf e') k') :
    (p.file (nameChoice (p.testNameOf e) k) e).name
        = (p.file (nameChoice (p.testNameOf e') k') e').name ↔
      p.targetOf e = .cypress ∧ p.targetOf e' = .cypress ∧
        Cypress.slug (nameChoice (p.testNameOf e) k)
          = Cypress.slug (nameChoice (p.testNameOf e') k') := by
  cases h : p.targetOf e with
  | selenium =>
      refine iff_of_false ?_ (by simp)
      rw [name_file_selenium h]
      cases h' : p.targetOf e' with
      | selenium =>
          rw [name_file_selenium h']
          exact fun heq => hne (h.trans h'.symm) (String.append_left_inj _ |>.mp heq)
      | cypress =>
          rw [name_file_cypress h']
          exact append_py_ne_append_js _ _
  | cypress =>
      rw [name_file_cypress h]
      cases h' : p.targetOf e' with
      | selenium =>
          rw [name_file_selenium h']
          exact iff_of_false (append_py_ne_append_js _ _).symm (by simp)
      | cypress =>
          rw [name_file_cypress h', String.append_left_inj]
          simp

end Project

/-- **Files have the same name exactly if both are for Cypress and their stems have the same
words.**  So files of Selenium never share a name, nor do files of different targets. -/
theorem files_share_name_iff (p : Project) (hentry : ∃ n ∈ p.flow.nodes, n.kind = .entry) :
    ∃ fs : List SuiteFile,
      p.files = .ok fs ∧ fs.length = p.flow.entries.length ∧
      ∀ (i j : Nat) (f f' : SuiteFile) (stem stem' : String), i ≠ j →
        fs[i]? = some f → fs[j]? = some f' →
        (p.stems p.entries)[i]? = some stem → (p.stems p.entries)[j]? = some stem' →
        (f.name = f'.name ↔ f.suite.target = .cypress ∧ f'.suite.target = .cypress ∧
          Cypress.slug stem = Cypress.slug stem') := by
  refine ⟨_, Project.files_eq_ok (Project.entries_ne_nil hentry), by simp, ?_⟩
  intro i j f f' stem stem' hij hf hf' hstem hstem'
  obtain ⟨e, k, he, rfl⟩ := Project.getElem?_stems hstem
  obtain ⟨e', k', he', rfl⟩ := Project.getElem?_stems hstem'
  rw [List.getElem?_zipWith, hstem, he] at hf
  rw [List.getElem?_zipWith, hstem', he'] at hf'
  obtain rfl := Option.some.inj hf
  obtain rfl := Option.some.inj hf'
  exact Project.name_file_eq_iff k k' (Project.stem_ne hij he he' hstem hstem')

/-- Two titles that differ in a mark only. -/
def sameWords (t : Target) : Project where
  target := t
  flow :=
    { nodes := [⟨"a", .entry, [("testName", .string "Login")]⟩,
        ⟨"b", .entry, [("testName", .string "Login!")]⟩]
      edges := [] }

/-- For Selenium a number tells the stems apart, and the files as well. -/
theorem sameWords_selenium :
    (∃ n ∈ (sameWords .selenium).flow.nodes, n.kind = .entry) ∧
      ∃ (fs : List SuiteFile) (f f' : SuiteFile),
        (sameWords .selenium).files = .ok fs ∧ fs[0]? = some f ∧ fs[1]? = some f' ∧
        f.name ≠ f'.name := by
  have hentry : ∃ n ∈ (sameWords .selenium).flow.nodes, n.kind = .entry :=
    ⟨_, List.mem_cons_self, rfl⟩
  obtain ⟨fs, hfs, hlength, hname⟩ := files_share_name_iff (sameWords .selenium) hentry
  have hstems : (sameWords .selenium).stems (sameWords .selenium).entries
      = ["test_login", "test_login_2"] := by decide +kernel
  have htargets : fs.map (·.suite.target) = [.selenium, .selenium] := by
    rw [Project.eq_of_files_eq_ok hfs]
    decide +kernel
  obtain ⟨f, f', rfl⟩ := List.length_eq_two.mp hlength
  refine ⟨hentry, _, f, f', hfs, rfl, rfl, fun heq => ?_⟩
  have hiff := hname 0 1 f f' "test_login" "test_login_2" (by decide) rfl rfl
    (by rw [hstems]; rfl) (by rw [hstems]; rfl)
  have hcypress := (hiff.mp heq).1
  simp [hcypress] at htargets

/-- For Cypress the stems are told apart, and the files are not. -/
theorem sameWords_cypress_share_a_file :
    ∃ fs : List SuiteFile,
      (sameWords .cypress).files = .ok fs ∧
      (sameWords .cypress).stems (sameWords .cypress).entries = ["Login", "Login!"] ∧
      fs.map (·.name) = ["login.cy.js", "login.cy.js"] ∧ ¬(fs.map (·.name)).Nodup := by
  refine ⟨_, Project.files_eq_ok (by decide), ?_, ?_, ?_⟩
  · decide +kernel
  · decide +kernel
  · decide +kernel

end FlowSuite

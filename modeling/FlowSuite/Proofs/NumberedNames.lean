/-
Names with numbers.

Names of test cases, and the stems of files, are given out one after the other, and one that
is taken already goes out with a number behind it.  The numbers are tried in turn from two
on, so which names are free decides everything: a name can come out as another one that was
asked for later, which then has to give way itself.

That a free number is found at all is counting: the choices for a name are all different, so
among one more of them than there are taken names one is free.  The search of `uniqueName`
goes exactly that far.  What it gives is `IsNumbered`, which speaks about names only and has
no bound; `isNumbered_uniqueNames` says it of every name of a run, against the names that
were given before.
-/
import FlowSuite.Suite.Project
import Mathlib.Data.List.Nodup
import Mathlib.Data.List.Perm.Subperm

namespace FlowSuite

/-! ### The choices for a name -/

theorem toString_injective : Function.Injective (toString : Nat → String) := by
  intro m n h
  have hdigits : Nat.toDigits 10 m = Nat.toDigits 10 n := by
    simpa only [Nat.toString_eq_repr, Nat.toList_repr] using congrArg String.toList h
  have hread := congrArg (Nat.ofDigitChars 10 · 0) hdigits
  simpa using hread

theorem nameChoice_succ (name : String) (k : Nat) :
    nameChoice name (k + 1) = name ++ "_" ++ toString (k + 2) := rfl

theorem nameChoice_injective (name : String) : Function.Injective (nameChoice name) := by
  have hself : ∀ k, name ≠ nameChoice name (k + 1) := by
    intro k h
    have hlength := congrArg String.length h
    simp only [nameChoice_succ, String.length_append] at hlength
    have hmark : "_".length = 1 := rfl
    omega
  intro k k' h
  rcases k with _ | k <;> rcases k' with _ | k'
  · rfl
  · exact absurd h (hself k')
  · exact absurd h.symm (hself k)
  · rw [nameChoice_succ, nameChoice_succ] at h
    have hnumber := toString_injective (String.append_right_inj _ |>.mp h)
    omega

/-- There is one more choice than there are taken names, so one of them is free. -/
theorem exists_nameChoice_notMem (name : String) (taken : List String) :
    ∃ k, k < taken.length + 1 ∧ nameChoice name k ∉ taken := by
  by_contra hnone
  push Not at hnone
  have hnodup : ((List.range (taken.length + 1)).map (nameChoice name)).Nodup :=
    List.nodup_range.map (nameChoice_injective name)
  have hsubset : (List.range (taken.length + 1)).map (nameChoice name) ⊆ taken := by
    intro choice hchoice
    obtain ⟨k, hk, rfl⟩ := List.mem_map.mp hchoice
    exact hnone k (List.mem_range.mp hk)
  have hlength := (hnodup.subperm hsubset).length_le
  simp only [List.length_map, List.length_range] at hlength
  omega

/-- The name that is given is the first of the choices that is free. -/
theorem exists_uniqueName_eq (name : String) (taken : List String) :
    ∃ k, uniqueName name taken = nameChoice name k ∧ nameChoice name k ∉ taken ∧
      ∀ j < k, nameChoice name j ∈ taken := by
  obtain ⟨free, hbound, hfree⟩ := exists_nameChoice_notMem name taken
  cases hfind : ((List.range (taken.length + 1)).map (nameChoice name)).find?
      (!taken.contains ·) with
  | none =>
      have hall := List.find?_eq_none.mp hfind _
        (List.mem_map_of_mem (List.mem_range.mpr hbound))
      simp [hfree] at hall
  | some choice =>
      obtain ⟨hchoice, k, hk, hget, hbefore⟩ := List.find?_eq_some_iff_getElem.mp hfind
      rw [List.getElem_map, List.getElem_range] at hget
      subst hget
      refine ⟨k, ?_, by simpa using hchoice, ?_⟩
      · simp only [uniqueName, hfind, Option.getD_some]
      · intro j hj
        simpa using hbefore j hj

/-- What a name goes out as when others are taken: as it is if it is free, else with the
least number from two on that makes it free. -/
def IsNumbered (name : String) (taken : List String) (given : String) : Prop :=
  (name ∉ taken ∧ given = name) ∨
    (name ∈ taken ∧ ∃ k, 2 ≤ k ∧ given = name ++ "_" ++ toString k ∧ given ∉ taken ∧
      ∀ j, 2 ≤ j → j < k → name ++ "_" ++ toString j ∈ taken)

theorem IsNumbered.congr {name given : String} {taken taken' : List String}
    (htaken : ∀ s, s ∈ taken ↔ s ∈ taken') (h : IsNumbered name taken given) :
    IsNumbered name taken' given := by
  simpa only [IsNumbered, htaken] using h

theorem isNumbered_uniqueName (name : String) (taken : List String) :
    IsNumbered name taken (uniqueName name taken) := by
  obtain ⟨k, hname, hfree, hbefore⟩ := exists_uniqueName_eq name taken
  rw [hname]
  cases k with
  | zero => exact Or.inl ⟨hfree, rfl⟩
  | succ k =>
      refine Or.inr ⟨hbefore 0 (Nat.succ_pos k), k + 2, by omega, nameChoice_succ name k, hfree, ?_⟩
      intro j hj hlt
      obtain ⟨j, rfl⟩ := Nat.exists_eq_add_of_le' hj
      exact hbefore (j + 1) (by omega)

/-! ### A run of names -/

theorem mem_takenBy {t : Target} {name : String} {taken : List (Target × String)} :
    name ∈ takenBy t taken ↔ (t, name) ∈ taken := by
  simp [takenBy]

/-- No name is given twice for a target, nor one that was taken before. -/
theorem nodup_uniqueNames (taken wanted : List (Target × String)) :
    ((wanted.map (·.1)).zip (uniqueNames taken wanted)).Nodup ∧
      ∀ given ∈ (wanted.map (·.1)).zip (uniqueNames taken wanted), given ∉ taken := by
  induction wanted generalizing taken with
  | nil => simp
  | cons entry rest ih =>
      obtain ⟨t, wanted⟩ := entry
      obtain ⟨k, hname, hfree, -⟩ := exists_uniqueName_eq wanted (takenBy t taken)
      obtain ⟨hnodup, hnew⟩ := ih ((t, uniqueName wanted (takenBy t taken)) :: taken)
      simp only [uniqueNames, List.map_cons, List.zip_cons_cons]
      refine ⟨List.nodup_cons.mpr ⟨?_, hnodup⟩, ?_⟩
      · intro hagain
        exact hnew _ hagain List.mem_cons_self
      · intro given hgiven
        rcases List.mem_cons.mp hgiven with rfl | hgiven
        · rw [← mem_takenBy, hname]
          exact hfree
        · exact fun htaken => hnew given hgiven (List.mem_cons_of_mem _ htaken)

/-- A name is given to the one who asked for it, with some number. -/
theorem getElem?_uniqueNames {taken wanted : List (Target × String)} {i : Nat}
    {name : String} (h : (uniqueNames taken wanted)[i]? = some name) :
    ∃ t asked k, wanted[i]? = some (t, asked) ∧ name = nameChoice asked k := by
  induction wanted generalizing taken i with
  | nil => simp [uniqueNames] at h
  | cons entry rest ih =>
      obtain ⟨t, asked⟩ := entry
      cases i with
      | zero =>
          obtain ⟨k, hname, -⟩ := exists_uniqueName_eq asked (takenBy t taken)
          rw [uniqueNames, List.getElem?_cons_zero, Option.some.injEq] at h
          exact ⟨t, asked, k, rfl, h.symm.trans hname⟩
      | succ i => exact ih h

section

variable {t : Target} {taken : List (Target × String)} {wanted : List String}

/-- For one target alone, every name is numbered against those that were taken and those
that were given before it. -/
theorem isNumbered_uniqueNames {i : Nat} {asked given : String}
    (hasked : wanted[i]? = some asked)
    (hgiven : (uniqueNames taken (wanted.map (t, ·)))[i]? = some given) :
    IsNumbered asked
      ((uniqueNames taken (wanted.map (t, ·))).take i ++ takenBy t taken) given := by
  induction wanted generalizing taken i with
  | nil => simp at hasked
  | cons first rest ih =>
      rw [List.map_cons, uniqueNames] at hgiven ⊢
      cases i with
      | zero =>
          rw [List.getElem?_cons_zero, Option.some.injEq] at hasked hgiven
          rw [← hasked, ← hgiven, List.take_zero, List.nil_append]
          exact isNumbered_uniqueName first (takenBy t taken)
      | succ i =>
          refine (ih hasked hgiven).congr fun s => ?_
          simp only [List.take_succ_cons, List.mem_append, List.mem_cons, mem_takenBy,
            Prod.mk.injEq, true_and]
          tauto

/-- For one target alone, the names that are given differ. -/
theorem nodup_uniqueNames_map : (uniqueNames taken (wanted.map (t, ·))).Nodup := by
  have hpairs := (nodup_uniqueNames taken (wanted.map (t, ·))).1
  have htarget : ∀ u ∈ (wanted.map (t, ·)).map (·.1), u = t := by simp
  have hnames : (((wanted.map (t, ·)).map (·.1)).zip
      (uniqueNames taken (wanted.map (t, ·)))).map (·.2)
        = uniqueNames taken (wanted.map (t, ·)) := List.map_snd_zip (by simp)
  rw [← hnames]
  refine hpairs.map_on ?_
  rintro ⟨u, s⟩ hs ⟨u', s'⟩ hs' rfl
  rw [htarget u (List.of_mem_zip hs).1, htarget u' (List.of_mem_zip hs').1]

end

/-! ### The names of test cases -/

namespace Project

/-- The name that the case of an entry point asks for. -/
def askedName (p : Project) (e : Entry) : String :=
  p.target.testName e.session.testName e.position

theorem caseNames_eq (p : Project) (es : List Entry) :
    p.caseNames es = uniqueNames [] ((es.map p.askedName).map (p.target, ·)) := by
  rw [caseNames, List.map_map]
  rfl

theorem map_name_cases {p : Project} {s : Suite} (h : p.suite = .ok s) :
    s.cases.map (·.name) = p.caseNames p.entries := by
  rw [eq_of_suite_eq_ok h]
  apply List.ext_getElem
  · simp
  · intro i _ _
    simp [Project.case]

/-- The name of a case, against the names of the cases before it. -/
theorem isNumbered_caseNames {p : Project} {es : List Entry} {i : Nat} {e : Entry}
    {name : String} (he : es[i]? = some e) (hname : (p.caseNames es)[i]? = some name) :
    IsNumbered (p.askedName e) ((p.caseNames es).take i) name := by
  rw [caseNames_eq] at hname ⊢
  have hasked : (es.map p.askedName)[i]? = some (p.askedName e) := by
    rw [List.getElem?_map, he, Option.map_some]
  have hnumbered := isNumbered_uniqueNames hasked hname
  rwa [takenBy, List.filter_nil, List.map_nil, List.append_nil] at hnumbered

end Project

/-- **The cases of a suite have different names, and no number is larger than it must be.**
The case of an entry point is called as its title asks if no case before it is, else it has
the least number behind that makes it differ from all of them; there always is one. -/
theorem case_names_are_numbered (p : Project)
    (hentry : ∃ n ∈ p.flow.nodes, n.kind = .entry) :
    ∃ s : Suite,
      p.suite = .ok s ∧ s.cases.length = p.flow.entries.length ∧
      (s.cases.map (·.name)).Nodup ∧
      ∀ (i : Nat) (n : Node) (c : Case),
        p.flow.entries[i]? = some n → s.cases[i]? = some c →
        c.entry = n.id ∧
        IsNumbered (p.target.testName (Session.ofData n.data).testName (i + 1))
          ((s.cases.take i).map (·.name)) c.name := by
  have hsuite := Project.suite_eq_ok (Project.entries_ne_nil hentry)
  have hnames := Project.map_name_cases hsuite
  refine ⟨_, hsuite, by simp, ?_, ?_⟩
  · rw [hnames, Project.caseNames_eq]
    exact nodup_uniqueNames_map
  · intro i n c hn hc
    have he : p.entries[i]? = some ⟨i + 1, n⟩ := by
      rw [Project.getElem?_entries, hn, Option.map_some]
    have hname : (p.caseNames p.entries)[i]? = some c.name := by
      rw [← hnames, List.getElem?_map, hc, Option.map_some]
    refine ⟨?_, ?_⟩
    · rw [List.getElem?_zipWith, hname, he] at hc
      rw [← Option.some.inj hc]
      rfl
    · rw [List.map_take, hnames]
      exact Project.isNumbered_caseNames he hname

/-- A title that is given twice, and one that looks like the second of these. -/
def numberedTitles : Project where
  flow :=
    { nodes := [⟨"a", .entry, [("testName", .string "Login")]⟩,
        ⟨"b", .entry, [("testName", .string "Login")]⟩,
        ⟨"c", .entry, [("testName", .string "Login 2")]⟩]
      edges := [] }

/-- The third case has to give way to the number of the second. -/
theorem numberedTitles_names :
    (∃ n ∈ numberedTitles.flow.nodes, n.kind = .entry) ∧
      ∃ s : Suite,
        numberedTitles.suite = .ok s ∧
        s.cases.map (·.name) = ["test_login", "test_login_2", "test_login_2_2"] ∧
        (s.cases.map (·.name)).Nodup ∧
        IsNumbered "test_login_2" ["test_login", "test_login_2"] "test_login_2_2" := by
  have hentry : ∃ n ∈ numberedTitles.flow.nodes, n.kind = .entry :=
    ⟨_, List.mem_cons_self, rfl⟩
  obtain ⟨s, hsuite, hlength, hnodup, hnumbered⟩ := case_names_are_numbered numberedTitles hentry
  have hnames : s.cases.map (·.name) = ["test_login", "test_login_2", "test_login_2_2"] := by
    rw [Project.map_name_cases hsuite]
    decide +kernel
  refine ⟨hentry, s, hsuite, hnames, hnodup, ?_⟩
  obtain ⟨first, second, third, hcases⟩ := List.length_eq_three.mp hlength
  rw [hcases] at hnames hnumbered
  obtain ⟨-, hthird⟩ := hnumbered 2 ⟨"c", .entry, [("testName", .string "Login 2")]⟩ third rfl rfl
  have hasked : numberedTitles.target.testName
      (Session.ofData [("testName", .string "Login 2")]).testName 3 = "test_login_2" := by
    decide +kernel
  simp only [List.map_cons, List.map_nil, List.cons.injEq, and_true] at hnames
  obtain ⟨hfirst, hsecond, hname⟩ := hnames
  rw [hasked] at hthird
  simpa [hfirst, hsecond, hname] using hthird

end FlowSuite

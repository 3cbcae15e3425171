/-
Indices in accessors.

A key of digits is written into its subscript bare, so what stands there is a number of the
target's language and no longer a text.  The languages agree on digits only as long as no
zero stands in front of others: Python refuses such a number unless all of it is zeros,
JavaScript takes it for an octal one where its digits allow that, and refuses it in strict
code.  Field texts are spared this, since what counts as a number there has no such zero;
keys are told by their digits alone.

So an index is a number in all the languages, and the one that was written, exactly if it
is one that a field text could be.  Which of them are is decided by the names of the path.
-/
import FlowSuite.Proofs.Expression.Accessor
import FlowSuite.Proofs.Expression.Segments
import FlowSuite.Proofs.Number.Grammar

namespace FlowSuite

/-! ### Digits as numbers of the targets -/

/-- More than one digit, the first of which is a zero. -/
def Numeral.IsPadded (ds : List Char) : Prop :=
  IsDigits ds ∧ ds.head? = some '0' ∧ ds ≠ ['0']

/-- The number that digits are in Python.  A zero in front is an error, unless there is
nothing but zeros. -/
def Python.integer? (ds : List Char) : Option Nat :=
  if ds.head? = some '0' ∧ ds.any (· != '0') then none else some (Numeral.digitsValue ds)

/-- The number that digits below eight write to the base of eight. -/
def JavaScript.octalValue (ds : List Char) : Nat :=
  ds.foldl (fun n d => 8 * n + (d.toNat - 48)) 0

/-- The number that digits are in JavaScript.  With a zero in front of others they are an
error in strict code; elsewhere they are octal, if each of them can be an octal digit. -/
def JavaScript.integer? (strict : Bool) (ds : List Char) : Option Nat :=
  if ds.head? = some '0' ∧ ds ≠ ['0'] then
    if strict then none
    else if ds.all (· < '8') then some (octalValue ds)
    else some (Numeral.digitsValue ds)
  else some (Numeral.digitsValue ds)

namespace Numeral

/-- Digits that are the same number everywhere, the one that they write. -/
structure IsShared (ds : List Char) : Prop where
  python : Python.integer? ds = some (digitsValue ds)
  script : ∀ strict, JavaScript.integer? strict ds = some (digitsValue ds)

theorem IsDigits.isWhole_iff {ds : List Char} (h : IsDigits ds) :
    IsWhole ds ↔ ¬IsPadded ds := by
  constructor
  · rintro hwhole ⟨-, hzero, hne⟩
    rcases hwhole with hzeros | ⟨-, hhead⟩
    · exact hne hzeros
    · exact hhead hzero
  · intro hpadded
    by_cases hzero : ds.head? = some '0'
    · left
      by_contra hne
      exact hpadded ⟨h, hzero, hne⟩
    · exact Or.inr ⟨h, hzero⟩

/-- Of a number that is all digits only the whole part is there. -/
theorem IsSpelled.isWhole {ds : List Char} (h : IsSpelled ds)
    (hds : ∀ d ∈ ds, d.isDigit = true) : IsWhole ds := by
  obtain ⟨sign, whole, fraction, exponent, rfl, hsign, hwhole, hfraction, hexponent⟩ := h
  simp only [List.mem_append] at hds
  have hnosign : sign = [] := by
    rcases List.mem_pair.mp hsign with rfl | rfl
    · rfl
    · exact absurd (hds '-' (Or.inl List.mem_cons_self)) (by decide)
  have hnofraction : fraction = [] := by
    rcases hfraction with rfl | ⟨ds, rfl, -⟩
    · rfl
    · exact absurd (hds '.' (Or.inr (Or.inr (Or.inl List.mem_cons_self)))) (by decide)
  have hnoexponent : exponent = [] := by
    rcases hexponent with rfl | ⟨mark, sign, ds, rfl, hmark, -, -⟩
    · rfl
    · have hdigit := hds mark (Or.inr (Or.inr (Or.inr List.mem_cons_self)))
      exact absurd (List.mem_cons_of_mem _ hmark) (notMem_of_isDigit hdigit)
  rw [hnosign, hnofraction, hnoexponent, List.nil_append, List.append_nil, List.append_nil]
  exact hwhole

/-- Digits are a number of a field text, unless a zero stands in front of others. -/
theorem IsDigits.isDecimal_iff {ds : List Char} (h : IsDigits ds) :
    isDecimal (String.ofList ds) = true ↔ ¬IsPadded ds := by
  rw [← h.isWhole_iff]
  constructor
  · intro hdecimal
    obtain ⟨n, hread⟩ := (isDecimal_iff_exists_read _).mp hdecimal
    rw [String.toList_ofList] at hread
    exact (isSpelled_of_read hread).isWhole h.2
  · intro hwhole
    apply isDecimal_of_isSpelled
    rw [String.toList_ofList]
    refine ⟨[], ds, [], [], ?_, List.mem_cons_self, hwhole, Or.inl rfl, Or.inl rfl⟩
    rw [List.nil_append, List.append_nil, List.append_nil]

/-- It is strict code that tells a zero in front from none. -/
theorem IsDigits.isShared_iff {ds : List Char} (h : IsDigits ds) :
    IsShared ds ↔ ¬IsPadded ds := by
  constructor
  · rintro hshared ⟨-, hzero, hne⟩
    have hstrict := hshared.script true
    rw [JavaScript.integer?, if_pos ⟨hzero, hne⟩, if_pos rfl] at hstrict
    cases hstrict
  · intro hpadded
    rcases h.isWhole_iff.mpr hpadded with rfl | ⟨-, hhead⟩
    · exact ⟨rfl, fun strict => rfl⟩
    · refine ⟨if_neg ?_, fun strict => if_neg ?_⟩
      · exact fun hzero => hhead hzero.1
      · exact fun hzero => hhead hzero.1

end Numeral

/-! ### What stands in a subscript -/

namespace Target

open Numeral (IsDigits IsPadded IsShared)

theorem isIndex_iff (key : String) : isIndex key = true ↔ IsDigits key.toList := by
  simp [isIndex, IsDigits]

/-- An accessor has a subscript for each key, in their order. -/
theorem subscripts?_accessor (t : Target) (p : Path) :
    t.subscripts? (t.accessor p).toList = some (p.keys.map subscriptOf) := by
  have hnil : ([] : List Char).head? ≠ some '[' := by simp
  have hread := t.readLookup_accessor p hnil
  rw [List.append_nil] at hread
  rw [subscripts?, hread]

/-- The bare subscripts are the keys of digits. -/
theorem index_mem_map_subscriptOf {ds : List Char} {keys : List String} :
    .index ds ∈ keys.map subscriptOf ↔ IsDigits ds ∧ String.ofList ds ∈ keys := by
  rw [List.mem_map]
  constructor
  · rintro ⟨key, hkey, hsub⟩
    unfold subscriptOf at hsub
    by_cases h : isIndex key = true
    · rw [if_pos h] at hsub
      obtain rfl := Subscript.index.inj hsub
      rw [String.ofList_toList]
      exact ⟨(isIndex_iff key).mp h, hkey⟩
    · rw [if_neg h] at hsub
      cases hsub
  · rintro ⟨hdigits, hkey⟩
    refine ⟨String.ofList ds, hkey, ?_⟩
    have hindex : isIndex (String.ofList ds) = true := by
      rw [isIndex_iff, String.toList_ofList]
      exact hdigits
    rw [subscriptOf, if_pos hindex, String.toList_ofList]

end Target

open Numeral (IsDigits IsPadded IsShared)

/-- **The indices of an accessor are numbers exactly if no name of the path pads one with
zeros.**  Read from the accessor, its bare indices are the names of digits behind the first
name; one of them is the same number in every target if, and only if, it is what counts as
a number in a field text. -/
theorem indices_are_numbers_iff (t : Target) {s : String} {p : Path}
    (h : Path.parse? s = some p) :
    ∃ subscripts, t.subscripts? (t.accessor p).toList = some subscripts ∧
      (∀ ds, .index ds ∈ subscripts ↔
        IsDigits ds ∧ String.ofList ds ∈ (Text.items '.' s.toList).tail) ∧
      (∀ ds, .index ds ∈ subscripts →
        (isDecimal (String.ofList ds) = true ↔ IsShared ds)) ∧
      ((∀ ds, .index ds ∈ subscripts → isDecimal (String.ofList ds) = true) ↔
        ∀ name ∈ (Text.items '.' s.toList).tail, ¬IsPadded name.toList) := by
  have hnames : (Text.items '.' s.toList).tail = p.keys := by
    rw [Path.items_eq_of_ofChars? h, List.tail_cons]
  rw [hnames]
  have hindex : ∀ ds, .index ds ∈ p.keys.map Target.subscriptOf ↔
      IsDigits ds ∧ String.ofList ds ∈ p.keys := fun ds => Target.index_mem_map_subscriptOf
  refine ⟨_, t.subscripts?_accessor p, hindex, ?_, ?_⟩
  · intro ds hds
    have hdigits := ((hindex ds).mp hds).1
    rw [hdigits.isDecimal_iff, hdigits.isShared_iff]
  · constructor
    · intro hall name hname hpadded
      have hds := (hindex name.toList).mpr ⟨hpadded.1, by rwa [String.ofList_toList]⟩
      exact hpadded.1.isDecimal_iff.mp (hall _ hds) hpadded
    · intro hnone ds hds
      obtain ⟨hdigits, hkey⟩ := (hindex ds).mp hds
      rw [hdigits.isDecimal_iff]
      have hnot := hnone _ hkey
      rwa [String.toList_ofList] at hnot

/-- A path with an index, and with a key that only looks like one. -/
theorem secondTag_is_shared :
    Path.parse? "user.tags.1.x2" = some ⟨"user", ["tags", "1", "x2"]⟩ ∧
      ∃ subscripts,
        Target.selenium.subscripts?
          (Target.selenium.accessor ⟨"user", ["tags", "1", "x2"]⟩).toList = some subscripts ∧
        .index ['1'] ∈ subscripts ∧ isDecimal "1" = true ∧ IsShared ['1'] := by
  have hparse : Path.parse? "user.tags.1.x2" = some ⟨"user", ["tags", "1", "x2"]⟩ := by
    decide +kernel
  obtain ⟨subscripts, hread, hindex, hshared, -⟩ := indices_are_numbers_iff .selenium hparse
  have hdecimal : isDecimal "1" = true := by decide +kernel
  have hmem : .index ['1'] ∈ subscripts := by
    rw [hindex]
    exact ⟨Numeral.isDigits_singleton rfl, by decide +kernel⟩
  exact ⟨hparse, subscripts, hread, hmem, hdecimal, (hshared _ hmem).mp hdecimal⟩

/-- The tenth day, written with a zero in front, is no number of a field text, an error in
Python and the eighth day in JavaScript. -/
theorem tenthDay_is_no_number :
    Path.parse? "days.010" = some ⟨"days", ["010"]⟩ ∧
      (∀ t : Target, t.subscripts? (t.accessor ⟨"days", ["010"]⟩).toList
        = some [.index "010".toList]) ∧
      isDecimal "010" = false ∧
      Python.integer? "010".toList = none ∧
      JavaScript.integer? true "010".toList = none ∧
      JavaScript.integer? false "010".toList = some 8 := by
  refine ⟨by decide +kernel, ?_, by decide +kernel, by decide, by decide, by decide⟩
  intro t
  cases t with
  | selenium => decide +kernel
  | cypress => decide +kernel

end FlowSuite

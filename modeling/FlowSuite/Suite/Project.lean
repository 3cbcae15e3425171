/-
From a flow to suites.

A project says of a flow which target it is for and what its suite is called.  Its
entry points make one suite with a case each, or one file each.  As a file of its own,
an entry point may choose another target, and its suite is called as its case is.
-/
import FlowSuite.Script.Unfold
import FlowSuite.Step.Decode
import FlowSuite.Suite.Basic
import FlowSuite.Suite.Error
import FlowSuite.Suite.Name

namespace FlowSuite

/-- A flow, and what to make of it. -/
structure Project where
  flow : Flow
  target : Target := .selenium
  name : String := "Generated Suite"
  deriving Repr

namespace Project

/-- The project under another name; a blank one changes nothing. -/
def named (p : Project) (name : String) : Project :=
  if Text.isBlankText name then p else { p with name := Text.trim name }

/-- An entry point, at its position among the entry points. -/
structure Entry where
  position : Nat
  node : Node
  deriving Repr

/-- The session that an entry point starts. -/
def Entry.session (e : Entry) : Session := Session.ofData e.node.data

/-- The entry points, counted from one. -/
def entries (p : Project) : List Entry :=
  (p.flow.entries.zipIdx 1).map fun (node, position) => ⟨position, node⟩

/-- The entry points, of which there must be one. -/
def entries? (p : Project) : Except SuiteError (List Entry) :=
  if p.entries.isEmpty then .error .noEntryPoint else .ok p.entries

/-- The case of an entry point. -/
def case (p : Project) (name : String) (e : Entry) : Case :=
  { name, entry := e.node.id, script := p.flow.script e.node }

/-! ### One suite -/

/-- The names of the suite's cases. -/
def caseNames (p : Project) (es : List Entry) : List String :=
  uniqueNames [] (es.map fun e => (p.target, p.target.testName e.session.testName e.position))

/-- The suite of all entry points. -/
def suite (p : Project) : Except SuiteError Suite := do
  let es ← p.entries?
  return { target := p.target, name := p.name, cases := (p.caseNames es).zipWith p.case es }

/-! ### One file for each entry point -/

/-- The target of an entry point's own file: the one it asks for, if there is such. -/
def targetOf (p : Project) (e : Entry) : Target :=
  (e.session.framework.bind Target.parse?).getD p.target

/-- What an entry point's own suite is called. -/
def titleOf (p : Project) (e : Entry) : String :=
  e.session.testName.getD s!"{p.name} {e.position}"

/-- The name of the case in an entry point's own suite. -/
def testNameOf (p : Project) (e : Entry) : String :=
  (p.targetOf e).testName (some (p.titleOf e)) e.position

/-- The names after which the files are called. -/
def stems (p : Project) (es : List Entry) : List String :=
  uniqueNames [] (es.map fun e => (p.targetOf e, p.testNameOf e))

/-- An entry point's own file. -/
def file (p : Project) (stem : String) (e : Entry) : SuiteFile where
  name := (p.targetOf e).fileName stem
  suite :=
    { target := p.targetOf e, name := p.titleOf e, cases := [p.case (p.testNameOf e) e] }

/-- The files of all entry points. -/
def files (p : Project) : Except SuiteError (List SuiteFile) := do
  let es ← p.entries?
  return (p.stems es).zipWith p.file es

/-! ### Small lemmas -/

@[simp] theorem length_entries (p : Project) : p.entries.length = p.flow.entries.length := by
  simp [entries]

@[simp] theorem getElem_entries (p : Project) (i : Nat) (h : i < p.entries.length) :
    p.entries[i] = ⟨i + 1, p.flow.entries.get ⟨i, by simpa using h⟩⟩ := by
  simp [entries, Nat.add_comm]

theorem getElem?_entries (p : Project) (i : Nat) :
    p.entries[i]? = p.flow.entries[i]?.map (Entry.mk (i + 1)) := by
  simp [entries, Nat.add_comm, Function.comp_def]

theorem entries_ne_nil {g : Flow} (h : ∃ n ∈ g.nodes, n.kind = .entry) : g.entries ≠ [] := by
  obtain ⟨n, hn, hkind⟩ := h
  exact List.ne_nil_of_mem (List.mem_filter.mpr ⟨hn, by simp [hkind]⟩)

theorem entries?_eq_ok {p : Project} (h : p.flow.entries ≠ []) : p.entries? = .ok p.entries := by
  have hentries : p.entries.isEmpty = false := by
    rw [List.isEmpty_eq_false_iff, ← List.length_pos_iff, length_entries, List.length_pos_iff]
    exact h
  simp [entries?, hentries]

@[simp] theorem length_caseNames (p : Project) (es : List Entry) :
    (p.caseNames es).length = es.length := by
  simp [caseNames]

@[simp] theorem length_stems (p : Project) (es : List Entry) :
    (p.stems es).length = es.length := by
  simp [stems]

theorem suite_eq_ok {p : Project} (h : p.flow.entries ≠ []) :
    p.suite = .ok ⟨p.target, p.name, (p.caseNames p.entries).zipWith p.case p.entries⟩ := by
  rw [suite, entries?_eq_ok h]
  rfl

theorem entries?_eq_error {p : Project} (h : p.flow.entries = []) :
    p.entries? = .error .noEntryPoint := by
  have hentries : p.entries = [] := by rw [entries, h]; rfl
  rw [entries?, hentries]
  rfl

theorem suite_eq_error {p : Project} (h : p.flow.entries = []) :
    p.suite = .error .noEntryPoint := by
  rw [suite, entries?_eq_error h]
  rfl

theorem files_eq_error {p : Project} (h : p.flow.entries = []) :
    p.files = .error .noEntryPoint := by
  rw [files, entries?_eq_error h]
  rfl

theorem files_eq_ok {p : Project} (h : p.flow.entries ≠ []) :
    p.files = .ok ((p.stems p.entries).zipWith p.file p.entries) := by
  rw [files, entries?_eq_ok h]
  rfl

theorem eq_of_suite_eq_ok {p : Project} {s : Suite} (h : p.suite = .ok s) :
    s = ⟨p.target, p.name, (p.caseNames p.entries).zipWith p.case p.entries⟩ := by
  unfold suite entries? at h
  split at h
  · cases h
  · cases h
    rfl

theorem eq_of_files_eq_ok {p : Project} {fs : List SuiteFile} (h : p.files = .ok fs) :
    fs = (p.stems p.entries).zipWith p.file p.entries := by
  unfold files entries? at h
  split at h
  · cases h
  · cases h
    rfl

/-- What does not depend on the name of a case is told by the entry points alone. -/
theorem map_zipWith_case {α : Type} (p : Project) (f : Case → α) (f' : Node → α)
    (hf : ∀ name e, f (p.case name e) = f' e.node) :
    ((p.caseNames p.entries).zipWith p.case p.entries).map f = p.flow.entries.map f' := by
  apply List.ext_getElem
  · simp
  · intro i _ _
    simp [hf]

theorem flatMap_zipWith_case {α : Type} (p : Project) (f : Case → List α)
    (f' : Node → List α) (hf : ∀ name e, f (p.case name e) = f' e.node) :
    ((p.caseNames p.entries).zipWith p.case p.entries).flatMap f = p.flow.entries.flatMap f' := by
  rw [List.flatMap_def, List.flatMap_def, map_zipWith_case p f f' hf]

theorem map_entry_eq {p : Project} {s : Suite} (h : p.suite = .ok s) :
    s.cases.map (·.entry) = p.flow.entries.map (·.id) := by
  rw [eq_of_suite_eq_ok h]
  exact p.map_zipWith_case _ _ fun _ _ => rfl

theorem map_script_eq {p : Project} {s : Suite} (h : p.suite = .ok s) :
    s.cases.map (·.script) = p.flow.entries.map p.flow.script := by
  rw [eq_of_suite_eq_ok h]
  exact p.map_zipWith_case _ _ fun _ _ => rfl

theorem map_entry_files_eq {p : Project} {fs : List SuiteFile} (h : p.files = .ok fs) :
    fs.map (·.suite.cases.map (·.entry)) = p.flow.entries.map fun n => [n.id] := by
  rw [eq_of_files_eq_ok h]
  apply List.ext_getElem
  · simp
  · intro i _ _
    simp [file, Project.case]

end Project

end FlowSuite

/-
Cases do not see each other.

A suite is computed case by case, each from the script of its entry point.  The same
suite can be written in one pass: go along the edges of the flow, write each step where
it is met, at the level of its block, count it and put its problems on a log, and keep
that one log for all cases.  `Flow.record` is such a walk, without any script in between,
and `Flow.onePass` writes a whole suite with it; what a case has is told by how far
the log moved.

A walk adds to the log and never looks at it, so it writes the same and adds the same
whatever the log holds.  That is `writes_record`, by induction along the walk.  All the rest
follows from it: a pass over all cases, a walk from one entry point with a new log, and
the file of an entry point have the same text and the same problems.
-/
import FlowSuite.Proofs.Nesting
import FlowSuite.Suite.Project

namespace FlowSuite

/-! ### The log -/

/-- What has been written so far: the number of steps, and the problems. -/
structure Log where
  steps : Nat := 0
  problems : List Diagnostic := []
  deriving DecidableEq, Repr

namespace Log

/-- The log after one more step with its problems. -/
def step (log : Log) (id : String) (ps : List Problem) : Log :=
  ⟨log.steps + 1, log.problems ++ ps.map (Diagnostic.mk id)⟩

/-- The log after a cut, which is no step. -/
def cut (log : Log) (id : String) : Log :=
  ⟨log.steps, log.problems ++ [⟨id, .cycle⟩]⟩

/-- The log after everything in a script. -/
def add (log : Log) (t : Target) (s : Script) : Log :=
  ⟨log.steps + s.size, log.problems ++ s.diagnostics t⟩

end Log

/-! ### A walk that writes -/

/-- The text from a node on, in a block at a level of indentation.  The arms of a branch
and the body of a loop are written by walks of their own, further down. -/
def Flow.record (g : Flow) (t : Target) (ids : List String) (level : Nat) (node : Node)
    (scope : Scope) (isRoot : Bool) : StateM Log String :=
  if _h : node.id ∈ ids ∧ scope.closes node.id = false then
    let inner := scope.enter node.id
    let site : Site := ⟨node.id, isRoot, g.elementOf node.id⟩
    match node.step with
    | .action a => do
        let problems := t.actionProblems site a
        modify (·.step node.id problems)
        let rest ← (g.target? node.id .flow).elim (pure "") fun next =>
          g.record t ids level next inner false
        return Line.renderAll level (t.notes problems ++ t.action site a) ++ rest
    | .branch c => do
        let problems := t.branchProblems site c
        let f := t.fork c site.element
        let idle := Line.renderAll level [below f.depth f.idle]
        modify (·.step node.id problems)
        let yes ← (g.target? node.id .whenTrue).elim (pure idle) fun next =>
          g.record t ids (level + f.depth) next inner false
        let no ← (g.target? node.id .whenFalse).elim (pure idle) fun next =>
          g.record t ids (level + f.depth) next inner false
        return Line.renderAll level (t.notes problems ++ f.opening) ++ yes ++
          Line.renderAll level f.between ++ no ++ Line.renderAll level f.closing
    | .loop l => do
        let problems := Target.loopProblems site l
        let r := t.rounds site l
        modify (·.step node.id problems)
        let body ←
          (if l.isWired site.element then
            (g.target? node.id .body).elim (pure "") fun next =>
              g.record t ids (level + r.depth) next (inner.loopBody node.id) false
          else pure "")
        let rest ← (g.target? node.id .done).elim (pure "") fun next =>
          g.record t ids level next inner false
        return Line.renderAll level (t.notes problems ++ r.opening) ++ body ++
          Line.renderAll level r.closing ++ rest
  else do
    modify (·.cut node.id)
    return Line.renderAll level [t.marker node.id]
termination_by scope.rank ids ids
decreasing_by
  all_goals first
    | exact Scope.rank_enter_lt _h.1 _h.2
    | exact Scope.rank_loopBody_lt _h.1 _h.1 _h.2

/-! ### The log does not matter -/

namespace Log

theorem add_stop (log : Log) (t : Target) : log.add t .stop = log := by
  simp [add, Script.size, Script.diagnostics]

theorem add_cut (log : Log) (t : Target) (id : String) : log.add t (.cut id) = log.cut id := rfl

theorem add_action (log : Log) (t : Target) (site : Site) (a : Action) (next : Script) :
    log.add t (.action site a next) = (log.step site.id (t.actionProblems site a)).add t next := by
  simp [add, step, Script.size, Script.diagnostics]
  omega

theorem add_branch (log : Log) (t : Target) (site : Site) (c : Check) (yes no : Script) :
    log.add t (.branch site c yes no)
      = ((log.step site.id (t.branchProblems site c)).add t yes).add t no := by
  simp [add, step, Script.size, Script.diagnostics]
  omega

theorem add_loop (log : Log) (t : Target) (site : Site) (l : Loop) (body next : Script) :
    log.add t (.loop site l body next)
      = ((log.step site.id (Target.loopProblems site l)).add t body).add t next := by
  simp [add, step, Script.size, Script.diagnostics]
  omega

end Log

/-- From any log, the walk gives this text and adds what the script has. -/
def Writes (t : Target) (walk : StateM Log String) (text : String) (s : Script) : Prop :=
  ∀ log, walk.run log = (text, log.add t s)

theorem run_bind_of_run {α β : Type} {m : StateM Log α} {log log' : Log} {a : α}
    (h : m.run log = (a, log')) (k : α → StateM Log β) : (m >>= k).run log = (k a).run log' := by
  rw [StateT.run_bind, h]
  rfl

theorem Writes.run_bind {α : Type} {t : Target} {walk : StateM Log String} {text : String}
    {s : Script} (h : Writes t walk text s) (k : String → StateM Log α) (log : Log) :
    (walk >>= k).run log = (k text).run (log.add t s) :=
  run_bind_of_run (h log) k

theorem run_modify_bind {α : Type} (f : Log → Log) (k : PUnit → StateM Log α) (log : Log) :
    (modify f >>= k).run log = (k ⟨⟩).run (f log) := rfl

theorem writes_stop (t : Target) (text : String) : Writes t (pure text) text .stop := by
  intro log
  rw [Log.add_stop]
  rfl

theorem writes_elim {t : Target} {level : Nat} (target : Option Node)
    {walk : Node → StateM Log String} {f : Node → Script}
    (h : ∀ n, Writes t (walk n) ((f n).text t level) (f n)) :
    Writes t (target.elim (pure "") walk) ((target.elim .stop f).text t level)
      (target.elim .stop f) := by
  cases target with
  | none => exact writes_stop t ""
  | some n => exact h n

theorem writes_ite {t : Target} {level : Nat} (wired : Prop) [Decidable wired]
    {walk : StateM Log String} {s : Script} (h : Writes t walk (s.text t level) s) :
    Writes t (if wired then walk else pure "") ((if wired then s else .stop).text t level)
      (if wired then s else .stop) := by
  by_cases hwired : wired
  · simp only [if_pos hwired]
    exact h
  · simp only [if_neg hwired]
    exact writes_stop t ""

/-- An arm that leads somewhere has the lines of its script, further down. -/
theorem Fork.arm_walk (f : Fork) (g : Flow) (ids : List String) (node : Node) (scope : Scope)
    (isRoot : Bool) (ls : List Line) :
    f.arm (g.walk ids node scope isRoot) ls = shift f.depth ls := by
  fun_cases Flow.walk g ids node scope isRoot <;> rfl

theorem writes_arm {g : Flow} {t : Target} {ids : List String} {level : Nat} (f : Fork)
    (target : Option Node) {scope : Scope}
    (h : ∀ n, Writes t (g.record t ids (level + f.depth) n scope false)
      ((g.walk ids n scope false).text t (level + f.depth)) (g.walk ids n scope false)) :
    Writes t
      (target.elim (pure (Line.renderAll level [below f.depth f.idle])) fun n =>
        g.record t ids (level + f.depth) n scope false)
      (Line.renderAll level
        (f.arm (target.elim .stop fun n => g.walk ids n scope false)
          ((target.elim .stop fun n => g.walk ids n scope false).lines t)))
      (target.elim .stop fun n => g.walk ids n scope false) := by
  cases target with
  | none => exact writes_stop t _
  | some n =>
      rw [Option.elim_some, Option.elim_some, Fork.arm_walk, Line.renderAll_shift]
      exact h n

/-- **A walk writes the text of its script and adds the script to the log, whatever the
log holds and wherever the walk has been.** -/
theorem writes_record (g : Flow) (t : Target) (ids : List String) (level : Nat) (node : Node)
    (scope : Scope) (isRoot : Bool) :
    Writes t (g.record t ids level node scope isRoot)
      ((g.walk ids node scope isRoot).text t level) (g.walk ids node scope isRoot) := by
  fun_induction Flow.walk g ids node scope isRoot generalizing level with
  | case1 node scope isRoot hopen inner site a hstep ih =>
      intro log
      have hnext := writes_elim (g.target? node.id .flow) fun n => ih n level
      rw [Flow.record, dif_pos hopen, Log.add_action, Script.text, Script.lines]
      simp only [hstep, Line.renderAll_append]
      rw [run_modify_bind, hnext.run_bind]
      rfl
  | case2 node scope isRoot hopen inner site c hstep ih =>
      intro log
      let f := t.fork c site.element
      have hyes := writes_arm f (g.target? node.id .whenTrue) fun n => ih n (level + f.depth)
      have hno := writes_arm f (g.target? node.id .whenFalse) fun n => ih n (level + f.depth)
      rw [Flow.record, dif_pos hopen, Log.add_branch, Script.text, Script.lines]
      simp only [hstep, Line.renderAll_append]
      rw [run_modify_bind, hyes.run_bind, hno.run_bind]
      rfl
  | case3 node scope isRoot hopen inner site l hstep ihbody ihdone =>
      intro log
      let r := t.rounds site l
      have hbody := writes_ite (l.isWired site.element = true)
        (writes_elim (g.target? node.id .body) fun n => ihbody n (level + r.depth))
      have hdone := writes_elim (g.target? node.id .done) fun n => ihdone n level
      rw [Flow.record, dif_pos hopen, Log.add_loop, Script.text, Script.lines]
      simp only [hstep, Line.renderAll_append, Line.renderAll_shift]
      rw [run_modify_bind, hbody.run_bind, hdone.run_bind]
      rfl
  | case4 node scope isRoot hclosed =>
      intro log
      rw [Flow.record, dif_neg hclosed, Log.add_cut]
      rfl

/-! ### One log for many cases -/

/-- What a suite tells of a case: how many steps it has, and how many problems. -/
structure Summary where
  name : String
  entry : String
  steps : Nat
  problems : Nat
  deriving DecidableEq, Repr

/-- What comes of a suite: the text of its file, a summary of each case, and all problems. -/
structure Written where
  source : String
  summaries : List Summary
  problems : List Diagnostic
  deriving DecidableEq, Repr

def Case.summary (t : Target) (c : Case) : Summary :=
  ⟨c.name, c.entry, c.steps, (c.diagnostics t).length⟩

def Suite.written (s : Suite) : Written :=
  ⟨s.source, s.cases.map (Case.summary s.target), s.diagnostics⟩

namespace Flow

/-- The case of an entry point. -/
def case (g : Flow) (named : String × Node) : Case :=
  ⟨named.1, named.2.id, g.script named.2⟩

/-- The steps of an entry point. -/
def recordFrom (g : Flow) (t : Target) (root : Node) : StateM Log String :=
  g.record t (root.id :: g.ids) t.bodyLevel root {} true

/-- The text and the log of an entry point that is walked alone. -/
def alone (g : Flow) (t : Target) (root : Node) : String × Log :=
  (g.recordFrom t root).run {}

/-- A case, whose steps and problems are those that the log did not have before. -/
def recordCase (g : Flow) (t : Target) (named : String × Node) : StateM Log (String × Summary) := do
  let before ← get
  let body ← g.recordFrom t named.2
  let after ← get
  return (t.testCase named.1 body,
    { name := named.1, entry := named.2.id, steps := after.steps - before.steps,
      problems := after.problems.length - before.problems.length })

/-- A suite that is written in one pass over its entry points, each with the name of its
case, on one log. -/
def onePass (g : Flow) (t : Target) (title : String) (roots : List (String × Node)) : Written :=
  let (cases, log) := (roots.mapM (g.recordCase t)).run {}
  { source := t.prologue title roots.length ++ String.join (cases.map (·.1)) ++ t.epilogue,
    summaries := cases.map (·.2),
    problems := log.problems }

theorem writes_recordFrom (g : Flow) (t : Target) (named : String × Node) :
    Writes t (g.recordFrom t named.2) ((g.case named).body t) (g.case named).script :=
  writes_record g t _ _ _ _ _

/-- What an entry point gives alone is what its case has. -/
theorem alone_eq (g : Flow) (t : Target) (named : String × Node) :
    g.alone t named.2
      = ((g.case named).body t, ⟨(g.case named).steps, (g.case named).diagnostics t⟩) := by
  rw [alone, writes_recordFrom g t named {}, Log.add, Nat.zero_add, List.nil_append]
  rfl

theorem run_recordCase (g : Flow) (t : Target) (named : String × Node) (log : Log) :
    (g.recordCase t named).run log
      = (((g.case named).source t, (g.case named).summary t),
          log.add t (g.case named).script) := by
  have hsteps : (log.add t (g.case named).script).steps - log.steps = (g.case named).steps :=
    Nat.add_sub_cancel_left ..
  have hproblems : (log.add t (g.case named).script).problems.length - log.problems.length
      = ((g.case named).diagnostics t).length := by
    rw [Log.add, List.length_append]
    exact Nat.add_sub_cancel_left ..
  rw [recordCase, StateT.run_bind, StateT.run_get, pure_bind,
    (writes_recordFrom g t named).run_bind, Case.summary, ← hsteps, ← hproblems]
  rfl

/-- A pass writes each case as it is, and its log ends with the problems of all. -/
theorem run_mapM_recordCase (g : Flow) (t : Target) (roots : List (String × Node)) (log : Log) :
    ∃ log' : Log,
      (roots.mapM (g.recordCase t)).run log
        = ((roots.map g.case).map fun c => (c.source t, c.summary t), log') ∧
      log'.problems = log.problems ++ (roots.map g.case).flatMap (Case.diagnostics t) := by
  induction roots generalizing log with
  | nil => exact ⟨log, rfl, (List.append_nil _).symm⟩
  | cons named rest ih =>
      obtain ⟨log', hrun, hproblems⟩ := ih (log.add t (g.case named).script)
      refine ⟨log', ?_, ?_⟩
      · rw [List.mapM_cons, run_bind_of_run (g.run_recordCase t named log), run_bind_of_run hrun]
        rfl
      · rw [hproblems, Log.add, List.append_assoc]
        rfl

/-- **One pass writes the suite of its cases.** -/
theorem onePass_eq (g : Flow) (t : Target) (title : String) (roots : List (String × Node)) :
    g.onePass t title roots = Suite.written ⟨t, title, roots.map g.case⟩ := by
  obtain ⟨log, hrun, hproblems⟩ := g.run_mapM_recordCase t roots {}
  rw [onePass, hrun, Suite.written, Suite.source, Suite.diagnostics]
  simp [hproblems, Function.comp_def]

end Flow

/-! ### Suites and files -/

namespace Project

/-- The cases of the suite, from the names they have. -/
theorem cases_eq {p : Project} {s : Suite} (h : p.suite = .ok s) :
    s.cases = ((s.cases.map (·.name)).zip p.flow.entries).map p.flow.case := by
  rw [eq_of_suite_eq_ok h]
  apply List.ext_getElem
  · simp
  · intro i _ _
    simp [Project.case, Flow.case]

theorem map_alone_eq {p : Project} {s : Suite} (h : p.suite = .ok s) :
    s.cases.map (fun c => (c.body p.target, (⟨c.steps, c.diagnostics p.target⟩ : Log)))
      = p.flow.entries.map (p.flow.alone p.target) := by
  rw [eq_of_suite_eq_ok h]
  exact p.map_zipWith_case _ _ fun name e => (p.flow.alone_eq p.target (name, e.node)).symm

/-- A case and a file at the same position are of the same entry point. -/
theorem exists_entry_of_getElem? {p : Project} {s : Suite} {fs : List SuiteFile}
    (hs : p.suite = .ok s) (hfs : p.files = .ok fs) {i : Nat} {n : Node} {c : Case}
    {f : SuiteFile} (hn : p.flow.entries[i]? = some n) (hc : s.cases[i]? = some c)
    (hf : fs[i]? = some f) :
    ∃ (e : Entry) (name stem : String),
      e.node = n ∧ c = p.case name e ∧ f = p.file stem e := by
  rw [eq_of_suite_eq_ok hs] at hc
  rw [eq_of_files_eq_ok hfs] at hf
  obtain ⟨name, e, -, he, rfl⟩ := List.getElem?_zipWith_eq_some.mp hc
  obtain ⟨stem, e', -, he', rfl⟩ := List.getElem?_zipWith_eq_some.mp hf
  obtain rfl : e = e' := Option.some.inj (he.symm.trans he')
  obtain ⟨n', hn', rfl⟩ := Option.map_eq_some_iff.mp (p.getElem?_entries i ▸ he)
  exact ⟨_, name, stem, Option.some.inj (hn'.symm.trans hn), rfl, rfl⟩

/-- The file of an entry point is written by a pass over that entry point alone. -/
theorem written_file (p : Project) (stem : String) (e : Entry) :
    (p.file stem e).suite.written
      = p.flow.onePass (p.targetOf e) (p.titleOf e) [(p.testNameOf e, e.node)] := by
  rw [Flow.onePass_eq]
  rfl

theorem source_file (p : Project) (stem : String) (e : Entry) :
    (p.file stem e).suite.source
      = (p.targetOf e).prologue (p.titleOf e) 1
        ++ (p.targetOf e).testCase (p.testNameOf e)
          ((p.case (p.testNameOf e) e).body (p.targetOf e))
        ++ (p.targetOf e).epilogue := by
  simp [Suite.source, file, Case.source, Project.case]

theorem diagnostics_file (p : Project) (stem : String) (e : Entry) :
    (p.file stem e).suite.diagnostics = (p.case stem e).diagnostics (p.targetOf e) := by
  simp [Suite.diagnostics, file, Case.diagnostics, Project.case]

end Project

/-- **Cases do not see each other.**  The suite has a case for each entry point, in order.
A pass over all of them on one log writes it, and each case has the text, the steps and the
problems that its entry point gives alone.  There is a file for each entry point as well,
written by a pass over that entry point only; a file for the suite's own target has the
text and the problems of the case. -/
theorem cases_do_not_see_each_other (p : Project) (hentry : ∃ n ∈ p.flow.nodes, n.kind = .entry) :
    ∃ (s : Suite) (fs : List SuiteFile),
      p.suite = .ok s ∧ p.files = .ok fs ∧
      s.cases.map (·.entry) = p.flow.entries.map (·.id) ∧
      fs.map (·.suite.cases.map (·.entry)) = p.flow.entries.map (fun n => [n.id]) ∧
      s.written = p.flow.onePass p.target p.name ((s.cases.map (·.name)).zip p.flow.entries) ∧
      s.cases.map (fun c => (c.body p.target, (⟨c.steps, c.diagnostics p.target⟩ : Log)))
        = p.flow.entries.map (p.flow.alone p.target) ∧
      s.diagnostics = p.flow.entries.flatMap (fun n => (p.flow.alone p.target n).2.problems) ∧
      ∀ (i : Nat) (n : Node) (c : Case) (f : SuiteFile),
        p.flow.entries[i]? = some n → s.cases[i]? = some c → fs[i]? = some f →
        ∃ name : String,
          f.suite.written = p.flow.onePass f.suite.target f.suite.name [(name, n)] ∧
          (f.suite.target = p.target →
            f.suite.source = p.target.prologue f.suite.name 1
              ++ p.target.testCase name (c.body p.target) ++ p.target.epilogue ∧
            f.suite.diagnostics = c.diagnostics p.target) := by
  have hentries : p.flow.entries ≠ [] := Project.entries_ne_nil hentry
  obtain ⟨s, hs⟩ : ∃ s, p.suite = .ok s := ⟨_, Project.suite_eq_ok hentries⟩
  obtain ⟨fs, hfs⟩ : ∃ fs, p.files = .ok fs := ⟨_, Project.files_eq_ok hentries⟩
  have htarget : s.target = p.target := by rw [Project.eq_of_suite_eq_ok hs]
  refine ⟨s, fs, hs, hfs, Project.map_entry_eq hs, Project.map_entry_files_eq hfs, ?_,
    Project.map_alone_eq hs, ?_, ?_⟩
  · rw [Flow.onePass_eq, ← Project.cases_eq hs, ← htarget,
      show p.name = s.name by rw [Project.eq_of_suite_eq_ok hs]]
  · rw [← List.flatMap_map (p.flow.alone p.target) (·.2.problems), ← Project.map_alone_eq hs,
      List.flatMap_map, ← htarget]
    rfl
  · intro i n c f hn hc hf
    obtain ⟨e, name, stem, rfl, rfl, rfl⟩ := Project.exists_entry_of_getElem? hs hfs hn hc hf
    refine ⟨p.testNameOf e, p.written_file stem e, fun hown => ⟨?_, ?_⟩⟩
    · rw [Project.source_file, show p.targetOf e = p.target from hown]
      rfl
    · rw [Project.diagnostics_file, show p.targetOf e = p.target from hown]
      rfl

/-- Two entry points that lead to the same click on nothing, one of which asks for a file
of the other target. -/
def sharedTail : Project where
  flow :=
    { nodes := [⟨"start", .entry, []⟩, ⟨"again", .entry, [("framework", .string "cypress")]⟩,
        ⟨"press", .interact, []⟩]
      edges := [.flow "e1" "start" "press", .flow "e2" "again" "press"] }

theorem sharedTail_files :
    (∃ n ∈ sharedTail.flow.nodes, n.kind = .entry) ∧
      ∃ (s : Suite) (fs : List SuiteFile),
        sharedTail.suite = .ok s ∧ sharedTail.files = .ok fs ∧
        s.written.summaries.map (fun c => (c.entry, c.steps, c.problems))
          = [("start", 2, 1), ("again", 2, 1)] ∧
        fs.map (·.suite.cases.map (·.entry)) = [["start"], ["again"]] := by
  have hentry : ∃ n ∈ sharedTail.flow.nodes, n.kind = .entry := ⟨_, List.mem_cons_self, rfl⟩
  obtain ⟨s, fs, hs, hfs, -, hfiles, hwritten, -⟩ := cases_do_not_see_each_other sharedTail hentry
  refine ⟨hentry, s, fs, hs, hfs, ?_, ?_⟩
  · rw [hwritten, Project.eq_of_suite_eq_ok hs]
    decide +kernel
  · rw [hfiles]
    decide +kernel

end FlowSuite

/-
What the targets report.

Suites for both targets are written from the same scripts, so they have the same cases
with the same steps.  Their reports differ: Selenium does not see the traffic of a page,
and it has a driver for some browsers only.  Whatever else is wrong with a step is wrong
for both.

Reports are for people, so what only Selenium reports is told here by what a line of
the report says, its kind and its wording, and not by the cause behind it.  That the
wordings tell the causes apart is the first thing to prove; the rest is done by cause,
step by step and then along the script.
-/
import FlowSuite.Suite.Project

namespace FlowSuite

/-- A line of a report: the node, the kind of its problem, and the wording. -/
structure Finding where
  node : String
  kind : ProblemKind
  message : String
  deriving DecidableEq, Repr

namespace Finding

/-- A browser that there is no driver for. -/
def IsBrowser (f : Finding) : Prop :=
  f.kind = .unrecognizedValue ∧ Text.startsWith f.message "browser '" = true

/-- A look at the traffic of the page: an assertion, the question of a branch, a rule for
requests, or a pause until a request is made. -/
def IsTraffic (f : Finding) : Prop :=
  f.kind = .unsupported ∧
    (f.message ∈ ["network status assertions are not supported by Selenium",
        "network status conditions are not supported by Selenium",
        "request interception is not supported by Selenium"] ∨
      Text.startsWith f.message "waiting on '@" = true)

instance (f : Finding) : Decidable f.IsBrowser :=
  inferInstanceAs (Decidable (_ ∧ _))

instance (f : Finding) : Decidable f.IsTraffic :=
  inferInstanceAs (Decidable (_ ∧ _))

/-- What only Selenium reports. -/
def isSeleniumOnly (f : Finding) : Bool :=
  f.IsBrowser ∨ f.IsTraffic

end Finding

/-- The line of the report for a problem. -/
def Diagnostic.finding (d : Diagnostic) : Finding :=
  ⟨d.node, d.problem.kind, d.problem.message⟩

/-- The report of a suite. -/
def Suite.findings (s : Suite) : List Finding :=
  s.diagnostics.map Diagnostic.finding

/-- The causes of what only Selenium reports. -/
def Problem.isSeleniumOnly : Problem → Bool
  | .unknownBrowser _ => true
  | .networkAssertion => true
  | .networkCondition => true
  | .networkWait _ => true
  | .interception => true
  | _ => false

/-! ### Wordings tell causes apart -/

namespace Finding

theorem not_isBrowser_of_unknown {f : Finding}
    (h : Text.startsWith f.message "unknown " = true) : ¬ f.IsBrowser := by
  rintro ⟨-, hbrowser⟩
  rw [Text.startsWith_eq_false h (by decide) (by decide)] at hbrowser
  cases hbrowser

theorem not_isTraffic_of_while {f : Finding}
    (h : Text.startsWith f.message "while " = true) : ¬ f.IsTraffic := by
  rintro ⟨-, hmessage | hwaiting⟩
  · have hother : ∀ s ∈ ["network status assertions are not supported by Selenium",
        "network status conditions are not supported by Selenium",
        "request interception is not supported by Selenium"],
        Text.startsWith s "while " = false := by decide
    rw [hother _ hmessage] at h
    cases h
  · rw [Text.startsWith_eq_false h (by decide) (by decide)] at hwaiting
    cases hwaiting

theorem isSeleniumOnly_eq_false_of_kind {f : Finding} (hvalue : f.kind ≠ .unrecognizedValue)
    (hunsupported : f.kind ≠ .unsupported) : f.isSeleniumOnly = false := by
  simp [isSeleniumOnly, IsBrowser, IsTraffic, hvalue, hunsupported]

theorem isSeleniumOnly_eq_false_of_unknown {f : Finding} (hkind : f.kind = .unrecognizedValue)
    (h : Text.startsWith f.message "unknown " = true) : f.isSeleniumOnly = false := by
  have hbrowser := not_isBrowser_of_unknown h
  simp [isSeleniumOnly, IsTraffic, hkind, hbrowser]

end Finding

/-- Only Selenium reports a finding if and only if its cause is one of Selenium's. -/
theorem Diagnostic.isSeleniumOnly_finding (d : Diagnostic) :
    d.finding.isSeleniumOnly = d.problem.isSeleniumOnly := by
  obtain ⟨node, p⟩ := d
  cases p with
  | unknownBrowser browser =>
      have hmessage : Text.startsWith (Problem.unknownBrowser browser).message "browser '" = true :=
        Text.startsWith_append _ (Text.startsWith_append _ (by decide))
      exact decide_eq_true (Or.inl ⟨rfl, hmessage⟩)
  | networkWait route =>
      have hmessage : Text.startsWith (Problem.networkWait route).message "waiting on '@" = true :=
        Text.startsWith_append _ (Text.startsWith_append _ (by decide))
      exact decide_eq_true (Or.inr ⟨rfl, Or.inr hmessage⟩)
  | networkAssertion =>
      exact decide_eq_true (Or.inr ⟨rfl, Or.inl (.head _)⟩)
  | networkCondition =>
      exact decide_eq_true (Or.inr ⟨rfl, Or.inl (.tail _ (.head _))⟩)
  | interception =>
      exact decide_eq_true (Or.inr ⟨rfl, Or.inl (.tail _ (.tail _ (.head _)))⟩)
  | unknownStrategy | unknownGesture | unknownCondition | unknownLoopMode | unknownLoopCondition
  | unknownPause =>
      refine Finding.isSeleniumOnly_eq_false_of_unknown rfl ?_
      exact Text.startsWith_append _ (Text.startsWith_append _ (by decide))
  | ignoredLoopCondition c =>
      have hmessage : Text.startsWith (Problem.ignoredLoopCondition c).message "while " = true :=
        Text.startsWith_append _ (Text.startsWith_append _ (by decide))
      have htraffic := Finding.not_isTraffic_of_while (f := ⟨node, .unsupported, _⟩) hmessage
      refine decide_eq_false ?_
      rintro (⟨hkind, -⟩ | h)
      · cases hkind
      · exact htraffic h
  | cycle | entryMidFlow | gestureWithoutElement | captureWithoutVariable | checkWithoutElement
  | loopWithoutElement =>
      exact Finding.isSeleniumOnly_eq_false_of_kind nofun nofun

theorem Diagnostic.exists_of_isBrowser {d : Diagnostic} (h : d.finding.IsBrowser) :
    ∃ browser, d.problem = .unknownBrowser browser := by
  have hcause : d.problem.isSeleniumOnly = true := by
    rw [← isSeleniumOnly_finding]
    exact decide_eq_true (Or.inl h)
  have hkind : d.problem.kind = .unrecognizedValue := h.1
  cases hproblem : d.problem with
  | unknownBrowser browser => exact ⟨browser, rfl⟩
  | _ =>
      simp [hproblem, Problem.isSeleniumOnly] at hcause <;>
        simp [hproblem, Problem.kind] at hkind

/-! ### The problems of a step -/

theorem Element.shared_of_mem_problems {e : Element} {p : Problem} (h : p ∈ e.problems) :
    p.isSeleniumOnly = false := by
  obtain ⟨raw, -, rfl⟩ := List.mem_map.mp h
  rfl

theorem Interaction.shared_of_mem_problems {i : Interaction} {p : Problem}
    (h : p ∈ i.problems) : p.isSeleniumOnly = false := by
  unfold problems at h
  split at h
  · split at h
    · cases List.mem_singleton.mp h
      rfl
    · cases h
  · cases List.mem_singleton.mp h
    rfl
  · cases h

theorem Check.shared_of_mem_problems {c : Check} {element : Option Element} {p : Problem}
    (h : p ∈ c.problems element) : p.isSeleniumOnly = false := by
  unfold problems at h
  split at h
  · rename_i fault _
    cases List.mem_singleton.mp h
    cases fault <;> rfl
  · split at h
    · exact Element.shared_of_mem_problems h
    · cases h

/-- Where the traffic is asked about, nothing is wrong for a target that sees it. -/
theorem Check.problems_of_networkStatus {c : Check} (element : Option Element)
    (h : c.condition = .networkStatus) : c.problems element = [] := by
  simp [problems, question, h, Question.element?]

namespace Target

theorem shared_of_mem_loopProblems {site : Site} {l : Loop} {p : Problem}
    (h : p ∈ loopProblems site l) : p.isSeleniumOnly = false := by
  unfold loopProblems at h
  split at h
  · cases h
  · cases List.mem_singleton.mp h
    rfl
  · rcases List.mem_append.mp h with h | h
    · unfold Condition.loopProblems at h
      split at h
      · cases h
      · cases List.mem_singleton.mp h
        rfl
      · cases List.mem_singleton.mp h
        rfl
    · split at h
      · exact Element.shared_of_mem_problems h
      · cases List.mem_singleton.mp h
        rfl

/-- Problems of which none is Selenium's own are kept. -/
theorem filter_shared {ps : List Problem} (h : ∀ p ∈ ps, p.isSeleniumOnly = false) :
    ps.filter (!·.isSeleniumOnly) = ps :=
  List.filter_eq_self.mpr fun p hp => by rw [h p hp]; rfl

theorem filter_loopProblems (site : Site) (l : Loop) :
    (loopProblems site l).filter (!·.isSeleniumOnly) = loopProblems site l :=
  filter_shared fun _ => shared_of_mem_loopProblems

theorem actionProblems_cypress (site : Site) (a : Action) :
    Target.cypress.actionProblems site a
      = (Target.selenium.actionProblems site a).filter (!·.isSeleniumOnly) := by
  cases a with
  | session s =>
      simp only [actionProblems]
      by_cases hroot : site.isRoot = true
      · rw [if_pos hroot, if_pos hroot]
        cases s.driver? <;> rfl
      · rw [if_neg hroot, if_neg hroot]
        rfl
  | interact i =>
      simp only [actionProblems]
      cases site.element with
      | none => rfl
      | some e =>
          refine (filter_shared fun p hp => ?_).symm
          rcases List.mem_append.mp hp with hp | hp
          · exact Element.shared_of_mem_problems hp
          · exact Interaction.shared_of_mem_problems hp
  | assertion a =>
      simp only [actionProblems, seesNetwork]
      by_cases hnetwork : a.check.condition = .networkStatus
      · simp [hnetwork, Check.problems_of_networkStatus, Problem.isSeleniumOnly]
      · simp only [hnetwork, false_and, if_false]
        exact (filter_shared fun p hp => Check.shared_of_mem_problems hp).symm
  | pause p => cases p <;> rfl
  | intercept i => rfl
  | element | screenshot | assign | fixture | command => rfl

theorem branchProblems_cypress (site : Site) (c : Check) :
    Target.cypress.branchProblems site c
      = (Target.selenium.branchProblems site c).filter (!·.isSeleniumOnly) := by
  simp only [branchProblems, seesNetwork]
  by_cases hnetwork : c.condition = .networkStatus
  · simp [hnetwork, Check.problems_of_networkStatus, Problem.isSeleniumOnly]
  · simp only [hnetwork, false_and, if_false]
    exact (filter_shared fun p hp => Check.shared_of_mem_problems hp).symm

end Target

/-! ### The problems of a script -/

/-- Problems of one node are kept or left out by their cause. -/
theorem filter_diagnostics (id : String) (ps : List Problem) :
    (ps.map (Diagnostic.mk id)).filter (!·.problem.isSeleniumOnly)
      = (ps.filter (!·.isSeleniumOnly)).map (Diagnostic.mk id) :=
  List.filter_map

/-- Cypress reports of a script what Selenium does, less what is Selenium's own. -/
theorem Script.diagnostics_cypress (s : Script) :
    s.diagnostics .cypress
      = (s.diagnostics .selenium).filter (!·.problem.isSeleniumOnly) := by
  induction s with
  | stop => rfl
  | cut id => rfl
  | action site a next ih =>
      simp only [diagnostics, List.filter_append, filter_diagnostics, ih,
        Target.actionProblems_cypress]
  | branch site c yes no ihyes ihno =>
      simp only [diagnostics, List.filter_append, filter_diagnostics, ihyes, ihno,
        Target.branchProblems_cypress]
  | loop site l body next ihbody ihnext =>
      simp only [diagnostics, List.filter_append, filter_diagnostics, ihbody, ihnext,
        Target.filter_loopProblems]

/-! ### Browsers are reported of roots -/

theorem Script.mem_diagnostics_elim {t : Target} {target : Option Node} {f : Node → Script}
    {d : Diagnostic} :
    d ∈ (target.elim .stop f).diagnostics t ↔
      ∃ n, target = some n ∧ d ∈ (f n).diagnostics t := by
  cases target with
  | none => simp [diagnostics]
  | some n => simp

theorem Target.isRoot_of_unknownBrowser {t : Target} {site : Site} {a : Action}
    {browser : String} (h : .unknownBrowser browser ∈ t.actionProblems site a) :
    site.isRoot = true := by
  cases a with
  | session s =>
      cases hroot : site.isRoot with
      | true => rfl
      | false => simp [actionProblems, hroot] at h
  | interact i =>
      simp only [actionProblems] at h
      split at h
      · cases List.mem_singleton.mp h
      · rcases List.mem_append.mp h with h | h
        · cases Element.shared_of_mem_problems h
        · cases Interaction.shared_of_mem_problems h
  | assertion a =>
      simp only [actionProblems] at h
      split at h
      · cases List.mem_singleton.mp h
      · cases Check.shared_of_mem_problems h
  | pause p => cases t <;> cases p <;> simp [actionProblems, seesNetwork] at h
  | intercept i => cases t <;> simp [actionProblems, seesNetwork] at h
  | element | screenshot | assign | fixture | command => cases h

theorem Target.unknownBrowser_notMem_branchProblems (t : Target) (site : Site) (c : Check)
    (browser : String) : .unknownBrowser browser ∉ t.branchProblems site c := by
  intro h
  unfold branchProblems at h
  split at h
  · cases List.mem_singleton.mp h
  · cases Check.shared_of_mem_problems h

/-- On a walk a browser is reported of the first node only, and only at the root. -/
theorem Flow.isRoot_of_unknownBrowser_walk {g : Flow} {ids : List String} {t : Target}
    (node : Node) (scope : Scope) (isRoot : Bool) {d : Diagnostic} {browser : String}
    (hd : d ∈ (g.walk ids node scope isRoot).diagnostics t)
    (hbrowser : d.problem = .unknownBrowser browser) : isRoot = true ∧ d.node = node.id := by
  -- All that follows a node is walked with the flag off, so the hypothesis of the
  -- induction can only be met by the node's own problems.
  have hown : ∀ {id : String} {ps : List Problem}, d ∈ ps.map (Diagnostic.mk id) →
      .unknownBrowser browser ∈ ps ∧ d.node = id := by
    intro id ps hmem
    obtain ⟨p, hp, rfl⟩ := List.mem_map.mp hmem
    exact ⟨hbrowser ▸ hp, rfl⟩
  fun_induction Flow.walk g ids node scope isRoot with
  | case1 node scope isRoot hopen inner site a hstep ih =>
      rcases List.mem_append.mp hd with hd | hd
      · obtain ⟨hp, hid⟩ := hown hd
        exact ⟨Target.isRoot_of_unknownBrowser hp, hid⟩
      · obtain ⟨next, -, hd⟩ := Script.mem_diagnostics_elim.mp hd
        cases (ih next hd).1
  | case2 node scope isRoot hopen inner site c hstep ih =>
      rcases List.mem_append.mp hd with hd | hd
      · rcases List.mem_append.mp hd with hd | hd
        · exact absurd (hown hd).1 (t.unknownBrowser_notMem_branchProblems site c browser)
        · obtain ⟨next, -, hd⟩ := Script.mem_diagnostics_elim.mp hd
          cases (ih next hd).1
      · obtain ⟨next, -, hd⟩ := Script.mem_diagnostics_elim.mp hd
        cases (ih next hd).1
  | case3 node scope isRoot hopen inner site l hstep ihbody ihdone =>
      rcases List.mem_append.mp hd with hd | hd
      · rcases List.mem_append.mp hd with hd | hd
        · cases Target.shared_of_mem_loopProblems (hown hd).1
        · split at hd
          · obtain ⟨next, -, hd⟩ := Script.mem_diagnostics_elim.mp hd
            cases (ihbody next hd).1
          · cases hd
      · obtain ⟨next, -, hd⟩ := Script.mem_diagnostics_elim.mp hd
        cases (ihdone next hd).1
  | case4 node scope isRoot hclosed =>
      cases List.mem_singleton.mp hd
      cases hbrowser

/-! ### The reports of suites -/

/-- The problems of all entry points of a flow, in order. -/
def Flow.diagnostics (g : Flow) (t : Target) : List Diagnostic :=
  g.entries.flatMap fun n => (g.script n).diagnostics t

theorem Suite.map_steps_eq {p : Project} {s : Suite} (h : p.suite = .ok s) :
    s.cases.map (fun c => (c.entry, c.steps))
      = p.flow.entries.map fun n => (n.id, (p.flow.script n).size) := by
  rw [Project.eq_of_suite_eq_ok h]
  exact p.map_zipWith_case _ _ fun _ _ => rfl

theorem Suite.diagnostics_eq {p : Project} {s : Suite} (h : p.suite = .ok s) :
    s.diagnostics = p.flow.diagnostics p.target := by
  rw [Project.eq_of_suite_eq_ok h]
  exact p.flatMap_zipWith_case _ _ fun _ _ => rfl

theorem Flow.findings_cypress (g : Flow) :
    (g.diagnostics .cypress).map Diagnostic.finding
      = ((g.diagnostics .selenium).map Diagnostic.finding).filter (!·.isSeleniumOnly) := by
  have hcause : (fun f : Finding => !f.isSeleniumOnly) ∘ Diagnostic.finding
      = fun d => !d.problem.isSeleniumOnly := by
    funext d
    exact congrArg (!·) d.isSeleniumOnly_finding
  have hscripts : g.diagnostics .cypress
      = (g.diagnostics .selenium).filter (!·.problem.isSeleniumOnly) := by
    rw [diagnostics, diagnostics, List.filter_flatMap]
    simp only [Script.diagnostics_cypress]
  rw [List.filter_map, hcause, hscripts]

theorem Flow.mem_entries_of_isBrowser {g : Flow} {t : Target} {d : Diagnostic}
    (hd : d ∈ g.diagnostics t) (h : d.finding.IsBrowser) : d.node ∈ g.entries.map (·.id) := by
  obtain ⟨n, hn, hd⟩ := List.mem_flatMap.mp hd
  obtain ⟨browser, hbrowser⟩ := Diagnostic.exists_of_isBrowser h
  have hnode : d.node = n.id := (isRoot_of_unknownBrowser_walk n {} true hd hbrowser).2
  rw [hnode]
  exact List.mem_map_of_mem hn

/-- **The suites of a flow agree across targets.**  They have the same cases with the same
steps, and Cypress reports what Selenium does, in the same order, less what only Selenium
reports: the traffic of a page, and a browser without a driver, which only the entry point
of a case can name. -/
theorem suites_agree_across_targets (g : Flow) (name : String)
    (hentry : ∃ n ∈ g.nodes, n.kind = .entry) :
    ∃ selenium cypress : Suite,
      Project.suite { flow := g, target := .selenium, name := name } = .ok selenium ∧
      Project.suite { flow := g, target := .cypress, name := name } = .ok cypress ∧
      cypress.cases.map (fun c => (c.entry, c.steps))
        = selenium.cases.map (fun c => (c.entry, c.steps)) ∧
      cypress.findings = selenium.findings.filter (!·.isSeleniumOnly) ∧
      ∀ f ∈ selenium.findings, f.IsBrowser → f.node ∈ selenium.cases.map (·.entry) := by
  have hentries : g.entries ≠ [] := Project.entries_ne_nil hentry
  obtain ⟨selenium, hselenium⟩ : ∃ s, Project.suite ⟨g, .selenium, name⟩ = .ok s :=
    ⟨_, Project.suite_eq_ok hentries⟩
  obtain ⟨cypress, hcypress⟩ : ∃ s, Project.suite ⟨g, .cypress, name⟩ = .ok s :=
    ⟨_, Project.suite_eq_ok hentries⟩
  refine ⟨selenium, cypress, hselenium, hcypress, ?_, ?_, ?_⟩
  · rw [Suite.map_steps_eq hselenium, Suite.map_steps_eq hcypress]
  · rw [Suite.findings, Suite.findings, Suite.diagnostics_eq hselenium,
      Suite.diagnostics_eq hcypress]
    exact g.findings_cypress
  · intro f hf hbrowser
    rw [Suite.findings, Suite.diagnostics_eq hselenium] at hf
    rw [Project.map_entry_eq hselenium]
    obtain ⟨d, hd, rfl⟩ := List.mem_map.mp hf
    exact Flow.mem_entries_of_isBrowser hd hbrowser

/-- An unknown browser, a pause until a request is made, and a click on nothing. -/
def trafficFlow : Flow where
  nodes := [⟨"start", .entry, [("browser", .string "Lynx")]⟩,
    ⟨"listen", .wait, [("waitType", .string "network")]⟩, ⟨"press", .interact, []⟩]
  edges := [.flow "e1" "start" "listen", .flow "e2" "listen" "press"]

theorem trafficFlow_reports :
    (∃ n ∈ trafficFlow.nodes, n.kind = .entry) ∧
      ∃ selenium cypress : Suite,
        Project.suite ⟨trafficFlow, .selenium, "Traffic"⟩ = .ok selenium ∧
        Project.suite ⟨trafficFlow, .cypress, "Traffic"⟩ = .ok cypress ∧
        selenium.findings.map (·.node) = ["start", "listen", "press"] ∧
        cypress.findings
          = [⟨"press", .missingElement, "'Click' action has no element connected"⟩] := by
  have hentry : ∃ n ∈ trafficFlow.nodes, n.kind = .entry := ⟨_, List.mem_cons_self, rfl⟩
  obtain ⟨selenium, cypress, hselenium, hcypress, -, hfindings, -⟩ :=
    suites_agree_across_targets trafficFlow "Traffic" hentry
  have hreport : selenium.findings
      = (trafficFlow.diagnostics .selenium).map Diagnostic.finding := by
    rw [Suite.findings, Suite.diagnostics_eq hselenium]
  refine ⟨hentry, selenium, cypress, hselenium, hcypress, ?_, ?_⟩
  · rw [hreport]
    decide +kernel
  · rw [hfindings, hreport]
    decide +kernel

end FlowSuite

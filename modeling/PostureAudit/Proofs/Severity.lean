import PostureAudit.Proofs.Gate
import PostureAudit.Proofs.Tree

set_option autoImplicit false

/-! # What severities can change

A severity decides whether a finding is reported, and at which level. It does not decide what is
looked for: the gate on the number of declarations, the order of the checks and the count of files
never ask for one. So the outcome under any severities is that of a strict run, in which every rule
is held as an error, with some diagnostics left out and the others relabelled
(`auditTree_eq_relabelled`). -/

namespace PostureAudit

namespace Settings

/-- The settings with other severities. -/
def withSeverities (s : Settings) (severity : Rule → Severity) : Settings := { s with severity }

/-- The settings with every rule held as an error. -/
def strict (s : Settings) : Settings := s.withSeverities fun _ => .error

/-- The level of a rule that is not off. -/
def levelOf (s : Settings) (r : Rule) : Level :=
  if s.severity r = .warning then .warning else .error

@[simp] theorem severity_withSeverities (s : Settings) (severity : Rule → Severity) :
    (s.withSeverities severity).severity = severity := rfl

@[simp] theorem strict_withSeverities (s : Settings) (severity : Rule → Severity) :
    (s.withSeverities severity).strict = s.strict := rfl

theorem grade_strict (s : Settings) (f : Finding) : s.strict.grade f = some ⟨f, .error⟩ := rfl

theorem grade_of_on {s : Settings} {f : Finding} (hon : s.severity f.rule ≠ .off) :
    s.grade f = some ⟨f, s.levelOf f.rule⟩ := by
  unfold grade levelOf
  cases hseverity : s.severity f.rule with
  | error => rfl
  | warning => rfl
  | off => exact absurd hseverity hon

theorem grade_of_off {s : Settings} {f : Finding} (hoff : s.severity f.rule = .off) :
    s.grade f = none := by
  rw [grade, hoff]
  rfl

end Settings

namespace Outcome

/-- The outcome without the diagnostics whose rules are off, and with the levels of the settings
    on the others. -/
def relabelled (s : Settings) (o : Outcome) : Outcome where
  diagnostics := (o.diagnostics.filter fun d => s.severity d.rule ≠ .off).map fun d =>
    { d with level := s.levelOf d.rule }
  filesChecked := o.filesChecked

/-- What the diagnostics of an outcome report, whatever their levels. -/
def findings (o : Outcome) : List Finding := o.diagnostics.map (·.toFinding)

theorem findings_relabelled (s : Settings) (o : Outcome) :
    (o.relabelled s).findings = o.findings.filter fun f => s.severity f.rule ≠ .off := by
  rw [findings, findings, relabelled, List.map_map, List.filter_map]
  rfl

end Outcome

/-! ## Two runs over the same findings -/

/-- To grade findings is to grade them as errors, and then to leave some out and relabel the
    rest. -/
theorem filterMap_grade_eq (s : Settings) (fs : List Finding) :
    fs.filterMap s.grade =
      ((fs.filterMap s.strict.grade).filter fun d => s.severity d.rule ≠ .off).map fun d =>
        { d with level := s.levelOf d.rule } := by
  induction fs with
  | nil => rfl
  | cons f fs ih =>
    rw [List.filterMap_cons, List.filterMap_cons, s.grade_strict]
    by_cases hoff : s.severity f.rule = .off
    · rw [Settings.grade_of_off hoff, List.filter_cons_of_neg (by simp [hoff]), ← ih]
    · rw [Settings.grade_of_on hoff, List.filter_cons_of_pos (by simp [hoff]), List.map_cons, ← ih]

theorem Walk.outcome_eq_relabelled (s : Settings) (root : Path) (w : Walk) :
    w.outcome s root = (w.outcome s.strict root).relabelled s := by
  have hdiagnostics : (w.outcome s root).diagnostics =
      ((w.outcome s.strict root).relabelled s).diagnostics := by
    rw [Outcome.relabelled, outcome_diagnostics, outcome_diagnostics]
    exact filterMap_grade_eq s _
  have hfiles : (w.outcome s root).filesChecked = (w.outcome s.strict root).filesChecked := by
    rw [outcome_eq, outcome_eq]
  exact congrArg₂ Outcome.mk hdiagnostics hfiles

theorem auditFile_eq_relabelled (s : Settings) (content file : Text) :
    auditFile s content file = (auditFile s.strict content file).relabelled s := by
  rw [auditFile_eq_graded, auditFile_eq_graded, filterMap_grade_eq]
  rfl

/-- Unless there is one declaration, the rule about their number is the only one that can be
    reported, whatever its severity is. -/
theorem auditFile_diagnostics_eq_nil {s : Settings} {content file : Text}
    (hcount : (declarations content).length ≠ 1)
    (hoff : s.severity .resourceDeclarationCount = .off) :
    (auditFile s content file).diagnostics = [] := by
  have hfaults : ∃ fault line, faults s.lineResolution content = [(fault, line)] ∧
      fault.rule = .resourceDeclarationCount := by
    unfold faults
    split
    next declaration hone => simp [hone] at hcount
    next => exact ⟨_, _, rfl, rfl⟩
  obtain ⟨fault, line, hfaults, hrule⟩ := hfaults
  have hgrade : s.grade (fault.finding file line) = none := by
    refine Settings.grade_of_off ?_
    rw [Fault.finding, hrule, hoff]
  rw [auditFile_eq_graded, fileFindings, hfaults]
  simp [hgrade]

/-! ## Severities only filter and relabel -/

/-- How serious a severity is. -/
def Severity.rank : Severity → Nat
  | off => 0
  | warning => 1
  | error => 2

/-- Rules that are held no more seriously fail no run that passed. -/
theorem Linter.passed_of_lowered {l l' : Linter} {colouring colouring' : Colouring}
    {fs : FileSystem} {root : Path}
    (hextension : l'.settings.extension = l.settings.extension)
    (hlower : ∀ r, (l'.settings.severity r).rank ≤ (l.settings.severity r).rank)
    (hpassed : (l.lintAndReport colouring fs root).passed = true) :
    (l'.lintAndReport colouring' fs root).passed = true := by
  have hselects : l'.settings.selects = l.settings.selects := by
    funext name
    rw [Settings.selects, Settings.selects, hextension]
  rw [passed_iff_brokenBy] at hpassed ⊢
  intro r herror
  rw [hselects]
  have hrank := hlower r
  rw [herror] at hrank
  refine hpassed r ?_
  cases hseverity : l.settings.severity r with
  | error => rfl
  | warning => simp [hseverity, Severity.rank] at hrank
  | off => simp [hseverity, Severity.rank] at hrank

/-- Under any severities a tree, and a file alone, has the outcome of a strict run without the
    diagnostics whose rules are off and with the levels of the settings on the others. So two runs
    that differ in severities report the same findings for the rules that both of them report, in
    the same order; a file with a wrong number of declarations is not looked into any further when
    nothing is said about the number; and lower severities let pass what passed before. -/
theorem auditTree_eq_relabelled (s : Settings) (fs : FileSystem) (root : Path) :
    auditTree s fs root = (auditTree s.strict fs root).relabelled s ∧
    (∀ content file,
      auditFile s content file = (auditFile s.strict content file).relabelled s) ∧
    (∀ severity : Rule → Severity,
      (auditTree (s.withSeverities severity) fs root).findings.filter
          (fun f => s.severity f.rule ≠ .off) =
        (auditTree s fs root).findings.filter fun f => severity f.rule ≠ .off) ∧
    (∀ content file, (declarations content).length ≠ 1 →
      s.severity .resourceDeclarationCount = .off →
        (auditFile s content file).diagnostics = []) ∧
    ∀ (severity : Rule → Severity) (format format' : ReportFormat)
      (colouring colouring' : Colouring),
      (∀ r, (severity r).rank ≤ (s.severity r).rank) →
        ((⟨s, format⟩ : Linter).lintAndReport colouring fs root).passed = true →
          ((⟨s.withSeverities severity, format'⟩ : Linter).lintAndReport colouring' fs
            root).passed = true := by
  have htree (s : Settings) : auditTree s fs root = (auditTree s.strict fs root).relabelled s :=
    Walk.outcome_eq_relabelled s root _
  refine ⟨htree s, auditFile_eq_relabelled s, fun severity => ?_,
    fun content file => auditFile_diagnostics_eq_nil, ?_⟩
  · rw [htree s, htree (s.withSeverities severity), Settings.strict_withSeverities,
      Outcome.findings_relabelled, Outcome.findings_relabelled, Settings.severity_withSeverities,
      List.filter_comm]
  · intro severity format format' colouring colouring' hlower hpassed
    exact Linter.passed_of_lowered (l := ⟨s, format⟩) rfl hlower hpassed

end PostureAudit

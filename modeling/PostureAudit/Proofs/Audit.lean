import PostureAudit.Audit.Tree
import Mathlib.Data.List.Forall2

set_option autoImplicit false

/-! # What a run records

What a walk finds depends on its events and on how lines are found; severities only grade it. A
run records the graded findings of its walk in order (`Walk.outcome_diagnostics`), and so it has
errors exactly if something is found for a rule that is held as an error. -/

namespace PostureAudit

/-- The outcome of a file is what is found in it, graded. -/
theorem auditFile_eq_graded (s : Settings) (content file : Text) :
    auditFile s content file =
      ⟨(fileFindings s.lineResolution content file).filterMap s.grade, 1⟩ :=
  congrArg₂ Outcome.mk (Outcome.recordAll_diagnostics s Outcome.empty.countFile _)
    (Outcome.recordAll_filesChecked s Outcome.empty.countFile _)

/-- Findings for the same rules are graded alike. -/
theorem Settings.forall₂_grade {s : Settings} {R : Finding → Finding → Prop}
    {fs fs' : List Finding} (hrule : ∀ f f', R f f' → f'.rule = f.rule)
    (h : List.Forall₂ R fs fs') :
    List.Forall₂ (fun d d' : Diagnostic => d'.level = d.level ∧ R d.toFinding d'.toFinding)
      (fs.filterMap s.grade) (fs'.filterMap s.grade) := by
  induction h with
  | nil => exact .nil
  | @cons f f' fs fs' hf _ ih =>
    have hsame : s.grade f' = (s.severity f.rule).level?.map fun level => ⟨f', level⟩ := by
      rw [grade, hrule f f' hf]
    rw [List.filterMap_cons, List.filterMap_cons, hsame, grade]
    cases (s.severity f.rule).level? with
    | none => exact ih
    | some level => exact .cons ⟨rfl, hf⟩ ih

/-- What is found in an event of a walk. -/
def WalkEvent.findings (resolution : LineResolution) : WalkEvent → List Finding
  | .file path content => fileFindings resolution (Utf8.decodeLossy content) path.text
  | .unreadable path cause => [unreadableFinding path cause]

/-- What is found in a walk from a root. -/
def Walk.findings (resolution : LineResolution) (root : Path) (w : Walk) : List Finding :=
  w.events.flatMap (WalkEvent.findings resolution) ++ (w.failure.map (walkFinding root)).toList

theorem Outcome.receive_diagnostics (s : Settings) (o : Outcome) (e : WalkEvent) :
    (o.receive s e).diagnostics =
      o.diagnostics ++ (e.findings s.lineResolution).filterMap s.grade := by
  cases e with
  | file path content =>
    rw [Outcome.receive, Outcome.checkFile, recordAll_diagnostics]
    rfl
  | unreadable path cause =>
    rw [Outcome.receive, record_diagnostics, WalkEvent.findings, List.filterMap_cons]
    cases s.grade (unreadableFinding path cause) <;> rfl

theorem Outcome.foldl_receive_diagnostics (s : Settings) (o : Outcome)
    (events : List WalkEvent) :
    (events.foldl (Outcome.receive s) o).diagnostics =
      o.diagnostics ++
        (events.flatMap (WalkEvent.findings s.lineResolution)).filterMap s.grade := by
  induction events generalizing o with
  | nil => simp
  | cons e events ih =>
    rw [List.foldl_cons, ih, receive_diagnostics, List.flatMap_cons, List.filterMap_append,
      List.append_assoc]

theorem Outcome.finish_diagnostics (s : Settings) (o : Outcome) (root : Path)
    (failure : Option WalkFailure) :
    (o.finish s root failure).diagnostics =
      o.diagnostics ++ (failure.map (walkFinding root)).toList.filterMap s.grade := by
  cases failure with
  | none => simp [Outcome.finish]
  | some failure =>
    rw [Outcome.finish, record_diagnostics]
    cases h : s.grade (walkFinding root failure) <;> simp [h]

/-- The diagnostics of a run are what its walk finds, graded. -/
theorem Walk.outcome_diagnostics (s : Settings) (root : Path) (w : Walk) :
    (w.outcome s root).diagnostics = (w.findings s.lineResolution root).filterMap s.grade := by
  rw [Walk.outcome, Outcome.finish_diagnostics, Outcome.foldl_receive_diagnostics, Walk.findings,
    List.filterMap_append]
  rfl

/-- A finding becomes an error exactly if its rule is held as one. -/
theorem Settings.exists_error_of_grade_iff {s : Settings} {f : Finding} :
    (∃ d, s.grade f = some d ∧ d.level = .error) ↔ s.severity f.rule = .error := by
  unfold Settings.grade
  cases s.severity f.rule <;> simp [Severity.level?]

theorem Walk.hasErrors_outcome_iff {s : Settings} {root : Path} {w : Walk} :
    (w.outcome s root).hasErrors = true ↔
      ∃ f ∈ w.findings s.lineResolution root, s.severity f.rule = .error := by
  rw [Outcome.hasErrors, outcome_diagnostics, List.any_eq_true]
  simp only [List.mem_filterMap, decide_eq_true_eq]
  constructor
  · rintro ⟨d, ⟨f, hf, hgrade⟩, hlevel⟩
    exact ⟨f, hf, Settings.exists_error_of_grade_iff.mp ⟨d, hgrade, hlevel⟩⟩
  · rintro ⟨f, hf, herror⟩
    obtain ⟨d, hgrade, hlevel⟩ := Settings.exists_error_of_grade_iff.mpr herror
    exact ⟨d, ⟨f, hf, hgrade⟩, hlevel⟩

end PostureAudit

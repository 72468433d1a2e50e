import PostureAudit.Linter
import PostureAudit.Proofs.Audit
import PostureAudit.Proofs.Declaration
import PostureAudit.Proofs.Identifier
import PostureAudit.Proofs.Walk

set_option autoImplicit false

/-! # When a run passes

What a rule forbids is said of the walk and of the decoded texts alone (`Rule.BrokenBy`). A run
finds something for a rule exactly if the rule is broken (`exists_mem_findings_iff`), whatever the
settings, which only grade what is found; so it passes exactly if no rule that is held as an error
is broken. -/

namespace PostureAudit

/-! ## Broken rules -/

/-- The rule is broken by a text: the number of positions at which a header reads is not one; or
    it is one, but no identifier is assigned, or a value is assigned that is no identifier of its
    field. -/
def Rule.BrokenByText (t : Text) : Rule → Prop
  | unreadableFile => False
  | walkFailure => False
  | resourceDeclarationCount => (Declaration.offsets t).ncard ≠ 1
  | missingPostureId => (Declaration.offsets t).ncard = 1 ∧ assignments .postureId t = []
  | invalidPostureId => AssignsInvalid .postureId
  | invalidPolicySetId => AssignsInvalid .policySetId
  | invalidPolicyId => AssignsInvalid .policyId
where
  /-- One header reads in the text, and a value is assigned that is no identifier of the field. -/
  AssignsInvalid (f : Field) : Prop :=
    (Declaration.offsets t).ncard = 1 ∧ ∃ site ∈ assignments f t, ¬ f.IsIdentifier site.value

/-- The rule is broken by a walk: the walk fails, it meets an entry that cannot be read, or a file
    whose text breaks the rule. -/
def Rule.BrokenBy (w : Walk) : Rule → Prop
  | walkFailure => w.failure ≠ none
  | unreadableFile => ∃ path cause, .unreadable path cause ∈ w.events
  | rule => ∃ path content, .file path content ∈ w.events ∧
      rule.BrokenByText (Utf8.decodeLossy content)

theorem exists_mem_flatMap_iff {α β : Type} {xs : List α} {g : α → List β} {P : β → Prop} :
    (∃ y ∈ xs.flatMap g, P y) ↔ ∃ x ∈ xs, ∃ y ∈ g x, P y := by
  simp only [List.mem_flatMap]
  constructor
  · rintro ⟨y, ⟨x, hx, hy⟩, h⟩
    exact ⟨x, hx, y, hy, h⟩
  · rintro ⟨x, hx, y, hy, h⟩
    exact ⟨y, ⟨x, hx, hy⟩, h⟩

theorem Field.exists_iff {P : Field → Prop} :
    (∃ f, P f) ↔ P postureId ∨ P policySetId ∨ P policyId := by
  constructor
  · rintro ⟨f, hf⟩
    cases f with
    | postureId => exact Or.inl hf
    | policySetId => exact Or.inr (Or.inl hf)
    | policyId => exact Or.inr (Or.inr hf)
  · rintro (hf | hf | hf) <;> exact ⟨_, hf⟩

variable {resolution : LineResolution} {t : Text} {r : Rule}

theorem exists_mem_missingId_iff {declaration : Site Text} :
    (∃ x ∈ missingId t declaration, x.1.rule = r) ↔
      assignments .postureId t = [] ∧ .missingPostureId = r := by
  unfold missingId
  split
  next hnone => simp [List.isEmpty_iff.mp hnone, Fault.rule]
  next hsome =>
    rw [List.isEmpty_iff] at hsome
    simp [hsome]

theorem exists_mem_invalidValues_iff {f : Field} :
    (∃ x ∈ invalidValues resolution t f, x.1.rule = r) ↔
      (∃ site ∈ assignments f t, ¬ f.IsIdentifier site.value) ∧ .ofField f = r := by
  unfold invalidValues
  constructor
  · rintro ⟨x, hx, rfl⟩
    obtain ⟨site, hsite, rfl⟩ := List.mem_map.mp hx
    obtain ⟨hmem, hrejected⟩ := List.mem_filter.mp hsite
    refine ⟨⟨site, hmem, fun hidentifier => ?_⟩, rfl⟩
    rw [Field.accepts_iff_isIdentifier.mpr hidentifier] at hrejected
    cases hrejected
  · rintro ⟨⟨site, hmem, hinvalid⟩, rfl⟩
    refine ⟨_, List.mem_map_of_mem (List.mem_filter.mpr ⟨hmem, ?_⟩), rfl⟩
    rw [← Field.accepts_iff_isIdentifier] at hinvalid
    simpa using hinvalid

/-- The faults of a text are for the rules that it breaks. -/
theorem exists_mem_faults_iff (resolution : LineResolution) :
    (∃ x ∈ faults resolution t, x.1.rule = r) ↔ r.BrokenByText t := by
  have hcount := length_declarations t
  unfold faults
  split
  next declaration hone =>
    rw [hone, List.length_singleton] at hcount
    -- the identifier that may be missing, and the values of all fields
    have hvalues :
        (∃ x ∈ Field.all.flatMap (invalidValues resolution t), x.1.rule = r) ↔
          ∃ f, (∃ site ∈ assignments f t, ¬ f.IsIdentifier site.value) ∧ .ofField f = r := by
      rw [exists_mem_flatMap_iff]
      simp only [Field.mem_all, true_and, exists_mem_invalidValues_iff]
    simp only [List.mem_append, or_and_right, exists_or, exists_mem_missingId_iff, hvalues,
      Field.exists_iff]
    cases r <;>
      simp [Rule.BrokenByText, Rule.BrokenByText.AssignsInvalid, Rule.ofField, ← hcount]
  next hother =>
    -- only the number of headers is at fault
    have hne : (Declaration.offsets t).ncard ≠ 1 := by
      intro hone
      rw [hone, List.length_eq_one_iff] at hcount
      obtain ⟨declaration, hdeclaration⟩ := hcount
      exact hother declaration hdeclaration
    cases r <;>
      simp [Rule.BrokenByText, Rule.BrokenByText.AssignsInvalid, Fault.rule, hne]

theorem exists_mem_eventFindings_iff {e : WalkEvent} :
    (∃ f ∈ e.findings resolution, f.rule = r) ↔
      (∃ path content, e = .file path content ∧ r.BrokenByText (Utf8.decodeLossy content)) ∨
        (∃ path cause, e = .unreadable path cause) ∧ .unreadableFile = r := by
  cases e with
  | file path content =>
    simp [WalkEvent.findings, fileFindings, Fault.finding, ← exists_mem_faults_iff resolution]
  | unreadable path cause => simp [WalkEvent.findings, unreadableFinding]

/-- What is found in a walk is for the rules that it breaks. -/
theorem exists_mem_findings_iff {root : Path} {w : Walk} :
    (∃ f ∈ w.findings resolution root, f.rule = r) ↔ r.BrokenBy w := by
  have hfailure :
      (∃ f ∈ (w.failure.map (walkFinding root)).toList, f.rule = r) ↔
        w.failure ≠ none ∧ .walkFailure = r := by
    cases w.failure <;> simp [walkFinding]
  unfold Walk.findings
  simp only [List.mem_append, or_and_right, exists_or, exists_mem_flatMap_iff, hfailure,
    exists_mem_eventFindings_iff]
  cases r <;> simp [Rule.BrokenBy, Rule.BrokenByText]

/-! ## The answer of a run -/

theorem Linter.passed_iff_brokenBy {l : Linter} {colouring : Colouring} {fs : FileSystem}
    {root : Path} :
    (l.lintAndReport colouring fs root).passed = true ↔
      ∀ r, l.settings.severity r = .error → ¬ r.BrokenBy (fs.walk l.settings.selects root) := by
  have herrors : (l.lint fs root).hasErrors = true ↔
      ∃ r, l.settings.severity r = .error ∧ r.BrokenBy (fs.walk l.settings.selects root) := by
    rw [Linter.lint, auditTree, Walk.hasErrors_outcome_iff]
    constructor
    · rintro ⟨f, hf, herror⟩
      exact ⟨f.rule, herror, exists_mem_findings_iff.mp ⟨f, hf, rfl⟩⟩
    · rintro ⟨r, herror, hbroken⟩
      obtain ⟨f, hf, rfl⟩ := exists_mem_findings_iff.mpr hbroken
      exact ⟨f, hf, herror⟩
  rw [Linter.lintAndReport, Bool.not_eq_true', ← Bool.not_eq_true, herrors]
  simp only [not_exists, not_and]

end PostureAudit

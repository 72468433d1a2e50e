import PostureAudit.Settings
import PostureAudit.Text.Lines

set_option autoImplicit false

/-! # Findings, diagnostics and outcomes

A finding is what a check notices; it has no level. Settings grade it: a rule that is off drops
it, any other severity makes it a diagnostic at that level. An outcome collects the diagnostics of
a run in the order in which they were recorded, and counts the files that were checked. -/

namespace PostureAudit

/-- Something a check noticed in a file, before any severity is applied. -/
structure Finding where
  rule : Rule
  file : Text
  line : LineNumber
  message : Text
  deriving DecidableEq, Repr

/-- A finding at a level. -/
structure Diagnostic extends Finding where
  level : Level
  deriving DecidableEq, Repr

def Settings.grade (s : Settings) (f : Finding) : Option Diagnostic :=
  (s.severity f.rule).level?.map fun level => ⟨f, level⟩

/-- The diagnostics of a run so far, and the number of files checked. -/
structure Outcome where
  diagnostics : List Diagnostic
  filesChecked : Nat
  deriving DecidableEq, Repr

namespace Outcome

/-- The outcome of a run that has not begun. -/
def empty : Outcome := ⟨[], 0⟩

/-- Records a finding, unless its rule is off. -/
def record (s : Settings) (o : Outcome) (f : Finding) : Outcome :=
  match s.grade f with
  | some d => { o with diagnostics := o.diagnostics ++ [d] }
  | none => o

/-- Records findings in order. -/
def recordAll (s : Settings) (o : Outcome) (fs : List Finding) : Outcome := fs.foldl (record s) o

def countFile (o : Outcome) : Outcome := { o with filesChecked := o.filesChecked + 1 }

def count (o : Outcome) (level : Level) : Nat := o.diagnostics.countP (·.level = level)

def hasErrors (o : Outcome) : Bool := o.diagnostics.any (·.level = .error)

def messages (o : Outcome) : List Text := o.diagnostics.map (·.message)

theorem record_diagnostics (s : Settings) (o : Outcome) (f : Finding) :
    (o.record s f).diagnostics = o.diagnostics ++ (s.grade f).toList := by
  unfold record
  cases s.grade f <;> simp

@[simp] theorem record_filesChecked (s : Settings) (o : Outcome) (f : Finding) :
    (o.record s f).filesChecked = o.filesChecked := by
  unfold record
  cases s.grade f <;> rfl

theorem recordAll_diagnostics (s : Settings) (o : Outcome) (fs : List Finding) :
    (o.recordAll s fs).diagnostics = o.diagnostics ++ fs.filterMap s.grade := by
  unfold recordAll
  induction fs generalizing o with
  | nil => simp
  | cons f fs ih =>
    rw [List.foldl_cons, ih, record_diagnostics, List.append_assoc]
    cases h : s.grade f <;> simp [h]

@[simp] theorem recordAll_filesChecked (s : Settings) (o : Outcome) (fs : List Finding) :
    (o.recordAll s fs).filesChecked = o.filesChecked := by
  unfold recordAll
  induction fs generalizing o with
  | nil => rfl
  | cons f fs ih => rw [List.foldl_cons, ih, record_filesChecked]

end Outcome

end PostureAudit

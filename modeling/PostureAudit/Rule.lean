import PostureAudit.Posture.Field

set_option autoImplicit false

/-! # Rules and severities

The seven rules that a run can report, their names and descriptions, and the severity at which a
rule is held: `error` and `warning` report at a level, `off` reports nothing. -/

namespace PostureAudit

/-- What a diagnostic is about. -/
inductive Rule where
  | unreadableFile
  | walkFailure
  | resourceDeclarationCount
  | missingPostureId
  | invalidPostureId
  | invalidPolicySetId
  | invalidPolicyId
  deriving DecidableEq, Repr

namespace Rule

/-- The rules, in the order in which they are listed. -/
def all : List Rule :=
  [unreadableFile, walkFailure, resourceDeclarationCount, missingPostureId, invalidPostureId,
    invalidPolicySetId, invalidPolicyId]

/-- The name of a rule, as configurations and reports write it. -/
def name : Rule → Text
  | unreadableFile => "unreadable_file".toList
  | walkFailure => "walk_failure".toList
  | resourceDeclarationCount => "resource_declaration_count".toList
  | missingPostureId => "missing_posture_id".toList
  | invalidPostureId => "invalid_posture_id".toList
  | invalidPolicySetId => "invalid_policy_set_id".toList
  | invalidPolicyId => "invalid_policy_id".toList

def description : Rule → Text
  | unreadableFile => "Reports Terraform files that could not be read".toList
  | walkFailure => "Reports a directory traversal that could not complete".toList
  | resourceDeclarationCount =>
    "Ensures each file declares exactly one google_securityposture_posture resource".toList
  | missingPostureId => "Ensures a declared posture carries a posture_id assignment".toList
  | invalidPostureId => "Validates the format of posture_id values".toList
  | invalidPolicySetId => "Validates the format of policy_set_id values".toList
  | invalidPolicyId => "Validates the format of policy_id values".toList

/-- The rule with a name. Names are exact: no other case, no blanks around. -/
def ofName? (name : Text) : Option Rule := all.find? (·.name = name)

/-- The rule that holds the values of a field to their format. -/
def ofField : Field → Rule
  | .postureId => invalidPostureId
  | .policySetId => invalidPolicySetId
  | .policyId => invalidPolicyId

theorem ofName?_name (r : Rule) : ofName? r.name = some r := by cases r <;> decide

theorem ofName?_eq_some_iff {name : Text} {r : Rule} : ofName? name = some r ↔ name = r.name := by
  constructor
  · intro h
    have := List.find?_some h
    simp only [decide_eq_true_eq] at this
    exact this.symm
  · rintro rfl
    exact ofName?_name r

theorem name_injective {r s : Rule} (h : r.name = s.name) : r = s := by
  have := ofName?_name r
  rw [h, ofName?_name] at this
  exact (Option.some.inj this).symm

theorem ofField_injective {f g : Field} (h : ofField f = ofField g) : f = g := by
  revert h
  cases f <;> cases g <;> decide

end Rule

/-- How serious a diagnostic is. -/
inductive Level where
  | error
  | warning
  deriving DecidableEq, Repr

def Level.name : Level → Text
  | .error => "error".toList
  | .warning => "warning".toList

/-- The severity at which a rule is held. -/
inductive Severity where
  | error
  | warning
  | off
  deriving DecidableEq, Repr

namespace Severity

/-- The severities, in the order in which they are listed. -/
def all : List Severity := [error, warning, off]

def name : Severity → Text
  | error => "error".toList
  | warning => "warning".toList
  | off => "off".toList

def ofName? (name : Text) : Option Severity := all.find? (·.name = name)

/-- The level at which a rule of this severity reports, if it reports at all. -/
def level? : Severity → Option Level
  | error => some .error
  | warning => some .warning
  | off => none

theorem ofName?_name (s : Severity) : ofName? s.name = some s := by cases s <;> decide

theorem level?_eq_none_iff {s : Severity} : s.level? = none ↔ s = off := by
  cases s <;> simp [level?]

end Severity

end PostureAudit

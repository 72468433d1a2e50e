import PostureAudit.Pattern.Parse
import PostureAudit.Rule

set_option autoImplicit false

/-! # The format of identifiers

Every identifier field has a pattern that its values must match, and a rule that reports those
that do not. The pattern is kept as it is shown to the user; a value is held to the very pattern
that a message quotes. Two more written patterns serve to find the line of an identifier or of a
declaration by its text. -/

namespace PostureAudit.Field

/-- The written pattern of identifiers in lower case. -/
def lowerPattern : Text := "^[a-z][a-z0-9-_]\x7b0,62\x7d$".toList

/-- The written pattern of identifiers in either case. -/
def mixedPattern : Text := "^[a-zA-Z][a-zA-Z0-9-_]\x7b0,62\x7d$".toList

/-- The pattern of a field's values, as it is written. -/
def formatPattern : Field → Text
  | postureId => lowerPattern
  | policySetId => lowerPattern
  | policyId => mixedPattern

def lowerFormat : Pattern := (Pattern.parse? lowerPattern).getD .empty

/-- The pattern of identifiers in either case. -/
def mixedFormat : Pattern := (Pattern.parse? mixedPattern).getD .empty

/-- The pattern of a field's values. -/
def format : Field → Pattern
  | postureId => lowerFormat
  | policySetId => lowerFormat
  | policyId => mixedFormat

theorem parse?_formatPattern (f : Field) : Pattern.parse? f.formatPattern = some f.format := by
  cases f <;> decide +kernel

def accepts (f : Field) (value : Text) : Bool := f.format.occursIn value

/-- The written pattern of an assignment of exactly this value. -/
def literalPattern (f : Field) (value : Text) : Text :=
  f.name ++ "\\s*=\\s*\"".toList ++ Pattern.escape value ++ "\"".toList

def formatRule (f : Field) : Rule := .ofField f

/-- The field whose format a rule is about. -/
def ofFormatRule? (r : Rule) : Option Field := all.find? (·.formatRule = r)

theorem ofFormatRule?_formatRule (f : Field) : ofFormatRule? f.formatRule = some f := by
  cases f <;> decide

/-- What is wrong with a value that does not have the format of a field: the rule that reports it,
    and the pattern that it does not match, as it is written. -/
structure Violation where
  field : Field
  rule : Rule
  pattern : Text
  deriving DecidableEq, Repr

/-- The violation that a value of the field is, if it does not have the format. -/
def violation? (f : Field) (value : Text) : Option Violation :=
  if f.accepts value then none else some ⟨f, f.formatRule, f.formatPattern⟩

theorem violation?_eq_none_iff {f : Field} {value : Text} :
    f.violation? value = none ↔ f.accepts value = true := by
  unfold violation?
  split <;> simp [*]

end PostureAudit.Field

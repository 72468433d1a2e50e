import PostureAudit.Diagnostic
import PostureAudit.Json
import PostureAudit.Posture.Identifier

set_option autoImplicit false

/-! # The JSON report

All of an outcome as one JSON value: the diagnostics, the counts, and for every rule that reported
what it is for and, if it is a rule of a format, the pattern of that format. The members of every
object are in the order of their names. -/

namespace PostureAudit

/-- The rules, in the order of their names. -/
def Rule.byName : List Rule :=
  [.invalidPolicyId, .invalidPolicySetId, .invalidPostureId, .missingPostureId,
    .resourceDeclarationCount, .unreadableFile, .walkFailure]

theorem Rule.mem_byName (r : Rule) : r ∈ byName := by cases r <;> decide

def LineNumber.toJson : LineNumber → Json
  | known n => .number n
  | unknown => .null

def Diagnostic.toJson (d : Diagnostic) : Json :=
  .object
    [("code".toList, .string d.rule.name),
      ("file".toList, .string d.file),
      ("level".toList, .string d.level.name),
      ("line".toList, d.line.toJson),
      ("message".toList, .string d.message)]

/-- What is said about a rule that reported. -/
def Rule.toJson (r : Rule) : Json :=
  .object (("description".toList, .string r.description) ::
    match Field.ofFormatRule? r with
    | some f => [("pattern".toList, .string f.formatPattern)]
    | none => [])

namespace Outcome

/-- The rules that reported, in the order of their names. -/
def rules (o : Outcome) : List Rule :=
  Rule.byName.filter fun r => o.diagnostics.any (·.rule = r)

theorem mem_rules_iff (o : Outcome) (r : Rule) : r ∈ o.rules ↔ ∃ d ∈ o.diagnostics, d.rule = r := by
  simp [rules, Rule.mem_byName]

def toJson (o : Outcome) : Json :=
  .object
    [("diagnostics".toList, .array (o.diagnostics.map Diagnostic.toJson)),
      ("error_count".toList, .number (o.count .error)),
      ("files_checked".toList, .number o.filesChecked),
      ("rules".toList, .object (o.rules.map fun r => (r.name, r.toJson))),
      ("warning_count".toList, .number (o.count .warning))]

def jsonReport (o : Outcome) : Text := o.toJson.text ++ ['\n']

end Outcome

end PostureAudit

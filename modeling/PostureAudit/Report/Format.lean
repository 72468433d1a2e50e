import PostureAudit.Text.Basic

set_option autoImplicit false

/-! # Report formats

The formats in which an outcome can be reported. -/

namespace PostureAudit

/-- The format of a report. -/
inductive ReportFormat where
  /-- The messages, one a line. -/
  | plain
  /-- The diagnostics of each file together, in colours if they are wanted, with a summary. -/
  | stylish
  /-- One line for a diagnostic, with its place, its level and its rule. -/
  | compact
  /-- One JSON value for all of the outcome. -/
  | json
  /-- One line for a diagnostic, as editors read it. -/
  | quickfix
  deriving DecidableEq, Repr

namespace ReportFormat

/-- The formats, in the order in which they are listed. -/
def all : List ReportFormat := [plain, stylish, compact, json, quickfix]

def name : ReportFormat → Text
  | plain => "plain".toList
  | stylish => "stylish".toList
  | compact => "compact".toList
  | json => "json".toList
  | quickfix => "quickfix".toList

def ofName? (name : Text) : Option ReportFormat := all.find? (·.name = name)

/-- The format of a report that asks for none. -/
def default : ReportFormat := plain

theorem ofName?_name (f : ReportFormat) : ofName? f.name = some f := by cases f <;> decide

end ReportFormat

end PostureAudit

import PostureAudit.Report.Format
import PostureAudit.Report.Lines
import PostureAudit.Report.Stylish
import PostureAudit.Report.Structured

set_option autoImplicit false

/-! # Reports

The report of an outcome in each of the formats. Only the stylish one is ever coloured. -/

namespace PostureAudit

def Outcome.report (format : ReportFormat) (colouring : Colouring) (o : Outcome) : Text :=
  match format with
  | .plain => o.lineReport Diagnostic.plainLine
  | .stylish => o.stylishReport colouring
  | .compact => o.lineReport Diagnostic.compactLine
  | .json => o.jsonReport
  | .quickfix => o.lineReport Diagnostic.quickfixLine

end PostureAudit

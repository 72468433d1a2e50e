import PostureAudit.Diagnostic
import PostureAudit.Report.Style

set_option autoImplicit false

/-! # The stylish report

The diagnostics file by file, the files in the order in which they first occur, and a summary.
Without any diagnostic the report is one line. The number of a line is set flush right. -/

namespace PostureAudit

/-! ## Groups -/

/-- Puts a diagnostic into the group of its file, or into a new group at the end. -/
def addToGroup (d : Diagnostic) :
    List (Text × List Diagnostic) → List (Text × List Diagnostic)
  | [] => [(d.file, [d])]
  | (file, group) :: rest =>
    if file = d.file then (file, group ++ [d]) :: rest else (file, group) :: addToGroup d rest

/-- The diagnostics of each file, the files in the order in which they first occur. -/
def groupByFile (ds : List Diagnostic) : List (Text × List Diagnostic) :=
  ds.foldl (fun groups d => addToGroup d groups) []

/-! ## The report -/

def lineColumnWidth : Nat := 5

def Level.style : Level → Style
  | .error => .boldRed
  | .warning => .boldYellow

namespace Diagnostic

/-- The number of the line, or a dash. -/
def lineText (d : Diagnostic) : Text :=
  match d.line with
  | .known n => Text.ofNat n
  | .unknown => ['-']

/-- The line of a diagnostic below the name of its file. -/
def stylishLine (colouring : Colouring) (d : Diagnostic) : Text :=
  "  ".toList ++ Style.dimmed.paint colouring (Text.padLeft lineColumnWidth d.lineText) ++
    "  ".toList ++ d.level.style.paint colouring d.level.name ++
    "  ".toList ++ d.message ++ "  ".toList ++ Style.dimmed.paint colouring d.rule.name

end Diagnostic

/-- A file with its diagnostics, and an empty line. -/
def stylishGroup (colouring : Colouring) (group : Text × List Diagnostic) : Text :=
  Style.underlined.paint colouring group.1 ++ '\n' ::
    group.2.flatMap (fun d => d.stylishLine colouring ++ ['\n']) ++ ['\n']

namespace Outcome

/-- The summary of an outcome without diagnostics. -/
def cleanSummary (o : Outcome) : Text :=
  "✓ No issues found in ".toList ++ Text.ofNat o.filesChecked ++ " file(s)".toList

def summary (o : Outcome) : Text :=
  "✖ ".toList ++ Text.ofNat o.diagnostics.length ++ " problem(s) (".toList ++
    Text.ofNat (o.count .error) ++ " error(s), ".toList ++
    Text.ofNat (o.count .warning) ++ " warning(s)) in ".toList ++
    Text.ofNat o.filesChecked ++ " file(s) checked".toList

def summaryStyle (o : Outcome) : Style := if o.hasErrors then .boldRed else .boldYellow

def stylishReport (colouring : Colouring) (o : Outcome) : Text :=
  if o.diagnostics.isEmpty then Style.green.paint colouring o.cleanSummary ++ ['\n']
  else
    (groupByFile o.diagnostics).flatMap (stylishGroup colouring) ++
      o.summaryStyle.paint colouring o.summary ++ ['\n']

end Outcome

end PostureAudit

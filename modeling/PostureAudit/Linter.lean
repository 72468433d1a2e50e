import PostureAudit.Audit.Log
import PostureAudit.ConfigFile.Store
import PostureAudit.Report

set_option autoImplicit false

/-! # The linter

A linter is settings and a report format. It checks the tree below a root and reports the outcome;
a run passes if no diagnostic is an error. -/

namespace PostureAudit

/-- What a run needs apart from the files. -/
structure Linter where
  settings : Settings
  format : ReportFormat

/-- A report, and whether the run passed. -/
structure LintReport where
  passed : Bool
  output : Text
  deriving DecidableEq, Repr

namespace Linter

/-- The linter that no configuration has changed. -/
def default : Linter := ⟨.default, .default⟩

/-- The linter for a configuration, if there is one. -/
def ofConfig (format : ReportFormat) : Option ConfigFile → Except LintError Linter
  | none => .ok ⟨.default, format⟩
  | some c => c.settings.map fun s => ⟨s, format⟩

/-- The linter for the configuration of a directory, or for the one that is asked for. -/
def load (fs : FileSystem) (format : ReportFormat) (explicit : Option Path) (directory : Path) :
    Except LintError Linter :=
  match ConfigFile.load fs explicit directory with
  | .error e => .error e
  | .ok c => ofConfig format c

/-- The outcome of checking the tree below a root. -/
def lint (l : Linter) (fs : FileSystem) (root : Path) : Outcome := auditTree l.settings fs root

/-- Checks the tree below a root and reports the outcome. -/
def lintAndReport (l : Linter) (colouring : Colouring) (fs : FileSystem) (root : Path) :
    LintReport :=
  let o := l.lint fs root
  ⟨!o.hasErrors, o.report l.format colouring⟩

/-- The log of checking the tree below a root. -/
def lintLog (l : Linter) (fs : FileSystem) (root : Path) : List LogEntry :=
  treeLog l.settings fs root

/-- The log of checking the tree below a root and reporting the outcome. -/
def reportLog (l : Linter) (fs : FileSystem) (root : Path) : List LogEntry :=
  l.lintLog fs root ++
    [.debug ("lint of ".toList ++ root.text ++
      if (l.lint fs root).hasErrors then " failed".toList else " passed".toList)]

end Linter

end PostureAudit

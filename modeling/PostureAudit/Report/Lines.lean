import PostureAudit.Diagnostic

set_option autoImplicit false

/-! # Reports of one line for each diagnostic

The plain, the compact and the quickfix report: each of them is the lines of the diagnostics, in
order. -/

namespace PostureAudit

namespace Diagnostic

def plainLine (d : Diagnostic) : Text := d.message

/-- Where a diagnostic is: its file, and its line if that is known. -/
def location (d : Diagnostic) : Text :=
  match d.line with
  | .known n => d.file ++ ':' :: Text.ofNat n
  | .unknown => d.file

def compactLine (d : Diagnostic) : Text :=
  d.location ++ ": ".toList ++ d.level.name ++ '[' :: d.rule.name ++ "]: ".toList ++ d.message

def kindLetter : Level → Char
  | .error => 'E'
  | .warning => 'W'

/-- The line of the quickfix report. A diagnostic without a line is put on the first one. -/
def quickfixLine (d : Diagnostic) : Text :=
  d.file ++ ':' :: Text.ofNat (d.line.toOption.getD 1) ++ ":1: ".toList ++
    kindLetter d.level :: ": ".toList ++ d.message

end Diagnostic

def Outcome.lineReport (line : Diagnostic → Text) (o : Outcome) : Text :=
  o.diagnostics.flatMap fun d => line d ++ ['\n']

end PostureAudit

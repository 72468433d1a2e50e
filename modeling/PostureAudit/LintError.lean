import PostureAudit.Settings
import PostureAudit.FileSystem.Path
import PostureAudit.FileSystem.OsError

set_option autoImplicit false

/-! # Errors of a lint run

What can go wrong before a run or while its report is written. What is wrong with the files of a
tree is no error: it is in the outcome of the run. -/

namespace PostureAudit

/-- Why a run cannot begin, or a configuration cannot be written. -/
inductive LintError where
  /-- The configuration file cannot be read. -/
  | unreadableConfig (path : Path) (cause : OsError)
  /-- The configuration file is no document, or not one of a configuration. -/
  | malformedConfig
  /-- The configuration extends a base that does not exist. -/
  | unknownBase (name : Text)
  /-- The configuration has a value that the settings refuse. -/
  | settings (cause : SettingsError)
  /-- There is a configuration file already. -/
  | configExists (path : Path)
  | os (cause : OsError)
  deriving DecidableEq, Repr

namespace LintError

/-- The name of the only base configuration. -/
def recommendedName : Text := "posture:recommended".toList

/-- The wording of an error. That of a malformed configuration is not fixed. -/
def message? : LintError → Option Text
  | unreadableConfig path cause =>
    some ("Failed to read config file ".toList ++ path.text ++ ": ".toList ++ cause.message)
  | malformedConfig => none
  | unknownBase name =>
    some ("Invalid configuration: Unknown base configuration '".toList ++ name ++
      "', expected '".toList ++ recommendedName ++ "'".toList)
  | settings cause => some ("Invalid configuration: ".toList ++ cause.message)
  | configExists path =>
    some ("Configuration file ".toList ++ path.text ++ " already exists".toList)
  | os cause => some ("IO error: ".toList ++ cause.message)

end LintError

end PostureAudit

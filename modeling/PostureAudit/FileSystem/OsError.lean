import PostureAudit.Text.Basic

set_option autoImplicit false

/-! # Errors of the operating system

Why a file operation fails, and how the failure reads in messages. -/

namespace PostureAudit

/-- Why a file operation fails. -/
inductive OsError where
  | notFound
  | inputOutput
  | permissionDenied
  | exists
  | notADirectory
  | isADirectory
  | noSpace
  | readOnly
  | nameTooLong
  | tooManyLinks
  | nulInPath
  | invalidUtf8
  deriving DecidableEq, Repr

def OsError.message : OsError → Text
  | notFound => "No such file or directory (os error 2)".toList
  | inputOutput => "Input/output error (os error 5)".toList
  | permissionDenied => "Permission denied (os error 13)".toList
  | .exists => "File exists (os error 17)".toList
  | notADirectory => "Not a directory (os error 20)".toList
  | isADirectory => "Is a directory (os error 21)".toList
  | noSpace => "No space left on device (os error 28)".toList
  | readOnly => "Read-only file system (os error 30)".toList
  | nameTooLong => "File name too long (os error 36)".toList
  | tooManyLinks => "Too many levels of symbolic links (os error 40)".toList
  | nulInPath => "file name contained an unexpected NUL byte".toList
  | invalidUtf8 => "stream did not contain valid UTF-8".toList

/-- No failure reads over several lines. -/
theorem OsError.message_no_lineFeed (e : OsError) : '\n' ∉ e.message := by
  cases e <;> decide +kernel

end PostureAudit

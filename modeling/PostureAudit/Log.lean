import PostureAudit.Text.Basic

set_option autoImplicit false

/-! # Logs

A log is a list of entries in order, each of them at a level. -/

namespace PostureAudit

/-- How much attention a log entry asks for. -/
inductive LogLevel where
  | debug
  | warn
  deriving DecidableEq, Repr

/-- The word for a level of attention. -/
def LogLevel.name : LogLevel → Text
  | debug => "DEBUG".toList
  | warn => "WARN".toList

/-- One entry of a log. -/
structure LogEntry where
  level : LogLevel
  text : Text
  deriving DecidableEq, Repr

namespace LogEntry

/-- An entry about the ordinary course of a run. -/
def debug (text : Text) : LogEntry := ⟨.debug, text⟩

/-- An entry about something that went wrong. -/
def warn (text : Text) : LogEntry := ⟨.warn, text⟩

def line (e : LogEntry) : Text := e.level.name ++ ' ' :: e.text

end LogEntry

end PostureAudit

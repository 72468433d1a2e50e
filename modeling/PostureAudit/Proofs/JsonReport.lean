import PostureAudit.Proofs.Json
import PostureAudit.Report.Structured

set_option autoImplicit false

/-! # Reading the JSON report back

The JSON report holds all of an outcome: its diagnostics, each with its rule, file, line, level and
message, and the number of files checked. A reader that looks these up by their names gets the
outcome back from the report (`jsonReport_lossless`); the counts and what is said about the rules
follow from the diagnostics, and the reader does not look at them. -/

namespace PostureAudit

namespace Json

/-- The value of the first member with a name. -/
def member? (name : Text) : Json → Option Json
  | object members => (members.find? (·.1 = name)).map (·.2)
  | _ => none

def string? : Json → Option Text
  | string t => some t
  | _ => none

def number? : Json → Option Nat
  | number n => some n
  | _ => none

def array? : Json → Option (List Json)
  | array items => some items
  | _ => none

end Json

def Level.ofName? (name : Text) : Option Level := [error, warning].find? (·.name = name)

def LineNumber.ofJson? : Json → Option LineNumber
  | .null => some unknown
  | .number n => some (known n)
  | _ => none

def Diagnostic.ofJson? (v : Json) : Option Diagnostic := do
  let rule ← Rule.ofName? (← (← v.member? "code".toList).string?)
  let file ← (← v.member? "file".toList).string?
  let level ← Level.ofName? (← (← v.member? "level".toList).string?)
  let line ← LineNumber.ofJson? (← v.member? "line".toList)
  let message ← (← v.member? "message".toList).string?
  return ⟨⟨rule, file, line, message⟩, level⟩

namespace Outcome

def ofJson? (v : Json) : Option Outcome := do
  let diagnostics ← (← (← v.member? "diagnostics".toList).array?).mapM Diagnostic.ofJson?
  let filesChecked ← (← v.member? "files_checked".toList).number?
  return ⟨diagnostics, filesChecked⟩

/-- The outcome that a JSON report is about. -/
def ofJsonReport? (report : Text) : Option Outcome := (Json.ofText? report).bind ofJson?

end Outcome

theorem Level.ofName?_name (l : Level) : ofName? l.name = some l := by cases l <;> decide

theorem LineNumber.ofJson?_toJson (l : LineNumber) : ofJson? l.toJson = some l := by
  cases l <;> rfl

theorem Diagnostic.ofJson?_toJson (d : Diagnostic) : ofJson? d.toJson = some d := by
  have hcode : d.toJson.member? "code".toList = some (.string d.rule.name) := rfl
  have hfile : d.toJson.member? "file".toList = some (.string d.file) := rfl
  have hlevel : d.toJson.member? "level".toList = some (.string d.level.name) := rfl
  have hline : d.toJson.member? "line".toList = some d.line.toJson := rfl
  have hmessage : d.toJson.member? "message".toList = some (.string d.message) := rfl
  simp only [ofJson?, hcode, hfile, hlevel, hline, hmessage, Json.string?, Option.bind_eq_bind,
    Option.bind_some, Rule.ofName?_name, Level.ofName?_name, LineNumber.ofJson?_toJson]
  rfl

namespace Outcome

theorem ofJson?_toJson (o : Outcome) : ofJson? o.toJson = some o := by
  have hdiagnostics : o.toJson.member? "diagnostics".toList =
      some (.array (o.diagnostics.map Diagnostic.toJson)) := rfl
  have hfiles : o.toJson.member? "files_checked".toList = some (.number o.filesChecked) := rfl
  have hread : (o.diagnostics.map Diagnostic.toJson).mapM Diagnostic.ofJson? =
      some o.diagnostics := by
    induction o.diagnostics with
    | nil => rfl
    | cons d ds ih => simp [Diagnostic.ofJson?_toJson, ih]
  simp only [ofJson?, hdiagnostics, hfiles, Json.array?, Json.number?, Option.bind_eq_bind,
    Option.bind_some, hread]
  rfl

/-- The JSON report loses nothing: every outcome is read back from its report, and so two outcomes
    have the same report only if they are the same. -/
theorem jsonReport_lossless :
    (∀ o : Outcome, ofJsonReport? o.jsonReport = some o) ∧
      ∀ o o' : Outcome, o.jsonReport = o'.jsonReport ↔ o = o' := by
  have hfeed : ∀ c ∈ ['\n'], Json.isSpace c = true := List.forall_mem_singleton.mpr (by decide)
  have hread (o : Outcome) : ofJsonReport? o.jsonReport = some o := by
    rw [ofJsonReport?, jsonReport, Json.ofText?_text _ ['\n'] hfeed, Option.bind_some,
      ofJson?_toJson]
  refine ⟨hread, fun o o' => ⟨fun h => ?_, congrArg jsonReport⟩⟩
  exact Option.some.inj (by rw [← hread o, h, hread o'])

end Outcome

end PostureAudit

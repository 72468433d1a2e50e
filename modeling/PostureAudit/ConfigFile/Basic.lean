import PostureAudit.ConfigFile.RuleTable
import PostureAudit.LintError
import PostureAudit.Text.Blank

set_option autoImplicit false

/-! # Configuration files

What a configuration file says, and the settings that it leads to. A file may extend the
recommended base, which holds every rule at `error`; its own rules win over those of the base.
Settings are refused for the first of these causes that there is: an unknown base, an extension
of which nothing is left, a name in the table that is no rule. -/

namespace PostureAudit

/-- What a configuration file says. -/
structure ConfigFile where
  /-- The name of the base that the file extends. -/
  base : Option Text
  /-- The extension, as it is written. -/
  extension : Option Text
  lineResolution : Option LineResolution
  rules : RuleTable
  deriving DecidableEq, Repr

namespace ConfigFile

def empty : ConfigFile := ⟨none, none, none, .empty⟩

def recommended : ConfigFile := { empty with rules := .recommended }

/-- The file together with its base, which it does not extend any more. -/
def extended (c : ConfigFile) : Except LintError ConfigFile :=
  match c.base with
  | none => .ok c
  | some name =>
    if name = LintError.recommendedName then
      .ok { c with base := none, rules := c.rules.withBase recommended.rules }
    else .error (.unknownBase name)

/-- Selects files by an extension as a file gives it. Blanks around it do not count, nor do the
    dots it starts with, but something has to be left. -/
def applyExtension (s : Settings) : Option Text → Except SettingsError Settings
  | none => .ok s
  | some written =>
    let stripped := Settings.dropDots (Text.trim written)
    if stripped = [] then .error (.invalidExtension written) else .ok (s.withExtension stripped)

/-- Applies what a file without a base says to the default settings. -/
def applyTo (c : ConfigFile) (s : Settings) : Except SettingsError Settings :=
  match applyExtension s c.extension with
  | .error e => .error e
  | .ok s =>
    (match c.lineResolution with
      | some resolution => s.withLineResolution resolution
      | none => s).withNamedRules c.rules.severities

def settings (c : ConfigFile) : Except LintError Settings :=
  match c.extended with
  | .error e => .error e
  | .ok c => (c.applyTo .default).mapError .settings

/-- A file together with its base extends nothing. -/
theorem extended_base {c d : ConfigFile} (h : c.extended = .ok d) : d.base = none := by
  unfold extended at h
  split at h
  · rename_i hbase
    cases h
    exact hbase
  · split at h
    · cases h
      rfl
    · cases h

/-- Extending a second time changes nothing. -/
theorem extended_idempotent {c d : ConfigFile} (h : c.extended = .ok d) : d.extended = .ok d := by
  unfold extended
  rw [extended_base h]

end ConfigFile

end PostureAudit

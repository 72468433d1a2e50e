import PostureAudit.Rule
import PostureAudit.Text.Lowercase

set_option autoImplicit false

/-! # Settings of a run

What a run depends on apart from the files: the extension that selects them, the way in which the
line of a finding is found, and the severity of every rule. Tables of named rules apply pair by
pair; the first name that is no rule refuses the whole table. -/

namespace PostureAudit

/-- How the line of a finding is found: from its byte offset, or by searching for its text. -/
inductive LineResolution where
  | offset
  | search
  deriving DecidableEq, Repr

namespace LineResolution

/-- The line resolutions, in the order in which they are listed. -/
def all : List LineResolution := [offset, search]

def name : LineResolution → Text
  | offset => "offset".toList
  | search => "search".toList

def ofName? (name : Text) : Option LineResolution := all.find? (·.name = name)

theorem ofName?_name (r : LineResolution) : ofName? r.name = some r := by cases r <;> decide

end LineResolution

/-- Why settings are refused. -/
inductive SettingsError where
  /-- A table of severities names a rule that does not exist. -/
  | unknownRule (name : Text)
  /-- Nothing is left of an extension, given as it was written. -/
  | invalidExtension (written : Text)
  deriving DecidableEq, Repr

/-- The wording of a refusal. -/
def SettingsError.message : SettingsError → Text
  | unknownRule name => "Unknown rule '".toList ++ name ++ "'".toList
  | invalidExtension written =>
    "Invalid value '".toList ++ written ++ "' for 'extension'".toList

/-- The settings of a run. -/
structure Settings where
  extension : Text
  lineResolution : LineResolution
  severity : Rule → Severity

namespace Settings

/-- The extension of Terraform files. -/
def defaultExtension : Text := "tf".toList

/-- Terraform files, lines from offsets, and every rule an error. -/
def default : Settings := ⟨defaultExtension, .offset, fun _ => .error⟩

/-- A text without the dots it starts with. -/
def dropDots (t : Text) : Text := t.dropWhile (· = '.')

/-- Selects files by an extension, given with or without dots in front. -/
def withExtension (s : Settings) (extension : Text) : Settings :=
  { s with extension := dropDots extension }

/-- Finds lines in the given way. -/
def withLineResolution (s : Settings) (resolution : LineResolution) : Settings :=
  { s with lineResolution := resolution }

def withRule (s : Settings) (rule : Rule) (severity : Severity) : Settings :=
  { s with severity := fun r => if r = rule then severity else s.severity r }

/-- Applies a table of named rules, in order. -/
def withNamedRules : Settings → List (Text × Severity) → Except SettingsError Settings
  | s, [] => .ok s
  | s, (name, severity) :: rest =>
    match Rule.ofName? name with
    | some rule => withNamedRules (s.withRule rule severity) rest
    | none => .error (.unknownRule name)

/-- Holds of the file names that the settings select: in lower case, the name ends in a dot and
    the extension. Name and extension are lower-cased each on its own. -/
def selects (s : Settings) (fileName : Text) : Bool :=
  ('.' :: Text.lower s.extension).isSuffixOf (Text.lower fileName)

@[simp] theorem severity_withRule (s : Settings) (rule other : Rule) (severity : Severity) :
    (s.withRule rule severity).severity other =
      if other = rule then severity else s.severity other := rfl

@[simp] theorem extension_withRule (s : Settings) (rule : Rule) (severity : Severity) :
    (s.withRule rule severity).extension = s.extension := rfl

@[simp] theorem lineResolution_withRule (s : Settings) (rule : Rule) (severity : Severity) :
    (s.withRule rule severity).lineResolution = s.lineResolution := rfl

theorem head?_dropDots_ne (t : Text) : (dropDots t).head? ≠ some '.' := by
  intro h
  have := List.head?_dropWhile_not (· = '.') t
  rw [show t.dropWhile (fun c => decide (c = '.')) = dropDots t from rfl, h] at this
  simp at this

theorem dropDots_eq_self {t : Text} (h : t.head? ≠ some '.') : dropDots t = t := by
  cases t with
  | nil => rfl
  | cons c t =>
    have hc : c ≠ '.' := fun hc => h (by rw [hc, List.head?_cons])
    exact List.dropWhile_cons_of_neg (by simpa using hc)

theorem withNamedRules_append (s : Settings) (xs ys : List (Text × Severity)) :
    s.withNamedRules (xs ++ ys) = (s.withNamedRules xs).bind (·.withNamedRules ys) := by
  induction xs generalizing s with
  | nil => rfl
  | cons x xs ih =>
    obtain ⟨name, severity⟩ := x
    simp only [List.cons_append, withNamedRules]
    split
    · exact ih _
    · rfl

end Settings

end PostureAudit

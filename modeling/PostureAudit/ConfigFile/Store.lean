import PostureAudit.ConfigFile.Document
import PostureAudit.FileSystem.Edit
import PostureAudit.Log

set_option autoImplicit false

/-! # Where configuration files are

A configuration file is looked for in a directory under two names, the first of which is preferred
and is the one that a new file gets. A directory without a file has no configuration, which is no
error; a file that is there has to be readable and well-formed. A new file is written only where
there is none under either name. -/

namespace PostureAudit.ConfigFile

/-- The name of a configuration file that is looked for first. -/
def preferredName : Path := Path.ofText ".posturelint.yml".toList

/-- The names of configuration files, in the order in which they are looked for. -/
def fileNames : List Path := [preferredName, Path.ofText ".posturelint.yaml".toList]

/-- The paths at which a directory may have a configuration file. -/
def candidates (directory : Path) : List Path := fileNames.map directory.join

/-! ## Reading -/

def locate? (fs : FileSystem) (directory : Path) : Option Path :=
  (candidates directory).find? fs.isFile

def read (fs : FileSystem) (path : Path) : Except LintError ConfigFile :=
  match fs.readText path with
  | .error cause => .error (.unreadableConfig path cause)
  | .ok t =>
    match ofText? t with
    | some c => .ok c
    | none => .error .malformedConfig

/-- The configuration of a run: the file that is asked for, or else the one of a directory, if it
    has one. -/
def load (fs : FileSystem) (explicit : Option Path) (directory : Path) :
    Except LintError (Option ConfigFile) :=
  match explicit.or (locate? fs directory) with
  | some path => (read fs path).map some
  | none => .ok none

/-- What loading a configuration tells: which file of the directory is used. -/
def loadLog (fs : FileSystem) (explicit : Option Path) (directory : Path) : List LogEntry :=
  match explicit, locate? fs directory with
  | none, some path => [.debug ("using configuration file ".toList ++ path.text)]
  | _, _ => []

/-! ## Writing -/

/-- The configuration that a new file holds. -/
def starter : ConfigFile where
  base := some LintError.recommendedName
  extension := some Settings.defaultExtension
  lineResolution := some .offset
  rules := RuleTable.empty.insert Rule.invalidPolicyId.name (.short .error)

/-- A line of a mapping, or none if there is no value. -/
def yamlLine (key : Text) : Option Text → Text
  | some value => key ++ ": ".toList ++ value ++ "\n".toList
  | none => []

/-- A line of the rules, one step further to the right. -/
def ruleLine (rule : Text × RuleEntry) : Text :=
  match rule.2 with
  | .short severity => "  ".toList ++ yamlLine rule.1 (some severity.name)
  | .long severity =>
    "  ".toList ++ rule.1 ++ ":\n    ".toList ++
      yamlLine "severity".toList (some severity.name)

/-- A configuration as a document. The texts in it are written as they are, so they have to be
    such that need no quotes. -/
def yaml (c : ConfigFile) : Text :=
  yamlLine "extends".toList c.base ++ yamlLine "extension".toList c.extension ++
    yamlLine "line_resolution".toList (c.lineResolution.map LineResolution.name) ++
    match c.rules.entries with
    | [] => "rules: \x7b\x7d\n".toList
    | rules => "rules:\n".toList ++ rules.flatMap ruleLine

def starterText : Text :=
  "# Security posture lint configuration\n".toList ++
    "# Rule severities: error, warning, off\n".toList ++ starter.yaml

/-- Writes a new configuration file to a directory that has none. The answer is its path; with it
    comes the file system that is there then. -/
def create (fs : FileSystem) (directory : Path) (transfer : Transfer) :
    Except LintError Path × FileSystem :=
  match (candidates directory).find? fs.pathExists with
  | some path => (.error (.configExists path), fs)
  | none =>
    let path := directory.join preferredName
    match fs.writeFile path (Utf8.encode starterText) transfer with
    | (.ok (), fs) => (.ok path, fs)
    | (.error cause, fs) => (.error (.os cause), fs)

end PostureAudit.ConfigFile

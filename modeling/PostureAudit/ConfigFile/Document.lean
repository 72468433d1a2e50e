import PostureAudit.ConfigFile.Basic
import PostureAudit.Yaml.Schema

set_option autoImplicit false

/-! # Configuration files as documents

The configuration file of a YAML document. A blank text is the file that says nothing, and so is
an empty document. Otherwise the document is a mapping of the four known keys, each of them at
most once; keys and texts are taken as they are spelled, whatever they stand for. The entry of a
rule is read by what its scalars stand for, which is why tags matter there and not elsewhere. -/

namespace PostureAudit

namespace Yaml.Node

/-- The entries of a mapping. A value that is left out counts as a mapping without entries. -/
def entries? : Node → Option (List (Node × Node))
  | .mapping _ entries => some entries
  | .scalar _ .plain [] => some []
  | _ => none

def spelling? : Node → Option Text
  | .scalar _ _ value => some value
  | _ => none

/-- The spelling of a scalar that may be missing. A plain null word is missing, and so is a value
    that is left out; a null tag allows for nothing but a null word. -/
def optionalSpelling? : Node → Option (Option Text)
  | .scalar tag .plain value =>
    if tag = none then some (if value = [] || isNullWord value then none else some value)
    else if tag = some (standardTag "null") then (if isNullWord value then some none else none)
    else some (some value)
  | .scalar _ _ value => some (some value)
  | _ => none

mutual

/-- Holds of the nodes whose scalars all stand for something, and whose tags are none of the
    application's own. -/
def isResolved : Node → Bool
  | .scalar tag style value => (resolve? tag style value).isSome
  | .sequence tag items => !isOwnTag tag && areResolved items
  | .mapping tag entries => !isOwnTag tag && entriesResolved entries

def areResolved : List Node → Bool
  | [] => true
  | n :: rest => n.isResolved && areResolved rest

/-- Holds if the keys and values of some entries are all resolved. -/
def entriesResolved : List (Node × Node) → Bool
  | [] => true
  | (k, v) :: rest => k.isResolved && v.isResolved && entriesResolved rest

end

def value? : Node → Option ScalarValue
  | .scalar tag style value => resolve? tag style value
  | _ => none

end Yaml.Node

open Yaml (Node ScalarValue)

/-! ## Rules -/

/-- The severity of a scalar: its name, or its number in the list of severities if `numbered`
    holds. -/
def Severity.ofScalar? (numbered : Bool) : ScalarValue → Option Severity
  | .text t => Severity.ofName? t
  | .natural n => if numbered then Severity.all[n]? else none
  | _ => none

/-- The severity that a node gives: by its name, or as the only key of a mapping, without a
    value. -/
def Severity.ofNode? : Node → Option Severity
  | .mapping _ [(key, value)] =>
    if value.value? = some .null then key.value?.bind (ofScalar? true) else none
  | node => node.value?.bind (ofScalar? false)

/-- How the key of a mapping that gives a severity reads: as the key of the severity, as another
    key, or not at all. -/
def RuleEntry.isSeverityKey? (key : Node) : Option Bool :=
  match key.value? with
  | some (.text t) => some (t = "severity".toList)
  | some (.natural n) => some (n = 0)
  | _ => none

/-- The values of the severity key in a mapping, if all its keys can be read. -/
def RuleEntry.severityValues? : List (Node × Node) → Option (List Node)
  | [] => some []
  | (key, value) :: rest =>
    match RuleEntry.isSeverityKey? key, severityValues? rest with
    | some isSeverity, some values => some (if isSeverity then value :: values else values)
    | _, _ => none

/-- The entry of a rule in the long form: a mapping in which the severity key occurs once. Other
    keys do not matter. -/
def RuleEntry.longOfNode? : Node → Option RuleEntry
  | .mapping _ entries =>
    match severityValues? entries with
    | some [value] => (Severity.ofNode? value).map .long
    | _ => none
  | _ => none

/-- The entry that the shape of a node gives. The short form is preferred. -/
def RuleEntry.ofShape? (node : Node) : Option RuleEntry :=
  match Severity.ofNode? node with
  | some severity => some (.short severity)
  | none => longOfNode? node

/-- The entry of a rule. Nothing in its node may fail to stand for something. -/
def RuleEntry.ofNode? (node : Node) : Option RuleEntry :=
  (ofShape? node).filter fun _ => node.isResolved

/-- The name and the entry of a rule in a mapping. -/
def RuleEntry.ofPair? (pair : Node × Node) : Option (Text × RuleEntry) :=
  match pair.1.spelling?, ofNode? pair.2 with
  | some name, some entry => some (name, entry)
  | _, _ => none

def RuleTable.ofEntries? (entries : List (Node × Node)) : Option RuleTable :=
  (entries.mapM RuleEntry.ofPair?).map ofList

/-! ## Files -/

/-- The line resolution of a node: a tag of its own names it and has no value, or the spelling of
    a scalar names it. -/
def LineResolution.ofNode? : Node → Option LineResolution
  | .scalar (some ('!' :: name)) style value =>
    if style = .plain && (value = [] || Yaml.isNullWord value) then ofName? name else none
  | .scalar _ _ value => ofName? value
  | _ => none

namespace ConfigFile

def addEntry (c : ConfigFile) (key : Text) (value : Node) : Option ConfigFile :=
  if key = "extends".toList then
    value.optionalSpelling?.map fun base => { c with base }
  else if key = "extension".toList then
    value.optionalSpelling?.map fun extension => { c with extension }
  else if key = "line_resolution".toList then
    match value.optionalSpelling? with
    | some none => some { c with lineResolution := none }
    | some (some _) =>
      (LineResolution.ofNode? value).map fun r => { c with lineResolution := some r }
    | none => none
  else if key = "rules".toList then
    (value.entries?.bind RuleTable.ofEntries?).map fun rules => { c with rules }
  else none

/-- The file of some entries, none of which has a key that is `seen` already. -/
def ofEntries? : List Text → ConfigFile → List (Node × Node) → Option ConfigFile
  | _, c, [] => some c
  | seen, c, (key, value) :: rest =>
    match key.spelling? with
    | some key =>
      if key ∈ seen then none
      else match c.addEntry key value with
        | some c => ofEntries? (key :: seen) c rest
        | none => none
    | none => none

def ofNode? (node : Node) : Option ConfigFile := node.entries?.bind (ofEntries? [] empty)

def ofText? (t : Text) : Option ConfigFile :=
  if Text.trim t = [] then some empty else (Yaml.parse? t).bind ofNode?

end ConfigFile

end PostureAudit

import PostureAudit.Posture.Declaration
import PostureAudit.Posture.Assignment
import PostureAudit.Posture.Identifier
import PostureAudit.Diagnostic
import PostureAudit.FileSystem.OsError

set_option autoImplicit false

/-! # What is wrong with a file

A file has to declare one posture. Any other number is its only fault; otherwise the posture needs
an identifier, and every value of an identifier field has to have the format of the field. The
faults come in this order, field by field, and within a field in the order of the text. Each fault
has a line; how lines are found is a setting. -/

namespace PostureAudit

/-- Something wrong with a file. -/
inductive Fault where
  /-- The number of declarations is not one. -/
  | declarationCount (found : Nat)
  | missingPostureId
  /-- A value does not have the format of its field. -/
  | invalidValue (field : Field) (value : Text)
  deriving DecidableEq, Repr

namespace Fault

def rule : Fault → Rule
  | declarationCount _ => .resourceDeclarationCount
  | missingPostureId => .missingPostureId
  | invalidValue field _ => field.formatRule

/-- What a message says about the line of the first declaration. -/
def occurrenceText : LineNumber → Text
  | .known n => " First occurrence (if any) near line ~".toList ++ Text.ofNat n ++ ".".toList
  | .unknown => []

/-- What a message says about the line of a value. -/
def placeText : LineNumber → Text
  | .known n => " at line ~".toList ++ Text.ofNat n
  | .unknown => []

def message (file : Text) (line : LineNumber) : Fault → Text
  | declarationCount found =>
    "Error: File ".toList ++ file ++ " must contain exactly one '".toList ++
      Declaration.resourceType ++ "' resource declaration. Found ".toList ++
      Text.ofNat found ++ ".".toList ++ occurrenceText line
  | missingPostureId =>
    "Error: '".toList ++ Declaration.resourceType ++ "' resource declared in ".toList ++ file ++
      ", but no 'posture_id' assignment found in the file.".toList
  | invalidValue field value =>
    "Error: Invalid '".toList ++ field.name ++ "' value '".toList ++ value ++
      "' found in ".toList ++ file ++ placeText line ++ ". Must match '".toList ++
      field.formatPattern ++ "'.".toList

def finding (fault : Fault) (file : Text) (line : LineNumber) : Finding :=
  ⟨fault.rule, file, line, fault.message file line⟩

end Fault

/-! ## Lines of faults -/

/-- The text up to and including the character that starts at a byte offset. -/
def Text.through : Nat → Text → Text
  | _, [] => []
  | 0, c :: _ => [c]
  | offset + 1, c :: t => c :: through (offset + 1 - c.utf8Size) t

theorem Text.through_append (front : Text) (c : Char) (back : Text) :
    through (utf8Length front) (front ++ c :: back) = front ++ [c] := by
  induction front with
  | nil => rfl
  | cons d front ih =>
    obtain ⟨n, hn, hrest⟩ := exists_utf8Length_cons d front
    rw [hn, List.cons_append, through, hrest, ih, List.cons_append]

/-- The line that is given for a wrong number of declarations: the line of the first one, or the
    first line of the file. A search looks in the text up to the start of the first declaration
    and then in all of the text. -/
def declarationLine (resolution : LineResolution) (content : Text) :
    List (Site Text) → LineNumber
  | [] => .known 1
  | first :: _ =>
    match resolution with
    | .offset => Text.lineAtOffset content first.offset
    | .search =>
      (Text.findPattern Declaration.opening (Text.through first.offset content)).orElse
        (Text.findPattern Declaration.opening content)

def assignmentLine (resolution : LineResolution) (content : Text) (field : Field)
    (site : Site Text) : LineNumber :=
  match resolution with
  | .offset => Text.lineAtOffset content site.offset
  | .search => Text.findPattern (field.literalPattern site.value) content

/-! ## The faults of a file -/

/-- The values of a field that do not have its format, with their lines. -/
def invalidValues (resolution : LineResolution) (content : Text) (field : Field) :
    List (Fault × LineNumber) :=
  ((assignments field content).filter fun site => !field.accepts site.value).map fun site =>
    (.invalidValue field site.value, assignmentLine resolution content field site)

/-- A missing identifier, with the line of the declaration that lacks it. -/
def missingId (content : Text) (declaration : Site Text) : List (Fault × LineNumber) :=
  if (assignments .postureId content).isEmpty then
    [(.missingPostureId, Text.lineAtOffset content declaration.offset)]
  else []

/-- The faults of a file, in order, with their lines. -/
def faults (resolution : LineResolution) (content : Text) : List (Fault × LineNumber) :=
  match declarations content with
  | [declaration] =>
    missingId content declaration ++ Field.all.flatMap (invalidValues resolution content)
  | found => [(.declarationCount found.length, declarationLine resolution content found)]

/-- The findings in a file, before any severity is applied. -/
def fileFindings (resolution : LineResolution) (content file : Text) : List Finding :=
  (faults resolution content).map fun (fault, line) => fault.finding file line

def Outcome.checkFile (s : Settings) (o : Outcome) (content file : Text) : Outcome :=
  o.countFile.recordAll s (fileFindings s.lineResolution content file)

def auditFile (s : Settings) (content file : Text) : Outcome :=
  Outcome.empty.checkFile s content file

end PostureAudit

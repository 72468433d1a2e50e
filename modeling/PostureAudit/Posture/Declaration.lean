import PostureAudit.Text.Scan
import PostureAudit.Text.Blank

set_option autoImplicit false

/-! # Declarations of a posture

A declaration is the header of a posture resource: the resource keyword, the resource type and a
label, both in quotes, and an opening brace. It is found wherever its text stands, in a comment or
a string as well; the label may hold anything but a quote. -/

namespace PostureAudit

namespace Declaration

/-- The type of the only resource that is looked at. -/
def resourceType : Text := "google_securityposture_posture".toList

/-- How a header begins, up to the quote that ends the resource type. -/
def opening : Text := "resource \"".toList ++ resourceType ++ "\"".toList

/-- The text of a header with a label, and with some blanks before the brace. -/
def text (label blanks : Text) : Text :=
  opening ++ " \"".toList ++ label ++ '"' :: blanks ++ ['\x7B']

/-- Reads a header. The value is its label. -/
def read (t : Text) : Option (Text × Text) := do
  let t ← Text.after? (opening ++ " \"".toList) t
  let label := t.takeWhile (· != '"')
  let t ← Text.after? ['"'] (t.dropWhile (· != '"'))
  let blanks := t.takeWhile isBlank
  let _ ← Text.after? ['\x7B'] (t.dropWhile isBlank)
  return (label, text label blanks)

end Declaration

/-- The declarations of a text, each with its label, in order. -/
def declarations (t : Text) : List (Site Text) := scan Declaration.read t

end PostureAudit

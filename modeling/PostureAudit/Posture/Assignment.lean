import PostureAudit.Posture.Field
import PostureAudit.Text.Scan
import PostureAudit.Text.Blank

set_option autoImplicit false

/-! # Assignments to an identifier field

An assignment is the name of a field, an equals sign and a quoted value, with any blanks around
the sign. It is found wherever its text stands, also at the end of a longer name. A value ends at
the first quote that no backslash precedes, and on the same line; it is kept as it is written. -/

namespace PostureAudit

namespace Assignment

/-- Reads a value up to the quote that ends it, which has to be there. A value is a sequence of
    units: a character other than a quote, a backslash, a carriage return and a line feed, or a
    backslash and the character after it, which may be anything but a line feed. -/
def readValue : Text → Option Text
  | [] => none
  | '"' :: _ => some []
  | '\\' :: c :: t => if c = '\n' then none else (readValue t).map ('\\' :: c :: ·)
  | c :: t =>
    if c = '\\' || c = '\r' || c = '\n' then none else (readValue t).map (c :: ·)

/-- The text of an assignment of a value, with some blanks before and after the sign. -/
def text (f : Field) (before after value : Text) : Text :=
  f.name ++ before ++ '=' :: after ++ '"' :: value ++ ['"']

/-- Reads an assignment to a field. The value is what stands between the quotes. -/
def read (f : Field) (t : Text) : Option (Text × Text) := do
  let t ← Text.after? f.name t
  let before := t.takeWhile isBlank
  let t ← Text.after? ['='] (t.dropWhile isBlank)
  let after := t.takeWhile isBlank
  let t ← Text.after? ['"'] (t.dropWhile isBlank)
  let value ← readValue t
  return (value, text f before after value)

end Assignment

/-- The assignments to a field in a text, each with its value, in order. -/
def assignments (f : Field) (t : Text) : List (Site Text) := scan (Assignment.read f) t

end PostureAudit

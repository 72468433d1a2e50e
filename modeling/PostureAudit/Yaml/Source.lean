import PostureAudit.Text.Basic

set_option autoImplicit false

/-! # Reading a YAML source

A source is the text that is left to read, with the position that has been reached. Only printable
characters, tabs and line breaks may stand in it. A line break is one of five characters, or a
carriage return and a line feed together; inside a scalar all but the two Unicode separators read
as a line feed. -/

namespace PostureAudit.Yaml

/-- Holds of the characters that a source may hold. -/
def isAllowed (c : Char) : Bool :=
  let n := c.toNat
  n == 0x09 || n == 0x0A || n == 0x0D || (0x20 ≤ n && n ≤ 0x7E) || n == 0x85 ||
    (0xA0 ≤ n && n ≤ 0xD7FF) || (0xE000 ≤ n && n ≤ 0xFFFD) || 0x10000 ≤ n

/-- Holds of the characters that end a line. -/
def isBreak (c : Char) : Bool :=
  c == '\r' || c == '\n' || c == '\u0085' || c == '\u2028' || c == '\u2029'

def isSpace (c : Char) : Bool := c == ' ' || c == '\t'

/-- Holds at the end of a source and before a space, a tab or a line break. -/
def atGap : Text → Bool
  | [] => true
  | c :: _ => isSpace c || isBreak c

/-- Holds before a line break. -/
def atBreak : Text → Bool
  | [] => false
  | c :: _ => isBreak c

def atLineEnd (t : Text) : Bool := t.isEmpty || atBreak t

/-- Holds before the marker of a document, three times the same character and a gap. -/
def atMarker (c : Char) : Text → Bool
  | a :: b :: d :: rest => a == c && b == c && d == c && atGap rest
  | _ => false

/-- Holds before either of the document markers. -/
def atDocumentMarker (t : Text) : Bool := atMarker '-' t || atMarker '.' t

/-- The letters, digits and the two signs that names are made of. -/
def isNameChar (c : Char) : Bool := c.isAlphanum || c == '_' || c == '-'

/-- What is left of a source, and the position reached: characters read, lines read, and
    characters read in the line. -/
structure Source where
  rest : Text
  index : Nat
  line : Nat
  column : Nat
  deriving DecidableEq, Repr

namespace Source

/-- A source before anything is read. -/
def ofText (t : Text) : Source := ⟨t, 0, 0, 0⟩

/-- Passes `n` characters that are no line breaks. -/
def skip (s : Source) (n : Nat) : Source :=
  { s with rest := s.rest.drop n, index := s.index + n, column := s.column + n }

/-- Passes the characters that satisfy a test, which no line break does. -/
def skipWhile (s : Source) (p : Char → Bool) : Source := s.skip (s.rest.takeWhile p).length

/-- Passes a byte order mark at the start of a line. It takes a column, so what follows it does not
    stand at the start of the line. -/
def skipMark (s : Source) : Source :=
  if s.column == 0 && s.rest.head? == some '\uFEFF' then s.skip 1 else s

/-- Passes a line break. -/
def skipBreak (s : Source) : Source :=
  match s.rest with
  | '\r' :: '\n' :: t => ⟨t, s.index + 2, s.line + 1, 0⟩
  | _ :: t => ⟨t, s.index + 1, s.line + 1, 0⟩
  | [] => s

/-- How the line break at hand reads inside a scalar. -/
def breakText (s : Source) : Text :=
  match s.rest with
  | '\u2028' :: _ => ['\u2028']
  | '\u2029' :: _ => ['\u2029']
  | c :: _ => if isBreak c then ['\n'] else []
  | [] => []

/-- Passes the rest of a line, but not its break. -/
def skipLine (s : Source) : Source := s.skipWhile fun c => !isBreak c

end Source

end PostureAudit.Yaml

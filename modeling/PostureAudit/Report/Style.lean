import PostureAudit.Text.Basic

set_option autoImplicit false

/-! # Coloured text

A piece of text is coloured by a control sequence in front of it and the reset sequence after it.
A reset sequence inside the piece would end its style, so the style begins again after each of
them. Without colours a piece is plain text. -/

namespace PostureAudit

/-- Whether a report is coloured. -/
inductive Colouring where
  | plain
  | coloured
  deriving DecidableEq, Repr

/-- The styles that reports use. -/
inductive Style where
  | green
  | underlined
  | dimmed
  | boldRed
  | boldYellow
  deriving DecidableEq, Repr

namespace Style

def escape : Char := '\x1b'

def controlSequence (codes : Text) : Text := escape :: '[' :: codes ++ ['m']

def codes : Style → Text
  | green => "32".toList
  | underlined => "4".toList
  | dimmed => "2".toList
  | boldRed => "1;31".toList
  | boldYellow => "1;33".toList

def opening (s : Style) : Text := controlSequence s.codes

/-- The control sequence that ends every style. -/
def reset : Text := controlSequence "0".toList

/-- A text in which a style begins again after every reset sequence. -/
def reopen (s : Style) : Text → Text
  | '\x1b' :: '[' :: '0' :: 'm' :: t => reset ++ s.opening ++ reopen s t
  | c :: t => c :: reopen s t
  | [] => []

def paint (colouring : Colouring) (s : Style) (t : Text) : Text :=
  match colouring with
  | .plain => t
  | .coloured => s.opening ++ s.reopen t ++ reset

end Style

end PostureAudit

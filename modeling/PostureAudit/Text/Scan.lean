import PostureAudit.Text.Basic

set_option autoImplicit false

/-! # Scanning a text for sites

A recogniser looks at the start of a text and answers with a value and with what it read. `scan`
collects the sites that a recogniser finds from left to right: the first site, then the first one
that starts at or after its end, and so on. A recogniser that reads nothing is taken to have read
one character, so every site has an extent. -/

namespace PostureAudit

/-- A value read from the start of a text, and the part of the text that was read. -/
abbrev Recogniser (α : Type) := Text → Option (α × Text)

/-- A site in a text: where it starts, in bytes from the start of the text, what it reads, and the
    value that it holds. -/
structure Site (α : Type) where
  offset : Nat
  text : Text
  value : α
  deriving DecidableEq, Repr

variable {α : Type}

/-- The sites from a byte offset on. The next `skip` characters belong to the site before. -/
def scanFrom (read : Recogniser α) : Nat → Nat → Text → List (Site α)
  | _, _, [] => []
  | offset, skip + 1, c :: t => scanFrom read (offset + c.utf8Size) skip t
  | offset, 0, c :: t =>
    match read (c :: t) with
    | some (value, text) =>
      ⟨offset, text, value⟩ :: scanFrom read (offset + c.utf8Size) (text.length - 1) t
    | none => scanFrom read (offset + c.utf8Size) 0 t

/-- The sites of a text, left to right and without overlap. -/
def scan (read : Recogniser α) (t : Text) : List (Site α) := scanFrom read 0 0 t

end PostureAudit

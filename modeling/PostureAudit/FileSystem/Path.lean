import PostureAudit.Text.Utf8

set_option autoImplicit false

/-! # Paths

A path is a byte string. A slash separates its components; empty components mean nothing, and a
slash at the end asks for a directory, just as a final dot does. `Path.steps` is what a path tells
the resolver to do. -/

namespace PostureAudit

/-- A path, as it was written or put together. -/
abbrev Path := Bytes

/-- One component of a path, as an instruction. -/
inductive PathStep where
  | here
  | up
  | into (name : Bytes)
  /-- Asks for a directory, as the slash at the end of a path does. -/
  | slash
  deriving DecidableEq, Repr

namespace Path

def slash : UInt8 := 0x2F

def dot : UInt8 := 0x2E

def ofText (t : Text) : Path := Utf8.encode t

/-- How a path reads: invalid parts are shown as U+FFFD. -/
def text (p : Path) : Text := Utf8.decodeLossy p

/-- The path of an entry of a directory. A slash is put in between, unless the path of the
    directory is empty or ends in one. -/
def join (directory : Path) (name : Bytes) : Path :=
  if directory.isEmpty || directory.getLast? = some slash then directory ++ name
  else directory ++ slash :: name

/-- The pieces of a path between its slashes; an empty path has one. -/
def pieces : Path → List Bytes
  | [] => [[]]
  | b :: p =>
    if b = slash then [] :: pieces p
    else match pieces p with
      | [] => [[b]]
      | name :: names => (b :: name) :: names

def stepOf? (piece : Bytes) : Option PathStep :=
  if piece = [] then none
  else if piece = [dot] then some .here
  else if piece = [dot, dot] then some .up
  else some (.into piece)

def steps (p : Path) : List PathStep :=
  (pieces p).filterMap stepOf? ++ if p.getLast? = some slash then [.slash] else []

/-- Holds of the paths that start at the root of the file system. -/
def isAbsolute (p : Path) : Bool := p.head? = some slash

/-- The names that the path goes into, one after the other. -/
def names (p : Path) : List Bytes :=
  (pieces p).filter fun piece => piece ≠ [] && piece ≠ [dot]

end Path

end PostureAudit

import PostureAudit.Text.Basic

set_option autoImplicit false

/-! # JSON

JSON values and how they are written: over several lines, two spaces for every level, an empty
array or object on one line. The members of an object are written in the order in which they are
given. In a string the quote, the backslash and the control characters below U+0020 are escaped,
by a letter where there is one; every other character stands for itself. -/

namespace PostureAudit

/-- A JSON value. The only numbers are whole and not negative. -/
inductive Json where
  | null
  | number (n : Nat)
  | string (t : Text)
  | array (items : List Json)
  | object (members : List (Text × Json))
  deriving Repr

namespace Json

/-! ## Strings -/

/-- The hexadecimal digits of a control character, after the two zeros that all of them have. -/
def controlDigits (c : Char) : Text :=
  [Nat.digitChar (c.toNat / 16), Nat.digitChar (c.toNat % 16)]

/-- How a character is written in a string. -/
def escapeChar (c : Char) : Text :=
  if c = '"' then ['\\', '"']
  else if c = '\\' then ['\\', '\\']
  else if c = '\n' then ['\\', 'n']
  else if c = '\r' then ['\\', 'r']
  else if c = '\t' then ['\\', 't']
  else if c = '\x08' then ['\\', 'b']
  else if c = '\x0C' then ['\\', 'f']
  else if c.toNat < 0x20 then "\\u00".toList ++ controlDigits c
  else [c]

/-- How a string is written. -/
def quote (t : Text) : Text := '"' :: t.flatMap escapeChar ++ ['"']

/-! ## Values -/

/-- A line break, and the indentation of a level. -/
def newLine (level : Nat) : Text := '\n' :: List.replicate (2 * level) ' '

mutual

/-- How a value is written at a level of indentation. -/
def textAt (level : Nat) : Json → Text
  | null => "null".toList
  | number n => Text.ofNat n
  | string t => quote t
  | array [] => "[]".toList
  | array (item :: items) =>
    '[' :: newLine (level + 1) ++ item.textAt (level + 1) ++ moreItems (level + 1) items ++
      newLine level ++ [']']
  | object [] => "\x7b\x7d".toList
  | object ((name, value) :: members) =>
    '\x7b' :: newLine (level + 1) ++ quote name ++ ": ".toList ++ value.textAt (level + 1) ++
      moreMembers (level + 1) members ++ newLine level ++ ['\x7d']

/-- How the items after the first one are written. -/
def moreItems (level : Nat) : List Json → Text
  | [] => []
  | item :: items => ',' :: newLine level ++ item.textAt level ++ moreItems level items

/-- How the members after the first one are written. -/
def moreMembers (level : Nat) : List (Text × Json) → Text
  | [] => []
  | (name, value) :: members =>
    ',' :: newLine level ++ quote name ++ ": ".toList ++ value.textAt level ++
      moreMembers level members

end

def text (value : Json) : Text := value.textAt 0

end Json

end PostureAudit

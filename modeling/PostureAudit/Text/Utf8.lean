import PostureAudit.Text.Basic

set_option autoImplicit false

/-! # UTF-8

Decoding is a machine that reads one byte at a time. Its output is a list of units: a character,
or `none` for a maximal invalid part, that is, for a longest run of bytes that starts a character
and cannot be continued to one, or for one byte that starts none. `decodeLossy` shows every
invalid part as U+FFFD; `decode?` refuses a byte string that has one. -/

namespace PostureAudit.Utf8

/-- Where the machine stands: between characters, or inside one that still needs `more + 1`
    bytes, the next of them between `low` and `high`, with the bits read so far in `bits`. -/
inductive State where
  | start
  | inside (more low high bits : Nat)
  deriving DecidableEq, Repr

/-- The state after the first byte of a character of several bytes. -/
def lead? (b : Nat) : Option State :=
  if 0xC2 ≤ b && b ≤ 0xDF then some (.inside 0 0x80 0xBF (b - 0xC0))
  else if b == 0xE0 then some (.inside 1 0xA0 0xBF 0)
  else if b == 0xED then some (.inside 1 0x80 0x9F 0xD)
  else if 0xE1 ≤ b && b ≤ 0xEF then some (.inside 1 0x80 0xBF (b - 0xE0))
  else if b == 0xF0 then some (.inside 2 0x90 0xBF 0)
  else if 0xF1 ≤ b && b ≤ 0xF3 then some (.inside 2 0x80 0xBF (b - 0xF0))
  else if b == 0xF4 then some (.inside 2 0x80 0x8F 4)
  else none

/-- One byte read between characters: the units it completes and the next state. -/
def first (b : Nat) : List (Option Char) × State :=
  if b < 0x80 then ([some (Char.ofNat b)], .start)
  else match lead? b with
    | some s => ([], s)
    | none => ([none], .start)

/-- One byte read in a state. A byte that cannot continue the character at hand ends an invalid
    part and is read again as the first byte of the next one. -/
def step : State → Nat → List (Option Char) × State
  | .start, b => first b
  | .inside more low high bits, b =>
    if low ≤ b && b ≤ high then
      let bits := bits * 64 + (b - 0x80)
      match more with
      | 0 => ([some (Char.ofNat bits)], .start)
      | more + 1 => ([], .inside more 0x80 0xBF bits)
    else
      let (units, s) := first b
      (none :: units, s)

/-- The units of a byte string read from a state. A character cut off by the end is an invalid
    part. -/
def unitsFrom : State → Bytes → List (Option Char)
  | .start, [] => []
  | .inside .., [] => [none]
  | s, b :: rest =>
    let (units, s) := step s b.toNat
    units ++ unitsFrom s rest

/-- The characters and maximal invalid parts of a byte string, in order. -/
def units (bytes : Bytes) : List (Option Char) := unitsFrom .start bytes

/-- The text of a byte string, with U+FFFD for every maximal invalid part. -/
def decodeLossy (bytes : Bytes) : Text := (units bytes).map (·.getD '\uFFFD')

/-- The text of a byte string that is UTF-8 throughout. -/
def decode? (bytes : Bytes) : Option Text := (units bytes).mapM id

def encode (t : Text) : Bytes := t.flatMap String.utf8EncodeChar

/-- A text takes as many bytes as its measure says. -/
theorem length_encode (t : Text) : (encode t).length = Text.utf8Length t := by
  induction t with
  | nil => rfl
  | cons c t ih => simp_all [encode]

end PostureAudit.Utf8

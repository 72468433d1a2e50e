import PostureAudit.Text.Basic

set_option autoImplicit false

/-! # Lines

Two views of the lines of a text. `Text.lines` splits it: a line ends at a line feed, one carriage
return before the line feed belongs to the line end, and nothing follows a final line feed.
`lineAtOffset` counts line feeds before a byte offset. Line numbers start at one. -/

namespace PostureAudit

/-- The number of a line, if it is known. -/
inductive LineNumber where
  | known (line : Nat)
  | unknown
  deriving DecidableEq, Repr

namespace LineNumber

/-- The first of two line numbers that is known. -/
def orElse : LineNumber → LineNumber → LineNumber
  | known n, _ => known n
  | unknown, fallback => fallback

def toOption : LineNumber → Option Nat
  | known n => some n
  | unknown => none

/-- A line number that may be missing. -/
def ofOption : Option Nat → LineNumber
  | some n => known n
  | none => unknown

/-- How a line number reads: its digits, or the word for a line that is not known. -/
def text : LineNumber → Text
  | known n => Text.ofNat n
  | unknown => "unknown".toList

end LineNumber

namespace Text

/-- The lines of a text, without their ends. -/
def lines : Text → List Text
  | [] => []
  | '\r' :: '\n' :: t => [] :: lines t
  | '\n' :: t => [] :: lines t
  | c :: t =>
    match lines t with
    | [] => [[c]]
    | l :: ls => (c :: l) :: ls

/-- The number of line feeds that start before the byte offset. -/
def lineFeedsBefore : Text → Nat → Nat
  | [], _ => 0
  | _ :: _, 0 => 0
  | c :: t, offset + 1 =>
    (if c = '\n' then 1 else 0) + lineFeedsBefore t (offset + 1 - c.utf8Size)

/-- The line that holds a byte offset; unknown past the end of the text. -/
def lineAtOffset (t : Text) (offset : Nat) : LineNumber :=
  if offset ≤ utf8Length t then .known (lineFeedsBefore t offset + 1) else .unknown

/-- The number of the first line that a test accepts. -/
def findLine (accepts : Text → Bool) (t : Text) : LineNumber :=
  match (lines t).findIdx? accepts with
  | some i => .known (i + 1)
  | none => .unknown

/-- Up to the end of a front, the line feeds are those of the front. -/
theorem lineFeedsBefore_append (front back : Text) :
    lineFeedsBefore (front ++ back) (utf8Length front) = front.count '\n' := by
  induction front with
  | nil => cases back <;> rfl
  | cons c front ih =>
    obtain ⟨n, hn, hrest⟩ := exists_utf8Length_cons c front
    rw [hn, List.cons_append, lineFeedsBefore, hrest, ih, List.count_cons, Nat.add_comm]
    simp

/-- The line that comes after a front. -/
theorem lineAtOffset_append (front back : Text) :
    lineAtOffset (front ++ back) (utf8Length front) = .known (front.count '\n' + 1) := by
  rw [lineAtOffset, lineFeedsBefore_append, utf8Length_append, if_pos (Nat.le_add_right _ _)]

/-- A line number is known exactly for the offsets up to the end of the text. -/
theorem lineAtOffset_eq_unknown_iff (t : Text) (offset : Nat) :
    lineAtOffset t offset = .unknown ↔ utf8Length t < offset := by
  unfold lineAtOffset
  split <;> simp <;> omega

end Text

end PostureAudit

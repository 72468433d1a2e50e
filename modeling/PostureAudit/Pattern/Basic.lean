import PostureAudit.Pattern.CharClass

set_option autoImplicit false

/-! # Patterns and what they match

A pattern is a regular expression over the characters of a line. Its meaning is a relation between
cursors: `Matches p k k'` says that `p` can match the text from `k` to `k'`. Anchors and word
boundaries look at the characters on both sides, so a cursor remembers the one before it. -/

namespace PostureAudit

namespace Pattern

/-- A place in a line: the number of characters before it, the last of them, and the text after
    it. The number tells two places of a line apart at once. -/
structure Cursor where
  index : Nat
  before : Option Char
  rest : Text
  deriving DecidableEq, Repr

namespace Cursor

/-- The place before the text. -/
def start (t : Text) : Cursor := ⟨0, none, t⟩

def andAfter (index : Nat) (before : Option Char) : Text → List Cursor
  | [] => [⟨index, before, []⟩]
  | c :: t => ⟨index, before, c :: t⟩ :: andAfter (index + 1) (some c) t

/-- All places of a line. -/
def all (t : Text) : List Cursor := andAfter 0 none t

/-- Holds if a word character comes just before. -/
def wordBefore (k : Cursor) : Bool := k.before.any isWord

/-- Holds if a word character comes next. -/
def wordAfter (k : Cursor) : Bool := k.rest.head?.any isWord

end Cursor

/-- A condition on a place; it takes no characters. -/
inductive Assertion where
  | textStart
  | textEnd
  | wordBoundary
  | noWordBoundary
  | wordStart
  | wordEnd
  deriving DecidableEq, Repr

/-- Holds of the places that satisfy the condition. -/
def Assertion.holds : Assertion → Cursor → Bool
  | textStart, k => k.before.isNone
  | textEnd, k => k.rest.isEmpty
  | wordBoundary, k => k.wordBefore != k.wordAfter
  | noWordBoundary, k => k.wordBefore == k.wordAfter
  | wordStart, k => !k.wordBefore && k.wordAfter
  | wordEnd, k => k.wordBefore && !k.wordAfter

end Pattern

open Pattern in
/-- A regular expression. -/
inductive Pattern where
  | empty
  | one (s : CharClass)
  | assert (a : Assertion)
  | seq (p q : Pattern)
  | alt (p q : Pattern)
  | star (p : Pattern)
  deriving DecidableEq, Repr

namespace Pattern

/-- The pattern can match the text between two places. -/
inductive Matches : Pattern → Cursor → Cursor → Prop where
  | empty (k : Cursor) : Matches .empty k k
  | one {s : CharClass} {index : Nat} {before : Option Char} {c : Char} {t : Text}
    (h : s.contains c = true) : Matches (.one s) ⟨index, before, c :: t⟩ ⟨index + 1, some c, t⟩
  | assert {a : Assertion} {k : Cursor} (h : a.holds k = true) : Matches (.assert a) k k
  | seq {p q : Pattern} {k l m : Cursor} (hp : Matches p k l) (hq : Matches q l m) :
    Matches (.seq p q) k m
  | altLeft {p q : Pattern} {k l : Cursor} (h : Matches p k l) : Matches (.alt p q) k l
  | altRight {p q : Pattern} {k l : Cursor} (h : Matches q k l) : Matches (.alt p q) k l
  | starNone {p : Pattern} (k : Cursor) : Matches (.star p) k k
  | starMore {p : Pattern} {k l m : Cursor} (hp : Matches p k l) (hq : Matches (.star p) l m) :
    Matches (.star p) k m

/-! ## Abbreviations -/

def char (c : Char) : Pattern := .one (.single c)

/-- Some patterns one after the other. -/
def concat : List Pattern → Pattern
  | [] => .empty
  | p :: ps => .seq p (concat ps)

/-- The pattern `n` times in a row. -/
def times (p : Pattern) : Nat → Pattern
  | 0 => .empty
  | n + 1 => .seq p (times p n)

/-- The pattern up to `n` times in a row. -/
def upTo (p : Pattern) : Nat → Pattern
  | 0 => .empty
  | n + 1 => .alt (.seq p (upTo p n)) .empty

/-- The pattern at least `least` times in a row, and at most `most` times if a bound is given. -/
def repeated (p : Pattern) (least : Nat) : Option Nat → Pattern
  | none => .seq (times p least) (.star p)
  | some most => .seq (times p least) (upTo p (most - least))

/-- The number of nodes of a pattern. -/
def size : Pattern → Nat
  | empty => 1
  | one _ => 1
  | assert _ => 1
  | seq p q => p.size + q.size + 1
  | alt p q => p.size + q.size + 1
  | star p => p.size + 1

end Pattern

end PostureAudit

import PostureAudit.Pattern.CharClass.Table
import PostureAudit.Text.Blank

set_option autoImplicit false

/-! # Character classes

A character class is a set expression: ranges, the named classes, and the set operations that a
bracketed class can write. A range may be read without regard to case; it then holds every
character that folds to the same character as one in the range. -/

namespace PostureAudit.Pattern

def isDigit (c : Char) : Bool := inRanges digitRanges c.toNat

def isWord (c : Char) : Bool := inRanges wordRanges c.toNat

/-- The simple case folding of a character. -/
def fold (c : Char) : Char := Char.ofNat (CaseRun.apply foldRuns c.toNat)

/-- The characters with the same simple case folding. -/
def caseVariants (c : Char) : List Char :=
  let f := (fold c).toNat
  Char.ofNat f :: foldRuns.filterMap fun r =>
    let d := ((f : Int) - r.shift).toNat
    if r.contains d then some (Char.ofNat d) else none

/-- The classes that have a letter of their own. -/
inductive NamedClass where
  | digit
  | space
  | word
  deriving DecidableEq, Repr

def NamedClass.contains : NamedClass → Char → Bool
  | digit, c => isDigit c
  | space, c => isBlank c
  | word, c => isWord c

/-- A set of characters. -/
inductive CharClass where
  | empty
  | range (first last : Char) (anyCase : Bool)
  | named (k : NamedClass)
  | union (a b : CharClass)
  | inter (a b : CharClass)
  | diff (a b : CharClass)
  | symmDiff (a b : CharClass)
  | compl (a : CharClass)
  deriving DecidableEq, Repr

namespace CharClass

def contains : CharClass → Char → Bool
  | empty, _ => false
  | range first last anyCase, c =>
    (first ≤ c && c ≤ last) || (anyCase && (caseVariants c).any fun d => first ≤ d && d ≤ last)
  | named k, c => k.contains c
  | union a b, c => a.contains c || b.contains c
  | inter a b, c => a.contains c && b.contains c
  | diff a b, c => a.contains c && !b.contains c
  | symmDiff a b, c => a.contains c != b.contains c
  | compl a, c => !a.contains c

def single (c : Char) : CharClass := range c c false

/-- The class with every range read without regard to case. The named classes hold all cases of
    their members anyway. -/
def ignoreCase : CharClass → CharClass
  | empty => empty
  | range first last _ => range first last true
  | named k => named k
  | union a b => union a.ignoreCase b.ignoreCase
  | inter a b => inter a.ignoreCase b.ignoreCase
  | diff a b => diff a.ignoreCase b.ignoreCase
  | symmDiff a b => symmDiff a.ignoreCase b.ignoreCase
  | compl a => compl a.ignoreCase

def ofRanges (ranges : List (Char × Char)) : CharClass :=
  ranges.foldr (fun r acc => union (range r.1 r.2 false) acc) empty

/-- The ASCII class with a name, as written between `[:` and `:]`. -/
def ofAsciiName? (name : Text) : Option CharClass :=
  match String.ofList name with
  | "alnum" => some (ofRanges [('0', '9'), ('A', 'Z'), ('a', 'z')])
  | "alpha" => some (ofRanges [('A', 'Z'), ('a', 'z')])
  | "ascii" => some (ofRanges [('\x00', '\x7F')])
  | "blank" => some (ofRanges [('\t', '\t'), (' ', ' ')])
  | "cntrl" => some (ofRanges [('\x00', '\x1F'), ('\x7F', '\x7F')])
  | "digit" => some (ofRanges [('0', '9')])
  | "graph" => some (ofRanges [('!', '~')])
  | "lower" => some (ofRanges [('a', 'z')])
  | "print" => some (ofRanges [(' ', '~')])
  | "punct" => some (ofRanges [('!', '/'), (':', '@'), ('[', '\x60'), ('\x7B', '~')])
  | "space" => some (ofRanges [('\t', '\r'), (' ', ' ')])
  | "upper" => some (ofRanges [('A', 'Z')])
  | "word" => some (ofRanges [('0', '9'), ('A', 'Z'), ('_', '_'), ('a', 'z')])
  | "xdigit" => some (ofRanges [('0', '9'), ('A', 'F'), ('a', 'f')])
  | _ => none

@[simp] theorem contains_single (c d : Char) : (single c).contains d = true ↔ d = c := by
  simp only [single, contains, Bool.false_and, Bool.or_false, Bool.and_eq_true, decide_eq_true_eq]
  exact ⟨fun h => Char.le_antisymm h.2 h.1, fun h => h ▸ ⟨Char.le_refl _, Char.le_refl _⟩⟩

end CharClass

end PostureAudit.Pattern

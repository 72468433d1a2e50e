import PostureAudit.Text.Basic
import PostureAudit.Text.Lowercase.Table

set_option autoImplicit false

/-! # Lower-casing

The full lower-case mapping of a text. Two characters need more than the table: a capital I with a
dot becomes two characters, and a capital sigma becomes the final sigma when it ends a word, that
is, when a cased character comes before it and none after it, case-ignorable characters aside. -/

namespace PostureAudit.Text

/-- Holds of the characters that may stand inside a word without counting as a letter. -/
def isCaseIgnorable (c : Char) : Bool := inRanges caseIgnorableRanges c.toNat

/-- Holds of the characters with the property Cased that are not case-ignorable. -/
def isCased (c : Char) : Bool := inRanges casedRanges c.toNat

/-- Holds if the first character that is not case-ignorable exists and is cased. -/
def startsCased (t : Text) : Bool :=
  match t.dropWhile isCaseIgnorable with
  | [] => false
  | c :: _ => isCased c

/-- The lower-case mapping of a character outside any context. -/
def lowerChar (c : Char) : Text :=
  if c = '\u0130' then ['i', '\u0307'] else [Char.ofNat (CaseRun.apply lowercaseRuns c.toNat)]

/-- Lower-cases the text after `before`, which holds the characters read so far, last one first. -/
def lowerAfter (before : Text) : Text → Text
  | [] => []
  | c :: t =>
    (if c = '\u03A3' then
      if startsCased before && !startsCased t then ['\u03C2'] else ['\u03C3']
    else lowerChar c) ++ lowerAfter (c :: before) t

def lower (t : Text) : Text := lowerAfter [] t

end PostureAudit.Text

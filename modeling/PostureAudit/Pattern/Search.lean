import PostureAudit.Pattern.Basic

set_option autoImplicit false

/-! # Searching

`advance p` takes a set of places, given as a list without repetitions, to the set of places that
`p` can match up to from one of them. A star is a closure: it grows the set by the places that are
new until none is. A search starts from all places of a line at once, so its cost does not depend
on how a pattern is nested. -/

namespace PostureAudit.Pattern

/-- Adds the places of the second list that are not in the first. -/
def join (ks ls : List Cursor) : List Cursor := ks ++ ls.filter fun l => !ks.contains l

/-- Grows `reached` by what `step` makes of its latest part, at most `fuel` times. -/
def closure (step : List Cursor → List Cursor) : Nat → List Cursor → List Cursor → List Cursor
  | 0, reached, _ => reached
  | fuel + 1, reached, latest =>
    match (step latest).filter (fun k => !reached.contains k) with
    | [] => reached
    | fresh => closure step fuel (reached ++ fresh) fresh

/-- The length of the longest text that is left at one of the places. -/
def longest (ks : List Cursor) : Nat := ks.foldl (fun n k => max n k.rest.length) 0

/-- The places that the pattern can match up to from one of the given places. -/
def advance : Pattern → List Cursor → List Cursor
  | .empty, ks => ks
  | .one s, ks => ks.filterMap fun k =>
    match k.rest with
    | c :: t => if s.contains c then some ⟨k.index + 1, some c, t⟩ else none
    | [] => none
  | .assert a, ks => ks.filter a.holds
  | .seq p q, ks => advance q (advance p ks)
  | .alt p q, ks => join (advance p ks) (advance q ks)
  | .star p, ks => closure (advance p) (longest ks + 1) ks ks

/-- Holds if the pattern matches somewhere in the text. -/
def occursIn (p : Pattern) (t : Text) : Bool := !(advance p (Cursor.all t)).isEmpty

end PostureAudit.Pattern

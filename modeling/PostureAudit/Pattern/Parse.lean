import PostureAudit.Pattern.Token
import PostureAudit.Pattern.Search
import PostureAudit.Text.Lines

set_option autoImplicit false

/-! # Reading a written pattern

The second step of reading a pattern: the tokens, one after the other, build up the groups that
are open. A text that is no pattern is refused: a group that is not closed or not opened, a
repetition of nothing, a group name used twice, and a repetition that unfolds to too much. -/

namespace PostureAudit.Pattern

/-- A group that is open: its finished branches, last one first; the parts of the branch at hand,
    last one first, where `none` is a flag and can not be repeated; and the case flag. -/
structure Group where
  branches : List Pattern
  parts : List (Option Pattern)
  ignoreCase : Bool
  deriving DecidableEq, Repr

namespace Group

def opened (ignoreCase : Bool) : Group := ⟨[], [], ignoreCase⟩

def branch (g : Group) : Pattern := concat (g.parts.reverse.filterMap id)

/-- Appends a part to the branch at hand. -/
def push (g : Group) (p : Pattern) : Group := { g with parts := some p :: g.parts }

def pattern (g : Group) : Pattern := g.branches.foldl (fun acc p => .alt p acc) g.branch

end Group

/-- The largest pattern that a repetition may unfold to. -/
def maxSize : Nat := 100000

/-- The groups that are open, innermost first and never none, and the group names in use. -/
structure Reading where
  group : Group
  outer : List Group
  names : List Text
  deriving DecidableEq, Repr

namespace Reading

/-- Nothing read yet. -/
def start : Reading := ⟨Group.opened false, [], []⟩

/-- Repeats the last part of the branch at hand. -/
def repeatLast? (r : Reading) (least : Nat) (most : Option Nat) : Option Reading :=
  match r.group.parts with
  | some p :: parts =>
    if (p.size + 2) * (most.getD least + 1) > maxSize then none
    else some { r with group := { r.group with parts := some (p.repeated least most) :: parts } }
  | _ => none

def step? (r : Reading) : Token → Option Reading
  | .one s =>
    some { r with group := r.group.push (.one (if r.group.ignoreCase then s.ignoreCase else s)) }
  | .assert a => some { r with group := r.group.push (.assert a) }
  | .times least most => r.repeatLast? least most
  | .bar =>
    some { r with group := { r.group with
      branches := r.group.branch :: r.group.branches, parts := [] } }
  | .groupOpen name flag =>
    match name with
    | some n =>
      if r.names.contains n then none
      else some ⟨Group.opened (flag.getD r.group.ignoreCase), r.group :: r.outer, n :: r.names⟩
    | none => some ⟨Group.opened (flag.getD r.group.ignoreCase), r.group :: r.outer, r.names⟩
  | .groupClose =>
    match r.outer with
    | g :: outer => some { r with group := g.push r.group.pattern, outer := outer }
    | [] => none
  | .flags flag =>
    some { r with group := { r.group with
      parts := none :: r.group.parts, ignoreCase := flag.getD r.group.ignoreCase } }

/-- What some tokens do, one after the other. -/
def steps? (r : Reading) : List Token → Option Reading
  | [] => some r
  | token :: rest => (r.step? token).bind (·.steps? rest)

/-- The pattern read, once no group but the outermost is open. -/
def finish? (r : Reading) : Option Pattern :=
  match r.outer with
  | [] => some r.group.pattern
  | _ :: _ => none

end Reading

def parse? (t : Text) : Option Pattern :=
  (tokens? t).bind fun ts => (Reading.start.steps? ts).bind (·.finish?)

end Pattern

/-- The first line in which a written pattern occurs. A text that is no pattern occurs nowhere. -/
def Text.findPattern (written : Text) (t : Text) : LineNumber :=
  match Pattern.parse? written with
  | some p => findLine p.occursIn t
  | none => .unknown

end PostureAudit

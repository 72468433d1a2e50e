import PostureAudit.Audit.File
import PostureAudit.Walk

set_option autoImplicit false

/-! # What is wrong with a tree

A tree is checked along a walk: readable files are checked, unreadable ones are reported, and a
walk that ends before its time is reported for the root. -/

namespace PostureAudit

/-- The finding of a file that cannot be read. -/
def unreadableFinding (path : Path) (cause : OsError) : Finding :=
  ⟨.unreadableFile, path.text, .unknown,
    "Error: Could not read Terraform file: ".toList ++ path.text ++ ". Details: ".toList ++
      cause.message⟩

/-- The finding of a walk that could not begin or go on. -/
def walkFinding (root : Path) (failure : WalkFailure) : Finding :=
  ⟨.walkFailure, root.text, .unknown,
    "Error: Could not walk the directory: ".toList ++ failure.message⟩

def Outcome.receive (s : Settings) (o : Outcome) : WalkEvent → Outcome
  | .file path content => o.checkFile s (Utf8.decodeLossy content) path.text
  | .unreadable path cause => o.record s (unreadableFinding path cause)

/-- What the end of a walk adds to an outcome. -/
def Outcome.finish (s : Settings) (o : Outcome) (root : Path) : Option WalkFailure → Outcome
  | some failure => o.record s (walkFinding root failure)
  | none => o

def Walk.outcome (s : Settings) (root : Path) (w : Walk) : Outcome :=
  (w.events.foldl (Outcome.receive s) .empty).finish s root w.failure

/-- The outcome of checking the tree below a root. -/
def auditTree (s : Settings) (fs : FileSystem) (root : Path) : Outcome :=
  (fs.walk s.selects root).outcome s root

/-- The messages for a tree under the default settings. -/
def treeMessages (fs : FileSystem) (root : Path) : List Text :=
  (auditTree .default fs root).messages

end PostureAudit

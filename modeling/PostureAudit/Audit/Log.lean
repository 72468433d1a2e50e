import PostureAudit.Audit.Tree
import PostureAudit.Log

set_option autoImplicit false

/-! # The log of a run

What a run tells about its progress, in order. The log is a function of the same walk as the
outcome. -/

namespace PostureAudit

/-- Says that a finding is dropped, if its rule is off. -/
def droppedLog (s : Settings) (f : Finding) : List LogEntry :=
  match s.grade f with
  | some _ => []
  | none =>
    [.debug ("rule ".toList ++ f.rule.name ++ " is disabled, dropping diagnostic".toList)]

def fileLog (s : Settings) (content file : Text) : List LogEntry :=
  .debug (file ++ ": ".toList ++ Text.ofNat (declarations content).length ++
      " posture declaration(s)".toList) ::
    (fileFindings s.lineResolution content file).flatMap (droppedLog s)

def readLog : WalkEvent → List LogEntry
  | .file _ _ => []
  | .unreadable path cause =>
    [.warn ("unable to read ".toList ++ path.text ++ ": ".toList ++ cause.message)]

def eventLog (s : Settings) (event : WalkEvent) : List LogEntry :=
  readLog event ++
    match event with
    | .file path content => fileLog s (Utf8.decodeLossy content) path.text
    | .unreadable path cause => droppedLog s (unreadableFinding path cause)

def endLog (s : Settings) (root : Path) : Option WalkFailure → List LogEntry
  | some failure =>
    .warn ("walk of ".toList ++ root.text ++ " aborted: ".toList ++ failure.message) ::
      droppedLog s (walkFinding root failure)
  | none => []

def Walk.readingLog (w : Walk) : List LogEntry := w.events.flatMap readLog

/-- The log of checking the tree below a root. -/
def treeLog (s : Settings) (fs : FileSystem) (root : Path) : List LogEntry :=
  let w := fs.walk s.selects root
  let o := w.outcome s root
  .debug ("validating Terraform files under ".toList ++ root.text) ::
    w.events.flatMap (eventLog s) ++ endLog s root w.failure ++
    [.debug ("checked ".toList ++ Text.ofNat o.filesChecked ++ " file(s): ".toList ++
      Text.ofNat (o.count .error) ++ " error(s), ".toList ++ Text.ofNat (o.count .warning) ++
      " warning(s)".toList)]

end PostureAudit

import PostureAudit.FileSystem.Basic

set_option autoImplicit false

/-! # Resolving paths

A path is resolved step by step, from the root if it is absolute and from the working directory
otherwise. What one component of a path does is said once (`PathStep.move`): it ends the
resolution, or goes on from a directory, or turns to the target of a link. Whether a link at the
very end is followed depends on what the path is resolved for. The number of links followed, the
length of a name and the length of the whole path are limited, as on Linux. -/

namespace PostureAudit

/-- The longest name of an entry, in bytes. -/
def maxNameLength : Nat := 255

/-- The first length of a path, in bytes, that is too long. -/
def maxPathLength : Nat := 4096

/-- The number of links that are followed for one path. -/
def maxLinks : Nat := 40

/-- What a path leads to. -/
inductive Target where
  /-- An entry, or the root, at the end of a trail from the root. -/
  | found (trail : Trail) (node : FileNode)
  /-- A name that the directory at the end of the trail does not have. -/
  | vacant (trail : Trail) (name : Bytes)

/-- What a path is resolved for. -/
inductive Access where
  /-- The entry itself: a link at the end is not followed. -/
  | entry
  /-- What the entry leads to: a link at the end is followed. -/
  | target
  /-- As for `target`, but to write a file: a slash at the end is refused. -/
  | creation
  /-- As for `entry`, but to remove a file or a link: with a slash at the end, too, a link there is
      not followed, and so it is no directory. -/
  | removal
  deriving DecidableEq, Repr

/-- Where a path starts, for a path or a link target met at the end of a trail. -/
def Path.startFrom (p : Path) (trail : Trail) : Trail := if p.isAbsolute then [] else trail

/-- The directory at the end of a trail, as what a path leads to. -/
def Target.directory (entries : Entries) (trail : Trail) : Except OsError Target :=
  match entries.below? trail with
  | some inner => .ok (.found trail (.dir inner))
  | none => .error .notFound

/-! ## Moves -/

/-- What one component of a path does. -/
inductive Move where
  | stop (answer : Except OsError Target)
  /-- Goes on with the other components, from the end of a trail. -/
  | go (trail : Trail)
  /-- Goes on with the components of the target of a link, and with the other ones after that. -/
  | chase (trail : Trail) (steps : List PathStep)

/-- Enters a name that leads to what was looked up. -/
def Move.ofLookup (access : Access) (trail : Trail) (name : Bytes) (rest : List PathStep) :
    Option FileNode → Move
  | none => .stop (if rest = [] then .ok (.vacant trail name) else .error .notFound)
  | some (.dir _) => .go (trail ++ [name])
  | some (.file content) =>
    .stop (if rest = [] then .ok (.found (trail ++ [name]) (.file content))
      else .error .notADirectory)
  | some (.link target) =>
    if rest = [] && (access = .entry || access = .removal) then
      .stop (.ok (.found (trail ++ [name]) (.link target)))
    else if rest = [.slash] && access = .removal then .stop (.error .notADirectory)
    else .chase (target.startFrom trail) (target.steps ++ rest)

/-- Enters a name in the directory at the end of a trail. -/
def Entries.enter (entries : Entries) (access : Access) (trail : Trail) (name : Bytes)
    (rest : List PathStep) : Move :=
  if access = .creation && rest = [.slash] then .stop (.error .isADirectory)
  else if maxNameLength < name.length then .stop (.error .nameTooLong)
  else match entries.below? trail with
    | none => .stop (.error .notFound)
    | some inner => .ofLookup access trail name rest (inner.get? name)

/-- What a component of a path does in the directory at the end of a trail, with the other
    components still to come. Every component but a slash at the end has to be looked for. -/
def PathStep.move (fs : FileSystem) (access : Access) (trail : Trail) (rest : List PathStep)
    (step : PathStep) : Move :=
  match step, fs.refusal? .search trail with
  | .slash, _ => .go trail
  | _, some cause => .stop (.error cause)
  | .here, none => .go trail
  | .up, none => .go trail.dropLast
  | .into name, none => fs.entries.enter access trail name rest

/-! ## Resolution -/

/-- Follows the steps of a path. What to do at a link is `chase`'s business. -/
def follow (fs : FileSystem) (access : Access)
    (chase : Trail → List PathStep → Except OsError Target) :
    Trail → List PathStep → Except OsError Target
  | trail, [] => Target.directory fs.entries trail
  | trail, step :: rest =>
    match step.move fs access trail rest with
    | .stop answer => answer
    | .go trail => follow fs access chase trail rest
    | .chase trail steps => chase trail steps

def followLinks (fs : FileSystem) (access : Access) :
    Nat → Trail → List PathStep → Except OsError Target
  | 0 => follow fs access fun _ _ => .error .tooManyLinks
  | links + 1 => follow fs access (followLinks fs access links)

namespace FileSystem

def resolve (fs : FileSystem) (access : Access) (p : Path) : Except OsError Target :=
  if p.contains 0 then .error .nulInPath
  else if p = [] then .error .notFound
  else if maxPathLength ≤ p.length then .error .nameTooLong
  else followLinks fs access maxLinks (p.startFrom fs.workingDirectory) p.steps

/-- Holds if a path leads to something. -/
def pathExists (fs : FileSystem) (p : Path) : Bool :=
  match fs.resolve .target p with
  | .ok (.found _ _) => true
  | _ => false

def isFile (fs : FileSystem) (p : Path) : Bool :=
  match fs.resolve .target p with
  | .ok (.found _ (.file _)) => true
  | _ => false

/-- The content of the file that a path leads to. -/
def readFile (fs : FileSystem) (p : Path) : Except OsError Bytes :=
  match fs.resolve .target p with
  | .error cause => .error cause
  | .ok (.vacant _ _) => .error .notFound
  | .ok (.found trail node) =>
    match fs.refusal? .read trail, node with
    | some cause, _ => .error cause
    | none, .file content => .ok content
    | none, _ => .error .isADirectory

def readText (fs : FileSystem) (p : Path) : Except OsError Text :=
  match fs.readFile p with
  | .error cause => .error cause
  | .ok content =>
    match Utf8.decode? content with
    | some t => .ok t
    | none => .error .invalidUtf8

/-- Why the directory that a path leads to cannot be listed, if it cannot. -/
def unlistable? (fs : FileSystem) (p : Path) : Option OsError :=
  match fs.resolve .target p with
  | .error cause => some cause
  | .ok (.vacant _ _) => some .notFound
  | .ok (.found trail (.dir _)) => fs.refusal? .read trail
  | .ok (.found _ _) => some .notADirectory

end FileSystem

end PostureAudit

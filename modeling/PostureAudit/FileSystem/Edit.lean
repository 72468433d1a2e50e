import PostureAudit.FileSystem.Resolve

set_option autoImplicit false

/-! # Changing file systems

Writing and removing files through paths, and laying out a tree from a list of entries, which
makes the directories that are missing. To write a file is to open it, which makes a new file or
empties the one that is there, and then to store bytes in it, which may break off. So an error may
come from a file system that has changed, and what is answered always has the file system with
it. -/

namespace PostureAudit

/-- How it goes to store bytes in a file that is open. -/
inductive Transfer where
  | complete
  /-- An error comes after some of the bytes. -/
  | broken (stored : Nat) (cause : OsError)
  deriving DecidableEq, Repr

namespace Transfer

def answer : Transfer → Except OsError Unit
  | complete => .ok ()
  | broken _ cause => .error cause

/-- What a file has of the bytes afterwards. -/
def stored (content : Bytes) : Transfer → Bytes
  | complete => content
  | broken stored _ => content.take stored

end Transfer

namespace FileSystem

/-- Gives the name at the end of a trail a file. -/
def setFile (fs : FileSystem) (trail : Trail) (name content : Bytes) : FileSystem :=
  { fs with entries := fs.entries.modifyBelow (·.set name (.file content)) trail }

/-- Makes a new file under the name at the end of a trail. It may be read and written to. -/
def addFile (fs : FileSystem) (trail : Trail) (name content : Bytes) : FileSystem :=
  { fs.setFile trail name content with
    refusal? := fun use t =>
      if t = trail ++ [name] ∧ use ≠ .search then none else fs.refusal? use t }

/-- Opens a file to write bytes to it, and says how they change the file system. A file that is
    there is emptied by this, and where there is none a new one is made. -/
def openForWriting (fs : FileSystem) (p : Path) : Except OsError (Bytes → FileSystem) :=
  match fs.resolve .creation p with
  | .error cause => .error cause
  | .ok (.vacant trail name) =>
    match fs.refusal? .write trail with
    | some cause => .error cause
    | none => .ok (fs.addFile trail name)
  | .ok (.found trail (.file _)) =>
    match fs.refusal? .write trail, trail.getLast? with
    | some cause, _ => .error cause
    | none, some name => .ok (fs.setFile trail.dropLast name)
    | none, none => .error .isADirectory
  | .ok (.found _ _) => .error .isADirectory

/-- Writes a file. The answer comes with the file system that is there then. -/
def writeFile (fs : FileSystem) (p : Path) (content : Bytes) (transfer : Transfer) :
    Except OsError Unit × FileSystem :=
  match fs.openForWriting p with
  | .error cause => (.error cause, fs)
  | .ok store => (transfer.answer, store (transfer.stored content))

/-- Removes the file or the link that a path names. -/
def removeFile (fs : FileSystem) (p : Path) : Except OsError FileSystem :=
  match fs.resolve .removal p with
  | .error cause => .error cause
  | .ok (.vacant _ _) => .error .notFound
  | .ok (.found trail node) =>
    match trail.getLast?, fs.refusal? .write trail.dropLast, node with
    | none, _, _ => .error .isADirectory
    | some _, some cause, _ => .error cause
    | some _, none, .dir _ => .error .isADirectory
    | some name, none, _ =>
      .ok { fs with entries := fs.entries.modifyBelow (·.erase name) trail.dropLast }

end FileSystem

/-! ## Laying out a tree -/

/-- An entry of a tree to lay out. -/
inductive LayoutEntry where
  | file (path : Path) (content : Bytes)
  | dir (path : Path)
  | link (path target : Path)
  deriving DecidableEq, Repr

namespace Entries

/-- Puts a node at the end of a trail of names, making the directories that are missing. A file
    takes the place of a file; a directory that exists stays as it is. -/
def plant (leaf : FileNode) : Entries → Trail → Except OsError Entries
  | entries, [] =>
    match leaf with
    | .dir _ => .ok entries
    | _ => .error .isADirectory
  | entries, name :: trail =>
    if maxNameLength < name.length then .error .nameTooLong
    else if trail = [] then
      match entries.get? name, leaf with
      | none, _ => .ok (entries.set name leaf)
      | some (.file _), .file _ => .ok (entries.set name leaf)
      | some (.dir _), .dir _ => .ok entries
      | some (.dir _), .file _ => .error .isADirectory
      | _, _ => .error .exists
    else
      match entries.get? name with
      | none => (plant leaf [] trail).map fun inner => entries.set name (.dir inner)
      | some (.dir inner) => (plant leaf inner trail).map fun inner => entries.set name (.dir inner)
      | some _ => .error .notADirectory

/-- Adds an entry to a tree. -/
def place (entries : Entries) : LayoutEntry → Except OsError Entries
  | .file path content => entries.plant (.file content) path.names
  | .dir path => entries.plant (.dir []) path.names
  | .link path target => entries.plant (.link target) path.names

/-- Adds some entries to a tree, one after the other. -/
def placeAll : Entries → List LayoutEntry → Except OsError Entries
  | entries, [] => .ok entries
  | entries, entry :: rest =>
    match entries.place entry with
    | .error cause => .error cause
    | .ok entries => placeAll entries rest

/-- The tree of a list of entries. -/
def ofLayout (layout : List LayoutEntry) : Except OsError Entries := placeAll [] layout

/-- A tree at the end of a trail of directories that have no other entries. -/
def nest (entries : Entries) : Trail → Entries
  | [] => entries
  | name :: trail => [(name, .dir (nest entries trail))]

end Entries

namespace FileSystem

/-- The file system with nothing but some entries in the working directory, all of which may be
    used. -/
def ofEntries (workingDirectory : Trail) (entries : Entries) : FileSystem :=
  ⟨entries.nest workingDirectory, workingDirectory, fun _ _ => none⟩

/-- Writes a file, making the directories that are missing. -/
def putFile (fs : FileSystem) (p : Path) (content : Bytes) : Except OsError FileSystem :=
  match fs.writeFile p content .complete with
  | (.ok (), fs) => .ok fs
  | (.error .notFound, _) =>
    (fs.entries.plant (.file content) (p.startFrom fs.workingDirectory ++ p.names)).map
      fun entries => { fs with entries }
  | (.error cause, _) => .error cause

end FileSystem

end PostureAudit

import MonitorCoverage.Bytes

/-!
# Files

What a path names, and why it names nothing. A tree keeps files and directories in memory; it
answers for a path what a file system that holds them would answer.
-/

namespace MonitorCoverage.Files

/-- Why a file cannot be opened. -/
inductive Obstacle where
  | missing
  | notDirectory
  | isDirectory
  | refused (reason : Bytes)
  deriving DecidableEq, Repr

def Obstacle.message : Obstacle → Bytes
  | missing => utf8 "no such file or directory"
  | notDirectory => utf8 "not a directory"
  | isDirectory => utf8 "is a directory"
  | refused reason => reason

/-- What is said when a path cannot be opened. -/
def openMessage (path : Bytes) (obstacle : Obstacle) : Bytes :=
  utf8 "open " ++ path ++ utf8 ": " ++ obstacle.message

/-- What is said when a file cannot be read although it was opened. -/
def readMessage (path reason : Bytes) : Bytes :=
  utf8 "read " ++ path ++ utf8 ": " ++ reason

/-- What a path names. -/
inductive Entry where
  | none (obstacle : Obstacle)
  | directory
  | file (content : Bytes)
  /-- A file that cannot be read to its end: reading fails behind some of its bytes. -/
  | damaged (content reason : Bytes)
  deriving DecidableEq, Repr

/-- A file or a directory that is kept under a list of names. -/
structure Node where
  names : List Bytes
  /-- The content of a file; a directory has none. -/
  content : Option Bytes
  deriving DecidableEq, Repr

/-- Files and directories, the latest first. A directory that holds something need not be listed. -/
abbrev Tree := List Node

/-- The names in a path, without those that are empty or stand for the directory itself. -/
def namesOf (path : Bytes) : List Bytes :=
  (Bytes.splitOn 0x2F path).filter fun name => !name.isEmpty && name ≠ [0x2E]

namespace Tree

/-- What a list of names leads to. -/
def entryAt (tree : Tree) (names : List Bytes) : Entry :=
  match tree.find? fun node => node.names = names with
  | some { content := some content, .. } => .file content
  | some { content := none, .. } => .directory
  | none =>
    if names.isEmpty || tree.any fun node => names.isPrefixOf node.names then .directory
    else .none .missing

/-- Follows names from a directory. Two points lead back to the directory above. -/
def follow (tree : Tree) (place : List Bytes) : List Bytes → Entry
  | [] => tree.entryAt place
  | name :: names =>
    match tree.entryAt place with
    | .directory =>
      tree.follow (if name = [0x2E, 0x2E] then place.dropLast else place ++ [name]) names
    | .file _ | .damaged .. => .none .notDirectory
    | .none obstacle => .none obstacle

/-- What a path names. A path that ends in a slash names a directory, and the empty path nothing. -/
def entry (tree : Tree) (path : Bytes) : Entry :=
  if path.isEmpty then .none .missing
  else
    match tree.follow [] (namesOf path) with
    | .file content => if path.getLast? = some 0x2F then .none .notDirectory else .file content
    | found => found

/-- Adds a file at a path. -/
def withFile (tree : Tree) (path content : Bytes) : Tree :=
  { names := namesOf path, content := some content } :: tree

/-- Adds an empty directory at a path. -/
def withDirectory (tree : Tree) (path : Bytes) : Tree :=
  { names := namesOf path, content := none } :: tree

/-- Why no file can be written at a path, if so: the path has to name a place in a directory, and no
directory may be there already. -/
def writeObstacle? (tree : Tree) (path : Bytes) : Option Obstacle :=
  if path.isEmpty then some .missing
  else
    match tree.follow [] (namesOf path).dropLast with
    | .none obstacle => some obstacle
    | .file _ | .damaged .. => some .notDirectory
    | .directory =>
      if path.getLast? = some 0x2F || tree.entry path = .directory then some .isDirectory else none

end Tree

end MonitorCoverage.Files

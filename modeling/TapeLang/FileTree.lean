import TapeLang.Stream.Error

/-!
# File trees

A tree of directories and files with their contents, and what reading a file
by a path gives. A path is followed name by name from the working directory,
or from the root if it begins with a slash. Each step is made from a
directory; an empty name and a dot stay in it, two dots leave it.
-/

namespace TapeLang

/-- Files and directories by the names on the way from the root. -/
structure FileTree where
  /-- The directory where paths begin. -/
  workingDirectory : List String
  /-- The files with their contents. -/
  files : List (List String × List UInt8)
  /-- Directories that need not hold a file. -/
  directories : List (List String)

namespace FileTree

/-- What is found at a place. -/
inductive Node where
  /-- A file with its contents. -/
  | file (contents : List UInt8)
  /-- A directory. -/
  | directory

/-- The names in a path, one between any two slashes; some may be empty. -/
def names (path : String) : List String := path.splitOn "/"

/-- The tree of files and directories that are given by paths from the working directory. -/
def ofEntries (files : List (String × List UInt8)) (directories : List String) : FileTree :=
  let working := ["home"]
  let place (path : String) := working ++ (names path).filter (· ≠ "")
  { workingDirectory := working
    files := files.map fun (path, contents) => (place path, contents)
    directories := working :: directories.map place }

/-- What is at a place. Every place on the way to something is a directory. -/
def node? (tree : FileTree) (place : List String) : Option Node :=
  match tree.files.lookup place with
  | some contents => some (.file contents)
  | none =>
    if tree.directories.any place.isPrefixOf || tree.files.any (place.isPrefixOf ·.1) then
      some .directory
    else
      none

/-- The longest name, in bytes. -/
def nameLimit : Nat := 255

/-- The longest path, in bytes. -/
def pathLimit : Nat := 4095

/-- Follows names from a place. -/
def follow (tree : FileTree) (place : List String) :
    List String → Except StreamError (List String)
  | [] => .ok place
  | name :: rest =>
    match tree.node? place with
    | some .directory =>
      if name = "" || name = "." then follow tree place rest
      else if name = ".." then follow tree place.dropLast rest
      else if nameLimit < name.utf8ByteSize then .error .nameTooLong
      else if (tree.node? (place ++ [name])).isNone then .error .noSuchFile
      else follow tree (place ++ [name]) rest
    | _ => .error .notDirectory

/-- The contents of the file at a path. -/
def read (tree : FileTree) (path : String) : Except StreamError (List UInt8) :=
  if path = "" then .error .noSuchFile
  else if pathLimit < path.utf8ByteSize then .error .nameTooLong
  else
    let start := if path.toList.head? = some '/' then [] else tree.workingDirectory
    match tree.follow start (names path) with
    | .error error => .error error
    | .ok place =>
      match tree.node? place with
      | some (.file contents) => .ok contents
      | some .directory => .error .isDirectory
      | none => .error .noSuchFile

end FileTree

end TapeLang

import MailAddress.Text

/-!
# Files

A file tree is a set of files with their texts, and of directories.  All that lies above a file or a
directory is a directory too, and so is the root.

A path is given as a text with slashes.  It starts at the root if it starts with a slash, and at the
current directory otherwise.  A dot stands for the directory itself and two dots for the one above.
There are two ways to follow it.

* *Resolving* looks at no file: two dots cancel the part before them, and at the root nothing.
* *Walking* needs a directory before each step and something to be there after it.

The configuration of a directory is the nearest one at or above it.
-/

namespace MailAddress

/-- The files and directories that a program sees. -/
structure FileTree where
  /-- The files by their places, each with its text. -/
  files : List (List Text × Text) := []
  /-- Directories that may hold nothing. -/
  directories : List (List Text) := []

/-- What stands at a place. -/
inductive FileTree.Entry where
  /-- A file with its text. -/
  | file (text : Text)
  /-- A directory. -/
  | directory

namespace FileTree

/-- What stands at a place, given by the names from the root down. -/
def entry? (tree : FileTree) (place : List Text) : Option Entry :=
  match tree.files.lookup place with
  | some text => some (.file text)
  | none =>
      let holds (other : List Text) : Bool := place.isPrefixOf other
      if place.isEmpty || tree.directories.any holds || tree.files.any fun file => holds file.1 then
        some .directory
      else none

/-- The place one step further, by the name of the step. -/
def step (place : List Text) (name : Text) : List Text :=
  if name.isEmpty || name == ['.'] then place
  else if name == ['.', '.'] then place.dropLast
  else place ++ [name]

/-- The place where a path starts. -/
def base (current : List Text) (path : Text) : List Text :=
  if path.head? = some '/' then [] else current

/-- The place of a path, without a look at the files. -/
def resolve (current : List Text) (path : Text) : List Text :=
  (path.splitOn '/').foldl step (base current path)

/-- The place after some steps, if there is a directory before each and something after it. -/
def walkFrom (tree : FileTree) : List Text → List Text → Option (List Text)
  | place, [] => some place
  | place, name :: names =>
      match tree.entry? place, tree.entry? (step place name) with
      | some .directory, some _ => walkFrom tree (step place name) names
      | _, _ => none

/-- The place of a path, if something is there.  The empty path leads nowhere. -/
def walk (tree : FileTree) (current : List Text) (path : Text) : Option (List Text) :=
  if path.isEmpty then none else walkFrom tree (base current path) (path.splitOn '/')

/-- A place and those above it, the nearest first. -/
def ancestors (place : List Text) : List (List Text) :=
  (List.range (place.length + 1)).reverse.map place.take

/-- The name of a configuration file. -/
def configName : Text := "rfc822addr.toml".toList

/-- The places where the configuration of a place may be, the nearest first. -/
def configPlaces (place : List Text) : List (List Text) :=
  (ancestors place).map (· ++ [configName])

/-- The place of the nearest configuration of a directory, or of a file's directory. -/
def findConfig (tree : FileTree) (place : List Text) : Option (List Text) :=
  let directory := match tree.entry? place with
    | some (.file _) => place.dropLast
    | _ => place
  (configPlaces directory).find? fun candidate => (tree.entry? candidate).isSome

/-- The message when there is no configuration. -/
def missingConfigMessage : Text :=
  "No ".toList ++ configName ++ " found in any parent directory".toList

example : ancestors [['a'], ['b']] = [[['a'], ['b']], [['a']], []] := by decide

example : resolve [['a']] "../b/./c".toList = [['b'], ['c']] := by decide

end FileTree

end MailAddress

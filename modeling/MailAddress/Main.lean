import MailAddress.Command.Arguments

/-!
# The program

Looks at the files that a command may ask for, runs the command, and writes what it says.  The files
are those where the configuration of the current directory may be, and those on the way to a
configuration that is named.
-/

open MailAddress

namespace MailAddress.Program

/-- A file tree with what stands at a place. -/
def observe (tree : FileTree) (place : List Text) : IO FileTree := do
  let path := (← IO.currentDir) / String.ofList ('/' :: ['/'].intercalate place)
  if ← path.isDir then return { tree with directories := place :: tree.directories }
  else if ← path.pathExists then
    let text ← IO.FS.readFile path
    return { tree with files := (place, text.toList) :: tree.files }
  else return tree

/-- The places on the way along a path. -/
def placesAlong (current : List Text) (path : Text) : List (List Text) :=
  ((path.splitOn '/').foldl
    (fun places name => FileTree.step (places.headD []) name :: places)
    [FileTree.base current path])

/-- All lines of a stream. -/
partial def readAll (stream : IO.FS.Stream) : IO String := do
  let line ← stream.getLine
  if line.isEmpty then return "" else return line ++ (← readAll stream)

/-- The environment of a command, without its input.  The words are read as if all that they name
were there. -/
def environment (words : List Text) : IO Command.Environment := do
  let current := ((← IO.currentDir).toString.toList.splitOn '/').filter fun name => !name.isEmpty
  let named := match Command.Console.standard.read (fun _ => true) words with
    | some (.parse request) => request.config.elim [] (placesAlong current)
    | _ => []
  let start : FileTree := { directories := [current] }
  let files ← (FileTree.configPlaces current ++ named).foldlM observe start
  let outputColored ← (← IO.getStdout).isTty
  let errorColored ← (← IO.getStderr).isTty
  return { files, current, outputColored, errorColored }

/-- Writes what a command says, and gives its exit code. -/
def write : Command.Response → IO UInt32
  | .misused => do
      IO.eprintln "Usage: rfc822addr [--version] (parse | tokens | quote | unquote) [ARGS]..."
      return 2
  | .unsettled error => do
      let text := (error.message?).getD "the configuration cannot be read".toList
      IO.eprintln ("Error: " ++ String.ofList text)
      return 1
  | .finished code output errors => do
      IO.eprint (String.ofList errors)
      IO.print (String.ofList output)
      return code.toUInt32

end MailAddress.Program

/-- Runs the command that the arguments name. -/
def main (args : List String) : IO UInt32 := do
  let words := args.map String.toList
  let environment ← Program.environment words
  match Command.Console.standard.read environment.leads words with
  | none => Program.write .misused
  | some request =>
      let input ← if request.readsInput then Program.readAll (← IO.getStdin) else pure ""
      Program.write
        (Command.respond .standard { environment with input := input.toList } request)

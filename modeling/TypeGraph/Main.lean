import TypeGraph.Command

/-!
# The program

Reads the class path of a command from its file, and writes the answer.
-/

namespace TypeGraph

/-- Why a file could not be read, in the words of the operating system. -/
def readFailure : IO.Error → Error
  | .noFileOrDirectory _ _ _ => .io "No such file or directory (os error 2)"
  | .permissionDenied _ _ _ => .io "Permission denied (os error 13)"
  | error => .io (toString error)

/-- The content of a file. -/
def readText (file : String) : IO (Except Error String) := do
  try
    return .ok (← IO.FS.readFile file)
  catch error =>
    return .error (readFailure error)

/-- How the program is called. -/
def usage : String :=
  "usage: [--json] check MODEL | assignable MODEL TARGET SOURCE | methods MODEL CLASS |\n" ++
  "  member-types MODEL CLASS [NAME] | resolve MODEL CLASS METHOD [ARGUMENTS...]"

end TypeGraph

open TypeGraph in
/-- Carries out the command in the arguments. -/
def main (arguments : List String) : IO UInt32 := do
  match Command.ofArguments? arguments with
  | none =>
    IO.eprintln usage
    return 2
  | some command =>
    let output := command.run (← readText command.model)
    IO.print output.out
    IO.eprint output.err
    return output.exit.toUInt32

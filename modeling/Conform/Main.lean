import Conform.CommandLine

/-!
# The program

Reads the files that the arguments name, runs the command on them, and prints what it comes to.
-/

namespace Conform

/-- The files that a command reads. -/
def Command.paths : Command → List String
  | .version => []
  | .check job => job.schema :: job.documents
  | .lint job => job.schema.toList

/-- Why the system has not read a file. -/
def FileFault.ofSystem : IO.Error → FileFault
  | .noFileOrDirectory .. => .notFound
  | .inappropriateType _ code reason =>
    match code.toInt32.toInt.natAbs with
    | 20 => .notDirectory
    | 21 => .isDirectory
    | _ => .other reason
  | .invalidArgument _ code reason =>
    if code.toInt32.toInt = 36 then .nameTooLong else .other reason
  | fault => .other (toString fault)

/-- The text of a file. -/
def readText (path : String) : IO (Except FileFault String) := do
  match ← (IO.FS.readBinFile path).toBaseIO with
  | .ok bytes =>
    match String.fromUTF8? bytes with
    | some text => return .ok text
    | none => return .error .notText
  | .error fault => return .error (.ofSystem fault)

/-- Files that have been read. -/
def Files.ofList (read : List (String × Except FileFault String)) : Files := fun path =>
  (read.lookup path).getD (.error .notFound)

/-- What the program says to arguments that make no sense. -/
def usage : String :=
  "usage: shapeguard check --schema FILE [--format text|json] [--root LABEL] DOCUMENT...\n" ++
    "       shapeguard schema --schema FILE [--render]\n" ++
    "       shapeguard schema --list-parsers\n"

end Conform

open Conform in
/-- Runs the program on its arguments. -/
def main (arguments : List String) : IO UInt32 := do
  let paths := (Command.parse? arguments).elim [] Command.paths
  let read ← paths.mapM fun path => return (path, ← readText path)
  let outcome := run (.ofList read) arguments
  IO.print outcome.output
  match outcome.failure with
  | some failure => IO.eprintln failure
  | none => if (Command.parse? arguments).isNone then IO.eprint usage
  return outcome.code.toUInt32

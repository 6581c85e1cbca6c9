/-
**The program.**

Reads its arguments, works on the files of the machine, and exits with the status of the command.
-/

import ExternBindings.Program.CommandLine

namespace ExternBindings

open Files

/-- The fault that an error of the machine stands for. -/
def faultOf : IO.Error → FileFault
  | .noFileOrDirectory .. => .notFound
  | .alreadyExists .. => .alreadyExists
  | .inappropriateType .. => .notADirectory
  | .invalidArgument .. => .invalidPath
  | _ => .other

/-- The answer of an operation on the machine's files. -/
def answerOf {α : Type} (operation : IO α) : IO (Except FileFault α) := do
  try
    return .ok (← operation)
  catch error =>
    return .error (faultOf error)

/-- What a path leads to on the machine, if anything. -/
def metadataOf (path : String) : IO (Option IO.FS.Metadata) := do
  try
    return some (← (← IO.FS.realPath path).metadata)
  catch _ =>
    return none

instance : FileAccess IO where
  isFile path := return (← metadataOf path).any fun metadata => metadata.type == .file
  pathExists path := return (← metadataOf path).isSome
  readText path := do
    if (← metadataOf path).any fun metadata => metadata.type == .dir then
      return .error .isADirectory
    match ← answerOf (IO.FS.readBinFile path) with
    | .error fault => return .error fault
    | .ok bytes => return (String.fromUTF8? bytes).elim (.error .notText) .ok
  createDirectories path := answerOf (if path.isEmpty then pure () else IO.FS.createDirAll path)
  writeText path contents := answerOf (IO.FS.writeFile path contents)

end ExternBindings

open ExternBindings

/-- Runs the command that the arguments ask for. -/
def main (arguments : List String) : IO UInt32 := do
  let ending ← ((Program.Invocation.ofArguments arguments).run : IO Program.Ending)
  IO.print ending.output
  for complaint in ending.complaints do
    IO.eprintln complaint.message
  return ending.status.toUInt32

import ScriptLex.Command.Run

/-!
# The command on the files of the machine
-/

namespace ScriptLex

/-- The fault that the system reports, by its number where that decides. Some calls give
the number with its sign turned. -/
def FileFault.ofError : IO.Error → FileFault
  | .noFileOrDirectory .. => .notFound
  | .permissionDenied .. => .permissionDenied
  | .inappropriateType _ number _ =>
    if number = 20 ∨ number + 20 = 0 then .notADirectory else .isADirectory
  | .invalidArgument _ number _ =>
    if number = 36 ∨ number + 36 = 0 then .nameTooLong else .ioFailure
  | _ => .ioFailure

/-- Runs an action on a path that the system takes. -/
def Path.attempt {α : Type} (p : Path) (act : String → IO α) : IO (Except FileError α) := do
  match p.check with
  | .error error => return .error error
  | .ok () =>
    try
      return .ok (← act (String.ofList p.text))
    catch e =>
      return .error (.system (.ofError e) p)

/-- The files of the machine. Asking for a file opens it and leaves it as it is, so a pipe or a
device passes for one. -/
def Disk.machine : Disk IO where
  isFile p := do
    -- A directory is refused as such, even where nothing may be written.
    match ← p.attempt fun name => IO.FS.Handle.mk name .readWrite with
    | .ok _ => return .ok true
    | .error (.system .nameTooLong p) => return .error (.system .nameTooLong p)
    | .error (.system .permissionDenied p) =>
      -- A file that may not be opened is still there: no path goes on behind it.
      match ← p.attempt fun name => IO.FS.Handle.mk (name ++ "/.") .read with
      | .error (.system .notADirectory _) => return .ok true
      | .error (.system .permissionDenied p) => return .error (.system .permissionDenied p)
      | _ => return .ok false
    | .error _ => return .ok false
  read p := p.attempt fun name => return (← IO.FS.readBinFile name).toList
  write p bytes := p.attempt fun name => IO.FS.writeBinFile name ⟨bytes.toArray⟩

/-- The exit code of the process; a crash counts as a failure. -/
def Command.Ending.code : Command.Ending → UInt32
  | exit n | stopped n => n.toUInt32
  | crashed _ => 1

end ScriptLex

open ScriptLex in
def main (arguments : List String) : IO UInt32 := do
  let outcome ← Command.run Disk.machine (arguments.map String.toList)
  IO.print (String.ofList outcome.stdout)
  IO.eprint (String.ofList outcome.stderr)
  if let .crashed crash := outcome.ending then
    IO.eprintln (String.ofList crash.message)
  return outcome.ending.code

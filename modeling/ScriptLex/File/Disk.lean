import ScriptLex.File.Path
import ScriptLex.Text.Decimal
import ScriptLex.Text.Quoted
import ScriptLex.Text.Utf8

/-!
# Disks

What a command needs of the files around it: to ask whether a path is a file, to read a
file and to write one. A command is written over any disk; it runs on the disk of the
machine and is reasoned about on a tree of files.
-/

namespace ScriptLex

/-- Why the system refuses a path. -/
inductive FileFault where
  | notFound
  | notADirectory
  | isADirectory
  | nameTooLong
  | permissionDenied
  | ioFailure
deriving DecidableEq, Repr

namespace FileFault

def number : FileFault → Nat
  | notFound => 2
  | notADirectory => 20
  | isADirectory => 21
  | nameTooLong => 36
  | permissionDenied => 13
  | ioFailure => 5

def text : FileFault → Text
  | notFound => "No such file or directory"
  | notADirectory => "Not a directory"
  | isADirectory => "Is a directory"
  | nameTooLong => "File name too long"
  | permissionDenied => "Permission denied"
  | ioFailure => "Input/output error"

end FileFault

/-- Why a file cannot be used. -/
inductive FileError where
  | system (fault : FileFault) (path : Path)
  /-- No path of the system can hold the null character. -/
  | embeddedNull
deriving DecidableEq, Repr

def FileError.message : FileError → Text
  | system fault path =>
    "[Errno " ++ Decimal.ofNat fault.number ++ "] " ++ fault.text ++ ": " ++
      Quoted.quote path.text
  | embeddedNull => "embedded null byte"

namespace Path

/-- The longest name that a directory can hold, in bytes. -/
def nameLimit : Nat := 255

/-- The longest path that the system takes, in bytes, with the null byte that ends it. -/
def lengthLimit : Nat := 4096

/-- Refuses what no system takes for a path. -/
def check (p : Path) : Except FileError Unit :=
  if '\x00' ∈ p.text then .error .embeddedNull
  else if lengthLimit ≤ (Utf8.encode p.text).length then .error (.system .nameTooLong p)
  else .ok ()

end Path

/-- The files around a command. -/
structure Disk (m : Type → Type) where
  /-- Whether a path leads to a regular file. -/
  isFile : Path → m (Except FileError Bool)
  read : Path → m (Except FileError (List UInt8))
  /-- Makes the bytes the contents of the file, which need not have existed. -/
  write : Path → List UInt8 → m (Except FileError Unit)

end ScriptLex

/-
Module: Crosswire.SourceFile
Purpose: Programs in files. Reading is a parameter: `Files` says what each path holds, so that loading
  is a function of the path and of what is stored.
Imports: Crosswire.Program
Main exports: ReadFailure, Files, LoadError, Program.loadFile
-/
import Crosswire.Program

namespace Crosswire

/-- Why a file could not be read as text. -/
inductive ReadFailure where
  | notFound
  | isDirectory
  /-- Something on the way to the file is no directory. -/
  | notDirectory
  /-- The path, or a name in it, is longer than any can be. -/
  | nameTooLong
  /-- There is a NUL character in the path. -/
  | nulInName
  /-- The bytes are not UTF-8. -/
  | notText
  /-- The operating system gave another reason. -/
  | system (reason : String)
deriving DecidableEq, Repr

/-- The wording of a read failure. -/
def ReadFailure.message : ReadFailure → String
  | notFound => "No such file or directory (os error 2)"
  | isDirectory => "Is a directory (os error 21)"
  | notDirectory => "Not a directory (os error 20)"
  | nameTooLong => "File name too long (os error 36)"
  | nulInName => "file name contained an unexpected NUL byte"
  | notText => "stream did not contain valid UTF-8"
  | system reason => reason

/-- What each path holds. -/
abbrev Files := String → Except ReadFailure ByteArray

/-- Why no program was loaded. -/
inductive LoadError where
  | malformed (mismatch : BracketMismatch)
  | unreadable (path : String) (failure : ReadFailure)
deriving DecidableEq, Repr

namespace LoadError

/-- The wording of a load error. -/
def message : LoadError → String
  | malformed mismatch => mismatch.message
  | unreadable path failure => s!"Cannot read program {path}: {failure.message}"

/-- The wordings of an error and of the causes behind it, outermost first. -/
def causes : LoadError → List String
  | malformed mismatch => [mismatch.message]
  | unreadable path failure => [(unreadable path failure).message, failure.message]

end LoadError

/-- The text of a file. -/
def Files.readText (files : Files) (path : String) : Except ReadFailure String :=
  match files path with
  | .error failure => .error failure
  | .ok bytes =>
    match String.fromUTF8? bytes with
    | some text => .ok text
    | none => .error .notText

/-- Load the program in a file. -/
def Program.loadFile (files : Files) (path : String) : Except LoadError Program :=
  match files.readText path with
  | .error failure => .error (.unreadable path failure)
  | .ok source =>
    match Program.load source with
    | .ok program => .ok program
    | .error mismatch => .error (.malformed mismatch)

end Crosswire

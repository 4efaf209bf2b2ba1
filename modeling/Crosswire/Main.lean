/-
Module: Crosswire.Main
Purpose: The command itself. It reads the program file and the environment, hands them to
  `CommandLine.launch`, and passes on what the session writes after every turn.
Imports: Crosswire.CommandLine.Session
Main exports: main
-/
import Crosswire.CommandLine.Session

namespace Crosswire.CommandLine

/-- The number of a system error, whichever sign it was reported with. -/
def systemCode (code : UInt32) : Nat :=
  if code < 0x80000000 then code.toNat else (0 - code).toNat

/-- Why the operating system could not read a file. -/
def readFailureOf : IO.Error → ReadFailure
  | .noFileOrDirectory .. => .notFound
  | .inappropriateType filename code details =>
    match systemCode code with
    | 20 => .notDirectory
    | 21 => .isDirectory
    | _ => .system (toString (IO.Error.inappropriateType filename code details))
  | .invalidArgument filename code details =>
    match systemCode code with
    | 36 => .nameTooLong
    | _ => .system (toString (IO.Error.invalidArgument filename code details))
  | error => .system (toString error)

/-- Why the operating system could not write output. -/
def outputFailureOf : IO.Error → OutputFailure
  | .resourceExhausted filename code details =>
    match systemCode code with
    | 28 => .deviceFull
    | _ => .system (toString (IO.Error.resourceExhausted filename code details))
  | error => .system (toString error)

/-- Read the file that a command line names, if it names one. -/
def readNamedFile (arguments : List String) : IO Files := do
  match Request.parse arguments with
  | .ok (.run options) =>
    try
      let content ← IO.FS.readBinFile options.file
      return fun _ => .ok content
    catch error =>
      return fun _ => .error (readFailureOf error)
  | _ => return fun _ => .error .notFound

/-- A supply of random words that differs from run to run. -/
def randomWords : IO Words := do
  let bytes ← IO.getRandomBytes 8
  return .seeded (bytes.data.foldl (fun seed byte => seed <<< 8 ||| byte.toUInt64) 0)

/-- Print lines on standard error. -/
def tell (messages : List String) : IO Unit :=
  messages.forM IO.eprintln

/-- Write bytes to standard output and flush them. -/
def send (bytes : Array UInt8) : IO Unit := do
  if !bytes.isEmpty then
    let stdout ← IO.getStdout
    stdout.write ⟨bytes⟩
    stdout.flush

/-- Take turns until the run returns, passing on what each turn writes. Standard output that cannot be
written ends the run like a sink that refuses. -/
partial def drive (session : Session) : IO (RunResult × Session) := do
  let (bytes, log, session) := (session.advance 1).drain
  tell log
  try
    send bytes
  catch error =>
    return (.error (.output (outputFailureOf error)), session)
  match session.run.result with
  | some result => return (result, session)
  | none => drive session

/-- Carry a session through to its exit code. -/
def finish (session : Session) : IO UInt32 := do
  tell (logLines session.filter [session.loaded])
  let before ← IO.monoNanosNow
  let (result, session) ← drive session
  let after ← IO.monoNanosNow
  let steps := session.run.machine.steps
  if result matches .ok .stepLimit then
    tell (logLines session.filter [.limited steps])
  tell (session.closing (Timing.ofNanoseconds steps (after - before)) result)
  return (Session.exitCode result).toUInt32

end Crosswire.CommandLine

open Crosswire.CommandLine in
/-- Run the command with the arguments of the process. -/
def main (arguments : List String) : IO UInt32 := do
  let files ← readNamedFile arguments
  let environment ← IO.getEnv "RUST_LOG"
  match launch arguments environment files .unlimited (← randomWords) with
  | .running session => finish session
  | .finished completion =>
    tell completion.stderr
    try
      send completion.stdout
    catch _ =>
      pure ()
    return completion.exitCode.toUInt32

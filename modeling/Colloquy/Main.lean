import Colloquy.CommandLine.Run
import Colloquy.Files.Tree

/-!
The program: runs of the command line on the files, the environment and the streams of the system.
-/

set_option autoImplicit false

namespace Colloquy.Main

/-- The wording of the common failures, and that of the system for all others. -/
def failure : IO.Error → Failure
  | .noFileOrDirectory _ _ _ => FileError.notFound.failure
  | .alreadyExists _ _ _ => FileError.alreadyExists.failure
  | .inappropriateType _ 20 _ => FileError.notDirectory.failure
  | .inappropriateType _ 21 _ => FileError.isDirectory.failure
  | .invalidArgument _ 36 _ => FileError.nameTooLong.failure
  | e => ⟨toString e⟩

def attempt {α : Type} (action : IO α) : IO (Except Failure α) := do
  match ← action.toBaseIO with
  | .ok a => return .ok a
  | .error e => return .error (failure e)

def toArray (bytes : List UInt8) : ByteArray :=
  ⟨bytes.toArray⟩

instance : FileSystem IO where
  workingDirectory script := return script.workingDirectory
  createDirectory path := attempt (IO.FS.createDirAll path.display)
  createFile path := attempt (IO.FS.writeBinFile path.display .empty)
  write path bytes := attempt do
    let file ← IO.FS.Handle.mk path.display .append
    file.write (toArray bytes)
  flush _ := return .ok ()
  removeFile path := do
    match ← (IO.FS.removeFile path.display).toBaseIO with
    | .ok () | .error (.noFileOrDirectory _ _ _) => return .ok ()
    | .error e => return .error (failure e)
  readText path := do
    match ← attempt (IO.FS.readBinFile path.display) with
    | .error e => return .error e
    | .ok content =>
      match Text.Utf8.decode? content.toList with
      | some text => return .ok text
      | none => return .error FileError.notText.failure
  readableCount := return Tree.pathCount

/-- Reads a line with the byte that ends it; the last line may be without. -/
partial def readLine (input : IO.FS.Stream) (line : List UInt8) : IO (List UInt8) := do
  let byte ← input.read 1
  match byte.toList with
  | [] => return line.reverse
  | b :: _ => if b = 0x0A then return (b :: line).reverse else readLine input (b :: line)

def say (output : String) : IO Unit := do
  let stream ← IO.getStdout
  stream.putStr output
  stream.flush

/-- Runs a prompt line by line. -/
partial def prompt (job : CommandLine.Job) (store : Store Calc.Session) : IO Prompt.Ending := do
  match Prompt.inputLines (← readLine (← IO.getStdin) []) with
  | [] => do
    say "\n"
    return .finished
  | line :: _ =>
    match Prompt.turn job.engine (CommandLine.prompt job) store line with
    | .stop output ending _ => do
      say output
      return ending
    | .next output store => do
      say output
      prompt job store

def environmentBytes (name : String) : IO (Option (List UInt8)) := do
  return (← IO.getEnv name).map Text.Utf8.encode

def run (arguments : List String) : IO CommandLine.Exit := do
  let environment : EnvironmentVariables := {
    sessionKey := ← environmentBytes "SCRIPT_SESSION_KEY"
    logLevel := ← environmentBytes "SCRIPT_SESSION_LOG_LEVEL"
    generalLogLevel := ← environmentBytes "RUST_LOG" }
  match ← CommandLine.start ((CommandLine.programName :: arguments).map Text.Utf8.encode)
      environment with
  | .error exit => return exit
  | .ok job =>
    if job.scripts.isEmpty then do
      say Prompt.mark
      return CommandLine.promptExit (← prompt job .empty)
    else CommandLine.runScripts job .empty job.scripts

end Colloquy.Main

def main (arguments : List String) : IO UInt32 := do
  let exit ← Colloquy.Main.run arguments
  Colloquy.Main.say exit.output
  (← IO.getStderr).putStr exit.errors
  return UInt32.ofNat exit.code

import Colloquy.Path
import Colloquy.Sink

/-!
What the engine asks of a file system. A file is written by creating it, which empties it, then
writing to it and flushing it.
-/

set_option autoImplicit false

namespace Colloquy

class FileSystem (m : Type → Type) where
  /-- The directory that a script runs from. -/
  workingDirectory : Path → m Path
  /-- Creates a directory and all directories above it that are missing. -/
  createDirectory : Path → m (Except Failure Unit)
  createFile : Path → m (Except Failure Unit)
  /-- Appends bytes to a file that was created. -/
  write : Path → List UInt8 → m (Except Failure Unit)
  flush : Path → m (Except Failure Unit)
  /-- Deletes a file; that it is missing is no failure. -/
  removeFile : Path → m (Except Failure Unit)
  readText : Path → m (Except Failure String)
  /-- There are no more files than this that can be read. -/
  readableCount : m Nat

namespace Files

/-- Writes a whole file. Nothing is written where there are no bytes. -/
def writeFile {m : Type → Type} [Monad m] [FileSystem m] (path : Path) (bytes : List UInt8) :
    m (Except Failure Unit) := do
  match ← FileSystem.createFile path with
  | .error failure => return .error failure
  | .ok () =>
    let written ← if bytes.isEmpty then pure (.ok ()) else FileSystem.write path bytes
    match written with
    | .error failure => return .error failure
    | .ok () => FileSystem.flush path

end Files

end Colloquy

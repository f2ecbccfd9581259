import Colloquy.Engine.Backend
import Colloquy.Files.Basic

/-!
The pair of files that a compiled script leaves for a debugger. Both or neither are left: where one
of them cannot be written, both are deleted.
-/

set_option autoImplicit false

namespace Colloquy

/-- Where the pair of files of a script goes. -/
structure Layout where
  outputDir : String
  codeExtension : String
  symbolExtension : String
  deriving DecidableEq, Repr

def Layout.standard : Layout :=
  ⟨"bin", "dll", "pdb"⟩

structure ArtifactPaths where
  code : Path
  symbols : Path
  deriving DecidableEq, Repr

/-- The name that the files of a script share. -/
def Layout.baseName (script : Path) : String :=
  match script.fileStem? with
  | some stem => Text.Utf8.decodeLossy stem
  | none => "script"

def Layout.paths (layout : Layout) (working script : Path) : ArtifactPaths :=
  let directory := working.push (.ofString layout.outputDir)
  let base := Layout.baseName script
  { code := directory.push (.ofString (base ++ "." ++ layout.codeExtension))
    symbols := directory.push (.ofString (base ++ "." ++ layout.symbolExtension)) }

structure ArtifactFailure where
  path : Path
  failure : Failure
  deriving DecidableEq, Repr

def ArtifactFailure.message (failure : ArtifactFailure) : String :=
  "failed to write artifact " ++ failure.path.display ++ ": " ++ failure.failure.message

namespace Artifact

variable {m : Type → Type} [Monad m] [FileSystem m]

def createParent (path : Path) : m (Except ArtifactFailure Unit) :=
  match path.parent? with
  | none => pure (.ok ())
  | some directory => do
    match ← FileSystem.createDirectory directory with
    | .ok () => pure (.ok ())
    | .error failure => pure (.error ⟨directory, failure⟩)

/-- Writes a file of the pair, and deletes both if that fails. -/
def writeOrClear (paths : ArtifactPaths) (path : Path) (bytes : List UInt8) :
    m (Except ArtifactFailure Unit) := do
  match ← Files.writeFile path bytes with
  | .ok () => pure (.ok ())
  | .error failure => do
    let _ ← FileSystem.removeFile paths.code
    let _ ← FileSystem.removeFile paths.symbols
    pure (.error ⟨path, failure⟩)

/-- Writes the streams of a compiled script. They are complete before any file is touched. -/
def emit (layout : Layout) (working script : Path) (streams : Except Failure Streams) :
    m (Except ArtifactFailure ArtifactPaths) := do
  let paths := layout.paths working script
  match streams with
  | .error failure => pure (.error ⟨paths.code, failure⟩)
  | .ok streams =>
    match ← createParent paths.code with
    | .error failure => pure (.error failure)
    | .ok () =>
      match ← writeOrClear paths paths.code streams.code with
      | .error failure => pure (.error failure)
      | .ok () =>
        match ← writeOrClear paths paths.symbols streams.symbols with
        | .error failure => pure (.error failure)
        | .ok () => pure (.ok paths)

end Artifact

end Colloquy

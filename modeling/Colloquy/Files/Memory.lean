import Colloquy.Files.Basic

/-!
A file system in memory: files by their paths, without directories. Which paths lead to the same file
is up to the rules that it takes paths by. It keeps a log of the calls made to it, and fails those
that it was told to.
-/

set_option autoImplicit false

namespace Colloquy

inductive Operation where
  | createDirectory
  | createFile
  | write
  | flush
  | removeFile
  | readText
  deriving DecidableEq, Repr

def Operation.name : Operation → String
  | .createDirectory => "create_dir_all"
  | .createFile => "create_file"
  | .write => "write"
  | .flush => "flush"
  | .removeFile => "remove_file"
  | .readText => "read_to_string"

structure Call where
  operation : Operation
  path : Path
  deriving DecidableEq, Repr

def Call.render (call : Call) : String :=
  call.operation.name ++ " " ++ call.path.display

/-- How a file system takes paths: which of them lead to the same file, and where a script runs. -/
structure PathRules where
  sameFile : Path → Path → Bool
  equivalence : Equivalence fun path other => sameFile path other = true
  /-- Paths with different components never lead to the same file. -/
  same_of_sameFile : ∀ {path other : Path}, sameFile path other = true → path.same other = true
  workingDirectory : Path → Path

namespace PathRules

/-- Every path leads to a file of its own. -/
def text : PathRules where
  sameFile path other := path = other
  equivalence := ⟨by simp, by simp_all, by simp_all⟩
  same_of_sameFile equal := by simp_all [Path.same]
  workingDirectory := Path.workingDirectory

/-- Paths are told apart by their components, and the directory of a bare name has the empty path. -/
def components : PathRules where
  sameFile := Path.same
  equivalence := ⟨by simp [Path.same], by simp_all [Path.same], by simp_all [Path.same]⟩
  same_of_sameFile same := same
  workingDirectory script := (script.parent?).getD ⟨[Path.dot]⟩

end PathRules

structure Memory where
  rules : PathRules
  files : List (Path × List UInt8)
  /-- The calls that fail. -/
  failing : List Call
  /-- The calls made so far, the latest first. -/
  log : List Call

namespace Memory

def find? (memory : Memory) (path : Path) : Option (List UInt8) :=
  (memory.files.find? fun entry => memory.rules.sameFile path entry.1).map Prod.snd

def erase (memory : Memory) (path : Path) : Memory :=
  { memory with files := memory.files.filter fun entry => !memory.rules.sameFile path entry.1 }

def insert (memory : Memory) (path : Path) (content : List UInt8) : Memory :=
  { memory with files := (path, content) :: (memory.erase path).files }

/-- Makes a call: it is logged, and has its effect unless it is told to fail. -/
def call {α : Type} (operation : Operation) (path : Path)
    (effect : Memory → Except Failure α × Memory) : StateM Memory (Except Failure α) :=
  fun memory =>
    let made : Call := ⟨operation, path⟩
    let logged := { memory with log := made :: memory.log }
    if made ∈ memory.failing then (.error ⟨"injected"⟩, logged) else effect logged

def readText (path : Path) (memory : Memory) : Except Failure String × Memory :=
  match memory.find? path with
  | none => (.error ⟨"no such file"⟩, memory)
  | some content =>
    match Text.Utf8.decode? content with
    | none => (.error ⟨"not UTF-8"⟩, memory)
    | some text => (.ok text, memory)

instance : FileSystem (StateM Memory) where
  workingDirectory script := fun memory => (memory.rules.workingDirectory script, memory)
  createDirectory path := call .createDirectory path fun memory => (.ok (), memory)
  createFile path := call .createFile path fun memory => (.ok (), memory.insert path [])
  write path bytes := call .write path fun memory =>
    (.ok (), memory.insert path ((memory.find? path).getD [] ++ bytes))
  flush path := call .flush path fun memory => (.ok (), memory)
  removeFile path := call .removeFile path fun memory => (.ok (), memory.erase path)
  readText path := call .readText path (readText path)
  readableCount := fun memory => (memory.files.length, memory)

end Memory

end Colloquy

import Colloquy.Diagnostic
import Colloquy.Files.Basic
import Colloquy.Text.Blank

/-!
Expansion of scripts. A line `#load "path"` stands for the lines of another file, whose path is
taken from the directory of the file that holds the line. Each file is put in once, where it is
loaded first; a file that loads itself, directly or through others, is refused. A line `#r name`
names a reference and contributes no text.
-/

set_option autoImplicit false

namespace Colloquy

/-- The result of expanding a script. -/
structure Expansion where
  code : String
  /-- The names of `#r` lines, each one once. -/
  references : List String
  /-- The files that contributed, in the order in which they were first loaded. -/
  loaded : List Path

inductive IncludeCause where
  | unreadable (failure : Failure)
  /-- A `#load` line without a quoted path. -/
  | malformed (line : Nat)
  /-- The files from the script on, each of which loads the next one. -/
  | cycle (chain : List Path)
  /-- More files are nested than can be read. -/
  | exhausted

/-- Why a script cannot be expanded, and the file at fault. -/
structure IncludeError where
  path : Path
  cause : IncludeCause

def IncludeError.message (e : IncludeError) : String :=
  match e.cause with
  | .unreadable failure => failure.message
  | .malformed line => "line " ++ showNat line ++ ": expected `#load \"path\"`"
  | .cycle chain => "include cycle: " ++ String.intercalate " -> " (chain.map Path.display)
  | .exhausted => "includes are nested too deeply"

namespace Include

/-- The text after the word of a directive, if the line is one. -/
def directive? (word : String) (line : List Char) : Option (List Char) := do
  let rest ← Text.dropWord? word.toList line
  match rest with
  | [] => some []
  | c :: _ => if Text.isBlank c then some (Text.trim rest) else none

/-- The text between quotation marks. -/
def unquote? : List Char → Option (List Char)
  | '"' :: rest => if rest.getLast? = some '"' then some rest.dropLast else none
  | _ => none

inductive Line where
  | load (target? : Option String)
  | reference (name : String)
  | text (line : String)
  deriving DecidableEq

def Line.parse (line : List Char) : Line :=
  let trimmed := Text.trim line
  match directive? "#load" trimmed with
  | some rest => .load ((unquote? rest).map String.ofList)
  | none =>
    match directive? "#r" trimmed with
    | some rest => .reference (String.ofList ((unquote? rest).getD rest))
    | none => .text (String.ofList line)

def Line.all (text : String) : List Line :=
  (Text.lines text.toList).map Line.parse

/-- The path that a `#load` line of a file leads to. -/
def target (file : Path) (text : String) : Path :=
  (((file.parent?).getD .empty).push (.ofString text)).normalize

def addReference (out : Expansion) (name : String) : Expansion :=
  if name ∈ out.references then out else { out with references := out.references ++ [name] }

def addText (out : Expansion) (line : String) : Expansion :=
  { out with code := out.code ++ line ++ "\n" }

section

variable {m : Type → Type} [Monad m]

/-- Goes through the lines of a file from a line number on; `load` expands another file. -/
def expandLines (load : Path → Expansion → m (Except IncludeError Expansion)) (file : Path) :
    Nat → List Line → Expansion → m (Except IncludeError Expansion)
  | _, [], out => pure (.ok out)
  | number, .load none :: _, _ => pure (.error ⟨file, .malformed number⟩)
  | number, .load (some text) :: rest, out => do
    match ← load (target file text) out with
    | .error e => pure (.error e)
    | .ok out => expandLines load file (number + 1) rest out
  | number, .reference name :: rest, out =>
    expandLines load file (number + 1) rest (addReference out name)
  | number, .text line :: rest, out =>
    expandLines load file (number + 1) rest (addText out line)

variable [FileSystem m]

/-- Expands a file. `stack` holds the files that are being expanded, the outermost first; they are
all different and have all been read, so `fuel` bounds how many there are. -/
def expand : Nat → List Path → Path → Expansion → m (Except IncludeError Expansion)
  | fuel, stack, path, out =>
    if stack.any path.same then pure (.error ⟨path, .cycle (stack ++ [path])⟩)
    else if out.loaded.any path.same then pure (.ok out)
    else do
      match ← FileSystem.readText path with
      | .error failure => pure (.error ⟨path, .unreadable failure⟩)
      | .ok text =>
        match fuel with
        | 0 => pure (.error ⟨path, .exhausted⟩)
        | fuel + 1 =>
          expandLines (expand fuel (stack ++ [path])) path 1 (Line.all text)
            { out with loaded := out.loaded ++ [path] }

end

end Include

/-- Expands a script. -/
def expandScript {m : Type → Type} [Monad m] [FileSystem m] (script : Path) :
    m (Except IncludeError Expansion) := do
  let fuel ← FileSystem.readableCount
  Include.expand fuel [] script.normalize ⟨"", [], []⟩

end Colloquy

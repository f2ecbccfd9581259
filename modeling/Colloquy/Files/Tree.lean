import Colloquy.Files.Basic

/-!
A file system of directories and files with a working directory, which resolves paths and words its
failures the way Unix systems do.
-/

set_option autoImplicit false

namespace Colloquy

inductive FileError where
  | notFound
  | alreadyExists
  | notDirectory
  | isDirectory
  | nameTooLong
  | nulByte
  | notText
  deriving DecidableEq, Repr

def FileError.message : FileError → String
  | .notFound => "No such file or directory (os error 2)"
  | .alreadyExists => "File exists (os error 17)"
  | .notDirectory => "Not a directory (os error 20)"
  | .isDirectory => "Is a directory (os error 21)"
  | .nameTooLong => "File name too long (os error 36)"
  | .nulByte => "file name contained an unexpected NUL byte"
  | .notText => "stream did not contain valid UTF-8"

def FileError.failure (e : FileError) : Failure :=
  ⟨e.message⟩

inductive Entry where
  | directory
  | file (content : List UInt8)
  deriving DecidableEq, Repr

/-- The names on the way from the root. -/
abbrev Location := List Path.Name

structure Tree where
  /-- Everything below the root, by location. -/
  entries : List (Location × Entry)
  working : Location

namespace Tree

def find? (tree : Tree) (location : Location) : Option Entry :=
  if location.isEmpty then some .directory else tree.entries.lookup location

def erase (tree : Tree) (location : Location) : Tree :=
  { tree with entries := tree.entries.filter fun entry => entry.1 ≠ location }

def insert (tree : Tree) (location : Location) (entry : Entry) : Tree :=
  { tree with entries := (location, entry) :: (tree.erase location).entries }

def longestName : Nat := 255

/-- Paths of this length are refused. -/
def pathLimit : Nat := 4096

/-- More than there are paths that are not refused. -/
def pathCount : Nat := Nat.pow 256 pathLimit

/-- The entry that a name stands for in a directory. -/
def child? (tree : Tree) (directory : Location) (name : Path.Name) :
    Except FileError (Option Entry) :=
  if longestName < name.length then .error .nameTooLong
  else .ok (tree.find? (directory ++ [name]))

/-- Follows names down from a directory; each of them has to be a directory. -/
def walk (tree : Tree) (directory : Location) : List Path.Name → Except FileError Location
  | [] => .ok directory
  | name :: rest =>
    if name = [Path.dot] then walk tree directory rest
    else if name = [Path.dot, Path.dot] then walk tree directory.dropLast rest
    else
      match tree.child? directory name with
      | .error e => .error e
      | .ok none => .error .notFound
      | .ok (some (.file _)) => .error .notDirectory
      | .ok (some .directory) => walk tree (directory ++ [name]) rest

/-- What a path leads to: a directory it names by dots or slashes alone, or a name in a directory,
with or without a slash behind it. -/
inductive Target where
  | directory (location : Location)
  | name (directory : Location) (name : Path.Name) (slashed : Bool)

def resolve (tree : Tree) (path : Path) : Except FileError Target := do
  if path.bytes.contains 0 then .error .nulByte
  if path.bytes.isEmpty then .error .notFound
  if pathLimit ≤ path.bytes.length then .error .nameTooLong
  let start := if path.isAbsolute then [] else tree.working
  let pieces := Path.split path.bytes
  let names := pieces.filter (!List.isEmpty ·)
  match names.getLast? with
  | none => return .directory start
  | some last =>
    let directory ← tree.walk start names.dropLast
    if last = [Path.dot] then return .directory directory
    else if last = [Path.dot, Path.dot] then return .directory directory.dropLast
    else return .name directory last (pieces.getLast? = some [])

def readText (tree : Tree) (path : Path) : Except FileError String := do
  match ← tree.resolve path with
  | .directory _ => .error .isDirectory
  | .name directory name slashed =>
    match ← tree.child? directory name with
    | none => .error .notFound
    | some .directory => .error .isDirectory
    | some (.file content) =>
      if slashed then .error .notDirectory
      else
        match Text.Utf8.decode? content with
        | none => .error .notText
        | some text => .ok text

def createFile (tree : Tree) (path : Path) : Except FileError Tree := do
  match ← tree.resolve path with
  | .directory _ => .error .isDirectory
  | .name directory name slashed =>
    if slashed then .error .isDirectory
    else
      match ← tree.child? directory name with
      | some .directory => .error .isDirectory
      | _ => .ok (tree.insert (directory ++ [name]) (.file []))

def write (tree : Tree) (path : Path) (bytes : List UInt8) : Except FileError Tree := do
  match ← tree.resolve path with
  | .directory _ => .error .isDirectory
  | .name directory name _ =>
    match ← tree.child? directory name with
    | none => .error .notFound
    | some .directory => .error .isDirectory
    | some (.file content) => .ok (tree.insert (directory ++ [name]) (.file (content ++ bytes)))

def removeFile (tree : Tree) (path : Path) : Except FileError Tree := do
  match ← tree.resolve path with
  | .directory _ => .error .isDirectory
  | .name directory name slashed =>
    match ← tree.child? directory name with
    | none => .error .notFound
    | some .directory => .error .isDirectory
    | some (.file _) =>
      if slashed then .error .notDirectory else .ok (tree.erase (directory ++ [name]))

/-- Creates one directory in an existing one. -/
def makeDirectory (tree : Tree) (path : Path) : Except FileError Tree := do
  match ← tree.resolve path with
  | .directory _ => .error .alreadyExists
  | .name directory name _ =>
    match ← tree.child? directory name with
    | none => .ok (tree.insert (directory ++ [name]) .directory)
    | some _ => .error .alreadyExists

def isDirectory (tree : Tree) (path : Path) : Bool :=
  match tree.resolve path with
  | .error _ => false
  | .ok (.directory _) => true
  | .ok (.name directory name _) => tree.find? (directory ++ [name]) = some .directory

/-- A directory counts as made if it is there. -/
def ensureDirectory (tree : Tree) (path : Path) : Except FileError Tree :=
  match tree.makeDirectory path with
  | .ok made => .ok made
  | .error e => if tree.isDirectory path then .ok tree else .error e

/-- Creates a directory, after the directories above it where they are missing. A path has fewer
components than bytes, which is what `bound` is for. What was created before a failure stays. -/
def createDirectories (bound : Nat) (tree : Tree) (path : Path) : Tree × Except FileError Unit :=
  if path.components.isEmpty then (tree, .ok ())
  else
    match tree.makeDirectory path with
    | .ok made => (made, .ok ())
    | .error .notFound =>
      match bound, path.parent? with
      | bound + 1, some parent =>
        match createDirectories bound tree parent with
        | (tree, .error e) => (tree, .error e)
        | (tree, .ok ()) =>
          match tree.ensureDirectory path with
          | .ok made => (made, .ok ())
          | .error e => (tree, .error e)
      | _, _ => (tree, .error .notFound)
    | .error e => if tree.isDirectory path then (tree, .ok ()) else (tree, .error e)

/-- Runs an operation that changes the tree only if it succeeds. -/
def update (operation : Tree → Except FileError Tree) : StateM Tree (Except Failure Unit) :=
  fun tree =>
    match operation tree with
    | .ok changed => (.ok (), changed)
    | .error e => (.error e.failure, tree)

instance : FileSystem (StateM Tree) where
  workingDirectory script := pure script.workingDirectory
  createDirectory path := fun tree =>
    match tree.createDirectories path.bytes.length path with
    | (changed, .ok ()) => (.ok (), changed)
    | (changed, .error e) => (.error e.failure, changed)
  createFile path := update fun tree => tree.createFile path
  write path bytes := update fun tree => tree.write path bytes
  flush _ := fun tree => (.ok (), tree)
  removeFile path := update fun tree =>
    match tree.removeFile path with
    | .error .notFound => .ok tree
    | result => result
  readText path := fun tree =>
    match tree.readText path with
    | .ok text => (.ok text, tree)
    | .error e => (.error e.failure, tree)
  readableCount := pure pathCount

/-- The entries below the working directory, by their path from there. -/
def listing (tree : Tree) : List (Path × Entry) :=
  tree.entries.filterMap fun (location, entry) =>
    if tree.working.isPrefixOf location && tree.working.length < location.length then
      some (⟨Path.join (location.drop tree.working.length)⟩, entry)
    else none

end Tree

end Colloquy

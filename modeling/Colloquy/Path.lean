import Colloquy.Text.Utf8

/-!
Paths as byte sequences that a slash divides into pieces. A path is used as it is written; only its
components count where it is taken apart: repeated slashes, a trailing slash, and single dots other
than a leading one are passed over.
-/

set_option autoImplicit false

namespace Colloquy

structure Path where
  bytes : List UInt8
  deriving DecidableEq, Repr

namespace Path

abbrev Name := List UInt8

def slash : UInt8 := 0x2F

def dot : UInt8 := 0x2E

inductive Component where
  | root
  | current
  | parent
  | normal (name : Name)
  deriving DecidableEq, Repr

def ofString (text : String) : Path :=
  ⟨Text.Utf8.encode text⟩

/-- The text of a path, with the replacement character where its bytes are no text. -/
def display (path : Path) : String :=
  Text.Utf8.decodeLossy path.bytes

def empty : Path :=
  ⟨[]⟩

/-- The stretches between slashes; there is one more of them than there are slashes. -/
def split : List UInt8 → List Name
  | [] => [[]]
  | b :: rest =>
    if b = slash then [] :: split rest
    else
      match split rest with
      | [] => [[b]]
      | piece :: pieces => (b :: piece) :: pieces

def join : List Name → List UInt8
  | [] => []
  | [piece] => piece
  | piece :: pieces => piece ++ slash :: join pieces

def isAbsolute (path : Path) : Bool :=
  path.bytes.head? = some slash

/-- The pieces of a path, without the empty one before the first slash of an absolute path. -/
def pieces (path : Path) : List Name :=
  match path.bytes with
  | [] => split []
  | b :: rest => if b = slash then split rest else split (b :: rest)

/-- Whether a piece is passed over. -/
def isIdle (piece : Name) : Bool :=
  piece = [] || piece = [dot]

def component (piece : Name) : Component :=
  if piece = [dot, dot] then .parent else .normal piece

/-- A leading dot of a relative path is a component, though a dot is passed over elsewhere. -/
def components (path : Path) : List Component :=
  if path.isAbsolute then .root :: (path.pieces.filter (!isIdle ·)).map component
  else
    match path.pieces with
    | [] => []
    | piece :: rest =>
      (if piece = [dot] then [.current] else []) ++
        ((if piece = [dot] then rest else piece :: rest).filter (!isIdle ·)).map component

/-- Drops the pieces at the end that are passed over; `leading` says whether a dot in front counts
as a component. -/
def dropIdleEnd (leading : Bool) : List Name → List Name
  | [] => []
  | piece :: rest =>
    match dropIdleEnd false rest with
    | [] => if isIdle piece && !(leading && piece = [dot]) then [] else [piece]
    | kept => piece :: kept

/-- The pieces up to the last one that is a component. -/
def body (path : Path) : List Name :=
  dropIdleEnd (!path.isAbsolute) path.pieces

def ofBody (absolute : Bool) (body : List Name) : Path :=
  ⟨(if absolute then [slash] else []) ++ join body⟩

/-- The path without its last component; none if there is no component but the root. -/
def parent? (path : Path) : Option Path :=
  if path.body.isEmpty then none
  else some (ofBody path.isAbsolute (dropIdleEnd (!path.isAbsolute) path.body.dropLast))

/-- The last component, if it is a name. -/
def fileName? (path : Path) : Option Name :=
  match path.components.getLast? with
  | some (.normal name) => some name
  | _ => none

/-- A name up to its last dot; a dot in front does not count. -/
def stem (name : Name) : Name :=
  match name.reverse.dropWhile (· ≠ dot) with
  | [] => name
  | _ :: before => if before.isEmpty then name else before.reverse

def fileStem? (path : Path) : Option Name :=
  path.fileName?.map stem

/-- One path inside another; an absolute path replaces the one before it. -/
def push (path more : Path) : Path :=
  if more.isAbsolute then more
  else
    match path.bytes.getLast? with
    | none => more
    | some last => ⟨path.bytes ++ (if last = slash then [] else [slash]) ++ more.bytes⟩

def Component.path : Component → Path
  | .root => ⟨[slash]⟩
  | .current => ⟨[dot]⟩
  | .parent => ⟨[dot, dot]⟩
  | .normal name => ⟨name⟩

/-- Adds a component to a path that is being normalised: a dot adds nothing, and two dots take back
the component before them where there is one. -/
def addComponent (path : Path) : Component → Path
  | .current => path
  | .parent => (path.parent?).getD (path.push Component.parent.path)
  | c => path.push c.path

/-- Resolves dots without looking at any file. -/
def normalize (path : Path) : Path :=
  path.components.foldl addComponent empty

/-- The directory that a script of the system runs from. A dot stands for that of a bare name. -/
def workingDirectory (script : Path) : Path :=
  match script.parent? with
  | some parent => if parent.bytes.isEmpty then ⟨[dot]⟩ else parent
  | none => ⟨[dot]⟩

/-- Whether two paths have the same components. -/
def same (path other : Path) : Bool :=
  path.components = other.components

end Path

end Colloquy

import Colloquy.Integer
import Colloquy.Json.Document

/-!
Reading values out of a document. Every reader goes through a document in the order of the text and
reports the first fault it meets.
-/

set_option autoImplicit false

namespace Colloquy.Json

/-- How deeply lists and objects may be nested where their contents are read. -/
def nestingLimit : Nat := 128

def ending (break? : Option ReadError) : Except ReadError Unit :=
  match break? with
  | none => .ok ()
  | some e => .error e

mutual

/-- Passes over a document, at any depth. -/
def Node.pass : Node → Except ReadError Unit
  | .atom _ passed => passed
  | .string _ passed => passed
  | .list items break? => do
    Node.passItems items
    ending break?
  | .object members break? => do
    Node.passMembers members
    ending break?
  | .missing e => .error e

def Node.passItems : List Node → Except ReadError Unit
  | [] => .ok ()
  | item :: rest => do
    item.pass
    Node.passItems rest

def Node.passMembers : List (Label × Node) → Except ReadError Unit
  | [] => .ok ()
  | (label, value) :: rest => do
    label.passed
    value.pass
    Node.passMembers rest

end

/-- What is kept of a document that is read before its kind is known. -/
inductive Kept where
  | atom (value : Atom)
  | string (text : String)
  | container

mutual

/-- Reads a document of any shape. -/
def Node.keep (room : Nat) : Node → Except ReadError Kept
  | .atom value _ => value.map .atom
  | .string value _ => value.map .string
  | .list items break? =>
    if room ≤ 1 then .error .malformed
    else do
      Node.keepItems (room - 1) items
      ending break?
      return .container
  | .object members break? =>
    if room ≤ 1 then .error .malformed
    else do
      Node.keepMembers (room - 1) members
      ending break?
      return .container
  | .missing e => .error e

def Node.keepItems (room : Nat) : List Node → Except ReadError Unit
  | [] => .ok ()
  | item :: rest => do
    let _ ← item.keep room
    Node.keepItems room rest

def Node.keepMembers (room : Nat) : List (Label × Node) → Except ReadError Unit
  | [] => .ok ()
  | (label, value) :: rest => do
    let _ ← label.value
    let _ ← value.keep room
    Node.keepMembers room rest

end

/-- The fault of a document that is not of the wanted kind: its own fault if it has one that shows
before its kind does, or else the mismatch. -/
def Node.mismatch {α : Type} : Node → Except ReadError α
  | .atom value _ => value.bind fun _ => .error .mismatch
  | .string value _ => value.bind fun _ => .error .mismatch
  | .list _ _ | .object _ _ => .error .mismatch
  | .missing e => .error e

namespace Decode

def null : Node → Except ReadError Unit
  | .atom (.ok .null) _ => .ok ()
  | node => node.mismatch

def bool : Node → Except ReadError Bool
  | .atom (.ok (.bool b)) _ => .ok b
  | node => node.mismatch

def string : Node → Except ReadError String
  | .string value _ => value
  | node => node.mismatch

/-- A null stands for an absent value. -/
def optional {α : Type} (decode : Node → Except ReadError α) : Node → Except ReadError (Option α)
  | .atom (.ok .null) _ => .ok none
  | node => (decode node).map some

def int64 : Node → Except ReadError Int64
  | .atom (.ok (.int n)) _ =>
    match Integer.ofInt? n with
    | some i => .ok i
    | none => .error .mismatch
  | node => node.mismatch

/-- Any number counts as a double. -/
def doubleOf? : Atom → Option Float
  | .int n => some (if n < 0 then (Int64.ofInt n).toFloat else (UInt64.ofNat n.toNat).toFloat)
  | .double x => some x
  | _ => none

def double : Node → Except ReadError Float
  | .atom (.ok atom) _ =>
    match doubleOf? atom with
    | some x => .ok x
    | none => .error .mismatch
  | node => node.mismatch

def nat : Node → Except ReadError Nat
  | .atom (.ok (.int n)) _ => if 0 ≤ n then .ok n.toNat else .error .mismatch
  | node => node.mismatch

/-- What a word stands for, if it is one of several. -/
def choose {α : Type} (words : List (String × α)) (text : String) : Except ReadError α :=
  match words.lookup text with
  | some a => .ok a
  | none => .error .mismatch

/-- One of several words, given as a string. -/
def plainWord {α : Type} (words : List (String × α)) (node : Node) : Except ReadError α := do
  choose words (← string node)

/-- One of several words, given as a string or as the only member of an object, with null as its
value. A document of any other shape is malformed in its place. -/
def word {α : Type} (words : List (String × α)) : Node → Except ReadError α
  | .string value _ => do choose words (← value)
  | .object [] break? => .error (break?.getD .malformed)
  | .object ((label, value) :: rest) break? => do
    let chosen ← choose words (← label.value)
    null value
    match rest, break? with
    | [], none => .ok chosen
    | [], some e => .error e
    | _ :: _, _ => .error .malformed
  | .missing e => .error e
  | _ => .error .malformed

/-- Goes through the members of an object with a state. -/
def members {σ : Type} (step : σ → String → Node → Except ReadError σ) :
    σ → List (Label × Node) → Option ReadError → Except ReadError σ
  | state, [], break? => do
    ending break?
    return state
  | state, (label, value) :: rest, break? => do
    let name ← label.value
    let state ← step state name value
    members step state rest break?

/-- The first occurrence of a member; a second one is refused before its value is looked at. -/
def once {α : Type} (present : Option α) (value : Except ReadError α) :
    Except ReadError (Option α) :=
  match present with
  | some _ => .error .mismatch
  | none => value.map some

/-- The end of a list of which all wanted items have been read. -/
def noMore (items : List Node) (break? : Option ReadError) : Except ReadError Unit :=
  match items with
  | [] => ending break?
  | _ :: _ => .error .malformed

/-- An item that has to be there. -/
def required {α : Type} (break? : Option ReadError) : Except ReadError α :=
  .error (break?.getD .mismatch)

end Decode

/-- Reads a whole text; nothing but blanks may follow the document. -/
def read {α : Type} (decode : Node → Except ReadError α) (text : String) : Except ReadError α := do
  let (node, rest) := document text
  let a ← decode node
  if rest.isEmpty then .ok a else .error .malformed

end Colloquy.Json

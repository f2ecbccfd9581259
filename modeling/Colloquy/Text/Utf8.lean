/-!
UTF-8 on lists of bytes. `scan` divides any byte sequence into characters and broken runs; the
strict and the lenient readings of a byte sequence are two views of that division.
-/

set_option autoImplicit false

namespace Colloquy.Text.Utf8

/-- A stretch of a byte sequence: the encoding of a character, or the longest start of an encoding
that the next byte does not continue. -/
inductive Piece where
  | char (c : Char)
  | broken (bytes : List UInt8)
  deriving DecidableEq

def Piece.char? : Piece → Option Char
  | .char c => some c
  | .broken _ => none

def Piece.bytes : Piece → List UInt8
  | .char c => String.utf8EncodeChar c
  | .broken bytes => bytes

/-- An encoding that still owes bytes: those read so far, the bits they carry, how many bytes are
owed, and between which bounds the next one lies. -/
structure Pending where
  bytes : List UInt8
  value : Nat
  owed : Nat
  low : UInt8
  high : UInt8

/-- What a first byte gives: a piece at once, or an encoding that owes bytes. The bounds on a second
byte leave out overlong forms, surrogates and code points above the last one. -/
def first (a : UInt8) : List Piece × Option Pending :=
  if a < 0x80 then ([.char (Char.ofNat a.toNat)], none)
  else if 0xC2 ≤ a && a ≤ 0xDF then ([], some ⟨[a], a.toNat % 32, 1, 0x80, 0xBF⟩)
  else if a = 0xE0 then ([], some ⟨[a], a.toNat % 16, 2, 0xA0, 0xBF⟩)
  else if a = 0xED then ([], some ⟨[a], a.toNat % 16, 2, 0x80, 0x9F⟩)
  else if 0xE1 ≤ a && a ≤ 0xEF then ([], some ⟨[a], a.toNat % 16, 2, 0x80, 0xBF⟩)
  else if a = 0xF0 then ([], some ⟨[a], a.toNat % 8, 3, 0x90, 0xBF⟩)
  else if a = 0xF4 then ([], some ⟨[a], a.toNat % 8, 3, 0x80, 0x8F⟩)
  else if 0xF1 ≤ a && a ≤ 0xF3 then ([], some ⟨[a], a.toNat % 8, 3, 0x80, 0xBF⟩)
  else ([.broken [a]], none)

/-- A byte that does not continue the pending encoding breaks it off and is read as a first byte. -/
def next (p : Pending) (b : UInt8) : List Piece × Option Pending :=
  if p.low ≤ b && b ≤ p.high then
    let value := p.value * 64 + b.toNat % 64
    if p.owed ≤ 1 then ([.char (Char.ofNat value)], none)
    else ([], some ⟨p.bytes ++ [b], value, p.owed - 1, 0x80, 0xBF⟩)
  else (.broken p.bytes :: (first b).1, (first b).2)

def scanFrom : Option Pending → List UInt8 → List Piece
  | none, [] => []
  | some p, [] => [.broken p.bytes]
  | none, b :: rest => (first b).1 ++ scanFrom (first b).2 rest
  | some p, b :: rest => (next p b).1 ++ scanFrom (next p b).2 rest

def scan (bytes : List UInt8) : List Piece :=
  scanFrom none bytes

def encode (text : String) : List UInt8 :=
  text.toList.flatMap String.utf8EncodeChar

/-- The text a byte sequence encodes, if every piece of it is a character. -/
def decode? (bytes : List UInt8) : Option String :=
  ((scan bytes).mapM Piece.char?).map String.ofList

/-- The text of a byte sequence, with the replacement character for each broken run. -/
def decodeLossy (bytes : List UInt8) : String :=
  String.ofList ((scan bytes).map fun piece => piece.char?.getD '\uFFFD')

end Colloquy.Text.Utf8

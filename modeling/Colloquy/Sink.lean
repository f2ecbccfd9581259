import Colloquy.Text.Utf8

/-!
Byte streams that may run full.
-/

set_option autoImplicit false

namespace Colloquy

/-- A failed operation on a file or stream, as the system words it. -/
structure Failure where
  message : String
  deriving DecidableEq, Repr

/-- A stream that takes bytes up to a limit, and counts how often it was flushed. -/
structure Sink where
  limit? : Option Nat
  content : List UInt8
  flushes : Nat

namespace Sink

def unlimited : Sink :=
  ⟨none, [], 0⟩

def limited (limit? : Option Nat) : Sink :=
  ⟨limit?, [], 0⟩

/-- Writes all bytes, or those that still fit and then fails. -/
def write (sink : Sink) (bytes : List UInt8) : Sink × Except Failure Unit :=
  let content := sink.content ++ bytes
  match sink.limit? with
  | none => ({ sink with content }, .ok ())
  | some limit =>
    if content.length ≤ limit then ({ sink with content }, .ok ())
    else ({ sink with content := content.take limit }, .error ⟨"limit reached"⟩)

def flush (sink : Sink) : Sink :=
  { sink with flushes := sink.flushes + 1 }

end Sink

end Colloquy

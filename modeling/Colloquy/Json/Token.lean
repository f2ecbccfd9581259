import Colloquy.Decimal.Binary

/-!
The tokens of a JSON text. A text may be wrong in parts that a reader does not look at closely, so a
token carries two verdicts: that of a reader who wants its value, and that of one who only passes
over it. Passing over is more lenient: it minds neither the size of a number nor lone surrogates.
-/

set_option autoImplicit false

namespace Colloquy

/-- Why a JSON text cannot be read. -/
inductive ReadError where
  /-- It ends too early. -/
  | ended
  /-- It is not JSON. -/
  | malformed
  /-- It is JSON, but not of the shape that was asked for. -/
  | mismatch
  deriving DecidableEq, Repr

namespace Json

inductive Atom where
  | null
  | bool (value : Bool)
  /-- A number without fraction and exponent, from `-2 ^ 63` to `2 ^ 64 - 1`. -/
  | int (value : Int)
  | double (value : Float)

inductive Token where
  | openList
  | closeList
  | openObject
  | closeObject
  | colon
  | comma
  | atom (value : Except ReadError Atom) (passed : Except ReadError Unit)
  | string (value : Except ReadError String) (passed : Except ReadError Unit)
  /-- A character that starts no token. -/
  | junk

def isSpace (c : Char) : Bool :=
  c = ' ' || c = '\n' || c = '\t' || c = '\r'

/-! Strings. -/

/-- A part of a string: a character as it stands, or a UTF-16 code unit written as an escape. -/
inductive Unit16 where
  | char (c : Char)
  | code (n : Nat)

def hexValue? (c : Char) : Option Nat :=
  if '0' ≤ c && c ≤ '9' then some (c.toNat - 48)
  else if 'a' ≤ c && c ≤ 'f' then some (c.toNat - 87)
  else if 'A' ≤ c && c ≤ 'F' then some (c.toNat - 55)
  else none

def hexValue4? (a b c d : Char) : Option Nat := do
  let a ← hexValue? a
  let b ← hexValue? b
  let c ← hexValue? c
  let d ← hexValue? d
  return ((a * 16 + b) * 16 + c) * 16 + d

def shortEscape? : Char → Option Char
  | '"' => some '"'
  | '\\' => some '\\'
  | '/' => some '/'
  | 'b' => some '\x08'
  | 'f' => some '\x0c'
  | 'n' => some '\n'
  | 'r' => some '\r'
  | 't' => some '\t'
  | _ => none

/-- The parts of a string after its opening quotation mark, what breaks it off if it is not closed,
and the text behind it. -/
structure Scanned where
  units : List Unit16
  break? : Option ReadError
  rest : List Char

def Scanned.broken (e : ReadError) : Scanned :=
  ⟨[], some e, []⟩

def Scanned.add (unit : Unit16) (scanned : Scanned) : Scanned :=
  { scanned with units := unit :: scanned.units }

/-- Whether a hexadecimal escape has four bytes to read. -/
def hasFourBytes (text : List Char) : Bool :=
  4 ≤ (text.take 4).foldl (fun n c => n + c.utf8Size) 0

def scanString : List Char → Scanned
  | [] => .broken .ended
  | '"' :: rest => ⟨[], none, rest⟩
  | ['\\'] => .broken .ended
  | '\\' :: 'u' :: a :: b :: c :: d :: rest =>
    match hexValue4? a b c d with
    | some n => (scanString rest).add (.code n)
    | none => .broken .malformed
  | '\\' :: 'u' :: rest => .broken (if hasFourBytes rest then .malformed else .ended)
  | '\\' :: e :: rest =>
    match shortEscape? e with
    | some c => (scanString rest).add (.char c)
    | none => .broken .malformed
  | c :: rest =>
    if c.toNat < 0x20 then .broken .malformed else (scanString rest).add (.char c)

def isLeading (n : Nat) : Bool :=
  0xD800 ≤ n && n ≤ 0xDBFF

def isTrailing (n : Nat) : Bool :=
  0xDC00 ≤ n && n ≤ 0xDFFF

def surrogatePair (leading trailing : Nat) : Char :=
  Char.ofNat ((leading - 0xD800) * 0x400 + (trailing - 0xDC00) + 0x10000)

/-- The text of a string. A surrogate without its partner is refused where it stands, before what
breaks the string off. -/
def assemble (break? : Option ReadError) : List Unit16 → Except ReadError (List Char)
  | [] =>
    match break? with
    | none => .ok []
    | some e => .error e
  | .char c :: rest => (assemble break? rest).map (c :: ·)
  | .code n :: .code k :: rest =>
    if isTrailing n then .error .malformed
    else if isLeading n then
      if isTrailing k then (assemble break? rest).map (surrogatePair n k :: ·)
      else .error .malformed
    else (assemble break? (.code k :: rest)).map (Char.ofNat n :: ·)
  | .code n :: rest =>
    if isTrailing n then .error .malformed
    else if isLeading n then
      match rest, break? with
      | [], some e => .error e
      | _, _ => .error .malformed
    else (assemble break? rest).map (Char.ofNat n :: ·)

def Scanned.token (scanned : Scanned) : Token :=
  .string ((assemble scanned.break? scanned.units).map String.ofList)
    (match scanned.break? with
    | none => .ok ()
    | some e => .error e)

/-! Numbers. -/

/-- The significant digits of a number as far as they fit into 64 bits, and the power of ten that
they count in. -/
structure Significand where
  digits : Nat
  exponent : Int

/-- Significands are below this. -/
def significandLimit : Nat := 0x10000000000000000

def digitValue (c : Char) : Nat :=
  c.toNat - 48

/-- Takes the digits before the point. From the first one that does not fit, each digit counts only
as a factor of ten. The second part says whether all of them fit. -/
def takeWhole (s : Significand) : List Char → Significand × Bool
  | [] => (s, true)
  | c :: rest =>
    let digits := s.digits * 10 + digitValue c
    if digits < significandLimit then takeWhole ⟨digits, s.exponent⟩ rest
    else (⟨s.digits, s.exponent + (rest.length + 1)⟩, false)

/-- Takes the digits after the point. From the first one that does not fit, they are left out. -/
def takePlaces (s : Significand) : List Char → Significand
  | [] => s
  | c :: rest =>
    let digits := s.digits * 10 + digitValue c
    if digits < significandLimit then takePlaces ⟨digits, s.exponent - 1⟩ rest else s

def tenTo (n : Nat) : Float :=
  Decimal.nearest false 1 n

/-- The double of a significand, by one multiplication or division in double arithmetic. A power of
ten below the least one is divided out in two steps; beyond that nothing is left of a number. -/
def Significand.toDouble (s : Significand) : Except ReadError Float :=
  let x := (UInt64.ofNat s.digits).toFloat
  if 308 < s.exponent then
    if s.digits = 0 then .ok 0.0 else .error .malformed
  else if 0 ≤ s.exponent then
    let scaled := x * tenTo s.exponent.toNat
    if scaled.isInf then .error .malformed else .ok scaled
  else if -308 ≤ s.exponent then .ok (x / tenTo (-s.exponent).toNat)
  else if -616 ≤ s.exponent then .ok (x / tenTo 308 / tenTo (-s.exponent - 308).toNat)
  else .ok 0.0

def signed (negative : Bool) (x : Float) : Float :=
  if negative then -x else x

/-- A number without fraction and exponent whose digits fit: an integer in range, or else the
nearest double. A negative zero is a double. -/
def wholeNumber (negative : Bool) (digits : Nat) : Atom :=
  if !negative then .int digits
  else if 0 < digits && digits ≤ 0x8000000000000000 then .int (-(digits : Int))
  else .double (-(UInt64.ofNat digits).toFloat)

/-- Exponents beyond this decide a number by themselves: a significand of zero stays zero, and any
other one is too large or vanishes. -/
def exponentLimit : Nat := 0x80000000

def withExponent (s : Significand) (negativeExponent : Bool) (digits : List Char) :
    Except ReadError Float :=
  let size := digits.foldl (fun n c => n * 10 + digitValue c) 0
  if exponentLimit ≤ size then
    if s.digits ≠ 0 && !negativeExponent then .error .malformed else .ok 0.0
  else
    { s with exponent := s.exponent + (if negativeExponent then -(size : Int) else size) }.toDouble

/-- The parts of a number's text after its sign: the digits before the point, those after it and the
exponent, if there are any; and the text behind it. -/
structure NumberText where
  whole : List Char
  places? : Option (List Char)
  exponent? : Option (Bool × List Char)
  rest : List Char

def scanExponent (whole : List Char) (places? : Option (List Char)) (text : List Char) :
    NumberText :=
  match text with
  | c :: rest =>
    if c = 'e' || c = 'E' then
      let (negative, rest) :=
        match rest with
        | '+' :: rest => (false, rest)
        | '-' :: rest => (true, rest)
        | rest => (false, rest)
      let digits := rest.takeWhile Char.isDigit
      ⟨whole, places?, some (negative, digits), rest.drop digits.length⟩
    else ⟨whole, places?, none, text⟩
  | [] => ⟨whole, places?, none, []⟩

def scanNumber (text : List Char) : NumberText :=
  let whole :=
    match text with
    | '0' :: _ => ['0']
    | text => text.takeWhile Char.isDigit
  if whole.isEmpty then ⟨[], none, none, text⟩
  else
    match text.drop whole.length with
    | '.' :: rest =>
      let places := rest.takeWhile Char.isDigit
      scanExponent whole (some places) (rest.drop places.length)
    | rest => scanExponent whole none rest

/-- What is wrong with the form of a number, if anything: digits are missing, or follow a leading
zero. Where digits are missing at the end of the text, the text ends too early. -/
def NumberText.fault? (t : NumberText) : Option ReadError :=
  let missing (rest : List Char) : ReadError := if rest.isEmpty then .ended else .malformed
  if t.whole.isEmpty then some (missing t.rest)
  else if t.whole = ['0'] && t.places?.isNone && t.exponent?.isNone &&
      (t.rest.head?.map Char.isDigit).getD false then some .malformed
  else
    match t.places?, t.exponent? with
    | some [], none => some (missing t.rest)
    | some [], some _ => some .malformed
    | _, some (_, []) => some (missing t.rest)
    | _, _ => none

def NumberText.value (t : NumberText) (negative : Bool) : Except ReadError Atom :=
  match t.fault? with
  | some e => .error e
  | none =>
    let (whole, fits) := takeWhole ⟨0, 0⟩ t.whole
    match t.places?, t.exponent? with
    | none, none =>
      if fits then .ok (wholeNumber negative whole.digits)
      else whole.toDouble.map fun x => .double (signed negative x)
    | places?, none =>
      (takePlaces whole (places?.getD [])).toDouble.map fun x => .double (signed negative x)
    | places?, some (negativeExponent, digits) =>
      (withExponent (takePlaces whole (places?.getD [])) negativeExponent digits).map fun x =>
        .double (signed negative x)

def NumberText.token (t : NumberText) (negative : Bool) : Token :=
  .atom (t.value negative) (if t.fault?.isSome then .error .malformed else .ok ())

/-! Tokens. -/

/-- A word whose first letter has been read. -/
def scanWord (value : Atom) : List Char → List Char → Token × List Char
  | [], text => (.atom (.ok value) (.ok ()), text)
  | _ :: _, [] => (.atom (.error .ended) (.error .ended), [])
  | c :: word, d :: text =>
    if c = d then scanWord value word text
    else (.atom (.error .malformed) (.error .malformed), text)

def nextToken? : List Char → Option (Token × List Char)
  | [] => none
  | '[' :: rest => some (.openList, rest)
  | ']' :: rest => some (.closeList, rest)
  | '\x7b' :: rest => some (.openObject, rest)
  | '\x7d' :: rest => some (.closeObject, rest)
  | ':' :: rest => some (.colon, rest)
  | ',' :: rest => some (.comma, rest)
  | 'n' :: rest => some (scanWord .null ['u', 'l', 'l'] rest)
  | 't' :: rest => some (scanWord (.bool true) ['r', 'u', 'e'] rest)
  | 'f' :: rest => some (scanWord (.bool false) ['a', 'l', 's', 'e'] rest)
  | '"' :: rest => some ((scanString rest).token, (scanString rest).rest)
  | '-' :: rest => some ((scanNumber rest).token true, (scanNumber rest).rest)
  | c :: rest =>
    if c.isDigit then
      some ((scanNumber (c :: rest)).token false, (scanNumber (c :: rest)).rest)
    else some (.junk, rest)

/-- The tokens of a text. Each takes at least one character, so `bound` need not exceed the length
of the text. -/
def tokensWithin : Nat → List Char → List Token
  | 0, _ => []
  | bound + 1, text =>
    match nextToken? (text.dropWhile isSpace) with
    | none => []
    | some (token, rest) => token :: tokensWithin bound rest

def tokens (text : String) : List Token :=
  tokensWithin text.toList.length text.toList

end Json

end Colloquy

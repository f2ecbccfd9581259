import Colloquy.Text.Ranges

/-!
Blank characters, trimming, and the division of a text into lines.
-/

set_option autoImplicit false

namespace Colloquy.Text

/-- The code points with the Unicode property `White_Space`. -/
def blankRanges : Ranges := [
  (0x9, 0xD), (0x20, 0x20), (0x85, 0x85), (0xA0, 0xA0), (0x1680, 0x1680), (0x2000, 0x200A),
  (0x2028, 0x2029), (0x202F, 0x202F), (0x205F, 0x205F), (0x3000, 0x3000)]

def isBlank (c : Char) : Bool :=
  blankRanges.contains c

def trimStart (text : List Char) : List Char :=
  text.dropWhile isBlank

def trimEnd (text : List Char) : List Char :=
  (text.reverse.dropWhile isBlank).reverse

def trim (text : List Char) : List Char :=
  trimEnd (trimStart text)

/-- Divides a sequence into lines. A line feed finishes a line, together with a carriage return
before it; what comes after the last line feed is a line too, unless it is empty. -/
def divideLines {α : Type} [DecidableEq α] (feed carriage : α) (sequence : List α) :
    List (List α) :=
  go [] sequence
where
  dropCarriage (line : List α) : List α :=
    if line.getLast? = some carriage then line.dropLast else line
  go (line : List α) : List α → List (List α)
    | [] => if line.isEmpty then [] else [line.reverse]
    | c :: rest =>
      if c = feed then dropCarriage line.reverse :: go [] rest else go (c :: line) rest

def lines (text : List Char) : List (List Char) :=
  divideLines '\n' '\r' text

/-- Removes a leading word, if the text starts with it. -/
def dropWord? : List Char → List Char → Option (List Char)
  | [], text => some text
  | _ :: _, [] => none
  | c :: word, d :: text => if c = d then dropWord? word text else none

end Colloquy.Text

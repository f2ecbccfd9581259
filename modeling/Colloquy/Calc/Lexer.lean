import Colloquy.Calc.Token
import Colloquy.Integer
import Colloquy.Text.Blank
import Colloquy.Text.Letter

/-!
Tokens from characters, by a machine that reads one character at a time. Its state is what has been
read of the current token, the position of the next character, and how many parentheses are open.

A line comment does not move the position, so what ends it stands where the comment starts.
-/

set_option autoImplicit false

namespace Colloquy.Calc.Lexer

/-- What has been read of the current token. Texts are kept in reverse. -/
inductive Mode where
  | ready
  | comment
  | digits (start : Position) (text : List Char)
  /-- Digits and a point, which belongs to the number only if a digit follows. -/
  | point (start : Position) (text : List Char)
  | decimals (start : Position) (whole places : List Char)
  | word (start : Position) (text : List Char)
  | string (start : Position) (text : List Char)
  /-- Inside a string, after a backslash. -/
  | escape (start : Position) (text : List Char)
  /-- The first character of an operator that may have a second one. -/
  | operator (start : Position) (first : Char)

structure State where
  mode : Mode
  pos : Position
  depth : Nat

def State.initial : State :=
  ⟨.ready, ⟨1, 1⟩, 0⟩

/-- What the machine gives out: a lexeme, or a complaint. -/
abbrev Item := Except Diagnostic Lexeme

def right (pos : Position) : Position :=
  ⟨pos.line, pos.column + 1⟩

def down (pos : Position) : Position :=
  ⟨pos.line + 1, 1⟩

def found (token : Token) (pos : Position) : Item :=
  .ok ⟨token, pos⟩

def unexpectedCharacter (c : Char) (pos : Position) : Item :=
  .error (.error pos ("unexpected character `" ++ String.singleton c ++ "`"))

def digitsValue (text : List Char) : Nat :=
  text.foldl (fun n c => 10 * n + (c.toNat - 48)) 0

/-- An integer literal; one above the largest integer is refused. -/
def integer (start : Position) (text : List Char) : Item :=
  match Integer.ofInt? (digitsValue text) with
  | some n => found (.int n) start
  | none =>
    .error (.error start ("numeric literal `" ++ String.ofList text ++ "` is out of range"))

def decimal (start : Position) (whole places : List Char) : Item :=
  let digits := digitsValue (whole ++ places)
  found (.double (Decimal.nearest false digits (-(places.length : Int)))) start

/-- The operator that a character is on its own. -/
def singleOperator? : Char → Option Token
  | '<' => some (.operator .lt)
  | '>' => some (.operator .gt)
  | '+' => some (.operator .add)
  | '-' => some (.operator .sub)
  | '*' => some (.operator .mul)
  | '/' => some (.operator .div)
  | '%' => some (.operator .rem)
  | '!' => some .bang
  | '=' => some .assign
  | _ => none

/-- The operator that a character is with an equals sign behind it. -/
def doubledOperator? : Char → Option Token
  | '=' => some (.operator .eq)
  | '!' => some (.operator .ne)
  | '<' => some (.operator .le)
  | '>' => some (.operator .ge)
  | _ => none

def unescape : Char → Char
  | 'n' => '\n'
  | 't' => '\t'
  | c => c

/-- What is given out for the current token when it ends. -/
def Mode.finish : Mode → List Item
  | .ready | .comment => []
  | .digits start text => [integer start text.reverse]
  | .point start text =>
    [integer start text.reverse,
      unexpectedCharacter '.' ⟨start.line, start.column + text.length⟩]
  | .decimals start whole places => [decimal start whole.reverse places.reverse]
  | .word start text => [found (.name (String.ofList text.reverse)) start]
  | .string start _ | .escape start _ => [.error (.error start "unterminated string literal")]
  | .operator start first =>
    match singleOperator? first with
    | some token => [found token start]
    | none => [unexpectedCharacter first start]

/-- Reads a character between tokens. -/
def ready (s : State) (c : Char) : State × List Item :=
  let moved : State := ⟨.ready, right s.pos, s.depth⟩
  if c = '\n' then
    (⟨.ready, down s.pos, s.depth⟩, if s.depth = 0 then [found .newline s.pos] else [])
  else if Text.isBlank c then (moved, [])
  else if c.isDigit then (⟨.digits s.pos [c], right s.pos, s.depth⟩, [])
  else if Text.isNameStart c then (⟨.word s.pos [c], right s.pos, s.depth⟩, [])
  else if c = '"' then (⟨.string s.pos [], right s.pos, s.depth⟩, [])
  else if c = '(' then (⟨.ready, right s.pos, s.depth + 1⟩, [found .leftParen s.pos])
  else if c = ')' then (⟨.ready, right s.pos, s.depth - 1⟩, [found .rightParen s.pos])
  else if c = ',' then (moved, [found .comma s.pos])
  else if c = ';' then (moved, [found .semicolon s.pos])
  else if c = '/' || (doubledOperator? c).isSome then
    (⟨.operator s.pos c, right s.pos, s.depth⟩, [])
  else
    match singleOperator? c with
    | some token => (moved, [found token s.pos])
    | none => (moved, [unexpectedCharacter c s.pos])

/-- Ends the current token before a character that does not belong to it. -/
def interrupt (s : State) (c : Char) : State × List Item :=
  let next := ready ⟨.ready, s.pos, s.depth⟩ c
  (next.1, s.mode.finish ++ next.2)

def step (s : State) (c : Char) : State × List Item :=
  let go (mode : Mode) : State × List Item := (⟨mode, right s.pos, s.depth⟩, [])
  match s.mode with
  | .ready => ready s c
  | .comment => if c = '\n' then interrupt s c else (s, [])
  | .digits start text =>
    if c.isDigit then go (.digits start (c :: text))
    else if c = '.' then go (.point start text)
    else interrupt s c
  | .point start text => if c.isDigit then go (.decimals start text [c]) else interrupt s c
  | .decimals start whole places =>
    if c.isDigit then go (.decimals start whole (c :: places)) else interrupt s c
  | .word start text =>
    if Text.isNameChar c then go (.word start (c :: text)) else interrupt s c
  | .string start text =>
    if c = '\n' then interrupt s c
    else if c = '"' then
      (⟨.ready, right s.pos, s.depth⟩, [found (.string (String.ofList text.reverse)) start])
    else if c = '\\' then go (.escape start text)
    else go (.string start (c :: text))
  | .escape start text =>
    let pos := if c = '\n' then down s.pos else right s.pos
    (⟨.string start (unescape c :: text), pos, s.depth⟩, [])
  | .operator start first =>
    if first = '/' && c = '/' then (⟨.comment, start, s.depth⟩, [])
    else
      match if c = '=' then doubledOperator? first else none with
      | some token => (⟨.ready, right s.pos, s.depth⟩, [found token start])
      | none => interrupt s c

/-- Runs the machine to the end of the text, where the last token ends too. -/
def run (s : State) : List Char → List Item
  | [] => s.mode.finish ++ [found .eof s.pos]
  | c :: rest => (step s c).2 ++ run (step s c).1 rest

def lexeme? : Item → Option Lexeme
  | .ok lexeme => some lexeme
  | .error _ => none

def complaint? : Item → Option Diagnostic
  | .ok _ => none
  | .error d => some d

end Colloquy.Calc.Lexer

namespace Colloquy.Calc

/-- The lexemes of a source text, the last of which is `eof`, and the complaints about it. -/
def lex (source : String) : List Lexeme × List Diagnostic :=
  let items := Lexer.run .initial source.toList
  (items.filterMap Lexer.lexeme?, items.filterMap Lexer.complaint?)

end Colloquy.Calc

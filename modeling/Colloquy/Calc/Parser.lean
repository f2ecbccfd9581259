import Colloquy.Calc.Lexer

/-!
Statements from lexemes. The lexemes are first divided at the tokens that end a statement; each
part is then read on its own, as one statement or one complaint.

Nesting is limited. The readers of expressions take the room that is left: each parenthesis, unary
operator, call and further operator of a chain uses up one level, and all recursion is on it.
-/

set_option autoImplicit false

namespace Colloquy.Calc

/-- How deeply expressions may be nested. -/
def nestingLimit : Nat := 128

namespace Parser

/-! A reader takes a thing from the front of the lexemes of a statement. It gives what it took and
the lexemes left, or the complaint that stopped it. -/

/-- The lexeme at the front, or the one that ends the statement when none is left. -/
def front (stop : Lexeme) (lexemes : List Lexeme) : Lexeme :=
  lexemes.headD stop

def expected (what : String) (stop : Lexeme) (lexemes : List Lexeme) : Diagnostic :=
  let lexeme := front stop lexemes
  .error lexeme.pos ("expected " ++ what ++ ", found " ++ lexeme.token.describe)

def tooDeep (stop : Lexeme) (lexemes : List Lexeme) : Diagnostic :=
  .error (front stop lexemes).pos
    ("expression is nested too deeply (limit " ++ showNat nestingLimit ++ ")")

/-- An operand, then the chain of each tier in turn, tightest first. -/
def climb (operand : List Lexeme → Except Diagnostic (Expr × List Lexeme))
    (chain : Tier → Expr → List Lexeme → Except Diagnostic (Expr × List Lexeme))
    (tiers : List Tier) (lexemes : List Lexeme) : Except Diagnostic (Expr × List Lexeme) :=
  tiers.foldl (fun read tier => read.bind fun result => chain tier result.1 result.2)
    (operand lexemes)

/-- Arguments after the first parenthesis or a comma, up to the closing parenthesis. No more of
them can follow than there are lexemes, which is what `bound` is for. -/
def arguments (expression : List Lexeme → Except Diagnostic (Expr × List Lexeme))
    (stop : Lexeme) : Nat → List Lexeme → Except Diagnostic (List Expr × List Lexeme)
  | 0, lexemes => .error (expected "expression" stop lexemes)
  | bound + 1, lexemes => do
    let (arg, rest) ← expression lexemes
    match rest with
    | ⟨.comma, _⟩ :: rest =>
      let (args, rest) ← arguments expression stop bound rest
      return (arg :: args, rest)
    | ⟨.rightParen, _⟩ :: rest => return ([arg], rest)
    | rest => .error (expected "`,` or `)`" stop rest)

/-- The ways in which an operand starts. -/
inductive Opening where
  | sign (op : UnaryOp) (pos : Position)
  | literal (value : Value)
  /-- A name and the parenthesis behind it. -/
  | call (function : String) (pos : Position)
  | name (text : String) (pos : Position)
  | group

/-- How the lexemes start an operand, and what follows the start. -/
def opening? : List Lexeme → Option (Opening × List Lexeme)
  | ⟨.operator .sub, pos⟩ :: rest => some (.sign .neg pos, rest)
  | ⟨.bang, pos⟩ :: rest => some (.sign .not pos, rest)
  | ⟨.int n, _⟩ :: rest => some (.literal (.int n), rest)
  | ⟨.double x, _⟩ :: rest => some (.literal (.double x), rest)
  | ⟨.string text, _⟩ :: rest => some (.literal (.string text), rest)
  | ⟨.name "true", _⟩ :: rest => some (.literal (.bool true), rest)
  | ⟨.name "false", _⟩ :: rest => some (.literal (.bool false), rest)
  | ⟨.name text, pos⟩ :: ⟨.leftParen, _⟩ :: rest => some (.call text pos, rest)
  | ⟨.name text, pos⟩ :: rest => some (.name text pos, rest)
  | ⟨.leftParen, _⟩ :: rest => some (.group, rest)
  | _ => none

/-- The arguments of a call, of which there may be none. -/
def callArguments (expression : List Lexeme → Except Diagnostic (Expr × List Lexeme))
    (stop : Lexeme) : List Lexeme → Except Diagnostic (List Expr × List Lexeme)
  | ⟨.rightParen, _⟩ :: rest => .ok ([], rest)
  | rest => arguments expression stop (rest.length + 1) rest

/-- The parenthesis behind an expression. -/
def closing (stop : Lexeme) (inner : Expr) : List Lexeme → Except Diagnostic (Expr × List Lexeme)
  | ⟨.rightParen, _⟩ :: rest => .ok (inner, rest)
  | rest => .error (expected "`)`" stop rest)

mutual

/-- A unary operation or an operand. -/
def unary (stop : Lexeme) (room : Nat) (lexemes : List Lexeme) :
    Except Diagnostic (Expr × List Lexeme) :=
  match opening? lexemes, room with
  | none, _ => .error (expected "expression" stop lexemes)
  | some (.literal value, rest), _ => .ok (.literal value, rest)
  | some (.name text pos, rest), _ => .ok (.name text pos, rest)
  | some (_, rest), 0 => .error (tooDeep stop rest)
  | some (.sign op pos, rest), room + 1 => do
    let (operand, rest) ← unary stop room rest
    return (.unary op operand pos, rest)
  | some (.call function pos, rest), room + 1 => do
    let (args, rest) ← callArguments
      (climb (unary stop room) (chain stop room) [.product, .sum, .comparison, .equality]) stop rest
    return (.call function args pos, rest)
  | some (.group, rest), room + 1 => do
    let (inner, rest) ←
      climb (unary stop room) (chain stop room) [.product, .sum, .comparison, .equality] rest
    closing stop inner rest
  termination_by structural room

/-- The operators of one tier that follow `left`, which associate to the left. -/
def chain (stop : Lexeme) (room : Nat) (tier : Tier) (left : Expr) (lexemes : List Lexeme) :
    Except Diagnostic (Expr × List Lexeme) :=
  match lexemes with
  | ⟨.operator op, pos⟩ :: rest =>
    if op.tier = tier then
      match room with
      | 0 => .error (tooDeep stop rest)
      | room + 1 => do
        let (right, rest) ← climb (unary stop room) (chain stop room) tier.tighter rest
        chain stop room tier (.binary op left right pos) rest
    else .ok (left, lexemes)
  | lexemes => .ok (left, lexemes)
  termination_by structural room

end

def expression (stop : Lexeme) (room : Nat) :
    List Lexeme → Except Diagnostic (Expr × List Lexeme) :=
  climb (unary stop room) (chain stop room) [.product, .sum, .comparison, .equality]

/-- The words a declaration starts with, and the kind each one gives. -/
def declarator? : String → Option (Option Kind)
  | "var" => some none
  | "int" => some (some .int)
  | "double" => some (some .double)
  | "string" => some (some .string)
  | "bool" => some (some .bool)
  | _ => none

def expressionStatement (stop : Lexeme) (lexemes : List Lexeme) :
    Except Diagnostic (Statement × List Lexeme) := do
  let (expr, rest) ← expression stop nestingLimit lexemes
  return (.expr expr false (front stop lexemes).pos, rest)

def statement (stop : Lexeme) (lexemes : List Lexeme) :
    Except Diagnostic (Statement × List Lexeme) :=
  match lexemes with
  | ⟨.name word, _⟩ :: ⟨.name name, pos⟩ :: ⟨.assign, _⟩ :: rest =>
    match declarator? word with
    | some kind? => do
      let (init, rest) ← expression stop nestingLimit rest
      return (.declare name kind? init pos, rest)
    | none => expressionStatement stop lexemes
  | lexemes => expressionStatement stop lexemes

end Parser

/-- Marks an expression whose value is not wanted. -/
def Statement.terminate : Statement → Statement
  | .expr e _ pos => .expr e true pos
  | statement => statement

/-- The lexemes of one statement, and the one that ends it. -/
structure Segment where
  body : List Lexeme
  stop : Lexeme

namespace Segment

/-- Divides lexemes at the tokens that end a statement. Lexemes after the last such token belong to
no segment; a text has none, as its last lexeme is `eof`. -/
def divide : List Lexeme → List Segment
  | [] => []
  | lexeme :: rest =>
    if lexeme.token.isStop then ⟨[], lexeme⟩ :: divide rest
    else
      match divide rest with
      | [] => []
      | segment :: segments => ⟨lexeme :: segment.body, segment.stop⟩ :: segments

/-- Reads a segment as one statement that leaves no lexeme over. -/
def parse (segment : Segment) : Except Diagnostic Statement := do
  let (statement, rest) ← Parser.statement segment.stop segment.body
  if rest.isEmpty then
    return match segment.stop.token with
      | .semicolon => statement.terminate
      | _ => statement
  else .error (Parser.expected "`;` or end of line" segment.stop rest)

end Segment

/-- The results of reading the segments that are not empty. -/
def parseSegments (lexemes : List Lexeme) : List (Except Diagnostic Statement) :=
  ((Segment.divide lexemes).filter fun segment => !segment.body.isEmpty).map Segment.parse

def failure? {α : Type} : Except Diagnostic α → Option Diagnostic
  | .ok _ => none
  | .error d => some d

/-- The statements of a source text, or else all complaints about it: those about its characters,
then one for each statement that cannot be read. -/
def parse (source : String) : Except (List Diagnostic) (List Statement) :=
  let (lexemes, complaints) := lex source
  let results := parseSegments lexemes
  match complaints ++ results.filterMap failure? with
  | [] => .ok (results.filterMap Except.toOption)
  | complaints => .error complaints

end Colloquy.Calc

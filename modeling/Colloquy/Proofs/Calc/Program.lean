import Colloquy.Proofs.Calc.Completeness
import Colloquy.Proofs.Calc.Lines

set_option autoImplicit false

/-!
The grammar of whole texts. A text that the lexer has no complaint about is accepted if and only if
its lexemes are a program of the grammar, and then it is read as the only program they derive.
-/

namespace Colloquy.Calc

/-- Whether a token separates statements. -/
def Token.isSeparator : Token → Bool
  | .semicolon | .newline => true
  | _ => false

theorem Token.isStop_of_isSeparator {token : Token} (separates : token.isSeparator = true) :
    token.isStop = true := by
  cases token <;> first | rfl | cases separates

theorem Token.isSeparator_of_isStop {token : Token} (stops : token.isStop = true)
    (notEnd : token ≠ .eof) : token.isSeparator = true := by
  cases token <;> first | rfl | exact (notEnd rfl).elim | cases stops

namespace Grammar

/-- The lexemes of a program: statements with one or more separators between them, and any number of
separators before the first one and behind the last one. -/
inductive DerivesProgram : List Lexeme → List Statement → Prop
  | empty : DerivesProgram [] []
  | separator {lexeme : Lexeme} {rest : List Lexeme} {program : List Statement} :
      lexeme.token.isSeparator = true → DerivesProgram rest program →
      DerivesProgram (lexeme :: rest) program
  | last {body : List Lexeme} {statement : Statement} :
      DerivesStatement body statement → DerivesProgram body [statement]
  | more {body rest : List Lexeme} {statement : Statement} {separator : Lexeme}
      {program : List Statement} :
      DerivesStatement body statement → separator.token.isSeparator = true →
      DerivesProgram rest program →
      DerivesProgram (body ++ separator :: rest) (statement.endedBy separator.token :: program)

theorem DerivesStatement.ne_nil {body : List Lexeme} {statement : Statement}
    (derived : DerivesStatement body statement) : body ≠ [] := by
  cases derived <;> nofun

/-- Nothing in a statement ends it. -/
theorem DerivesStatement.inside {body : List Lexeme} {statement : Statement}
    (derived : DerivesStatement body statement) : ∀ lexeme ∈ body, lexeme.token.isStop = false := by
  cases derived with
  | declare _ init =>
    intro lexeme membership
    simp only [List.mem_cons] at membership
    rcases membership with rfl | rfl | rfl | membership
    · rfl
    · rfl
    · rfl
    · exact (init.tokens lexeme membership).1
  | expr e =>
    intro lexeme membership
    exact (e.tokens lexeme membership).1

end Grammar

open Grammar

theorem Parser.statement_accepts {body : List Lexeme} {result : Statement}
    (derived : DerivesStatement body result) (stop : Lexeme) :
    statement stop body = .ok (result, []) := by
  cases derived with
  | @declare word name kind? first pos assign lexemes init declares derived =>
    have reads : expression stop nestingLimit (lexemes ++ []) = .ok (init, []) :=
      accepts_of_derives derived (.nil _)
    rw [List.append_nil] at reads
    rw [statement, declares]
    dsimp only
    rw [reads]
    rfl
  | expr derived => exact statement_accepts_expression derived stop

namespace Segment

theorem parse_of_derives {body : List Lexeme} {statement : Statement}
    (derived : DerivesStatement body statement) (stop : Lexeme) :
    parse ⟨body, stop⟩ = .ok (statement.endedBy stop.token) := by
  rw [parse, Parser.statement_accepts derived]
  rfl

/-- Without a stop before the last one, all lexemes are one segment. -/
theorem parseSegments_single {body : List Lexeme} (nonempty : body ≠ []) {stop : Lexeme}
    (inside : ∀ lexeme ∈ body, lexeme.token.isStop = false) (stops : stop.token.isStop = true) :
    parseSegments (body ++ [stop]) = [parse ⟨body, stop⟩] := by
  rw [parseSegments, divide_single inside stops]
  simp [nonempty]

theorem parseSegments_stop {stop : Lexeme} (stops : stop.token.isStop = true)
    (rest : List Lexeme) : parseSegments (stop :: rest) = parseSegments rest := by
  simp [parseSegments, divide, stops]

end Segment

/-- Lexemes with a stop behind them are read as the program that they derive. -/
theorem Grammar.DerivesProgram.parseSegments {lexemes : List Lexeme} {program : List Statement}
    (derived : DerivesProgram lexemes program) (finish : Position) :
    parseSegments (lexemes ++ [⟨.eof, finish⟩]) = program.map .ok := by
  induction derived with
  | empty => rfl
  | separator separates _ inductionHypothesis =>
    rw [List.cons_append, Segment.parseSegments_stop (Token.isStop_of_isSeparator separates)]
    exact inductionHypothesis
  | last derived =>
    rw [Segment.parseSegments_single derived.ne_nil derived.inside rfl,
      Segment.parse_of_derives derived]
    rfl
  | more derived separates _ inductionHypothesis =>
    have stops := Token.isStop_of_isSeparator separates
    rw [List.append_assoc, List.cons_append, parseSegments_append_stop _ _ stops,
      Segment.parseSegments_single derived.ne_nil derived.inside stops,
      Segment.parse_of_derives derived, inductionHypothesis]
    rfl

/-- No lexemes derive two programs. -/
theorem Grammar.DerivesProgram.unique {lexemes : List Lexeme} {first second : List Statement}
    (firstDerived : DerivesProgram lexemes first) (secondDerived : DerivesProgram lexemes second) :
    first = second := by
  have same : (first.map .ok : List (Except Diagnostic Statement)) = second.map .ok :=
    (firstDerived.parseSegments ⟨0, 0⟩).symm.trans (secondDerived.parseSegments ⟨0, 0⟩)
  exact List.map_injective_iff.mpr (fun _ _ => Except.ok.inj) same

namespace Lexer

/-- What is given out before the end of a text: anything but the end. -/
def Inner (items : List Item) : Prop :=
  ∀ pos, found .eof pos ∉ items

theorem Inner.append {first second : List Item} (firstInner : Inner first)
    (secondInner : Inner second) : Inner (first ++ second) := by
  intro pos membership
  rcases List.mem_append.mp membership with here | there
  · exact firstInner pos here
  · exact secondInner pos there

theorem Inner.nil : Inner [] :=
  fun _ membership => nomatch membership

theorem Inner.found {token : Token} (notEnd : token ≠ .eof) (pos : Position) :
    Inner [found token pos] := by
  intro other membership
  cases List.mem_singleton.mp membership
  exact notEnd rfl

theorem Inner.error (d : Diagnostic) : Inner [.error d] := by
  intro pos membership
  cases List.mem_singleton.mp membership

theorem singleOperator?_ne_eof {c : Char} {token : Token} (isOperator : singleOperator? c = some token) :
    token ≠ .eof := by
  rintro rfl
  unfold singleOperator? at isOperator
  split at isOperator <;> cases isOperator

theorem doubledOperator?_ne_eof {c : Char} {token : Token}
    (isOperator : doubledOperator? c = some token) : token ≠ .eof := by
  rintro rfl
  unfold doubledOperator? at isOperator
  split at isOperator <;> cases isOperator

theorem integer_inner (start : Position) (text : List Char) : Inner [integer start text] := by
  unfold integer
  split
  · exact .found (by nofun) start
  · exact .error _

theorem finish_inner (mode : Mode) : Inner mode.finish := by
  cases mode with
  | ready | comment => exact .nil
  | digits start text => exact integer_inner start _
  | point start text => exact (integer_inner start _).append (.error _)
  | decimals start whole places => exact .found (by nofun) start
  | word start text => exact .found (by nofun) start
  | string start text | escape start text => exact .error _
  | operator start first =>
    rw [Mode.finish]
    split
    case h_1 isOperator => exact .found (singleOperator?_ne_eof isOperator) start
    case h_2 => exact .error _

theorem Inner.ite {p : Prop} [Decidable p] {first second : State × List Item}
    (firstInner : Inner first.2) (secondInner : Inner second.2) :
    Inner (if p then first else second).2 := by
  split
  · exact firstInner
  · exact secondInner

theorem ready_inner (s : State) (c : Char) : Inner (ready s c).2 := by
  have newline : Inner (if s.depth = 0 then [Lexer.found .newline s.pos] else []) := by
    split
    · exact .found (by nofun) s.pos
    · exact .nil
  unfold ready
  refine .ite newline ?_
  iterate 4 refine .ite .nil ?_
  iterate 4 refine .ite (.found (by nofun) s.pos) ?_
  refine .ite .nil ?_
  split
  case h_1 isOperator => exact .found (singleOperator?_ne_eof isOperator) s.pos
  case h_2 => exact .error _

theorem interrupt_inner (s : State) (c : Char) : Inner (interrupt s c).2 :=
  (finish_inner s.mode).append (ready_inner _ c)

theorem step_inner (s : State) (c : Char) : Inner (step s c).2 := by
  have interrupted := interrupt_inner s c
  obtain ⟨mode, pos, depth⟩ := s
  cases mode with
  | ready => exact ready_inner _ c
  | escape start text => exact .nil
  | string start text =>
    simp only [step]
    repeat' split
    · exact interrupted
    · exact .found (by simp) start
    · exact .nil
    · exact .nil
  | operator start first =>
    simp only [step]
    split
    · exact .nil
    · split
      case h_1 isOperator =>
        rw [Option.ite_none_right_eq_some] at isOperator
        exact .found (doubledOperator?_ne_eof isOperator.2) start
      case h_2 => exact interrupted
  | _ =>
    simp only [step]
    repeat' split
    all_goals first
      | exact interrupted
      | exact .nil

theorem given_inner (s : State) (text : List Char) : Inner (given s text) := by
  induction text generalizing s with
  | nil => nofun
  | cons c rest inductionHypothesis => exact (step_inner s c).append (inductionHypothesis _)

end Lexer

open Lexer

/-- The lexemes of a text are those of its program and the end of the text. -/
theorem lex_eq_append_eof (source : String) :
    ∃ lexemes finish, (lex source).1 = lexemes ++ [⟨.eof, finish⟩] ∧
      ∀ lexeme ∈ lexemes, lexeme.token ≠ .eof := by
  let inner := given .initial source.toList ++ (after .initial source.toList).mode.finish
  have isInner : Inner inner :=
    (given_inner _ _).append (finish_inner _)
  refine ⟨inner.filterMap lexeme?, (after .initial source.toList).pos, ?_, ?_⟩
  · simp only [lex, run_eq_given, inner, List.filterMap_append, List.append_assoc]
    rfl
  · rintro ⟨_, pos⟩ membership rfl
    obtain ⟨item, among, isLexeme⟩ := List.mem_filterMap.mp membership
    cases item with
    | error d => cases isLexeme
    | ok lexeme =>
      cases isLexeme
      exact isInner pos among

end Colloquy.Calc

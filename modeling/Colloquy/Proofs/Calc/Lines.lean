import Colloquy.Proofs.Calc.Grammar
import Colloquy.Proofs.Calc.Shift
import Mathlib.Data.List.Forall2

set_option autoImplicit false

/-!
Texts that are put together line by line. Where no parenthesis is open and no backslash waits for a
character, a line break ends whatever token is being read and leaves the lexer as it is at the start
of a text, so the lines behind it are read as a text of their own further down.
-/

namespace Colloquy.Calc

namespace Lexer

/-- The state behind a text. -/
def after (s : State) : List Char → State
  | [] => s
  | c :: rest => after (step s c).1 rest

/-- What is given out before the end of a text. -/
def given (s : State) : List Char → List Item
  | [] => []
  | c :: rest => (step s c).2 ++ given (step s c).1 rest

theorem run_append (s : State) (first second : List Char) :
    run s (first ++ second) = given s first ++ run (after s first) second := by
  induction first generalizing s with
  | nil => rfl
  | cons c rest inductionHypothesis =>
    simp only [List.cons_append, run, given, after, inductionHypothesis, List.append_assoc]

theorem given_append (s : State) (first second : List Char) :
    given s (first ++ second) = given s first ++ given (after s first) second := by
  induction first generalizing s with
  | nil => rfl
  | cons c rest inductionHypothesis =>
    simp only [List.cons_append, given, after, inductionHypothesis, List.append_assoc]

theorem after_append (s : State) (first second : List Char) :
    after s (first ++ second) = after (after s first) second := by
  induction first generalizing s with
  | nil => rfl
  | cons c rest inductionHypothesis => exact inductionHypothesis (step s c).1

theorem run_eq_given (s : State) (text : List Char) :
    run s text =
      given s text ++ ((after s text).mode.finish ++ [found .eof (after s text).pos]) := by
  have split := run_append s text []
  rwa [List.append_nil] at split

/-- The first characters of the tokens that are no numbers and no names. -/
theorem isNameStart_mark {c : Char} (isMark : c ∈ "\"!=<>+-*/%(),;".toList) :
    Text.isNameStart c = false := by
  have all : "\"!=<>+-*/%(),;".toList.all (!Text.isNameStart ·) = true := by
    decide +kernel
  simpa using List.all_eq_true.mp all c isMark

theorem isNameChar_newline : Text.isNameChar '\n' = false := by
  decide +kernel

/-- Whether a backslash waits for a character. -/
def Mode.isEscape : Mode → Bool
  | .escape .. => true
  | _ => false

/-- A line break ends every token but an escaped one. -/
theorem step_newline {s : State} (ends : s.mode.isEscape = false) :
    step s '\n' =
      (⟨.ready, down s.pos, s.depth⟩,
        s.mode.finish ++ if s.depth = 0 then [found .newline s.pos] else []) := by
  have broken : ready ⟨.ready, s.pos, s.depth⟩ '\n' =
      (⟨.ready, down s.pos, s.depth⟩, if s.depth = 0 then [found .newline s.pos] else []) := rfl
  have interrupted : interrupt s '\n' = (⟨.ready, down s.pos, s.depth⟩,
      s.mode.finish ++ if s.depth = 0 then [found .newline s.pos] else []) := by
    rw [interrupt, broken]
  obtain ⟨mode, pos, depth⟩ := s
  cases mode with
  | ready => rfl
  | escape => cases ends
  | comment | string => exact interrupted
  | digits | point | decimals => exact interrupted
  | word start text =>
    rw [← interrupted]
    simp [step, isNameChar_newline]
  | operator start first =>
    rw [← interrupted]
    simp [step]

/-- An operator that is being read started on the line of the next character. -/
def State.SameLine (s : State) : Prop :=
  ∀ start first, s.mode = .operator start first → start.line = s.pos.line

/-- How many lines a character moves down. -/
def height (c : Char) : Nat :=
  if c = '\n' then 1 else 0

theorem ready_line (s : State) (c : Char) :
    (ready s c).1.SameLine ∧ (ready s c).1.pos.line = s.pos.line + height c := by
  by_cases newline : c = '\n'
  · subst newline
    exact ⟨by simp [State.SameLine, ready], rfl⟩
  · simp only [ready, height, newline, if_false]
    repeat' split
    all_goals simp [State.SameLine, right]

theorem step_line {s : State} (same : s.SameLine) (c : Char) :
    (step s c).1.SameLine ∧ (step s c).1.pos.line = s.pos.line + height c := by
  have interrupted := ready_line ⟨.ready, s.pos, s.depth⟩ c
  obtain ⟨mode, pos, depth⟩ := s
  by_cases newline : c = '\n'
  · subst newline
    cases mode with
    | escape start text => exact ⟨by simp [State.SameLine, step], rfl⟩
    | _ =>
      rw [step_newline rfl]
      exact ⟨by simp [State.SameLine], rfl⟩
  · simp only [height, newline, if_false] at interrupted ⊢
    -- The position goes right, stays, or goes back to where an operator on the same line started.
    cases mode with
    | ready => exact interrupted
    | comment => exact ⟨by simp [State.SameLine, step, newline], by simp [step, newline]⟩
    | operator start first =>
      have startLine : start.line = pos.line := same start first rfl
      simp only [step]
      split
      · exact ⟨by simp [State.SameLine], startLine⟩
      · split
        · exact ⟨by simp [State.SameLine], rfl⟩
        · exact interrupted
    | escape start text => exact ⟨by simp [State.SameLine, step], by simp [step, newline, right]⟩
    | _ =>
      simp only [step, newline, if_false]
      repeat' split
      all_goals first
        | exact interrupted
        | exact ⟨by simp [State.SameLine], rfl⟩

theorem after_line {s : State} (same : s.SameLine) (text : List Char) :
    (after s text).pos.line = s.pos.line + text.count '\n' := by
  induction text generalizing s with
  | nil => rfl
  | cons c rest inductionHypothesis =>
    obtain ⟨stepSame, stepLine⟩ := step_line same c
    rw [after, inductionHypothesis stepSame, stepLine, List.count_cons, height]
    simp only [beq_iff_eq]
    omega

/-- The lines behind a text. -/
def linesBehind (text : List Char) : Nat :=
  1 + text.count '\n'

/-- A line break behind a text gives way to the text of the next line. -/
theorem run_newline {first : List Char} (closed : (after .initial first).depth = 0)
    (ends : (after .initial first).mode.isEscape = false) (second : List Char) :
    run .initial (first ++ '\n' :: second) =
      given .initial first ++ (after .initial first).mode.finish ++
        found .newline (after .initial first).pos ::
          (run .initial second).map (shiftItem (linesBehind first)) := by
  have line : (after .initial first).pos.line = 1 + first.count '\n' :=
    after_line (by simp [State.SameLine, State.initial]) first
  have fresh : State.mk .ready (down (after .initial first).pos) 0 =
      State.shift (linesBehind first) .initial := by
    rw [down, line, Nat.add_comm]
    rfl
  rw [run_append, run, step_newline ends, closed, ← run_shift, ← fresh]
  simp

theorem lexeme?_shift (lines : Nat) (items : List Item) :
    (items.map (shiftItem lines)).filterMap lexeme? =
      (items.filterMap lexeme?).map (Lexeme.shift lines) := by
  rw [List.filterMap_map, List.map_filterMap]
  congr 1
  funext item
  cases item <;> rfl

theorem complaint?_shift (lines : Nat) (items : List Item) :
    (items.map (shiftItem lines)).filterMap complaint? =
      (items.filterMap complaint?).map (Diagnostic.shift lines) := by
  rw [List.filterMap_map, List.map_filterMap]
  congr 1
  funext item
  cases item <;> rfl

end Lexer

open Lexer

/-- The text of two parts with a line break between them: its lexemes are those of the first part up
to its end, a line break where that was, and those of the second part further down. -/
theorem lex_append_line {first : String} (closed : (after .initial first.toList).depth = 0)
    (ends : (after .initial first.toList).mode.isEscape = false) (second : String) :
    ∃ lexemes pos, (lex first).1 = lexemes ++ [⟨.eof, pos⟩] ∧
      (lex (first ++ "\n" ++ second)).1 =
        lexemes ++ ⟨.newline, pos⟩ ::
          (lex second).1.map (Lexeme.shift (linesBehind first.toList)) ∧
      (lex (first ++ "\n" ++ second)).2 =
        (lex first).2 ++ (lex second).2.map (Diagnostic.shift (linesBehind first.toList)) := by
  have text : (first ++ "\n" ++ second).toList = first.toList ++ '\n' :: second.toList := by
    simp [String.toList_append]
  refine ⟨(given .initial first.toList ++ (after .initial first.toList).mode.finish).filterMap
    lexeme?, (after .initial first.toList).pos, ?_, ?_, ?_⟩
  · simp only [lex, run_eq_given .initial first.toList, List.filterMap_append, List.append_assoc]
    rfl
  · simp only [lex, text, run_newline closed ends, List.filterMap_append, List.filterMap_cons,
      lexeme?_shift]
    rfl
  · simp only [lex, text, run_newline closed ends, run_eq_given .initial first.toList,
      List.filterMap_append, List.filterMap_cons, complaint?_shift]
    simp [found, complaint?]

/-! Segments end at the tokens that end a statement, so what follows such a token is divided on its
own. -/

namespace Segment

/-- The last stop only ends the last segment. -/
theorem divide_last (lexemes : List Lexeme) :
    ∃ segments body, ∀ stop : Lexeme, stop.token.isStop = true →
      divide (lexemes ++ [stop]) = segments ++ [⟨body, stop⟩] := by
  induction lexemes with
  | nil => exact ⟨[], [], fun stop stops => by simp [divide, stops]⟩
  | cons lexeme lexemes inductionHypothesis =>
    obtain ⟨segments, body, divides⟩ := inductionHypothesis
    by_cases isStop : lexeme.token.isStop = true
    · exact ⟨⟨[], lexeme⟩ :: segments, body,
        fun stop stops => by simp [divide, isStop, divides stop stops]⟩
    · rcases segments with _ | ⟨segment, segments⟩
      · exact ⟨[], lexeme :: body, fun stop stops => by simp [divide, isStop, divides stop stops]⟩
      · exact ⟨⟨lexeme :: segment.body, segment.stop⟩ :: segments, body,
          fun stop stops => by simp [divide, isStop, divides stop stops]⟩

theorem divide_append_stop (lexemes rest : List Lexeme) {stop : Lexeme}
    (stops : stop.token.isStop = true) :
    divide (lexemes ++ stop :: rest) = divide (lexemes ++ [stop]) ++ divide rest := by
  induction lexemes with
  | nil => simp [divide, stops]
  | cons lexeme lexemes inductionHypothesis =>
    simp only [List.cons_append, divide, inductionHypothesis]
    split
    · rfl
    · obtain ⟨segments, body, divides⟩ := divide_last lexemes
      rw [divides stop stops]
      cases segments <;> rfl

theorem divide_shift (lines : Nat) (lexemes : List Lexeme) :
    divide (lexemes.map (Lexeme.shift lines)) = (divide lexemes).map (Segment.shift lines) := by
  induction lexemes with
  | nil => rfl
  | cons lexeme lexemes inductionHypothesis =>
    simp only [List.map_cons, divide, inductionHypothesis]
    rw [apply_ite (List.map (Segment.shift lines))]
    refine ite_congr rfl (fun _ => rfl) fun _ => ?_
    cases divide lexemes <;> rfl

end Segment

/-- The same result of a statement further down. -/
def MovesResult (lines : Nat) (result moved : Except Diagnostic Statement) : Prop :=
  ∃ stop other, Parser.Moves lines stop other (Statement.shift lines) result moved

theorem parseSegments_append_stop (lexemes rest : List Lexeme) {stop : Lexeme}
    (stops : stop.token.isStop = true) :
    parseSegments (lexemes ++ stop :: rest) =
      parseSegments (lexemes ++ [stop]) ++ parseSegments rest := by
  simp only [parseSegments, Segment.divide_append_stop lexemes rest stops, List.filter_append,
    List.map_append]

/-- Segments that are read further down give the same results. -/
theorem parse_segments_shift (lines : Nat) (segments : List Segment) :
    List.Forall₂ (MovesResult lines)
      ((segments.filter fun segment => !segment.body.isEmpty).map Segment.parse)
      (((segments.map (Segment.shift lines)).filter fun segment => !segment.body.isEmpty).map
        Segment.parse) := by
  induction segments with
  | nil => exact .nil
  | cons segment segments inductionHypothesis =>
    obtain ⟨body, stop⟩ := segment
    rcases body with _ | ⟨first, rest⟩
    · exact inductionHypothesis
    · have moved := Segment.parse_moves lines stop (stop.shift lines) Iff.rfl first rest
      exact .cons ⟨_, _, moved⟩ inductionHypothesis

theorem parseSegments_shift (lines : Nat) (lexemes : List Lexeme) :
    List.Forall₂ (MovesResult lines) (parseSegments lexemes)
      (parseSegments (lexemes.map (Lexeme.shift lines))) := by
  simp only [parseSegments, Segment.divide_shift]
  exact parse_segments_shift lines (Segment.divide lexemes)

theorem Lexeme.map_shift_zero (lexemes : List Lexeme) :
    lexemes.map (Lexeme.shift 0) = lexemes :=
  List.map_id' lexemes

/-- The end of a text and a line break end a statement alike. -/
theorem parseSegments_newline (lexemes : List Lexeme) (pos : Position) :
    List.Forall₂ (MovesResult 0) (parseSegments (lexemes ++ [⟨.eof, pos⟩]))
      (parseSegments (lexemes ++ [⟨.newline, pos⟩])) := by
  obtain ⟨segments, body, divides⟩ := Segment.divide_last lexemes
  have unmoved (segment : Segment) : segment.shift 0 = segment := by
    rw [Segment.shift, Lexeme.map_shift_zero, Lexeme.shift_zero]
  have before := parse_segments_shift 0 segments
  rw [List.map_congr_left fun segment _ => unmoved segment, List.map_id'] at before
  simp only [parseSegments, divides ⟨.eof, pos⟩ rfl, divides ⟨.newline, pos⟩ rfl,
    List.filter_append, List.map_append]
  refine List.rel_append before ?_
  rcases body with _ | ⟨first, rest⟩
  · exact .nil
  · have moved := Segment.parse_moves 0 ⟨.eof, pos⟩ ⟨.newline, pos⟩ (by simp) first rest
    rw [Lexeme.map_shift_zero] at moved
    exact .cons ⟨_, _, moved⟩ .nil

/-- Statements that are all read are read further down too. -/
theorem MovesResult.all_ok {lines : Nat} {results moved : List (Except Diagnostic Statement)}
    (moves : List.Forall₂ (MovesResult lines) results moved) (program : List Statement) :
    moved = program.map .ok ↔
      ∃ read : List Statement, results = read.map .ok ∧ program = read.map (Statement.shift lines) := by
  induction moves generalizing program with
  | nil =>
    rcases program with _ | ⟨statement, program⟩
    · exact ⟨fun _ => ⟨[], rfl, rfl⟩, fun _ => rfl⟩
    · simp
  | cons head _ inductionHypothesis =>
    obtain ⟨stop, other, headMoves⟩ := head
    cases headMoves with
    | error complains =>
      refine ⟨fun same => ?_, fun ⟨read, same, _⟩ => ?_⟩
      · rcases program with _ | ⟨statement, program⟩ <;> simp at same
      · rcases read with _ | ⟨statement, read⟩ <;> simp at same
    | ok value =>
      constructor
      · intro same
        rcases program with _ | ⟨statement, program⟩
        · simp at same
        · obtain ⟨valueSame, restSame⟩ := List.cons.inj same
          obtain rfl := Except.ok.inj valueSame
          obtain ⟨read, rfl, rfl⟩ := (inductionHypothesis program).mp restSame
          exact ⟨value :: read, rfl, rfl⟩
      · rintro ⟨read, same, rfl⟩
        rcases read with _ | ⟨statement, read⟩
        · simp at same
        · obtain ⟨valueSame, restSame⟩ := List.cons.inj same
          obtain rfl := Except.ok.inj valueSame
          rw [(inductionHypothesis _).mpr ⟨read, restSame, rfl⟩]
          rfl

/-- A backslash that waits for a character at the end of a text is a complaint. -/
theorem not_escape_of_lex {source : String} (accepted : (lex source).2 = []) :
    (after .initial source.toList).mode.isEscape = false := by
  simp only [lex, run_eq_given .initial source.toList, List.filterMap_append,
    List.append_eq_nil_iff] at accepted
  cases mode : (after .initial source.toList).mode with
  | escape start text =>
    rw [mode] at accepted
    simp [Mode.finish, complaint?] at accepted
  | _ => rfl

/-- The parts of a text whose line break stands outside parentheses are parsed on their own. -/
theorem parse_append_line {first : String} (closed : (after .initial first.toList).depth = 0)
    (ends : (after .initial first.toList).mode.isEscape = false) (second : String)
    (program : List Statement) :
    parse (first ++ "\n" ++ second) = .ok program ↔
      ∃ front back, parse first = .ok front ∧ parse second = .ok back ∧
        program = front ++ back.map (Statement.shift (linesBehind first.toList)) := by
  obtain ⟨lexemes, pos, firstLexemes, bothLexemes, complaints⟩ :=
    lex_append_line closed ends second
  have newlineStops : (Lexeme.mk .newline pos).token.isStop = true := rfl
  have frontMoves := parseSegments_newline lexemes pos
  have backMoves := parseSegments_shift (linesBehind first.toList) (lex second).1
  rw [← firstLexemes] at frontMoves
  rw [parse_eq_ok_iff, complaints, bothLexemes, parseSegments_append_stop lexemes _ newlineStops,
    List.append_eq_nil_iff, List.map_eq_nil_iff]
  simp only [parse_eq_ok_iff]
  constructor
  · rintro ⟨⟨firstClean, secondClean⟩, parsed⟩
    obtain ⟨front, back, rfl, frontParsed, backParsed⟩ := List.map_eq_append_iff.mp parsed.symm
    obtain ⟨read, readFront, rfl⟩ := (MovesResult.all_ok frontMoves front).mp frontParsed.symm
    obtain ⟨readBack, readSecond, rfl⟩ := (MovesResult.all_ok backMoves back).mp backParsed.symm
    refine ⟨read, readBack, ⟨firstClean, readFront⟩, ⟨secondClean, readSecond⟩, ?_⟩
    rw [List.map_congr_left fun statement _ => Statement.shift_zero statement, List.map_id']
  · rintro ⟨front, back, ⟨firstClean, readFront⟩, ⟨secondClean, readSecond⟩, rfl⟩
    refine ⟨⟨firstClean, secondClean⟩, ?_⟩
    rw [(MovesResult.all_ok frontMoves front).mpr ⟨front, readFront, ?_⟩,
      (MovesResult.all_ok backMoves _).mpr ⟨back, readSecond, rfl⟩, List.map_append]
    rw [List.map_congr_left fun statement _ => Statement.shift_zero statement, List.map_id']

end Colloquy.Calc

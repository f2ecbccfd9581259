import Colloquy.Proofs.Calc.Lines
import Colloquy.Proofs.Calc.SessionSoundness

set_option autoImplicit false

/-!
A text that is submitted in two parts, one after the other, does what it does in one submission. The
second part is compiled in the scope rebuilt from the variables that the first part left, and in one
submission in the scope handed on by the checker; these are the same scope once the first part has
run to its end. Only positions differ, and by the same number of lines everywhere.
-/

namespace Colloquy.Calc.Session

open Lexer

/-- The number of submissions so far plays no part in a run. -/
theorem runFrom_submissions (session : Session) (count : Nat) (result : Value)
    (statements : List (Statement × Kind)) :
    runFrom { session with submissions := count } result statements =
      ({ (runFrom session result statements).1 with submissions := count },
        (runFrom session result statements).2) := by
  induction statements generalizing session result with
  | nil => rfl
  | cons compiled rest inductionHypothesis =>
    obtain ⟨statement, kind⟩ := compiled
    have sameEnvironment :
        environment { session with submissions := count } = session.environment := rfl
    cases statement with
    | declare name kind? init pos =>
      simp only [runFrom, sameEnvironment]
      cases eval session.environment init with
      | error fault => rfl
      | ok value => exact inductionHypothesis (session.bind ⟨name, kind, coerce kind value⟩) .unit
    | expr e terminated pos =>
      simp only [runFrom, sameEnvironment]
      cases eval session.environment e with
      | error fault => rfl
      | ok value => exact inductionHypothesis session _

/-- The value so far is only seen where no statement follows. -/
theorem runFrom_result (session : Session) (result other : Value)
    {statements : List (Statement × Kind)} (follows : statements ≠ []) :
    runFrom session result statements = runFrom session other statements := by
  rcases statements with _ | ⟨⟨statement, kind⟩, rest⟩
  · exact (follows rfl).elim
  · cases statement <;> rfl

/-- Two submissions that run in a row, the second one further down: together they leave the same
variables, and their outcome is that of the second one if it has a statement. -/
theorem execute_append {session next : Session} {first second whole : Compiled} {value : Value}
    (ran : session.execute first = (next, .ok value)) (lines : Nat)
    (together : whole.statements =
      first.statements ++ second.statements.map (shiftCompiled lines)) :
    (session.execute whole).1.bindings = (next.execute second).1.bindings ∧
      (session.execute whole).2 =
        if second.statements.isEmpty then .ok value
        else (next.execute second).2.mapError (Fault.shift lines) := by
  have wholeRun : session.execute whole =
      runFrom next value (second.statements.map (shiftCompiled lines)) := by
    unfold execute at ran ⊢
    rw [together, runFrom_append, ran]
  have secondRun := runFrom_submissions next (next.submissions + 1) .unit second.statements
  rw [wholeRun, runFrom_shift, execute, secondRun]
  by_cases follows : second.statements = []
  · rw [follows]
    exact ⟨rfl, rfl⟩
  · rw [runFrom_result next value .unit follows, if_neg (by rwa [List.isEmpty_iff])]
    exact ⟨rfl, rfl⟩

/-- Where the first part of a text has run, the rest compiles on its own if and only if the whole
text compiles. -/
theorem compile_append_line {session next : Session} {first : String} {compiled : Compiled}
    {value : Value} (names : session.scope.Proper)
    (closed : (after .initial first.toList).depth = 0)
    (compiles : session.compile first = .ok compiled)
    (ran : session.execute compiled = (next, .ok value)) (second : String)
    (statements : List (Statement × Kind)) :
    (∃ whole, session.compile (first ++ "\n" ++ second) = .ok whole ∧
        whole.statements = statements) ↔
      ∃ part, next.compile second = .ok part ∧
        statements = compiled.statements ++
          part.statements.map (shiftCompiled (linesBehind first.toList)) := by
  obtain ⟨front, frontParsed, frontAccepted, rfl⟩ := compile_eq_ok_iff.mp compiles
  have proper : ∀ statement ∈ front, statement.body.Proper := fun _ => proper_of_parse frontParsed
  have known := (compileStatements_known names proper frontAccepted).1
  have scopes : next.scope = _ := scope_of_execute known ran
  have ends := not_escape_of_lex (parse_eq_ok_iff.mp frontParsed).1
  -- Both sides check the statements of the second part in the same scope.
  have together (back : List Statement) := compileStatements_append session.scope front
    (back.map (Statement.shift (linesBehind first.toList)))
  simp only [← scopes, frontAccepted, List.nil_append, compileStatements_shift] at together
  simp only [compile_eq_ok_iff, parse_append_line closed ends]
  constructor
  · rintro ⟨whole, ⟨program, ⟨front', back, frontParsed', backParsed, rfl⟩, accepted, rfl⟩, rfl⟩
    obtain rfl : front = front' := by
      rw [frontParsed] at frontParsed'
      exact Except.ok.inj frontParsed'
    rw [(together back).1, List.map_eq_nil_iff] at accepted
    exact ⟨_, ⟨back, backParsed, accepted, rfl⟩, (together back).2⟩
  · rintro ⟨part, ⟨back, backParsed, accepted, rfl⟩, rfl⟩
    refine ⟨_, ⟨_, ⟨front, back, frontParsed, backParsed, rfl⟩, ?_, rfl⟩, (together back).2⟩
    rw [(together back).1, accepted, List.map_nil]

/-- Submitting a text in two parts is submitting it in one. -/
theorem submit_append_line {session next : Session} {first : String} {compiled : Compiled}
    {value : Value} (bindings : ∀ binding ∈ session.bindings, binding.kind ≠ .void)
    (globals : ∀ global ∈ session.globals, global.2.kind ≠ .void)
    (closed : (after .initial first.toList).depth = 0)
    (compiles : session.compile first = .ok compiled)
    (ran : session.execute compiled = (next, .ok value)) (second : String) :
    ((∃ whole, session.compile (first ++ "\n" ++ second) = .ok whole) ↔
      ∃ part, next.compile second = .ok part) ∧
    ∀ whole part, session.compile (first ++ "\n" ++ second) = .ok whole →
      next.compile second = .ok part →
      (session.execute whole).1.bindings = (next.execute part).1.bindings ∧
      (session.execute whole).2 =
        if part.statements.isEmpty then .ok value
        else (next.execute part).2.mapError (Fault.shift (linesBehind first.toList)) := by
  have whole_iff_part :=
    compile_append_line (scope_proper bindings globals) closed compiles ran second
  refine ⟨⟨?_, ?_⟩, ?_⟩
  · rintro ⟨whole, wholeCompiles⟩
    obtain ⟨part, partCompiles, _⟩ := (whole_iff_part _).mp ⟨whole, wholeCompiles, rfl⟩
    exact ⟨part, partCompiles⟩
  · rintro ⟨part, partCompiles⟩
    obtain ⟨whole, wholeCompiles, _⟩ := (whole_iff_part _).mpr ⟨part, partCompiles, rfl⟩
    exact ⟨whole, wholeCompiles⟩
  · intro whole part wholeCompiles partCompiles
    obtain ⟨other, otherCompiles, together⟩ := (whole_iff_part _).mp ⟨whole, wholeCompiles, rfl⟩
    obtain rfl : part = other := by
      rw [partCompiles] at otherCompiles
      exact Except.ok.inj otherCompiles
    exact execute_append ran _ together

theorem division_submitted_behind_declaration :
    ∃ compiled next value whole part,
      (ofHost ⟨[], []⟩).compile "int x = 1 // (" = .ok compiled ∧
      (ofHost ⟨[], []⟩).execute compiled = (next, .ok value) ∧
      next.compile "x / 0" = .ok part ∧
      (ofHost ⟨[], []⟩).compile ("int x = 1 // (" ++ "\n" ++ "x / 0") = .ok whole ∧
      ((ofHost ⟨[], []⟩).execute whole).1.bindings = (next.execute part).1.bindings ∧
      (next.execute part).2 = .error (.divisionByZero ⟨1, 3⟩) ∧
      ((ofHost ⟨[], []⟩).execute whole).2 = .error (.divisionByZero ⟨2, 3⟩) := by
  have submitted : (((ofHost ⟨[], []⟩).compile "int x = 1 // (").toOption.bind fun compiled =>
      (((ofHost ⟨[], []⟩).execute compiled).1.compile "x / 0").toOption.map fun part =>
        (((ofHost ⟨[], []⟩).execute compiled).2.isOk, part.statements.isEmpty,
          (((ofHost ⟨[], []⟩).execute compiled).1.execute part).2.map fun _ => ())) =
        some (true, false, .error (.divisionByZero ⟨1, 3⟩)) := by
    decide +kernel
  cases compiles : (ofHost ⟨[], []⟩).compile "int x = 1 // (" with
  | error complaints => simp [compiles, Except.toOption] at submitted
  | ok compiled =>
    rcases ran : (ofHost ⟨[], []⟩).execute compiled with ⟨next, fault | value⟩
    · simp [compiles, ran, Except.toOption, Except.isOk, Except.toBool] at submitted
    · cases partCompiles : next.compile "x / 0" with
      | error complaints => simp [compiles, ran, partCompiles, Except.toOption] at submitted
      | ok part =>
        rcases partRan : (next.execute part).2 with fault | result
        · simp only [compiles, ran, partCompiles, partRan, Except.toOption, Option.bind_some,
            Option.map_some, Option.some.injEq, Prod.mk.injEq, Except.map] at submitted
          obtain ⟨_, follows, faults⟩ := submitted
          obtain rfl := Except.error.inj faults
          obtain ⟨whole_iff_part, same⟩ := submit_append_line (by simp [ofHost])
            (by simp [ofHost, Host.globals, firstOfKey]) (by decide +kernel) compiles ran "x / 0"
          obtain ⟨whole, wholeCompiles⟩ := whole_iff_part.mpr ⟨part, partCompiles⟩
          obtain ⟨sameBindings, sameOutcome⟩ := same whole part wholeCompiles partCompiles
          rw [follows, partRan] at sameOutcome
          exact ⟨compiled, next, value, whole, part, rfl, ran, partCompiles, wholeCompiles,
            sameBindings, partRan, sameOutcome⟩
        · simp [compiles, ran, partCompiles, partRan, Except.toOption, Except.map] at submitted

end Colloquy.Calc.Session

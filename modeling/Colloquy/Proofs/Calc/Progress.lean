import Colloquy.Proofs.Calc.Agreement

set_option autoImplicit false

/-!
A whole text is read in rounds, each of which skips separators and reads what is before the next
stop. Every round but the last one leaves a lexeme behind that is neither a separator nor the end,
also after a complaint, so there are not more rounds than such lexemes, and calls enough for that
many rounds are enough for the text.
-/

namespace Colloquy.Calc

theorem Token.eq_of_isStop {token : Token} (stops : token.isStop = true) :
    token = .semicolon ∨ token = .newline ∨ token = .eof := by
  cases token <;> simp_all [Token.isStop]

namespace Cursor

/-- The last lexeme is the end of a text, and no other one is. -/
def Ended (lexemes : List Lexeme) : Prop :=
  ∃ front finish, lexemes = front ++ [⟨.eof, finish⟩] ∧ ∀ lexeme ∈ front, lexeme.token ≠ .eof

/-- How many lexemes from an index on are neither separators nor the end. -/
def contents (lexemes : List Lexeme) (index : Nat) : Nat :=
  (lexemes.drop index).countP fun lexeme => !lexeme.token.isStop

section

variable {lexemes rest : List Lexeme} {frame : Frame} {state : State} {depth index calls : Nat}
  {lexeme : Lexeme}

namespace Ended

theorem ne_nil (ended : Ended lexemes) : lexemes ≠ [] := by
  obtain ⟨front, finish, rfl, -⟩ := ended
  simp

/-- Behind anything but the end there is a lexeme. -/
theorem notLast (ended : Ended lexemes) (found : lexemes[index]? = some lexeme)
    (notEnd : lexeme.token ≠ .eof) : index + 1 < lexemes.length := by
  obtain ⟨front, finish, rfl, -⟩ := ended
  obtain ⟨inside, -⟩ := List.getElem?_eq_some_iff.mp found
  rw [List.length_append, List.length_singleton] at inside ⊢
  have notAtEnd : index ≠ front.length := by
    rintro rfl
    rw [List.getElem?_concat_length] at found
    cases found
    exact notEnd rfl
  omega

/-- Nothing is behind the end. -/
theorem drop_end (ended : Ended lexemes) (found : lexemes[index]? = some lexeme)
    (isEnd : lexeme.token = .eof) : lexemes.drop index = [lexeme] := by
  obtain ⟨front, finish, rfl, noEnd⟩ := ended
  by_cases inFront : index < front.length
  · rw [List.getElem?_append_left inFront] at found
    exact (noEnd lexeme (List.mem_of_getElem? found) isEnd).elim
  · obtain ⟨inside, -⟩ := List.getElem?_eq_some_iff.mp found
    rw [List.length_append, List.length_singleton] at inside
    obtain rfl : index = front.length := by omega
    rw [List.getElem?_concat_length] at found
    cases found
    exact List.drop_left

/-- A safe state is inside of a statement, which may have no lexemes left. -/
theorem exists_frame (ended : Ended lexemes) (safe : state.Safe lexemes) :
    ∃ frame rest, At lexemes frame rest state.stand.depth state := by
  have stopFound : ∃ stop, (lexemes.drop state.stand.index).find? (·.token.isStop) = some stop := by
    obtain ⟨front, finish, rfl, -⟩ := ended
    have inside := safe.valid.inside
    rw [List.length_append, List.length_singleton] at inside
    rw [List.drop_append_of_le_length (Nat.le_of_lt_succ inside), ← Option.isSome_iff_exists,
      List.find?_isSome]
    exact ⟨⟨.eof, finish⟩, by simp, rfl⟩
  obtain ⟨stop, found⟩ := stopFound
  obtain ⟨stops, body, later, split, inside⟩ := List.find?_eq_some_iff_append.mp found
  exact ⟨⟨stop, later, stops⟩, body, safe, split, by simpa using inside, rfl⟩

end Ended

/-- Lexemes left behind are no longer counted. -/
theorem contents_anti {next : Nat} (further : index ≤ next) :
    contents lexemes next ≤ contents lexemes index :=
  (List.drop_sublist_drop_left lexemes further).countP_le

/-- Something that is no stop has been left behind. -/
theorem contents_lt {next : Nat} (found : lexemes[index]? = some lexeme)
    (goesOn : lexeme.token.isStop = false) (further : index < next) :
    contents lexemes next < contents lexemes index := by
  have split : lexemes.drop index = lexeme :: lexemes.drop (index + 1) := by
    obtain ⟨inside, isLexeme⟩ := List.getElem?_eq_some_iff.mp found
    rw [List.drop_eq_getElem_cons inside, isLexeme]
  calc contents lexemes next
    _ ≤ contents lexemes (index + 1) := contents_anti further
    _ < contents lexemes index := by
      rw [contents, contents, split, List.countP_cons_of_pos (by simp [goesOn])]
      exact Nat.lt_succ_self _

theorem length_le_callsEnough (lexemes : List Lexeme) :
    lexemes.length ≤ callsEnough lexemes := by
  simp only [callsEnough, nestingLimit]
  omega

/-- Recovering leads to the stop. -/
theorem At.recover_run (place : At lexemes frame rest depth state) (enough : rest.length < calls) :
    ∃ after, recover lexemes calls state = some (.ok (), after) ∧
      At lexemes frame [] depth after := by
  induction rest generalizing state calls with
  | nil =>
    obtain ⟨calls, rfl⟩ := Nat.exists_eq_add_of_le' (Nat.one_le_of_lt enough)
    refine ⟨state, ?_, place⟩
    rw [recover, run_bind place.here_run]
    simp only [Parser.front, List.headD_nil, frame.stops]
    rfl
  | cons first rest inductionHypothesis =>
    obtain ⟨calls, rfl⟩ := Nat.exists_eq_add_of_le' (Nat.one_le_of_lt enough)
    obtain ⟨next, ran, placeNext⟩ := place.advance_run
    obtain ⟨after, recovered, placeAfter⟩ :=
      inductionHypothesis placeNext (Nat.lt_of_succ_lt_succ enough)
    have goesOn := place.within first List.mem_cons_self
    refine ⟨after, ?_, placeAfter⟩
    rw [recover, run_bind place.here_run]
    simp only [Parser.front, List.headD_cons, goesOn, Bool.not_false, if_true]
    rw [run_bind ran, recovered]

/-- A statement takes all the lexemes before the stop, or there is a complaint. -/
theorem At.finish_run (enough : callsEnough lexemes ≤ calls)
    (place : At lexemes frame rest depth state) (statement : Statement) :
    ∃ after, At lexemes frame [] depth after ∧ finish lexemes calls statement state =
      some (.ok (if rest.isEmpty then .ok (statement.endedBy frame.stop.token)
        else .error (Parser.expected "`;` or end of line" frame.stop rest)), after) := by
  have shorter := place.length_lt
  have bounded := length_le_callsEnough lexemes
  rw [finish, run_bind place.here_run]
  cases rest with
  | nil =>
    refine ⟨state, place, ?_⟩
    simp only [Parser.front, List.headD_nil, List.isEmpty_nil, if_true]
    obtain isStop | isStop | isStop := Token.eq_of_isStop frame.stops <;>
    · rw [isStop]
      rfl
  | cons first rest =>
    obtain ⟨after, recovered, placeAfter⟩ :=
      place.recover_run (show (first :: rest).length < calls by omega)
    refine ⟨after, placeAfter, ?_⟩
    have goesOn := place.within first List.mem_cons_self
    -- The token is none of those that the first cases are for.
    have notSemicolon : first.token ≠ .semicolon := by
      intro isStop
      cases isStop ▸ goesOn
    have notNewline : first.token ≠ .newline := by
      intro isStop
      cases isStop ▸ goesOn
    have notEnd : first.token ≠ .eof := by
      intro isStop
      cases isStop ▸ goesOn
    simp only [Parser.front, List.headD_cons, List.isEmpty_cons, Bool.false_eq_true, if_false]
    rw [run_bind (place.unexpected_run _), run_bind recovered]
    rfl

/-- The segment before the stop is read as one statement or one complaint. -/
theorem At.segment_run (enough : callsEnough lexemes ≤ calls)
    (place : At lexemes frame rest 0 state) :
    ∃ reached after, At lexemes frame [] reached after ∧
      segment lexemes calls state = some (.ok (Segment.parse ⟨rest, frame.stop⟩), after) := by
  have bounded := length_le_callsEnough lexemes
  obtain ⟨read, agrees, readIs⟩ := statement_agrees enough place
  rw [segment, Segment.parse, ← readIs rfl]
  cases read with
  | error d =>
    obtain ⟨stuck, left, reached, ran, placeStuck⟩ := agrees
    obtain ⟨after, recovered, placeAfter⟩ :=
      placeStuck.recover_run
        (Nat.lt_of_lt_of_le placeStuck.length_lt (Nat.le_trans bounded enough))
    refine ⟨reached, after, placeAfter, ?_⟩
    rw [run_bind (attempt_complaint ran)]
    simp only
    rw [run_bind recovered]
    rfl
  | ok read =>
    obtain ⟨statement, left⟩ := read
    obtain ⟨finished, ran, placeFinished⟩ := agrees
    obtain ⟨after, placeAfter, result⟩ := placeFinished.finish_run enough statement
    refine ⟨0, after, placeAfter, ?_⟩
    rw [run_bind (attempt_success ran)]
    exact result

/-- Skipping separators leads to something else, and nothing to read is left out. -/
theorem skipSeparators_run (ended : Ended lexemes) (safe : state.Safe lexemes)
    (enough : lexemes.length ≤ state.stand.index + calls) :
    ∃ after lexeme, skipSeparators lexemes calls state = some (.ok (), after) ∧
      after.Safe lexemes ∧ state.stand.index ≤ after.stand.index ∧
      parseSegments (lexemes.drop state.stand.index) =
        parseSegments (lexemes.drop after.stand.index) ∧
      lexemes[after.stand.index]? = some lexeme ∧ lexeme.token.isSeparator = false := by
  have inside := safe.valid.inside
  induction calls generalizing state with
  | zero => exact (Nat.not_le_of_lt inside enough).elim
  | succ calls inductionHypothesis =>
    have found := List.getElem?_eq_getElem inside
    rw [skipSeparators, run_bind (here_run found)]
    cases separates : lexemes[state.stand.index].token.isSeparator with
    | false => exact ⟨state, _, rfl, safe, Nat.le_refl _, rfl, found, separates⟩
    | true =>
      have notEnd : lexemes[state.stand.index].token ≠ .eof := by
        intro isEnd
        cases isEnd ▸ separates
      have notLast := ended.notLast found notEnd
      have safeNext : State.Safe lexemes
          ⟨⟨state.stand.index + 1, state.stand.depth⟩, state.stand :: state.before⟩ :=
        safe.moved ⟨notLast, safe.valid.nested⟩
      obtain ⟨after, lexeme, ran, safeAfter, further, same, foundAfter, noSeparator⟩ :=
        inductionHypothesis safeNext (by dsimp only; omega) notLast
      refine ⟨after, lexeme, ?_, safeAfter, Nat.le_of_succ_le further, ?_, foundAfter, noSeparator⟩
      · simp only [if_true]
        rw [run_bind (advance_run found notLast), ran]
      · rw [List.drop_eq_getElem_cons inside,
          Segment.parseSegments_stop (Token.isStop_of_isSeparator separates), same]

/-- What a round does: it meets the end, or reads the first of the segments that are left and leaves
something of a statement behind. -/
def Passes (lexemes : List Lexeme) (before after : State) :
    Option (Except Diagnostic Statement) → Prop
  | none =>
    parseSegments (lexemes.drop before.stand.index) = [] ∧
      ∃ finish, lexemes[after.stand.index]? = some ⟨.eof, finish⟩
  | some result =>
    parseSegments (lexemes.drop before.stand.index) =
        result :: parseSegments (lexemes.drop after.stand.index) ∧
      ∃ index lexeme, before.stand.index ≤ index ∧ index < after.stand.index ∧
        lexemes[index]? = some lexeme ∧ lexeme.token.isStop = false

/-- The segments from a place in a statement on. -/
theorem At.parseSegments_eq (place : At lexemes frame rest depth state) (nonempty : rest ≠ []) :
    parseSegments (lexemes.drop state.stand.index) =
      Segment.parse ⟨rest, frame.stop⟩ :: parseSegments frame.later := by
  rw [place.split, parseSegments_append_stop rest _ frame.stops,
    Segment.parseSegments_single nonempty place.within frame.stops, List.singleton_append]

theorem round_run (enough : callsEnough lexemes ≤ calls) (ended : Ended lexemes)
    (safe : state.Safe lexemes) :
    ∃ outcome after, round lexemes calls state = some (.ok outcome, after) ∧ after.Safe lexemes ∧
      Passes lexemes state after outcome := by
  obtain ⟨skipped, first, ran, safeSkipped, further, same, found, noSeparator⟩ :=
    skipSeparators_run ended safe
      (Nat.le_add_left_of_le (Nat.le_trans (length_le_callsEnough lexemes) enough))
  rw [round, run_bind ran, run_bind (here_run found)]
  by_cases isEnd : first.token = .eof
  · obtain ⟨token, finish⟩ := first
    cases isEnd
    refine ⟨none, skipped, rfl, safeSkipped, ?_, finish, found⟩
    rw [same, ended.drop_end found rfl]
    rfl
  · have safeNext : State.Safe lexemes
        ⟨⟨skipped.stand.index, 0⟩, skipped.stand :: skipped.before⟩ :=
      safeSkipped.moved ⟨safeSkipped.valid.inside, Nat.zero_le _⟩
    obtain ⟨frame, rest, place⟩ := ended.exists_frame safeNext
    have goesOn : first.token.isStop = false := by
      rw [Bool.eq_false_iff]
      intro stops
      cases (Token.isSeparator_of_isStop stops isEnd).symm.trans noSeparator
    have nonempty : rest ≠ [] := by
      rintro rfl
      cases found.symm.trans place.next
      cases frame.stops.symm.trans goesOn
    obtain ⟨reached, after, placeAfter, result⟩ := place.segment_run enough
    refine ⟨some (Segment.parse ⟨rest, frame.stop⟩), after, ?_, placeAfter.safe, ?_,
      skipped.stand.index, first, further, ?_, found, goesOn⟩
    · simp only
      rw [run_bind setDepth_run, run_bind result]
      rfl
    · rw [same, place.parseSegments_eq nonempty, placeAfter.split, List.nil_append,
        Segment.parseSegments_stop frame.stops]
    · have lengths := place.length_eq
      have lengthsAfter := placeAfter.length_eq
      have taken := List.length_pos_iff.mpr nonempty
      simp only [List.length_nil] at lengths lengthsAfter
      omega

/-- The rounds read all segments. Each takes one call for itself, and leaves less to read. -/
theorem rounds_run (ended : Ended lexemes) (safe : state.Safe lexemes)
    (enough : callsEnough lexemes + contents lexemes state.stand.index < calls) :
    ∃ after, rounds lexemes calls state =
        some (.ok (parseSegments (lexemes.drop state.stand.index)), after) ∧
      after.Safe lexemes ∧
      (parseSegments (lexemes.drop state.stand.index)).length ≤
        contents lexemes state.stand.index := by
  induction calls generalizing state with
  | zero => exact (Nat.not_lt_zero _ enough).elim
  | succ calls inductionHypothesis =>
    obtain ⟨outcome, next, ran, safeNext, passes⟩ :=
      round_run (show callsEnough lexemes ≤ calls by omega) ended safe
    rw [rounds, run_bind ran]
    cases outcome with
    | none =>
      obtain ⟨nothing, -⟩ := passes
      rw [nothing]
      exact ⟨next, rfl, safeNext, Nat.zero_le _⟩
    | some result =>
      obtain ⟨split, index, lexeme, further, passed, found, goesOn⟩ := passes
      have fewer : contents lexemes next.stand.index < contents lexemes state.stand.index :=
        calc contents lexemes next.stand.index
          _ < contents lexemes index := contents_lt found goesOn passed
          _ ≤ contents lexemes state.stand.index := contents_anti further
      obtain ⟨after, rest, safeAfter, bounded⟩ := inductionHypothesis safeNext (by omega)
      refine ⟨after, ?_, safeAfter, ?_⟩
      · simp only
        rw [run_bind rest, split]
        rfl
      · rw [split, List.length_cons]
        omega

end

/-! Results. -/

/-- From a state, a reading comes to an end without a false step and has only stood where it may;
and after a success it is at the depth of its start. -/
def Restores {α : Type} (lexemes : List Lexeme) (reading : Reading α) (state : State) : Prop :=
  ∃ outcome after, reading state = some (outcome, after) ∧ after.Safe lexemes ∧
    (∀ fault, outcome ≠ .error (.fault fault)) ∧
    ∀ value, outcome = .ok value → after.stand.depth = state.stand.depth

section

variable {α : Type} {lexemes rest : List Lexeme} {frame : Frame} {state : State} {calls : Nat}

theorem Agrees.restores {reading : Reading α} {read : Except Diagnostic (α × List Lexeme)}
    (agrees : Agrees lexemes frame reading state state.stand.depth read) :
    Restores lexemes reading state := by
  cases read with
  | error d =>
    obtain ⟨after, rest, reached, ran, place⟩ := agrees
    exact ⟨_, after, ran, place.safe, nofun, nofun⟩
  | ok read =>
    obtain ⟨after, ran, place⟩ := agrees
    exact ⟨_, after, ran, place.safe, nofun, fun _ _ => place.depthIs⟩

theorem Reads.restores {room fewer : Nat} {reading : Nat → Reading α}
    {read : List Lexeme → Except Diagnostic (α × List Lexeme)}
    (reads : Reads lexemes frame room fewer reading read) (enough : fewer ≤ calls)
    (place : At lexemes frame rest state.stand.depth state)
    (levels : state.stand.depth + room = nestingLimit) :
    Restores lexemes (reading calls) state :=
  (reads enough place levels).restores

theorem primary_restores {room : Nat} (enough : callsEnough lexemes ≤ calls)
    (place : At lexemes frame rest state.stand.depth state)
    (levels : state.stand.depth + room = nestingLimit) :
    Restores lexemes (primary lexemes calls) state := by
  have spare := room_calls_le lexemes levels
  rw [Nat.succ_mul] at spare
  obtain ⟨calls, rfl⟩ : ∃ fewer, calls = fewer + 1 := ⟨calls - 1, by omega⟩
  cases isSign : Grammar.sign? (Parser.front frame.stop rest).token with
  | none =>
    exact (primary_agrees (enclosed_agree lexemes frame room) (by omega) isSign place
      levels).restores
  | some op => exact (primary_sign isSign place).restores

/-- All readers, from a safe state. -/
theorem readers_restore (enough : callsEnough lexemes ≤ calls) (ended : Ended lexemes)
    (safe : state.Safe lexemes) :
    Restores lexemes (statement lexemes calls) state ∧
      (∀ tier, Restores lexemes (level lexemes calls tier) state) ∧
      Restores lexemes (unary lexemes calls) state ∧
      Restores lexemes (primary lexemes calls) state ∧
      Restores lexemes (arguments lexemes calls) state := by
  obtain ⟨frame, rest, place⟩ := ended.exists_frame safe
  obtain ⟨read, agrees, -⟩ := statement_agrees enough place
  have levels := Nat.add_sub_cancel' place.nested
  obtain ⟨fewer, spare, readers⟩ := Readers.sufficient lexemes frame levels
  exact ⟨agrees.restores, fun tier => (readers.level tier).restores (by omega) place levels,
    readers.unary.restores (by omega) place levels, primary_restores enough place levels,
    readers.arguments.restores (by omega) place levels⟩

end

theorem results_length (results : List (Except Diagnostic Statement)) :
    (results.filterMap Except.toOption).length + (results.filterMap failure?).length =
      results.length := by
  induction results with
  | nil => rfl
  | cons result results inductionHypothesis =>
    cases result <;>
    · simp only [List.filterMap_cons, Except.toOption, failure?, List.length_cons]
      omega

theorem parse_run {source : String} {calls : Nat} {final : State}
    (ran : rounds (lex source).1 calls .start =
      some (.ok (parseSegments (lex source).1), final)) :
    parse calls source = some (.ok (Calc.parse source), final) := by
  rw [parse]
  dsimp only
  rw [run_bind ran]
  rfl

/-- The last lexeme of every text is its end, and there are not more statements and complaints about
statements than lexemes that are neither separators nor the end.

The parser that moves along the lexemes ends, if it may nest its calls deeply enough for the text.
It has the result of the parser that divides the lexemes, and on its way it has only stood at a
lexeme, inside of at most as many levels as the limit allows.

The same holds from each state that the parser may be in. From there every reader ends without a
false step, and after a success it is at the depth of its start; and a round reads something and
leaves a lexeme behind that is neither a separator nor the end, or it meets the end. -/
theorem parse_safe (source : String) :
    Ended (lex source).1 ∧
    ((parseSegments (lex source).1).filterMap Except.toOption).length +
        ((parseSegments (lex source).1).filterMap failure?).length ≤ contents (lex source).1 0 ∧
    ∃ enough, ∀ calls, enough ≤ calls →
      (∃ final,
        rounds (lex source).1 calls .start = some (.ok (parseSegments (lex source).1), final) ∧
        parse calls source = some (.ok (Calc.parse source), final) ∧ final.Safe (lex source).1) ∧
      ∀ state, state.Safe (lex source).1 →
        (Restores (lex source).1 (statement (lex source).1 calls) state ∧
          (∀ tier, Restores (lex source).1 (level (lex source).1 calls tier) state) ∧
          Restores (lex source).1 (unary (lex source).1 calls) state ∧
          Restores (lex source).1 (primary (lex source).1 calls) state ∧
          Restores (lex source).1 (arguments (lex source).1 calls) state) ∧
        ∃ outcome after, round (lex source).1 calls state = some (.ok outcome, after) ∧
          after.Safe (lex source).1 ∧ Passes (lex source).1 state after outcome := by
  have ended : Ended (lex source).1 := lex_eq_append_eof source
  have safeStart : State.Safe (lex source).1 .start := .start ended.ne_nil
  have runs : ∀ calls, callsEnough (lex source).1 + contents (lex source).1 0 < calls → _ :=
    fun calls enough => rounds_run ended safeStart enough
  refine ⟨ended, ?_, callsEnough (lex source).1 + contents (lex source).1 0 + 1, ?_⟩
  · obtain ⟨-, -, -, bounded⟩ := runs _ (Nat.lt_succ_self _)
    rw [results_length]
    exact bounded
  · intro calls enough
    obtain ⟨final, ran, safe, -⟩ := runs calls enough
    have enoughEach : callsEnough (lex source).1 ≤ calls := by omega
    exact ⟨⟨final, ran, parse_run ran, safe⟩, fun state safe =>
      ⟨readers_restore enoughEach ended safe, round_run enoughEach ended safe⟩⟩

/-- The start of a text is a state as the theorem asks for, also with nothing but a parenthesis. -/
theorem parse_safe_parenthesis :
    State.Safe (lex "(").1 .start ∧
      ∃ calls, Restores (lex "(").1 (statement (lex "(").1 calls) .start := by
  obtain ⟨ended, -, calls, runs⟩ := parse_safe "("
  have safe := State.Safe.start ended.ne_nil
  obtain ⟨⟨statements, -⟩, -⟩ := (runs calls (Nat.le_refl calls)).2 .start safe
  exact ⟨safe, calls, statements⟩

-- A complaint does not leave the levels that it is found in.
example : ((parse 40 "2 * (1 +").map fun run => run.2.stand) = some ⟨5, 3⟩ := by decide +kernel

end Cursor

end Colloquy.Calc

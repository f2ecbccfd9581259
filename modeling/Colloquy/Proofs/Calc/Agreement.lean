import Colloquy.Proofs.Calc.Cursor

set_option autoImplicit false

/-!
The parser that moves along the lexemes of a whole text reads what the other one reads, so it comes
to an end and makes no false step. That it is at the level of its start after a success is part of
what it means to agree.

The recursion of the two is not the same. Only the room that is left for nesting gets smaller in
both, so the induction for the readers of expressions is on it.
-/

namespace Colloquy.Calc

theorem Grammar.isName_of_literal?_eq_none {text : String}
    (notLiteral : literal? (.name text) = none) : IsName text := by
  constructor <;> rintro rfl <;> cases notLiteral

namespace Cursor

open Grammar

/-- A statement among lexemes is followed by a stop and by what is behind the stop. -/
structure Frame where
  stop : Lexeme
  later : List Lexeme
  stops : stop.token.isStop = true

/-- The parser stands inside of a statement, with some lexemes of it left. -/
structure At (lexemes : List Lexeme) (frame : Frame) (rest : List Lexeme) (depth : Nat)
    (state : State) : Prop where
  safe : state.Safe lexemes
  split : lexemes.drop state.stand.index = rest ++ frame.stop :: frame.later
  within : ∀ lexeme ∈ rest, lexeme.token.isStop = false
  depthIs : state.stand.depth = depth

/-- A reading does on the lexemes of a whole text what a reader of lists did on those of the
statement, and a success leaves it at some depth. -/
def Agrees {α : Type} (lexemes : List Lexeme) (frame : Frame) (reading : Reading α) (state : State)
    (depth : Nat) : Except Diagnostic (α × List Lexeme) → Prop
  | .ok (value, rest) =>
    ∃ after, reading state = some (.ok value, after) ∧ At lexemes frame rest depth after
  | .error d =>
    ∃ after rest reached, reading state = some (.error (.complaint d), after) ∧
      At lexemes frame rest reached after

/-- With `calls` calls or more, the two agree wherever `room` levels are left, and a success is at
the level of its start. -/
def Reads {α : Type} (lexemes : List Lexeme) (frame : Frame) (room calls : Nat)
    (reading : Nat → Reading α) (read : List Lexeme → Except Diagnostic (α × List Lexeme)) : Prop :=
  ∀ ⦃more : Nat⦄, calls ≤ more → ∀ ⦃state : State⦄ ⦃rest : List Lexeme⦄ ⦃depth : Nat⦄,
    At lexemes frame rest depth state → depth + room = nestingLimit →
    Agrees lexemes frame (reading more) state depth (read rest)

section

variable {α β : Type} {lexemes rest : List Lexeme} {frame : Frame} {depth final : Nat}
  {state after : State}

namespace At

theorem nested (place : At lexemes frame rest depth state) : depth ≤ nestingLimit :=
  place.depthIs ▸ place.safe.valid.nested

/-- The next lexeme, which is the stop if none is left. -/
theorem next (place : At lexemes frame rest depth state) :
    lexemes[state.stand.index]? = some (Parser.front frame.stop rest) := by
  rw [← List.head?_drop, place.split]
  cases rest <;> rfl

theorem here_run (place : At lexemes frame rest depth state) :
    here lexemes state = some (.ok (Parser.front frame.stop rest), state) :=
  Cursor.here_run place.next

theorem length_eq (place : At lexemes frame rest depth state) :
    lexemes.length = state.stand.index + (rest.length + (frame.later.length + 1)) := by
  have lengths := congrArg List.length place.split
  have inside := place.safe.valid.inside
  simp only [List.length_drop, List.length_append, List.length_cons] at lengths
  omega

/-- A lexeme that does not stop the statement is one of those left. -/
theorem rest_eq_cons (place : At lexemes frame rest depth state)
    (goesOn : (Parser.front frame.stop rest).token.isStop = false) :
    ∃ first behind, rest = first :: behind := by
  cases rest with
  | nil => exact nomatch frame.stops.symm.trans goesOn
  | cons first behind => exact ⟨first, behind, rfl⟩

theorem rest_eq {token : Token} (place : At lexemes frame rest depth state)
    (isToken : (Parser.front frame.stop rest).token = token) (goesOn : token.isStop = false) :
    ∃ pos behind, rest = ⟨token, pos⟩ :: behind := by
  obtain ⟨first, behind, rfl⟩ := place.rest_eq_cons (isToken ▸ goesOn)
  cases isToken
  exact ⟨first.pos, behind, rfl⟩

/-- What is left is not all, as the stop is behind it. -/
theorem length_lt (place : At lexemes frame rest depth state) : rest.length < lexemes.length := by
  have lengths := place.length_eq
  omega

theorem advance_run {first : Lexeme} (place : At lexemes frame (first :: rest) depth state) :
    ∃ after, advance lexemes state = some (.ok first, after) ∧
      At lexemes frame rest depth after := by
  have notLast : state.stand.index + 1 < lexemes.length := by
    have lengths := place.length_eq
    simp only [List.length_cons] at lengths
    omega
  have split : lexemes.drop (state.stand.index + 1) = rest ++ frame.stop :: frame.later := by
    rw [← List.tail_drop, place.split]
    rfl
  exact ⟨_, Cursor.advance_run place.next notLast,
    place.safe.moved ⟨notLast, place.safe.valid.nested⟩, split,
    fun lexeme membership => place.within lexeme (List.mem_cons_of_mem first membership),
    place.depthIs⟩

/-- A lexeme ahead, in the statement or behind it. -/
theorem ahead_run {offset : Nat} {lexeme : Lexeme} (place : At lexemes frame rest depth state)
    (found : (rest ++ frame.stop :: frame.later)[offset]? = some lexeme) :
    Cursor.ahead lexemes offset state = some (.ok lexeme, state) := by
  obtain ⟨inside, -⟩ := List.getElem?_eq_some_iff.mp found
  have lengths := place.length_eq
  simp only [List.length_append, List.length_cons] at inside
  apply Cursor.ahead_run
  rw [Nat.min_eq_left (by omega), ← List.getElem?_drop, place.split, found]

/-- However far it is, there is something to see. -/
theorem ahead_exists (place : At lexemes frame rest depth state) (offset : Nat) :
    ∃ lexeme, Cursor.ahead lexemes offset state = some (.ok lexeme, state) := by
  have lengths := place.length_eq
  exact ⟨_, Cursor.ahead_run (List.getElem?_eq_getElem (by omega))⟩

theorem setDepth_run (place : At lexemes frame rest depth state) (nested : final ≤ nestingLimit) :
    ∃ after, setDepth final state = some (.ok (), after) ∧ At lexemes frame rest final after :=
  ⟨_, Cursor.setDepth_run, place.safe.moved ⟨place.safe.valid.inside, nested⟩, place.split,
    place.within, rfl⟩

theorem ascend_run (place : At lexemes frame rest (depth + 1) state) :
    ∃ after, ascend state = some (.ok (), after) ∧ At lexemes frame rest depth after := by
  obtain ⟨after, ran, placeAfter⟩ :=
    place.setDepth_run (Nat.le_of_succ_le place.nested)
  refine ⟨after, ?_, placeAfter⟩
  rw [ascend, run_bind stand_run, place.depthIs]
  exact ran

/-- With room left, one level more is entered. -/
theorem descend_run (place : At lexemes frame rest depth state) (room : depth < nestingLimit) :
    ∃ after, descend lexemes state = some (.ok (), after) ∧
      At lexemes frame rest (depth + 1) after := by
  obtain ⟨after, ran, placeAfter⟩ := place.setDepth_run (Nat.succ_le_of_lt room)
  refine ⟨after, ?_, placeAfter⟩
  rw [descend, run_bind stand_run, place.depthIs]
  simp only [if_neg (Nat.not_le.mpr room)]
  exact ran

theorem descend_tooDeep (place : At lexemes frame rest nestingLimit state) :
    descend lexemes state =
      some (.error (.complaint (Parser.tooDeep frame.stop rest)), state) := by
  rw [descend, run_bind stand_run, place.depthIs]
  simp only [if_pos (Nat.le_refl nestingLimit)]
  rw [run_bind place.here_run]
  rfl

theorem unexpected_run (place : At lexemes frame rest depth state) (expected : String) :
    unexpected lexemes expected state =
      some (.ok (Parser.expected expected frame.stop rest), state) := by
  rw [unexpected, run_bind place.here_run]
  rfl

end At

namespace Agrees

variable {result : Except Diagnostic (β × List Lexeme)}

theorem done {value : β} (place : At lexemes frame rest depth state) :
    Agrees lexemes frame (pure value) state depth (.ok (value, rest)) :=
  ⟨state, rfl, place⟩

theorem of_eq {reading other : Reading β} (same : reading state = other state)
    (agrees : Agrees lexemes frame other state final result) :
    Agrees lexemes frame reading state final result := by
  unfold Agrees at agrees ⊢
  rw [same]
  exact agrees

theorem step {first : Reading α} {second : α → Reading β} {value : α}
    (ran : first state = some (.ok value, after))
    (continues : Agrees lexemes frame (second value) after final result) :
    Agrees lexemes frame (first >>= second) state final result := by
  unfold Agrees at continues ⊢
  rw [run_bind ran]
  exact continues

/-- A complaint about the next lexeme. -/
theorem complaint (place : At lexemes frame rest depth state) (expected : String) :
    Agrees lexemes frame (unexpected lexemes expected >>= complain : Reading β) state final
      (.error (Parser.expected expected frame.stop rest)) :=
  .step (place.unexpected_run expected) ⟨state, rest, depth, rfl, place⟩

/-- One reading after another does what the one reader after the other does. -/
theorem bind {first : Reading α} {second : α → Reading β} {middle : Nat}
    {read : Except Diagnostic (α × List Lexeme)}
    {continued : α × List Lexeme → Except Diagnostic (β × List Lexeme)}
    (agrees : Agrees lexemes frame first state middle read)
    (continues : ∀ {value rest after}, read = .ok (value, rest) →
      At lexemes frame rest middle after →
      Agrees lexemes frame (second value) after final (continued (value, rest))) :
    Agrees lexemes frame (first >>= second) state final (read >>= continued) := by
  cases read with
  | error d =>
    obtain ⟨after, rest, reached, ran, place⟩ := agrees
    exact ⟨after, rest, reached, run_bind_failure ran, place⟩
  | ok read =>
    obtain ⟨after, ran, place⟩ := agrees
    exact .step ran (continues rfl place)

end Agrees

end

/-- What the other parser reads up to the operators of some tiers, with `room` levels left. -/
abbrev climbed (frame : Frame) (room : Nat) :
    List Tier → List Lexeme → Except Diagnostic (Expr × List Lexeme) :=
  Parser.climb (Parser.unary frame.stop room) (Parser.chain frame.stop room)

/-- A reading that takes one call for itself. -/
theorem Reads.of_succ {α : Type} {lexemes : List Lexeme} {frame : Frame} {room calls : Nat}
    {reading : Nat → Reading α} {read : List Lexeme → Except Diagnostic (α × List Lexeme)}
    (reads : ∀ ⦃more : Nat⦄, calls ≤ more → ∀ ⦃state : State⦄ ⦃rest : List Lexeme⦄ ⦃depth : Nat⦄,
      At lexemes frame rest depth state → depth + room = nestingLimit →
      Agrees lexemes frame (reading (more + 1)) state depth (read rest)) :
    Reads lexemes frame room (calls + 1) reading read := by
  intro more enough
  obtain ⟨more, rfl⟩ := Nat.exists_eq_add_of_le' (Nat.one_le_of_lt enough)
  exact reads (Nat.le_of_succ_le_succ enough)

theorem Reads.mono {α : Type} {lexemes : List Lexeme} {frame : Frame} {room calls more : Nat}
    {reading : Nat → Reading α} {read : List Lexeme → Except Diagnostic (α × List Lexeme)}
    (reads : Reads lexemes frame room calls reading read) (fewer : calls ≤ more) :
    Reads lexemes frame room more reading read :=
  fun _ enough => reads (Nat.le_trans fewer enough)

/-- With `calls` calls or more, the readers of expressions that call each other agree where `room`
levels are left. -/
structure Readers (lexemes : List Lexeme) (frame : Frame) (room calls : Nat) : Prop where
  unary : Reads lexemes frame room calls (unary lexemes) (Parser.unary frame.stop room)
  /-- What the levels of a chain are added to is its base, and a success goes back to it. -/
  chain : ∀ ⦃more : Nat⦄, calls ≤ more → ∀ ⦃tier : Tier⦄ ⦃base : Nat⦄ ⦃left : Expr⦄ ⦃state : State⦄
    ⦃rest : List Lexeme⦄ ⦃depth : Nat⦄, At lexemes frame rest depth state →
    depth + room = nestingLimit → base ≤ nestingLimit →
    Agrees lexemes frame (chain lexemes more tier base left) state base
      (Parser.chain frame.stop room tier left rest)

/-- What a reader encloses has a level less, if there is one. -/
def Enclosed (lexemes : List Lexeme) (frame : Frame) (room calls : Nat) : Prop :=
  ∀ less, room = less + 1 → Readers lexemes frame less calls

section

variable {lexemes : List Lexeme} {frame : Frame} {room calls : Nat}

namespace Readers

theorem level_of_operand (readers : Readers lexemes frame room calls) {tier : Tier} {more : Nat}
    (fewer : calls ≤ more)
    (operands : Reads lexemes frame room more (operand lexemes · tier)
      (climbed frame room tier.tighter)) :
    Reads lexemes frame room (more + 1) (level lexemes · tier)
      (climbed frame room (tier.tighter ++ [tier])) := by
  refine .of_succ ?_
  intro most enough state rest depth place levels
  rw [level, climbed, Parser.climb_append]
  refine .step stand_run ?_
  rw [place.depthIs]
  exact (operands enough place levels).bind fun _ placeAfter =>
    readers.chain (Nat.le_trans fewer enough) placeAfter levels place.nested

/-- Each tier stands on the one that binds next tighter. -/
theorem operand (readers : Readers lexemes frame room calls) (tier : Tier) :
    Reads lexemes frame room (calls + 7) (operand lexemes · tier)
      (climbed frame room tier.tighter) := by
  have products : Reads lexemes frame room (calls + 1) (Cursor.operand lexemes · .product)
      (climbed frame room Tier.product.tighter) :=
    .of_succ readers.unary
  have sums : Reads lexemes frame room (calls + 3) (Cursor.operand lexemes · .sum)
      (climbed frame room Tier.sum.tighter) :=
    .of_succ (readers.level_of_operand (by omega) products)
  have comparisons : Reads lexemes frame room (calls + 5) (Cursor.operand lexemes · .comparison)
      (climbed frame room Tier.comparison.tighter) :=
    .of_succ (readers.level_of_operand (by omega) sums)
  have equalities : Reads lexemes frame room (calls + 7) (Cursor.operand lexemes · .equality)
      (climbed frame room Tier.equality.tighter) :=
    .of_succ (readers.level_of_operand (by omega) comparisons)
  cases tier with
  | product => exact products.mono (by omega)
  | sum => exact sums.mono (by omega)
  | comparison => exact comparisons.mono (by omega)
  | equality => exact equalities

theorem level (readers : Readers lexemes frame room calls) (tier : Tier) :
    Reads lexemes frame room (calls + 8) (level lexemes · tier)
      (climbed frame room (tier.tighter ++ [tier])) :=
  readers.level_of_operand (by omega) (readers.operand tier)

theorem expression (readers : Readers lexemes frame room calls) :
    Reads lexemes frame room (calls + 8) (Cursor.level lexemes · .equality)
      (Parser.expression frame.stop room) :=
  readers.level .equality

/-- Each comma uses up a lexeme, so the bound of the other reader is not reached, and there are not
more calls than lexemes. -/
theorem moreArguments (readers : Readers lexemes frame room calls) {state : State}
    {rest : List Lexeme} {depth bound more : Nat} (enough : calls + 8 + bound ≤ more)
    (place : At lexemes frame rest depth state) (levels : depth + room = nestingLimit)
    (shorter : rest.length < bound) :
    Agrees lexemes frame (moreArguments lexemes more) state depth
      (Parser.arguments (Parser.expression frame.stop room) frame.stop bound rest) := by
  induction bound generalizing more state rest with
  | zero => exact (Nat.not_lt_zero _ shorter).elim
  | succ bound inductionHypothesis =>
    obtain ⟨more, rfl⟩ := Nat.exists_eq_add_of_le' (Nat.one_le_of_lt enough)
    rw [Cursor.moreArguments, Parser.arguments]
    refine (readers.expression (by omega) place levels).bind ?_
    intro arg behind after read placeAfter
    obtain ⟨taken, rfl, -⟩ := Parser.expression_takes frame.stop room read
    refine .step placeAfter.here_run ?_
    split
    case h_1 isComma =>
      obtain ⟨pos, rest, rfl⟩ := placeAfter.rest_eq isComma rfl
      obtain ⟨next, ran, placeNext⟩ := placeAfter.advance_run
      refine .step ran ?_
      have restShorter : rest.length < bound := by
        simp only [List.length_append, List.length_cons] at shorter
        omega
      exact (inductionHypothesis (by omega) placeNext restShorter).bind fun _ placeDone =>
        .done placeDone
    case h_2 isParen =>
      obtain ⟨pos, rest, rfl⟩ := placeAfter.rest_eq isParen rfl
      obtain ⟨next, ran, placeNext⟩ := placeAfter.advance_run
      exact .step ran (.done placeNext)
    case h_3 notComma notParen =>
      dsimp only
      split
      case h_1 => exact (notComma rfl).elim
      case h_2 => exact (notParen rfl).elim
      case h_3 => exact .complaint placeAfter _

theorem arguments (readers : Readers lexemes frame room calls) :
    Reads lexemes frame room (calls + lexemes.length + 9) (arguments lexemes)
      (Parser.callArguments (Parser.expression frame.stop room) frame.stop) := by
  refine .of_succ ?_
  intro more enough state rest depth place levels
  rw [Cursor.arguments]
  refine .step place.here_run ?_
  split
  case h_1 isParen =>
    obtain ⟨pos, rest, rfl⟩ := place.rest_eq isParen rfl
    obtain ⟨next, ran, placeNext⟩ := place.advance_run
    exact .step ran (.done placeNext)
  case h_2 notParen =>
    have shorter := place.length_lt
    have reads := readers.moreArguments (show calls + 8 + (rest.length + 1) ≤ more by omega) place
      levels (Nat.lt_succ_self rest.length)
    unfold Parser.callArguments
    split
    case h_1 => exact (notParen rfl).elim
    case h_2 => exact reads

end Readers

/-! An operand that is no unary operation. -/

section

variable {state : State} {rest : List Lexeme} {depth more : Nat}

/-- Entering a level, with or without room for one. -/
theorem Agrees.descend {β : Type} {second : Unit → Reading β} {final : Nat}
    {result : Except Diagnostic (β × List Lexeme)} (place : At lexemes frame rest depth state)
    (levels : depth + room = nestingLimit)
    (noRoom : room = 0 → result = .error (Parser.tooDeep frame.stop rest))
    (continues : ∀ {less after}, room = less + 1 → At lexemes frame rest (depth + 1) after →
      depth + 1 + less = nestingLimit →
      Agrees lexemes frame (second ()) after final result) :
    Agrees lexemes frame (descend lexemes >>= second) state final result := by
  cases room with
  | zero =>
    subst levels
    rw [noRoom rfl]
    exact ⟨state, rest, _, run_bind_failure place.descend_tooDeep, place⟩
  | succ less =>
    obtain ⟨after, ran, placeAfter⟩ := place.descend_run (by omega)
    exact .step ran (continues rfl placeAfter (by omega))

theorem primary_group (enclosed : Enclosed lexemes frame room calls)
    (enough : calls + lexemes.length + 9 ≤ more) {left : Position}
    (place : At lexemes frame (⟨.leftParen, left⟩ :: rest) depth state)
    (levels : depth + room = nestingLimit) :
    Agrees lexemes frame (primary lexemes (more + 1)) state depth
      (Parser.unary frame.stop room (⟨.leftParen, left⟩ :: rest)) := by
  rw [primary]
  refine .step place.here_run ?_
  obtain ⟨inside, ran, placeInside⟩ := place.advance_run
  refine .step ran (.descend placeInside levels ?_ ?_)
  · rintro rfl
    rfl
  · rintro less entered rfl placeEntered levelsEntered
    refine ((enclosed less rfl).expression (by omega) placeEntered levelsEntered).bind ?_
    intro inner behind after _ placeAfter
    obtain ⟨out, ran, placeOut⟩ := placeAfter.ascend_run
    refine .step ran (.step placeOut.here_run ?_)
    split
    case h_1 isParen =>
      obtain ⟨pos, rest, rfl⟩ := placeOut.rest_eq isParen rfl
      obtain ⟨next, ran, placeNext⟩ := placeOut.advance_run
      exact .step ran (.done placeNext)
    case h_2 notParen =>
      dsimp only [Parser.closing]
      split
      case h_1 => exact (notParen rfl).elim
      case h_2 => exact .complaint placeOut _

theorem primary_literal {first : Lexeme} {value : Value}
    (isLiteral : literal? first.token = some value)
    (place : At lexemes frame (first :: rest) depth state) :
    Agrees lexemes frame (primary lexemes (more + 1)) state depth
      (Parser.unary frame.stop room (first :: rest)) := by
  obtain ⟨next, ran, placeNext⟩ := place.advance_run
  rw [primary]
  refine .step place.here_run ?_
  simp only [Parser.front, List.headD_cons, isLiteral]
  unfold Parser.unary
  rw [Parser.opening?_literal isLiteral]
  exact .step ran (.done placeNext)

/-- A name is a call if a parenthesis is behind it. -/
theorem primary_name (enclosed : Enclosed lexemes frame room calls)
    (enough : calls + lexemes.length + 9 ≤ more) {text : String}
    (notLiteral : literal? (.name text) = none) {pos : Position}
    (place : At lexemes frame (⟨.name text, pos⟩ :: rest) depth state)
    (levels : depth + room = nestingLimit) :
    Agrees lexemes frame (primary lexemes (more + 1)) state depth
      (Parser.unary frame.stop room (⟨.name text, pos⟩ :: rest)) := by
  have isName := isName_of_literal?_eq_none notLiteral
  obtain ⟨next, ran, placeNext⟩ := place.advance_run
  rw [primary]
  refine .step place.here_run ?_
  simp only [Parser.front, List.headD_cons, notLiteral]
  refine .step ran (.step placeNext.here_run ?_)
  unfold Parser.unary
  split
  case h_1 isParen =>
    obtain ⟨left, rest, rfl⟩ := placeNext.rest_eq isParen rfl
    obtain ⟨inside, ran, placeInside⟩ := placeNext.advance_run
    rw [Parser.opening?_call isName]
    refine .step ran (.descend placeInside levels ?_ ?_)
    · rintro rfl
      rfl
    · rintro less entered rfl placeEntered levelsEntered
      refine ((enclosed less rfl).arguments enough placeEntered levelsEntered).bind ?_
      intro args behind after _ placeAfter
      obtain ⟨out, ran, placeOut⟩ := placeAfter.ascend_run
      exact .step ran (.done placeOut)
  case h_2 notParen =>
    have follows : Follows [] rest := by
      rintro first behind rfl
      exact ⟨notParen, by simp⟩
    rw [Parser.opening?_name isName pos follows]
    exact .done placeNext

/-- Nothing else starts an operand. -/
theorem primary_unexpected (notLiteral : literal? (Parser.front frame.stop rest).token = none)
    (notName : ∀ text, (Parser.front frame.stop rest).token ≠ .name text)
    (notParen : (Parser.front frame.stop rest).token ≠ .leftParen)
    (place : At lexemes frame rest depth state) :
    Agrees lexemes frame (primary lexemes (more + 1)) state depth
      (.error (Parser.expected "expression" frame.stop rest)) := by
  rw [primary]
  refine .step place.here_run ?_
  -- `notName` and `notParen` rule the first two cases out.
  simp only [notLiteral]
  exact .complaint place _

theorem opening?_eq_none (notSign : sign? (Parser.front frame.stop rest).token = none)
    (notLiteral : literal? (Parser.front frame.stop rest).token = none)
    (notName : ∀ text, (Parser.front frame.stop rest).token ≠ .name text)
    (notParen : (Parser.front frame.stop rest).token ≠ .leftParen) :
    Parser.opening? rest = none := by
  rw [Option.eq_none_iff_forall_ne_some]
  rintro ⟨start, behind⟩ opens
  have startIs := Parser.opening?_eq_some opens
  cases start with
  | sign op pos =>
    obtain ⟨token, isSign, rfl⟩ := startIs
    cases isSign.symm.trans notSign
  | literal value =>
    obtain ⟨first, isLiteral, rfl⟩ := startIs
    cases isLiteral.symm.trans notLiteral
  | call function pos =>
    obtain ⟨-, left, rfl⟩ := startIs
    exact notName function rfl
  | name text pos =>
    obtain ⟨-, rfl⟩ := startIs
    exact notName text rfl
  | group =>
    obtain ⟨left, rfl⟩ := startIs
    exact notParen rfl

/-- Without a sign in front, what the other parser reads is no unary operation. -/
theorem primary_agrees (enclosed : Enclosed lexemes frame room calls)
    (enough : calls + lexemes.length + 9 ≤ more)
    (notSign : sign? (Parser.front frame.stop rest).token = none)
    (place : At lexemes frame rest depth state) (levels : depth + room = nestingLimit) :
    Agrees lexemes frame (primary lexemes (more + 1)) state depth
      (Parser.unary frame.stop room rest) := by
  cases isLiteral : literal? (Parser.front frame.stop rest).token with
  | some value =>
    obtain ⟨first, behind, rfl⟩ := place.rest_eq_cons (literal?_ofExpression isLiteral).1.1
    exact primary_literal isLiteral place
  | none =>
    by_cases isName : ∃ text, (Parser.front frame.stop rest).token = .name text
    · obtain ⟨text, isName⟩ := isName
      obtain ⟨pos, behind, rfl⟩ := place.rest_eq isName rfl
      exact primary_name enclosed enough isLiteral place levels
    · by_cases isParen : (Parser.front frame.stop rest).token = .leftParen
      · obtain ⟨pos, behind, rfl⟩ := place.rest_eq isParen rfl
        exact primary_group enclosed enough place levels
      · have notName := not_exists.mp isName
        unfold Parser.unary
        rw [opening?_eq_none notSign isLiteral notName isParen]
        exact primary_unexpected isLiteral notName isParen place

/-- At a sign there is no operand but the one behind it. -/
theorem primary_sign {op : UnaryOp}
    (isSign : sign? (Parser.front frame.stop rest).token = some op)
    (place : At lexemes frame rest depth state) :
    Agrees lexemes frame (primary lexemes (more + 1)) state depth
      (.error (Parser.expected "expression" frame.stop rest)) := by
  obtain isBang | isMinus : (Parser.front frame.stop rest).token = .bang ∨
      (Parser.front frame.stop rest).token = .operator .sub := by
    unfold sign? at isSign
    split at isSign
    case h_1 isMinus => exact .inr isMinus
    case h_2 isBang => exact .inl isBang
    case h_3 => cases isSign
  · exact primary_unexpected (by rw [isBang]; rfl) (by rw [isBang]; nofun)
      (by rw [isBang]; nofun) place
  · exact primary_unexpected (by rw [isMinus]; rfl) (by rw [isMinus]; nofun)
      (by rw [isMinus]; nofun) place

theorem unary_agrees (enclosed : Enclosed lexemes frame room calls) :
    Reads lexemes frame room (calls + lexemes.length + 11) (unary lexemes)
      (Parser.unary frame.stop room) := by
  refine .of_succ ?_
  intro more enough state rest depth place levels
  obtain ⟨more, rfl⟩ := Nat.exists_eq_add_of_le' (Nat.one_le_of_lt enough)
  rw [unary]
  refine .step place.here_run ?_
  cases isSign : sign? (Parser.front frame.stop rest).token with
  | none =>
    simp only
    exact primary_agrees enclosed (by omega) isSign place levels
  | some op =>
    obtain ⟨⟨token, pos⟩, behind, rfl⟩ := place.rest_eq_cons (sign?_ofExpression isSign).1.1
    obtain ⟨next, ran, placeNext⟩ := place.advance_run
    unfold Parser.unary
    rw [Parser.opening?_sign (show sign? token = some op from isSign)]
    refine .step ran (.descend placeNext levels ?_ ?_)
    · rintro rfl
      rfl
    · rintro less entered rfl placeEntered levelsEntered
      refine ((enclosed less rfl).unary (by omega) placeEntered levelsEntered).bind ?_
      intro operand behind after _ placeAfter
      obtain ⟨out, ran, placeOut⟩ := placeAfter.ascend_run
      exact .step ran (.done placeOut)

/-- A chain ends where no operator of its tier is next, and goes back to its base. -/
theorem chain_ended {base : Nat} {left : Expr}
    (place : At lexemes frame rest depth state) (nested : base ≤ nestingLimit) :
    Agrees lexemes frame (setDepth base >>= fun _ => pure left) state base (.ok (left, rest)) := by
  obtain ⟨after, ran, placeAfter⟩ := place.setDepth_run nested
  exact .step ran (.done placeAfter)

/-- The levels of the operators of a chain are not left before its end, so the depth is that of its
start only if the base is. -/
theorem chain_agrees (enclosed : Enclosed lexemes frame room calls)
    (enough : calls + 7 ≤ more) {tier : Tier} {base : Nat} {left : Expr}
    (place : At lexemes frame rest depth state) (levels : depth + room = nestingLimit)
    (nested : base ≤ nestingLimit) :
    Agrees lexemes frame (chain lexemes (more + 1) tier base left) state base
      (Parser.chain frame.stop room tier left rest) := by
  rw [chain]
  refine .step place.here_run ?_
  split
  case h_1 op isOperator =>
    obtain ⟨pos, behind, rfl⟩ := place.rest_eq isOperator rfl
    unfold Parser.chain
    dsimp only
    split
    case isTrue sameTier =>
      obtain ⟨next, ran, placeNext⟩ := place.advance_run
      refine .step ran (.descend placeNext levels ?_ ?_)
      · rintro rfl
        rfl
      · rintro less entered rfl placeEntered levelsEntered
        have readers := enclosed less rfl
        refine (readers.operand tier enough placeEntered levelsEntered).bind ?_
        intro right rest after _ placeAfter
        exact readers.chain (by omega) placeAfter levelsEntered nested
    case isFalse => exact chain_ended place nested
  case h_2 noOperator =>
    unfold Parser.chain
    split
    case h_1 op pos behind => exact (noOperator op rfl).elim
    case h_2 => exact chain_ended place nested

/-- By induction on the room, of which each of the readers leaves less to what it encloses. -/
theorem readers_agree (lexemes : List Lexeme) (frame : Frame) (room : Nat) :
    Readers lexemes frame room ((room + 1) * (lexemes.length + 11)) := by
  induction room using Nat.strongRecOn with
  | ind room inductionHypothesis =>
    have enclosed : Enclosed lexemes frame room (room * (lexemes.length + 11)) := by
      rintro less rfl
      exact inductionHypothesis less (Nat.lt_succ_self less)
    rw [Nat.succ_mul]
    refine ⟨unary_agrees enclosed, ?_⟩
    intro more enough tier base left state rest depth place levels nested
    obtain ⟨more, rfl⟩ := Nat.exists_eq_add_of_le' (Nat.one_le_of_lt enough)
    exact chain_agrees enclosed (by omega) place levels nested

end

end

theorem enclosed_agree (lexemes : List Lexeme) (frame : Frame) (room : Nat) :
    Enclosed lexemes frame room (room * (lexemes.length + 11)) := by
  rintro less rfl
  exact readers_agree lexemes frame less

/-- As many calls as the readers nest at most, of expressions that have all the room there is. -/
def callsEnough (lexemes : List Lexeme) : Nat :=
  (nestingLimit + 2) * (lexemes.length + 11)

/-- Whatever room is left, there are calls to spare. -/
theorem room_calls_le (lexemes : List Lexeme) {depth room : Nat}
    (levels : depth + room = nestingLimit) :
    (room + 1) * (lexemes.length + 11) + (lexemes.length + 11) ≤ callsEnough lexemes := by
  rw [← Nat.succ_mul]
  exact Nat.mul_le_mul_right _ (by omega)

theorem Readers.sufficient (lexemes : List Lexeme) (frame : Frame) {depth room : Nat}
    (levels : depth + room = nestingLimit) :
    ∃ calls, calls + (lexemes.length + 11) ≤ callsEnough lexemes ∧
      Readers lexemes frame room calls :=
  ⟨_, room_calls_le lexemes levels, readers_agree lexemes frame room⟩

/-! Statements, from any depth. The other parser only reads them at depth 0. -/

section

variable {lexemes rest : List Lexeme} {frame : Frame} {state : State} {depth room calls : Nat}

/-- The lexemes have the form of a declaration, whatever the first word is. -/
def Declares (lexemes : List Lexeme) : Prop :=
  ∃ word first name pos assign behind,
    lexemes = ⟨.name word, first⟩ :: ⟨.name name, pos⟩ :: ⟨.assign, assign⟩ :: behind

/-- The parser looks two lexemes ahead, also beyond the end of a statement, and sees a declaration
only where one is. -/
theorem At.ahead_noDeclaration (place : At lexemes frame rest depth state)
    (noDeclaration : ¬Declares rest) :
    ∃ second third, ahead lexemes 1 state = some (.ok second, state) ∧
      ahead lexemes 2 state = some (.ok third, state) ∧
      ∀ word name, (Parser.front frame.stop rest).token = .name word →
        second.token = .name name → third.token ≠ .assign := by
  have notName : ∀ name, frame.stop.token ≠ .name name := by
    intro name isName
    cases isName ▸ frame.stops
  obtain ⟨third, thirdRan⟩ := place.ahead_exists 2
  rcases rest with _ | ⟨⟨firstToken, _⟩, _ | ⟨⟨secondToken, _⟩, behind⟩⟩
  · obtain ⟨second, secondRan⟩ := place.ahead_exists 1
    exact ⟨second, third, secondRan, thirdRan, fun word _ isName => (notName word isName).elim⟩
  · exact ⟨frame.stop, third, place.ahead_run rfl, thirdRan,
      fun _ name _ isName => (notName name isName).elim⟩
  · have thirdRan : ahead lexemes 2 state = some (.ok (Parser.front frame.stop behind), state) :=
      place.ahead_run (by cases behind <;> rfl)
    refine ⟨_, _, place.ahead_run rfl, thirdRan, ?_⟩
    rintro word name ⟨⟩ ⟨⟩ isAssign
    obtain ⟨inside, -, placeInside⟩ := place.advance_run
    obtain ⟨next, -, placeNext⟩ := placeInside.advance_run
    obtain ⟨assign, behind, rfl⟩ := placeNext.rest_eq isAssign rfl
    exact noDeclaration ⟨word, _, name, _, assign, behind, rfl⟩

theorem expression_agrees (enough : callsEnough lexemes ≤ calls)
    (place : At lexemes frame rest depth state) (levels : depth + room = nestingLimit) :
    Agrees lexemes frame (level lexemes calls .equality) state depth
      (Parser.expression frame.stop room rest) := by
  obtain ⟨fewer, spare, readers⟩ := Readers.sufficient lexemes frame levels
  exact readers.expression (by omega) place levels

theorem expressionStatement_agrees (enough : callsEnough lexemes ≤ calls)
    (place : At lexemes frame rest depth state) (levels : depth + room = nestingLimit) :
    Agrees lexemes frame (expressionStatement lexemes calls) state depth
      (Parser.expression frame.stop room rest >>= fun read =>
        .ok (.expr read.1 false (Parser.front frame.stop rest).pos, read.2)) := by
  rw [expressionStatement]
  refine .step place.here_run ?_
  exact (expression_agrees enough place levels).bind fun _ placeAfter => .done placeAfter

theorem declaration_agrees (enough : callsEnough lexemes ≤ calls) {word name : String}
    {kind? : Option Kind} {first pos assign : Position}
    (place : At lexemes frame
      (⟨.name word, first⟩ :: ⟨.name name, pos⟩ :: ⟨.assign, assign⟩ :: rest) depth state)
    (levels : depth + room = nestingLimit) :
    Agrees lexemes frame (declaration lexemes calls kind?) state depth
      (Parser.expression frame.stop room rest >>= fun read =>
        .ok (.declare name kind? read.1 pos, read.2)) := by
  obtain ⟨atName, wordRan, placeName⟩ := place.advance_run
  obtain ⟨atAssign, nameRan, placeAssign⟩ := placeName.advance_run
  obtain ⟨atInit, assignRan, placeInit⟩ := placeAssign.advance_run
  rw [declaration]
  refine .step wordRan (.step nameRan (.step assignRan ?_))
  exact (expression_agrees enough placeInit levels).bind fun _ placeAfter => .done placeAfter

/-- A statement is a declaration for both parsers, or for none. -/
theorem statement_run (calls : Nat) (place : At lexemes frame rest depth state) :
    (∃ word first name pos assign behind kind?,
      rest = ⟨.name word, first⟩ :: ⟨.name name, pos⟩ :: ⟨.assign, assign⟩ :: behind ∧
      Parser.declarator? word = some kind? ∧
      statement lexemes calls state = declaration lexemes calls kind? state) ∨
    statement lexemes calls state = expressionStatement lexemes calls state ∧
      Parser.statement frame.stop rest = Parser.expressionStatement frame.stop rest := by
  rw [statement, run_bind place.here_run]
  by_cases declares : Declares rest
  · obtain ⟨word, first, name, pos, assign, behind, rfl⟩ := declares
    rw [run_bind (place.ahead_run rfl), run_bind (place.ahead_run rfl), Parser.statement]
    cases isDeclarator : Parser.declarator? word with
    | some kind? =>
      refine .inl ⟨word, first, name, pos, assign, behind, kind?, rfl, isDeclarator, ?_⟩
      simp only [Parser.front, List.headD_cons, isDeclarator]
    | none =>
      refine .inr ⟨?_, rfl⟩
      simp only [Parser.front, List.headD_cons, isDeclarator]
  · obtain ⟨second, third, secondRan, thirdRan, noDeclaration⟩ := place.ahead_noDeclaration declares
    rw [run_bind secondRan, run_bind thirdRan]
    refine .inr ⟨?_, ?_⟩
    · -- `noDeclaration` rules the first case out.
      simp only
    · unfold Parser.statement
      split
      case h_1 word first name pos assign behind =>
        exact (declares ⟨word, first, name, pos, assign, behind, rfl⟩).elim
      case h_2 => rfl

/-- A statement is read at any depth, and at depth 0 as the other parser reads it. -/
theorem statement_agrees (enough : callsEnough lexemes ≤ calls)
    (place : At lexemes frame rest depth state) :
    ∃ read, Agrees lexemes frame (statement lexemes calls) state depth read ∧
      (depth = 0 → read = Parser.statement frame.stop rest) := by
  have levels : depth + (nestingLimit - depth) = nestingLimit :=
    Nat.add_sub_cancel' place.nested
  obtain ⟨word, first, name, pos, assign, behind, kind?, rfl, declares, same⟩ | ⟨same, sameRead⟩ :=
    statement_run calls place
  · refine ⟨_, .of_eq same (declaration_agrees enough place levels), ?_⟩
    rintro rfl
    rw [Parser.statement]
    simp only [declares]
    rfl
  · refine ⟨_, .of_eq same (expressionStatement_agrees enough place levels), ?_⟩
    rintro rfl
    rw [sameRead]
    rfl

end

end Cursor

end Colloquy.Calc

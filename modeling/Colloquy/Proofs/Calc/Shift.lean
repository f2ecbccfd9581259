import Colloquy.Calc.Session
import Colloquy.Proofs.Calc.Expr

set_option autoImplicit false

/-!
Texts that stand further down. Moving a text down by some lines moves every position in what is made
of it by as many lines, and changes nothing else: lexemes, expressions, complaints and faults are the
same ones with other positions.
-/

namespace Colloquy

def Position.shift (lines : Nat) (pos : Position) : Position :=
  ⟨pos.line + lines, pos.column⟩

def Diagnostic.shift (lines : Nat) (d : Diagnostic) : Diagnostic :=
  { d with position := d.position.shift lines }

namespace Calc

def Lexeme.shift (lines : Nat) (lexeme : Lexeme) : Lexeme :=
  ⟨lexeme.token, lexeme.pos.shift lines⟩

mutual

def Expr.shift (lines : Nat) : Expr → Expr
  | .literal value => .literal value
  | .name text pos => .name text (pos.shift lines)
  | .unary op operand pos => .unary op (operand.shift lines) (pos.shift lines)
  | .binary op left right pos =>
    .binary op (left.shift lines) (right.shift lines) (pos.shift lines)
  | .call function args pos => .call function (Expr.shiftAll lines args) (pos.shift lines)

def Expr.shiftAll (lines : Nat) : List Expr → List Expr
  | [] => []
  | arg :: args => arg.shift lines :: Expr.shiftAll lines args

end

def Statement.shift (lines : Nat) : Statement → Statement
  | .declare name kind? init pos => .declare name kind? (init.shift lines) (pos.shift lines)
  | .expr e terminated pos => .expr (e.shift lines) terminated (pos.shift lines)

def Fault.shift (lines : Nat) : Fault → Fault
  | .divisionByZero pos => .divisionByZero (pos.shift lines)
  | .overflow pos => .overflow (pos.shift lines)
  | .argumentOutOfRange pos index count => .argumentOutOfRange (pos.shift lines) index count

/-! The lexer. -/

namespace Lexer

def Mode.shift (lines : Nat) : Mode → Mode
  | .ready => .ready
  | .comment => .comment
  | .digits start text => .digits (start.shift lines) text
  | .point start text => .point (start.shift lines) text
  | .decimals start whole places => .decimals (start.shift lines) whole places
  | .word start text => .word (start.shift lines) text
  | .string start text => .string (start.shift lines) text
  | .escape start text => .escape (start.shift lines) text
  | .operator start first => .operator (start.shift lines) first

def State.shift (lines : Nat) (s : State) : State :=
  ⟨s.mode.shift lines, s.pos.shift lines, s.depth⟩

def shiftItem (lines : Nat) : Item → Item
  | .ok lexeme => .ok (lexeme.shift lines)
  | .error d => .error (d.shift lines)

/-- A state and what was given out on the way to it. -/
def shiftBoth (lines : Nat) (reached : State × List Item) : State × List Item :=
  (reached.1.shift lines, reached.2.map (shiftItem lines))

variable (lines : Nat)

theorem right_shift (pos : Position) : right (pos.shift lines) = (right pos).shift lines := rfl

theorem down_shift (pos : Position) : down (pos.shift lines) = (down pos).shift lines := by
  simp [down, Position.shift, Nat.add_right_comm]

theorem integer_shift (start : Position) (text : List Char) :
    integer (start.shift lines) text = shiftItem lines (integer start text) := by
  unfold integer
  split <;> rfl

theorem finish_shift (mode : Mode) :
    (mode.shift lines).finish = mode.finish.map (shiftItem lines) := by
  cases mode with
  | ready | comment | decimals | word | string | escape => rfl
  | digits start text => simp [Mode.shift, Mode.finish, integer_shift]
  | point start text =>
    simp only [Mode.shift, Mode.finish, integer_shift, List.map_cons, List.map_nil]
    rfl
  | operator start first =>
    simp only [Mode.shift, Mode.finish]
    split <;> rfl

/-- Which case applies depends on the character alone, and each one moves with its position. -/
theorem ready_shift (s : State) (c : Char) :
    ready (s.shift lines) c = shiftBoth lines (ready s c) := by
  unfold ready
  dsimp only
  rw [apply_ite (shiftBoth lines)]
  refine ite_congr rfl (fun _ => ?newline) fun _ => ?_
  case newline =>
    simp only [State.shift, down_shift, shiftBoth, apply_ite (List.map (shiftItem lines))]
    rfl
  iterate 9
    rw [apply_ite (shiftBoth lines)]
    refine ite_congr rfl (fun _ => rfl) fun _ => ?_
  split <;> rfl

theorem interrupt_shift (s : State) (c : Char) :
    interrupt (s.shift lines) c = shiftBoth lines (interrupt s c) := by
  have next := ready_shift lines ⟨.ready, s.pos, s.depth⟩ c
  simp only [State.shift, Mode.shift] at next
  simp only [interrupt, State.shift, next, finish_shift, shiftBoth, List.map_append]

theorem step_shift (s : State) (c : Char) :
    step (s.shift lines) c = shiftBoth lines (step s c) := by
  have interrupted := interrupt_shift lines s c
  obtain ⟨mode, pos, depth⟩ := s
  cases mode with
  | ready => exact ready_shift lines _ c
  | comment =>
    simp only [step, apply_ite (shiftBoth lines)]
    exact ite_congr rfl (fun _ => interrupted) fun _ => rfl
  | digits start text =>
    simp only [step, apply_ite (shiftBoth lines)]
    exact ite_congr rfl (fun _ => rfl) fun _ =>
      ite_congr rfl (fun _ => rfl) fun _ => interrupted
  | point start text | decimals start whole places | word start text =>
    simp only [step, apply_ite (shiftBoth lines)]
    exact ite_congr rfl (fun _ => rfl) fun _ => interrupted
  | string start text =>
    simp only [step, apply_ite (shiftBoth lines)]
    exact ite_congr rfl (fun _ => interrupted) fun _ => ite_congr rfl (fun _ => rfl) fun _ =>
      ite_congr rfl (fun _ => rfl) fun _ => rfl
  | escape start text =>
    simp only [step, State.shift, down_shift, right_shift, shiftBoth,
      ← apply_ite (Position.shift lines)]
    rfl
  | operator start first =>
    simp only [step, apply_ite (shiftBoth lines)]
    refine ite_congr rfl (fun _ => rfl) fun _ => ?_
    simp only [State.shift, Mode.shift]
    split
    · rfl
    · exact interrupted

theorem run_shift (s : State) (text : List Char) :
    run (s.shift lines) text = (run s text).map (shiftItem lines) := by
  induction text generalizing s with
  | nil =>
    simp only [run, List.map_append, State.shift, finish_shift]
    rfl
  | cons c rest inductionHypothesis =>
    simp only [run, step_shift, shiftBoth, List.map_append, inductionHypothesis]

end Lexer

/-! The readers. They see positions only to hand them on, and the lexeme that ends a statement only
to complain about it, so that one may be any other. -/

theorem Expr.shiftAll_eq_map (lines : Nat) (args : List Expr) :
    Expr.shiftAll lines args = args.map (Expr.shift lines) := by
  induction args with
  | nil => rfl
  | cons arg args inductionHypothesis => simp [Expr.shiftAll, inductionHypothesis]

namespace Parser

variable {lines : Nat} {stop other : Lexeme}

def Opening.shift (lines : Nat) : Opening → Opening
  | .sign op pos => .sign op (pos.shift lines)
  | .literal value => .literal value
  | .call function pos => .call function (pos.shift lines)
  | .name text pos => .name text (pos.shift lines)
  | .group => .group

/-- The same complaint about the same lexemes further down. -/
inductive Complains (lines : Nat) (stop other : Lexeme) : Diagnostic → Diagnostic → Prop
  | expected (what : String) (lexemes : List Lexeme) :
      Complains lines stop other (expected what stop lexemes)
        (expected what other (lexemes.map (Lexeme.shift lines)))
  | tooDeep (lexemes : List Lexeme) :
      Complains lines stop other (tooDeep stop lexemes)
        (tooDeep other (lexemes.map (Lexeme.shift lines)))

/-- The same result further down. -/
inductive Moves {α : Type} (lines : Nat) (stop other : Lexeme) (move : α → α) :
    Except Diagnostic α → Except Diagnostic α → Prop
  | ok (value : α) : Moves lines stop other move (.ok value) (.ok (move value))
  | error {d moved : Diagnostic} : Complains lines stop other d moved →
      Moves lines stop other move (.error d) (.error moved)

/-- A thing taken from the lexemes, and the lexemes left. -/
def shiftTaken {α : Type} (lines : Nat) (move : α → α) (taken : α × List Lexeme) :
    α × List Lexeme :=
  (move taken.1, taken.2.map (Lexeme.shift lines))

theorem Moves.bind {α β : Type} {move : α → α} {moveResult : β → β}
    {first moved : Except Diagnostic α} {second secondMoved : α → Except Diagnostic β}
    (firstMoves : Moves lines stop other move first moved)
    (secondMoves : ∀ value,
      Moves lines stop other moveResult (second value) (secondMoved (move value))) :
    Moves lines stop other moveResult (first >>= second) (moved >>= secondMoved) := by
  cases firstMoves with
  | ok value => exact secondMoves value
  | error complains => exact .error complains

/-- A reader that moves with the lexemes. -/
def MovesReader {α : Type} (lines : Nat) (stop other : Lexeme) (move : α → α)
    (read moved : List Lexeme → Except Diagnostic (α × List Lexeme)) : Prop :=
  ∀ lexemes, Moves lines stop other (shiftTaken lines move) (read lexemes)
    (moved (lexemes.map (Lexeme.shift lines)))

theorem opening?_shift (lexemes : List Lexeme) :
    opening? (lexemes.map (Lexeme.shift lines)) =
      (opening? lexemes).map fun opened =>
        (opened.1.shift lines, opened.2.map (Lexeme.shift lines)) := by
  fun_cases opening? lexemes
  all_goals try rfl
  case case8 text pos left rest notTrue notFalse =>
    simp [opening?, Lexeme.shift, Opening.shift]
  case case9 text pos rest notTrue notFalse notCall =>
    rcases rest with _ | ⟨⟨token, behind⟩, rest⟩
    · simp [opening?, Lexeme.shift, Opening.shift]
    · cases token
      case leftParen => exact (notCall _ _ rfl).elim
      all_goals simp [opening?, Lexeme.shift, Opening.shift]
  case case11 noSub noBang noInt noDouble noString noTrue noFalse noCall noName noGroup =>
    rcases lexemes with _ | ⟨⟨token, pos⟩, rest⟩
    · rfl
    · cases token
      case operator op =>
        cases op
        case sub => exact (noSub _ _ rfl).elim
        all_goals rfl
      case bang => exact (noBang _ _ rfl).elim
      case int => exact (noInt _ _ _ rfl).elim
      case double => exact (noDouble _ _ _ rfl).elim
      case string => exact (noString _ _ _ rfl).elim
      case name => exact (noName _ _ _ rfl).elim
      case leftParen => exact (noGroup _ _ rfl).elim
      all_goals rfl

section

variable {operand movedOperand : List Lexeme → Except Diagnostic (Expr × List Lexeme)}
  {chain movedChain : Tier → Expr → List Lexeme → Except Diagnostic (Expr × List Lexeme)}

/-- A chain that moves with what stands before it. -/
def MovesChain (lines : Nat) (stop other : Lexeme)
    (chain moved : Tier → Expr → List Lexeme → Except Diagnostic (Expr × List Lexeme)) : Prop :=
  ∀ tier left, MovesReader lines stop other (Expr.shift lines) (chain tier left)
    (moved tier (left.shift lines))

theorem climb_moves
    (operands : MovesReader lines stop other (Expr.shift lines) operand movedOperand)
    (chains : MovesChain lines stop other chain movedChain) (tiers : List Tier) :
    MovesReader lines stop other (Expr.shift lines) (climb operand chain tiers)
      (climb movedOperand movedChain tiers) := by
  intro lexemes
  have start := operands lexemes
  unfold climb
  generalize operand lexemes = first at start ⊢
  generalize movedOperand (lexemes.map (Lexeme.shift lines)) = moved at start ⊢
  induction tiers generalizing first moved with
  | nil => exact start
  | cons tier tiers inductionHypothesis =>
    exact inductionHypothesis _ _ (start.bind fun taken => chains tier taken.1 taken.2)

end

section

variable {read moved : List Lexeme → Except Diagnostic (Expr × List Lexeme)}

theorem arguments_move (reads : MovesReader lines stop other (Expr.shift lines) read moved)
    (bound : Nat) :
    MovesReader lines stop other (List.map (Expr.shift lines)) (arguments read stop bound)
      (arguments moved other bound) := by
  induction bound with
  | zero => exact fun lexemes => .error (.expected _ lexemes)
  | succ bound inductionHypothesis =>
    intro lexemes
    refine (reads lexemes).bind ?_
    rintro ⟨arg, rest⟩
    rcases rest with _ | ⟨⟨token, pos⟩, rest⟩
    · exact .error (.expected _ [])
    · cases token
      case comma =>
        refine (inductionHypothesis rest).bind ?_
        rintro ⟨args, final⟩
        exact .ok (arg :: args, final)
      case rightParen => exact .ok ([arg], rest)
      all_goals exact .error (.expected _ (_ :: rest))

theorem callArguments_move (reads : MovesReader lines stop other (Expr.shift lines) read moved) :
    MovesReader lines stop other (List.map (Expr.shift lines)) (callArguments read stop)
      (callArguments moved other) := by
  intro lexemes
  have args := arguments_move reads (lexemes.length + 1) lexemes
  rcases lexemes with _ | ⟨⟨token, pos⟩, rest⟩
  · exact args
  · simp only [List.length_cons] at args
    cases token
    case rightParen => exact .ok ([], rest)
    all_goals simpa [callArguments, Lexeme.shift] using args

theorem closing_moves (inner : Expr) :
    MovesReader lines stop other (Expr.shift lines) (closing stop inner)
      (closing other (inner.shift lines)) := by
  intro lexemes
  rcases lexemes with _ | ⟨⟨token, pos⟩, rest⟩
  · exact .error (.expected _ [])
  · cases token
    case rightParen => exact .ok (inner, rest)
    all_goals exact .error (.expected _ (_ :: rest))

end

/-- The two readers that call each other, by induction on the room that both use up. -/
theorem readers_move (lines : Nat) (stop other : Lexeme) (room : Nat) :
    MovesReader lines stop other (Expr.shift lines) (unary stop room) (unary other room) ∧
      MovesChain lines stop other (chain stop room) (chain other room) := by
  induction room with
  | zero =>
    constructor
    · intro lexemes
      unfold unary
      rw [opening?_shift]
      rcases opening? lexemes with _ | ⟨start, rest⟩
      · exact .error (.expected _ lexemes)
      · cases start with
        | literal value => exact .ok (Expr.literal value, rest)
        | name text pos => exact .ok (Expr.name text pos, rest)
        | sign | call | group => exact .error (.tooDeep rest)
    · intro tier left lexemes
      rcases lexemes with _ | ⟨⟨token, pos⟩, rest⟩
      · exact .ok (left, [])
      · cases token
        case operator op =>
          simp only [List.map_cons, Lexeme.shift, chain]
          split
          · exact .error (.tooDeep rest)
          · exact .ok (left, _ :: rest)
        all_goals exact .ok (left, _ :: rest)
  | succ room inductionHypothesis =>
    obtain ⟨operands, chains⟩ := inductionHypothesis
    have expressions := climb_moves operands chains [.product, .sum, .comparison, .equality]
    constructor
    · intro lexemes
      unfold unary
      rw [opening?_shift]
      rcases opening? lexemes with _ | ⟨start, rest⟩
      · exact .error (.expected _ lexemes)
      · cases start with
        | literal value => exact .ok (Expr.literal value, rest)
        | name text pos => exact .ok (Expr.name text pos, rest)
        | sign op pos =>
          refine (operands rest).bind ?_
          rintro ⟨operand, behind⟩
          exact .ok (Expr.unary op operand pos, behind)
        | call function pos =>
          refine (callArguments_move expressions rest).bind ?_
          rintro ⟨args, behind⟩
          have moved : Moves lines stop other (shiftTaken lines (Expr.shift lines)) _ _ :=
            .ok (.call function args pos, behind)
          rwa [shiftTaken, Expr.shift, Expr.shiftAll_eq_map] at moved
        | group =>
          refine (expressions rest).bind ?_
          rintro ⟨inner, behind⟩
          exact closing_moves inner behind
    · intro tier left lexemes
      rcases lexemes with _ | ⟨⟨token, pos⟩, rest⟩
      · exact .ok (left, [])
      · cases token
        case operator op =>
          simp only [List.map_cons, Lexeme.shift, chain]
          split
          · refine (climb_moves operands chains tier.tighter rest).bind ?_
            rintro ⟨right, behind⟩
            exact chains tier (.binary op left right pos) behind
          · exact .ok (left, _ :: rest)
        all_goals exact .ok (left, _ :: rest)

theorem expression_moves (lines : Nat) (stop other : Lexeme) (room : Nat) :
    MovesReader lines stop other (Expr.shift lines) (expression stop room)
      (expression other room) :=
  climb_moves (readers_move lines stop other room).1 (readers_move lines stop other room).2 _

theorem expressionStatement_moves (lines : Nat) (stop other first : Lexeme)
    (rest : List Lexeme) :
    Moves lines stop other (shiftTaken lines (Statement.shift lines))
      (expressionStatement stop (first :: rest))
      (expressionStatement other ((first :: rest).map (Lexeme.shift lines))) := by
  refine (expression_moves lines stop other nestingLimit (first :: rest)).bind ?_
  rintro ⟨e, behind⟩
  exact .ok (Statement.expr e false first.pos, behind)

/-- A statement that has a lexeme moves; without one, an expression would stand where the statement
ends. -/
theorem statement_moves (lines : Nat) (stop other first : Lexeme) (rest : List Lexeme) :
    Moves lines stop other (shiftTaken lines (Statement.shift lines))
      (statement stop (first :: rest))
      (statement other ((first :: rest).map (Lexeme.shift lines))) := by
  have plain := expressionStatement_moves lines stop other first rest
  obtain ⟨token, pos⟩ := first
  cases token
  case name word =>
    rcases rest with _ | ⟨⟨token, namePos⟩, rest⟩
    · exact plain
    · cases token
      case name name =>
        rcases rest with _ | ⟨⟨token, assignPos⟩, rest⟩
        · exact plain
        · cases token
          case assign =>
            simp only [List.map_cons, Lexeme.shift, statement]
            split
            case h_1 kind? declares =>
              refine (expression_moves lines stop other nestingLimit rest).bind ?_
              rintro ⟨init, behind⟩
              exact .ok (Statement.declare name kind? init namePos, behind)
            case h_2 => exact plain
          all_goals exact plain
      all_goals exact plain
  all_goals exact plain

end Parser

def Segment.shift (lines : Nat) (segment : Segment) : Segment :=
  ⟨segment.body.map (Lexeme.shift lines), segment.stop.shift lines⟩

theorem Statement.terminate_shift (lines : Nat) (statement : Statement) :
    (statement.shift lines).terminate = statement.terminate.shift lines := by
  cases statement <;> rfl

/-- A segment that is not empty moves, whatever ends it, unless only one of the two is ended by a
semicolon. -/
theorem Segment.parse_moves (lines : Nat) (stop other : Lexeme)
    (alike : stop.token = .semicolon ↔ other.token = .semicolon) (first : Lexeme)
    (rest : List Lexeme) :
    Parser.Moves lines stop other (Statement.shift lines) (Segment.mk (first :: rest) stop).parse
      (Segment.mk ((first :: rest).map (Lexeme.shift lines)) other).parse := by
  refine (Parser.statement_moves lines stop other first rest).bind ?_
  rintro ⟨statement, left⟩
  rcases left with _ | ⟨lexeme, left⟩
  · simp only [Parser.shiftTaken, List.map_nil, List.isEmpty_nil, if_true]
    split
    case h_1 terminated =>
      rw [alike.mp terminated, Statement.terminate_shift]
      exact .ok _
    case h_2 unterminated =>
      split
      case h_1 terminated => exact (unterminated (alike.mpr terminated)).elim
      case h_2 => exact .ok _
  · exact .error (.expected _ (lexeme :: left))

/-! The checker and evaluation. -/

def Checked.shift (lines : Nat) (checked : Checked) : Checked :=
  ⟨checked.kind, checked.complaints.map (Diagnostic.shift lines)⟩

section

variable (lines : Nat)

theorem refuse_shift (before : List Diagnostic) (pos : Position) (message : String) :
    Checked.refuse (before.map (Diagnostic.shift lines)) (pos.shift lines) message =
      (Checked.refuse before pos message).shift lines := by
  simp [Checked.refuse, Checked.shift, Diagnostic.shift, Diagnostic.error]

theorem checkUnary_shift (op : UnaryOp) (operand : Checked) (pos : Position) :
    checkUnary op (operand.shift lines) (pos.shift lines) =
      (checkUnary op operand pos).shift lines := by
  unfold checkUnary
  simp only [Checked.shift]
  change _ = Checked.shift lines _
  rw [apply_ite (Checked.shift lines)]
  refine ite_congr rfl (fun _ => rfl) fun _ => ?_
  split
  · rfl
  · exact refuse_shift lines ..

theorem checkBinary_shift (op : BinaryOp) (left right : Checked) (pos : Position) :
    checkBinary op (left.shift lines) (right.shift lines) (pos.shift lines) =
      (checkBinary op left right pos).shift lines := by
  unfold checkBinary
  simp only [Checked.shift, ← List.map_append]
  change _ = Checked.shift lines _
  rw [apply_ite (Checked.shift lines)]
  refine ite_congr rfl (fun _ => rfl) fun _ => ?_
  split
  · rfl
  · exact refuse_shift lines ..

theorem checkCall_shift (function : String) (args : List Checked) (pos : Position) :
    checkCall function (args.map (Checked.shift lines)) (pos.shift lines) =
      (checkCall function args pos).shift lines := by
  have kinds : (args.map (Checked.shift lines)).map Checked.kind = args.map Checked.kind := by
    simp [Checked.shift]
  have complaints : (args.map (Checked.shift lines)).flatMap Checked.complaints =
      (args.flatMap Checked.complaints).map (Diagnostic.shift lines) := by
    simp [Checked.shift, List.flatMap_map, List.map_flatMap]
  unfold checkCall
  rw [kinds, complaints]
  split
  case h_1 | h_2 | h_3 => rfl
  case h_4 =>
    dsimp only
    rw [apply_ite (Checked.shift lines)]
    exact ite_congr rfl (fun _ => refuse_shift lines ..) fun _ => refuse_shift lines ..

theorem check_shift (scope : Scope) (e : Expr) :
    check scope (e.shift lines) = (check scope e).shift lines := by
  induction e with
  | literal value => rfl
  | name text pos =>
    simp only [Expr.shift, check]
    split
    · rfl
    · exact refuse_shift lines [] pos _
  | unary op operand pos operandShift =>
    simp only [Expr.shift, check, operandShift, checkUnary_shift]
  | binary op left right pos leftShift rightShift =>
    simp only [Expr.shift, check, leftShift, rightShift, checkBinary_shift]
  | call function args pos argsShift =>
    have checked : (args.map (Expr.shift lines)).map (check scope) =
        (args.map (check scope)).map (Checked.shift lines) := by
      simp only [List.map_map]
      exact List.map_congr_left argsShift
    simp only [Expr.shift, check, checkAll_eq_map, Expr.shiftAll_eq_map, checked, checkCall_shift]

theorem mapError_bind {α β : Type} (move : Fault → Fault) (first : Except Fault α)
    (second : α → Except Fault β) :
    (first >>= second).mapError move =
      first.mapError move >>= fun value => (second value).mapError move := by
  cases first <;> rfl

theorem integer_shift (n : Int) (pos : Position) :
    integer n (pos.shift lines) = (integer n pos).mapError (Fault.shift lines) := by
  unfold integer
  split <;> rfl

theorem evalUnary_shift (op : UnaryOp) (operand : Value) (pos : Position) :
    evalUnary op operand (pos.shift lines) =
      (evalUnary op operand pos).mapError (Fault.shift lines) := by
  unfold evalUnary
  split
  case h_1 => exact integer_shift lines ..
  all_goals rfl

theorem integerArithmetic_shift (op : BinaryOp) (a b : Int) (pos : Position) :
    integerArithmetic op a b (pos.shift lines) =
      (integerArithmetic op a b pos).mapError (Fault.shift lines) := by
  unfold integerArithmetic
  split
  case h_1 | h_2 | h_3 => exact integer_shift lines ..
  case h_4 =>
    rw [apply_ite (Except.mapError (Fault.shift lines))]
    exact ite_congr rfl (fun _ => rfl) fun _ => integer_shift lines ..
  case h_5 =>
    rw [apply_ite (Except.mapError (Fault.shift lines))]
    refine ite_congr rfl (fun _ => rfl) fun _ => ?_
    rw [apply_ite (Except.mapError (Fault.shift lines))]
    exact ite_congr rfl (fun _ => rfl) fun _ => integer_shift lines ..

theorem arithmetic_shift (op : BinaryOp) (left right : Value) (pos : Position) :
    arithmetic op left right (pos.shift lines) =
      (arithmetic op left right pos).mapError (Fault.shift lines) := by
  unfold arithmetic
  split
  · exact integerArithmetic_shift lines ..
  · rfl

theorem evalBinary_shift (op : BinaryOp) (left right : Value) (pos : Position) :
    evalBinary op left right (pos.shift lines) =
      (evalBinary op left right pos).mapError (Fault.shift lines) := by
  unfold evalBinary
  split
  case h_1 =>
    rw [apply_ite (Except.mapError (Fault.shift lines))]
    exact ite_congr rfl (fun _ => rfl) fun _ => arithmetic_shift lines ..
  case h_2 | h_3 | h_4 | h_5 | h_6 | h_7 => rfl
  case h_8 => exact arithmetic_shift lines ..

theorem argumentAt_shift (env : Environment) (index : Value) (pos : Position) :
    argumentAt env index (pos.shift lines) =
      (argumentAt env index pos).mapError (Fault.shift lines) := by
  unfold argumentAt
  dsimp only
  split <;> rfl

theorem eval_shift (env : Environment) (e : Expr) :
    eval env (e.shift lines) = (eval env e).mapError (Fault.shift lines) := by
  induction e with
  | literal value => rfl
  | name text pos => rfl
  | unary op operand pos operandShift =>
    simp only [Expr.shift, eval, operandShift, evalUnary_shift, mapError_bind]
  | binary op left right pos leftShift rightShift =>
    simp only [Expr.shift, eval, leftShift, rightShift, evalBinary_shift, mapError_bind]
  | call function args pos argsShift =>
    cases args with
    | nil =>
      simp only [Expr.shift, Expr.shiftAll, eval, argumentAt_shift]
      rw [apply_ite (Except.mapError (Fault.shift lines))]
      rfl
    | cons index others =>
      simp only [Expr.shift, Expr.shiftAll, eval, argumentAt_shift, argsShift index (by simp)]
      rw [apply_ite (Except.mapError (Fault.shift lines)), mapError_bind]
      rfl

/-! Submissions. -/

theorem checkDeclaration_shift (name : String) (kind? : Option Kind) (init : Checked)
    (pos : Position) :
    checkDeclaration name kind? (init.shift lines) (pos.shift lines) =
      (checkDeclaration name kind? init pos).shift lines := by
  unfold checkDeclaration
  simp only [Checked.shift]
  split
  · rfl
  · exact refuse_shift lines ..

/-- A compiled statement further down. -/
def shiftCompiled (compiled : Statement × Kind) : Statement × Kind :=
  (compiled.1.shift lines, compiled.2)

theorem compileStatements_shift (scope : Scope) (program : List Statement) :
    (compileStatements scope (program.map (Statement.shift lines))).complaints =
        (compileStatements scope program).complaints.map (Diagnostic.shift lines) ∧
      (compileStatements scope (program.map (Statement.shift lines))).compiled.statements =
        (compileStatements scope program).compiled.statements.map (shiftCompiled lines) := by
  induction program generalizing scope with
  | nil => exact ⟨rfl, rfl⟩
  | cons statement rest inductionHypothesis =>
    cases statement with
    | declare name kind? init pos =>
      simp only [List.map_cons, Statement.shift, compileStatements, check_shift,
        checkDeclaration_shift, List.map_append]
      rw [← (inductionHypothesis _).1, ← (inductionHypothesis _).2]
      exact ⟨rfl, rfl⟩
    | expr e terminated pos =>
      simp only [List.map_cons, Statement.shift, compileStatements, check_shift, List.map_append]
      rw [← (inductionHypothesis _).1, ← (inductionHypothesis _).2]
      exact ⟨rfl, rfl⟩

theorem runFrom_shift (session : Session) (result : Value) (statements : List (Statement × Kind)) :
    session.runFrom result (statements.map (shiftCompiled lines)) =
      ((session.runFrom result statements).1,
        (session.runFrom result statements).2.mapError (Fault.shift lines)) := by
  induction statements generalizing session result with
  | nil => rfl
  | cons compiled rest inductionHypothesis =>
    obtain ⟨statement, kind⟩ := compiled
    cases statement with
    | declare name kind? init pos =>
      simp only [List.map_cons, shiftCompiled, Statement.shift, Session.runFrom, eval_shift]
      cases eval session.environment init with
      | error fault => rfl
      | ok value => exact inductionHypothesis _ _
    | expr e terminated pos =>
      simp only [List.map_cons, shiftCompiled, Statement.shift, Session.runFrom, eval_shift]
      cases eval session.environment e with
      | error fault => rfl
      | ok value => exact inductionHypothesis _ _

end

/-! Moving by no line changes nothing. -/

theorem Lexeme.shift_zero (lexeme : Lexeme) : lexeme.shift 0 = lexeme := rfl

theorem Expr.shift_zero (e : Expr) : e.shift 0 = e := by
  induction e with
  | literal value => rfl
  | name text pos => rfl
  | unary op operand pos operandSame => rw [Expr.shift, operandSame]; rfl
  | binary op left right pos leftSame rightSame => rw [Expr.shift, leftSame, rightSame]; rfl
  | call function args pos argsSame =>
    rw [Expr.shift, Expr.shiftAll_eq_map, List.map_congr_left argsSame, List.map_id']
    rfl

theorem Statement.shift_zero (statement : Statement) : statement.shift 0 = statement := by
  cases statement <;> simp only [Statement.shift, Expr.shift_zero] <;> rfl

end Calc

end Colloquy

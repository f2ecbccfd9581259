import Colloquy.Proofs.Calc.Program

set_option autoImplicit false

/-!
A second parser, which moves along the lexemes of a whole text. Its state is the index of the next
lexeme and the number of levels it is nested in. No lexeme is looked at without its index being
tried, and whatever the state has been is kept. What repeats calls itself, and the parser is given
how many calls may be nested in one another.

So it has three more ways to end than the parser that divides the lexemes first: it may need more
calls than it is given, however many these are, it may make a false step, and it may leave the
levels uneven. This module has its definition, and the rule for each thing that it does to its
state.
-/

namespace Colloquy.Calc.Cursor

/-- Where the parser stands: at the index of a lexeme, inside of a number of levels. -/
structure Stand where
  index : Nat
  depth : Nat
  deriving DecidableEq, Repr

/-- Where the parser stands, and all that it stood at before, the last one first. -/
structure State where
  stand : Stand
  before : List Stand

def State.start : State :=
  ⟨⟨0, 0⟩, []⟩

/-- What the parser must never do. -/
inductive Fault where
  /-- To look at an index that no lexeme has. -/
  | outside
  /-- To leave a level while it is in none. -/
  | upFromTop
  /-- To find anything but a name where it has seen one. -/
  | noName
  deriving DecidableEq, Repr

/-- Why a reading ended without a result. -/
inductive Failure where
  | complaint (d : Diagnostic)
  | fault (fault : Fault)

/-- A reading changes the state and ends in a result or a failure. It is `none` if its calls are not
enough for it to end. -/
abbrev Reading (α : Type) := ExceptT Failure (StateT State Option) α

def unended {α : Type} : Reading α :=
  fun _ => none

def complain {α : Type} (d : Diagnostic) : Reading α :=
  throw (.complaint d)

/-- A reading of which a complaint is a result like any other. -/
def attempt {α : Type} (reading : Reading α) : Reading (Except Diagnostic α) :=
  tryCatch (Except.ok <$> reading) fun
    | .complaint d => pure (.error d)
    | .fault fault => throw (.fault fault)

def stand : Reading Stand :=
  return (← get).stand

def moveTo (next : Stand) : Reading Unit :=
  modify fun state => ⟨next, state.stand :: state.before⟩

/-- The levels may be set to any number. -/
def setDepth (depth : Nat) : Reading Unit := do
  moveTo ⟨(← stand).index, depth⟩

def ascend : Reading Unit := do
  match (← stand).depth with
  | 0 => throw (.fault .upFromTop)
  | depth + 1 => setDepth depth

section

variable (lexemes : List Lexeme)

def lexemeAt (index : Nat) : Reading Lexeme :=
  match lexemes[index]? with
  | some lexeme => return lexeme
  | none => throw (.fault .outside)

def here : Reading Lexeme := do
  lexemeAt lexemes (← stand).index

/-- A later lexeme, or the last one if there are not so many. -/
def ahead (offset : Nat) : Reading Lexeme := do
  lexemeAt lexemes (min ((← stand).index + offset) (lexemes.length - 1))

/-- Takes a lexeme. The last one can be taken again and again. -/
def advance : Reading Lexeme := do
  let lexeme ← here lexemes
  let stand ← stand
  if stand.index < lexemes.length - 1 then
    moveTo ⟨stand.index + 1, stand.depth⟩
  return lexeme

def unexpected (expected : String) : Reading Diagnostic :=
  return Parser.expected expected (← here lexemes) []

def descend : Reading Unit := do
  let depth := (← stand).depth
  if nestingLimit ≤ depth then complain (Parser.tooDeep (← here lexemes) [])
  else setDepth (depth + 1)

mutual

/-- A unary operation or an operand. -/
def unary (calls : Nat) : Reading Expr :=
  match calls with
  | 0 => unended
  | calls + 1 => do
    let first ← here lexemes
    match Grammar.sign? first.token with
    | some op => do
      let _ ← advance lexemes
      descend lexemes
      let operand ← unary calls
      ascend
      return .unary op operand first.pos
    | none => primary calls
  termination_by structural calls

def primary (calls : Nat) : Reading Expr :=
  match calls with
  | 0 => unended
  | calls + 1 => do
    let first ← here lexemes
    match Grammar.literal? first.token with
    | some value => do
      let _ ← advance lexemes
      return .literal value
    | none =>
      match first.token with
      | .name text => do
        let _ ← advance lexemes
        match (← here lexemes).token with
        | .leftParen => do
          let _ ← advance lexemes
          descend lexemes
          let args ← arguments calls
          ascend
          return .call text args first.pos
        | _ => return .name text first.pos
      | .leftParen => do
        let _ ← advance lexemes
        descend lexemes
        let inner ← level calls .equality
        ascend
        match (← here lexemes).token with
        | .rightParen => do
          let _ ← advance lexemes
          return inner
        | _ => complain (← unexpected lexemes "`)`")
      | _ => complain (← unexpected lexemes "expression")
  termination_by structural calls

def arguments (calls : Nat) : Reading (List Expr) :=
  match calls with
  | 0 => unended
  | calls + 1 => do
    match (← here lexemes).token with
    | .rightParen => do
      let _ ← advance lexemes
      return []
    | _ => moreArguments calls
  termination_by structural calls

def moreArguments (calls : Nat) : Reading (List Expr) :=
  match calls with
  | 0 => unended
  | calls + 1 => do
    let arg ← level calls .equality
    match (← here lexemes).token with
    | .comma => do
      let _ ← advance lexemes
      let others ← moreArguments calls
      return arg :: others
    | .rightParen => do
      let _ ← advance lexemes
      return [arg]
    | _ => complain (← unexpected lexemes "`,` or `)`")
  termination_by structural calls

/-- The operators of a tier, with what stands between them. -/
def level (calls : Nat) (tier : Tier) : Reading Expr :=
  match calls with
  | 0 => unended
  | calls + 1 => do
    let base := (← stand).depth
    let left ← operand calls tier
    chain calls tier base left
  termination_by structural calls

/-- What the operators of a tier stand between. -/
def operand (calls : Nat) (tier : Tier) : Reading Expr :=
  match calls with
  | 0 => unended
  | calls + 1 =>
    match tier with
    | .product => unary calls
    | .sum => level calls .product
    | .comparison => level calls .sum
    | .equality => level calls .comparison
  termination_by structural calls

/-- The operators of a tier that follow `left`, one level for each of them. At the end of the chain
all these levels are left at once. -/
def chain (calls : Nat) (tier : Tier) (base : Nat) (left : Expr) : Reading Expr :=
  match calls with
  | 0 => unended
  | calls + 1 => do
    let first ← here lexemes
    match first.token with
    | .operator op =>
      if op.tier = tier then do
        let _ ← advance lexemes
        descend lexemes
        let right ← operand calls tier
        chain calls tier base (.binary op left right first.pos)
      else do
        setDepth base
        return left
    | _ => do
      setDepth base
      return left
  termination_by structural calls

end

def expressionStatement (calls : Nat) : Reading Statement := do
  let pos := (← here lexemes).pos
  let expr ← level lexemes calls .equality
  return .expr expr false pos

def declaration (calls : Nat) (kind? : Option Kind) : Reading Statement := do
  let _ ← advance lexemes
  let second ← advance lexemes
  match second.token with
  | .name name => do
    let _ ← advance lexemes
    let init ← level lexemes calls .equality
    return .declare name kind? init second.pos
  | _ => throw (.fault .noName)

def statement (calls : Nat) : Reading Statement := do
  match (← here lexemes).token, (← ahead lexemes 1).token, (← ahead lexemes 2).token with
  | .name word, .name _, .assign =>
    match Parser.declarator? word with
    | some kind? => declaration lexemes calls kind?
    | none => expressionStatement lexemes calls
  | _, _, _ => expressionStatement lexemes calls

def skipSeparators (calls : Nat) : Reading Unit :=
  match calls with
  | 0 => unended
  | calls + 1 => do
    if (← here lexemes).token.isSeparator then
      let _ ← advance lexemes
      skipSeparators calls

/-- Leaves out the lexemes of a statement that cannot be read. -/
def recover (calls : Nat) : Reading Unit :=
  match calls with
  | 0 => unended
  | calls + 1 => do
    if !(← here lexemes).token.isStop then
      let _ ← advance lexemes
      recover calls

/-- What was read as a statement must be all of it. -/
def finish (calls : Nat) (statement : Statement) : Reading (Except Diagnostic Statement) := do
  match (← here lexemes).token with
  | .semicolon => return .ok statement.terminate
  | .newline | .eof => return .ok statement
  | _ =>
    let complaint ← unexpected lexemes "`;` or end of line"
    recover lexemes calls
    return .error complaint

/-- A statement or the complaint about it. -/
def segment (calls : Nat) : Reading (Except Diagnostic Statement) := do
  match ← attempt (statement lexemes calls) with
  | .ok statement => finish lexemes calls statement
  | .error complaint =>
    recover lexemes calls
    return .error complaint

/-- What is read next, if the text does not end before it. The depth starts again at 0. -/
def round (calls : Nat) : Reading (Option (Except Diagnostic Statement)) := do
  skipSeparators lexemes calls
  match (← here lexemes).token with
  | .eof => return none
  | _ =>
    setDepth 0
    return some (← segment lexemes calls)

def rounds (calls : Nat) : Reading (List (Except Diagnostic Statement)) :=
  match calls with
  | 0 => unended
  | calls + 1 => do
    match ← round lexemes calls with
    | none => return []
    | some result =>
      let results ← rounds calls
      return result :: results

end

/-- The result for a source text, and the state at its end. -/
def parse (calls : Nat) (source : String) :
    Option (Except Failure (Except (List Diagnostic) (List Statement)) × State) :=
  let (lexemes, complaints) := lex source
  let reading : Reading (Except (List Diagnostic) (List Statement)) := do
    let results ← rounds lexemes calls
    return match complaints ++ results.filterMap failure? with
      | [] => .ok (results.filterMap Except.toOption)
      | complaints => .error complaints
  reading .start

/-! What the parser stands at has to be a lexeme, and it may not be nested too deeply. -/

structure Stand.Valid (lexemes : List Lexeme) (stand : Stand) : Prop where
  inside : stand.index < lexemes.length
  nested : stand.depth ≤ nestingLimit

/-- Whether the parser has only stood where it may. -/
def State.Safe (lexemes : List Lexeme) (state : State) : Prop :=
  ∀ stand ∈ state.stand :: state.before, stand.Valid lexemes

section

variable {lexemes : List Lexeme} {state after : State}

theorem State.Safe.valid (safe : state.Safe lexemes) : state.stand.Valid lexemes :=
  safe _ List.mem_cons_self

theorem State.Safe.moved (safe : state.Safe lexemes) {next : Stand} (valid : next.Valid lexemes) :
    State.Safe lexemes ⟨next, state.stand :: state.before⟩ :=
  List.forall_mem_cons.mpr ⟨valid, safe⟩

theorem State.Safe.start (nonempty : lexemes ≠ []) : State.Safe lexemes .start :=
  List.forall_mem_singleton.mpr ⟨List.length_pos_iff.mpr nonempty, Nat.zero_le _⟩

/-! The rules for runs: a reading goes on where the one before it ended. -/

theorem run_bind {α β : Type} {first : Reading α} {second : α → Reading β} {value : α}
    (ran : first state = some (.ok value, after)) :
    (first >>= second) state = second value after := by
  change (first state).bind _ = _
  rw [ran]
  rfl

theorem run_bind_failure {α β : Type} {first : Reading α} {second : α → Reading β}
    {failure : Failure} (ran : first state = some (.error failure, after)) :
    (first >>= second) state = some (.error failure, after) := by
  change (first state).bind _ = _
  rw [ran]
  rfl

theorem attempt_success {α : Type} {reading : Reading α} {value : α}
    (ran : reading state = some (.ok value, after)) :
    attempt reading state = some (.ok (.ok value), after) := by
  change ((reading state).bind _).bind _ = _
  rw [ran]
  rfl

theorem attempt_complaint {α : Type} {reading : Reading α} {d : Diagnostic}
    (ran : reading state = some (.error (.complaint d), after)) :
    attempt reading state = some (.ok (.error d), after) := by
  change ((reading state).bind _).bind _ = _
  rw [ran]
  rfl

theorem stand_run : stand state = some (.ok state.stand, state) :=
  rfl

theorem setDepth_run {depth : Nat} :
    setDepth depth state =
      some (.ok (), ⟨⟨state.stand.index, depth⟩, state.stand :: state.before⟩) :=
  rfl

theorem lexemeAt_run {index : Nat} {lexeme : Lexeme} (found : lexemes[index]? = some lexeme) :
    lexemeAt lexemes index state = some (.ok lexeme, state) := by
  rw [lexemeAt, found]
  rfl

theorem here_run {lexeme : Lexeme} (found : lexemes[state.stand.index]? = some lexeme) :
    here lexemes state = some (.ok lexeme, state) :=
  lexemeAt_run found

/-- A lexeme that is not the last one is left behind. -/
theorem advance_run {lexeme : Lexeme} (found : lexemes[state.stand.index]? = some lexeme)
    (notLast : state.stand.index + 1 < lexemes.length) :
    advance lexemes state = some
      (.ok lexeme, ⟨⟨state.stand.index + 1, state.stand.depth⟩, state.stand :: state.before⟩) := by
  have before : state.stand.index < lexemes.length - 1 := by omega
  rw [advance, run_bind (here_run found), run_bind stand_run]
  simp only [if_pos before]
  rfl

theorem ahead_run {offset : Nat} {lexeme : Lexeme}
    (found : lexemes[min (state.stand.index + offset) (lexemes.length - 1)]? = some lexeme) :
    ahead lexemes offset state = some (.ok lexeme, state) :=
  lexemeAt_run found

end

end Colloquy.Calc.Cursor

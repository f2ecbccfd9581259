import Colloquy.Proofs.Calc.Expr

set_option autoImplicit false

/-!
The grammar of expressions, as a relation between lexemes and trees that mentions no reader, and
the proof that every reader takes a phrase of it.

A phrase is derived with the room that is left for nesting. Parentheses, calls and unary operators
leave one level less to what they enclose. In a chain of operators of one tier, the operand behind
the operator number `n` has `n` levels less than the chain, and the first operand has all of them.
-/

namespace Colloquy.Calc

namespace Grammar

/-- What a stretch of lexemes is read as. -/
inductive Phrase where
  | operand
  /-- A chain that has `count` operators of its tier so far. -/
  | chain (tier : Tier) (count : Nat)
  | tier (tier : Tier)

/-- What the operators of a tier stand between. -/
def operandOf : Tier → Phrase
  | .product => .operand
  | .sum => .tier .product
  | .comparison => .tier .sum
  | .equality => .tier .comparison

def sign? : Token → Option UnaryOp
  | .operator .sub => some .neg
  | .bang => some .not
  | _ => none

def literal? : Token → Option Value
  | .int n => some (.int n)
  | .double x => some (.double x)
  | .string text => some (.string text)
  | .name "true" => some (.bool true)
  | .name "false" => some (.bool false)
  | _ => none

/-- Whether a word names something; the other words are literals. -/
def IsName (text : String) : Prop :=
  text ≠ "true" ∧ text ≠ "false"

/-- Stretches of lexemes with commas between them. -/
inductive Listed : List (List Lexeme) → List Lexeme → Prop
  | none : Listed [] []
  | one (stretch : List Lexeme) : Listed [stretch] stretch
  | more {stretch next : List Lexeme} {others : List (List Lexeme)} {lexemes : List Lexeme}
      (comma : Position) : Listed (next :: others) lexemes →
      Listed (stretch :: next :: others) (stretch ++ ⟨.comma, comma⟩ :: lexemes)

inductive Derives : Nat → Phrase → List Lexeme → Expr → Prop
  | literal {room : Nat} {lexeme : Lexeme} {value : Value} :
      literal? lexeme.token = some value → Derives room .operand [lexeme] (.literal value)
  | name {room : Nat} {text : String} {pos : Position} :
      IsName text → Derives room .operand [⟨.name text, pos⟩] (.name text pos)
  | sign {room : Nat} {token : Token} {pos : Position} {op : UnaryOp} {lexemes : List Lexeme}
      {operand : Expr} :
      sign? token = some op → Derives room .operand lexemes operand →
      Derives (room + 1) .operand (⟨token, pos⟩ :: lexemes) (.unary op operand pos)
  | group {room : Nat} {lexemes : List Lexeme} {inner : Expr} (left right : Position) :
      Derives room (.tier .equality) lexemes inner →
      Derives (room + 1) .operand (⟨.leftParen, left⟩ :: lexemes ++ [⟨.rightParen, right⟩]) inner
  | call {room : Nat} {function : String} {pos : Position} {lexemes : List Lexeme}
      {args : List (List Lexeme × Expr)} (left right : Position) :
      IsName function → Listed (args.map Prod.fst) lexemes →
      (∀ arg ∈ args, Derives room (.tier .equality) arg.1 arg.2) →
      Derives (room + 1) .operand
        (⟨.name function, pos⟩ :: ⟨.leftParen, left⟩ :: lexemes ++ [⟨.rightParen, right⟩])
        (.call function (args.map Prod.snd) pos)
  | first {room : Nat} {tier : Tier} {lexemes : List Lexeme} {e : Expr} :
      Derives room (operandOf tier) lexemes e → Derives room (.chain tier 0) lexemes e
  | next {room count : Nat} {op : BinaryOp} {pos : Position} {before lexemes : List Lexeme}
      {left right : Expr} :
      Derives (room + (count + 1)) (.chain op.tier count) before left →
      Derives room (operandOf op.tier) lexemes right →
      Derives (room + (count + 1)) (.chain op.tier (count + 1))
        (before ++ ⟨.operator op, pos⟩ :: lexemes) (.binary op left right pos)
  | whole {room count : Nat} {tier : Tier} {lexemes : List Lexeme} {e : Expr} :
      Derives room (.chain tier count) lexemes e → Derives room (.tier tier) lexemes e

/-- The lexemes of a statement, which stands where the declared name or the expression does. -/
inductive DerivesStatement : List Lexeme → Statement → Prop
  | declare {word name : String} {kind? : Option Kind} {first pos assign : Position}
      {lexemes : List Lexeme} {init : Expr} :
      Parser.declarator? word = some kind? →
      Derives nestingLimit (.tier .equality) lexemes init →
      DerivesStatement
        (⟨.name word, first⟩ :: ⟨.name name, pos⟩ :: ⟨.assign, assign⟩ :: lexemes)
        (.declare name kind? init pos)
  | expr {first : Lexeme} {lexemes : List Lexeme} {e : Expr} :
      Derives nestingLimit (.tier .equality) (first :: lexemes) e →
      DerivesStatement (first :: lexemes) (.expr e false first.pos)

theorem Derives.ne_nil {room : Nat} {phrase : Phrase} {lexemes : List Lexeme} {e : Expr}
    (derived : Derives room phrase lexemes e) : lexemes ≠ [] := by
  induction derived with
  | first _ operand => exact operand
  | whole _ chain => exact chain
  | _ => simp

/-- A chain without operators. -/
theorem Derives.alone {room : Nat} {tier : Tier} {lexemes : List Lexeme} {e : Expr}
    (derived : Derives room (operandOf tier) lexemes e) : Derives room (.tier tier) lexemes e :=
  .whole (.first derived)

theorem Derives.ofOperand {room : Nat} {lexemes : List Lexeme} {e : Expr}
    (derived : Derives room .operand lexemes e) (tier : Tier) :
    Derives room (operandOf tier) lexemes e := by
  have product : Derives room (.tier .product) lexemes e := .alone derived
  have sum : Derives room (.tier .sum) lexemes e := .alone product
  have comparison : Derives room (.tier .comparison) lexemes e := .alone sum
  cases tier with
  | product => exact derived
  | sum => exact product
  | comparison => exact sum
  | equality => exact comparison

/-- A chain may end before any lexeme. -/
theorem Derives.ended {room count : Nat} {tier : Tier} {before : List Lexeme} {left : Expr}
    (derived : Derives room (.chain tier count) before left) {rest : List Lexeme} :
    ∃ taken, rest = taken ++ rest ∧ Derives room (.tier tier) (before ++ taken) left := by
  refine ⟨[], rfl, ?_⟩
  rw [List.append_nil]
  exact .whole derived

end Grammar

namespace Parser

open Grammar

theorem bind_ok {α β : Type} {first : Except Diagnostic α} {second : α → Except Diagnostic β}
    {result : β} (success : first >>= second = .ok result) :
    ∃ value, first = .ok value ∧ second value = .ok result := by
  cases first with
  | error d => cases success
  | ok value => exact ⟨value, rfl, success⟩

/-- What the start of an operand says about the lexemes. -/
theorem opening?_eq_some {lexemes rest : List Lexeme} {start : Opening}
    (opens : opening? lexemes = some (start, rest)) :
    match start with
    | .sign op pos => ∃ token, sign? token = some op ∧ lexemes = ⟨token, pos⟩ :: rest
    | .literal value => ∃ lexeme, literal? lexeme.token = some value ∧ lexemes = lexeme :: rest
    | .call function pos => IsName function ∧
        ∃ left, lexemes = ⟨.name function, pos⟩ :: ⟨.leftParen, left⟩ :: rest
    | .name text pos => IsName text ∧ lexemes = ⟨.name text, pos⟩ :: rest
    | .group => ∃ left, lexemes = ⟨.leftParen, left⟩ :: rest := by
  unfold opening? at opens
  split at opens
  case h_8 notTrue notFalse =>
    cases opens
    exact ⟨⟨notTrue, notFalse⟩, _, rfl⟩
  case h_9 notTrue notFalse _ =>
    cases opens
    exact ⟨⟨notTrue, notFalse⟩, rfl⟩
  case h_10 =>
    cases opens
    exact ⟨_, rfl⟩
  case h_11 => cases opens
  all_goals
    cases opens
    exact ⟨_, rfl, rfl⟩

/-- How an operand can have been read. -/
theorem unary_ok {stop : Lexeme} {room : Nat} {lexemes rest : List Lexeme} {e : Expr}
    (success : unary stop room lexemes = .ok (e, rest)) :
    (∃ value, opening? lexemes = some (.literal value, rest) ∧ e = .literal value) ∨
    (∃ text pos, opening? lexemes = some (.name text pos, rest) ∧ e = .name text pos) ∨
    ∃ less after, room = less + 1 ∧
      ((∃ op pos operand, opening? lexemes = some (.sign op pos, after) ∧
          unary stop less after = .ok (operand, rest) ∧ e = .unary op operand pos) ∨
        (∃ function pos args, opening? lexemes = some (.call function pos, after) ∧
          callArguments (expression stop less) stop after = .ok (args, rest) ∧
          e = .call function args pos) ∨
        ∃ inner behind, opening? lexemes = some (.group, after) ∧
          expression stop less after = .ok (inner, behind) ∧
          closing stop inner behind = .ok (e, rest)) := by
  unfold unary at success
  split at success
  case h_1 => cases success
  case h_2 opens =>
    cases success
    exact .inl ⟨_, opens, rfl⟩
  case h_3 opens =>
    cases success
    exact .inr (.inl ⟨_, _, opens, rfl⟩)
  case h_4 => cases success
  case h_5 opens =>
    obtain ⟨⟨operand, behind⟩, read, built⟩ := bind_ok success
    cases built
    exact .inr (.inr ⟨_, _, rfl, .inl ⟨_, _, _, opens, read, rfl⟩⟩)
  case h_6 opens =>
    obtain ⟨⟨args, behind⟩, read, built⟩ := bind_ok success
    cases built
    exact .inr (.inr ⟨_, _, rfl, .inr (.inl ⟨_, _, _, opens, read, rfl⟩)⟩)
  case h_7 opens =>
    obtain ⟨⟨inner, behind⟩, read, closes⟩ := bind_ok success
    exact .inr (.inr ⟨_, _, rfl, .inr (.inr ⟨_, _, opens, read, closes⟩)⟩)

/-- How a chain can have been read: it ended at once, or took one more operator. -/
theorem chain_ok {stop : Lexeme} {room : Nat} {tier : Tier} {left e : Expr}
    {lexemes rest : List Lexeme} (success : chain stop room tier left lexemes = .ok (e, rest)) :
    (e = left ∧ rest = lexemes) ∨
    ∃ less op pos after right behind, room = less + 1 ∧ op.tier = tier ∧
      lexemes = ⟨.operator op, pos⟩ :: after ∧
      climb (unary stop less) (chain stop less) tier.tighter after = .ok (right, behind) ∧
      chain stop less tier (.binary op left right pos) behind = .ok (e, rest) := by
  unfold chain at success
  split at success
  case h_1 op pos after =>
    split at success
    case isTrue sameTier =>
      split at success
      case h_1 => cases success
      case h_2 less =>
        obtain ⟨⟨right, behind⟩, read, continued⟩ := bind_ok success
        exact .inr ⟨less, op, pos, after, right, behind, rfl, sameTier, rfl, read, continued⟩
    case isFalse =>
      cases success
      exact .inl ⟨rfl, rfl⟩
  case h_2 =>
    cases success
    exact .inl ⟨rfl, rfl⟩

/-- How arguments can have been read, the last one or another one first. -/
theorem arguments_ok {read : List Lexeme → Except Diagnostic (Expr × List Lexeme)} {stop : Lexeme}
    {bound : Nat} {lexemes rest : List Lexeme} {args : List Expr}
    (success : arguments read stop (bound + 1) lexemes = .ok (args, rest)) :
    ∃ arg behind pos after, read lexemes = .ok (arg, behind) ∧
      ((behind = ⟨.rightParen, pos⟩ :: after ∧ args = [arg] ∧ rest = after) ∨
        ∃ others, behind = ⟨.comma, pos⟩ :: after ∧ args = arg :: others ∧
          arguments read stop bound after = .ok (others, rest)) := by
  unfold arguments at success
  obtain ⟨⟨arg, behind⟩, first, continued⟩ := bind_ok success
  dsimp only at continued
  split at continued
  case h_1 pos after =>
    obtain ⟨⟨others, final⟩, more, built⟩ := bind_ok continued
    cases built
    exact ⟨arg, _, pos, after, first, .inr ⟨others, rfl, rfl, more⟩⟩
  case h_2 pos after =>
    cases continued
    exact ⟨arg, _, pos, _, first, .inl ⟨rfl, rfl, rfl⟩⟩
  case h_3 => cases continued

/-- A reader takes phrases: what it takes from the front of the lexemes is one. -/
def Takes (read : List Lexeme → Except Diagnostic (Expr × List Lexeme))
    (phrase : List Lexeme → Expr → Prop) : Prop :=
  ∀ ⦃lexemes rest : List Lexeme⦄ ⦃e : Expr⦄, read lexemes = .ok (e, rest) →
    ∃ taken, lexemes = taken ++ rest ∧ phrase taken e

/-- A chain continues what stands before it. -/
def Continues (room : Nat)
    (chain : Tier → Expr → List Lexeme → Except Diagnostic (Expr × List Lexeme)) : Prop :=
  ∀ ⦃tier : Tier⦄ ⦃count : Nat⦄ ⦃before : List Lexeme⦄ ⦃left : Expr⦄,
    Derives (room + count) (.chain tier count) before left →
    Takes (chain tier left) fun taken e => Derives (room + count) (.tier tier) (before ++ taken) e

section

variable {operand : List Lexeme → Except Diagnostic (Expr × List Lexeme)}
  {chain : Tier → Expr → List Lexeme → Except Diagnostic (Expr × List Lexeme)} {room : Nat}

theorem climb_append (tiers : List Tier) (tier : Tier) (lexemes : List Lexeme) :
    climb operand chain (tiers ++ [tier]) lexemes =
      (climb operand chain tiers lexemes).bind fun result => chain tier result.1 result.2 := by
  simp [climb, List.foldl_append]

/-- One tier more is read by the chain of that tier. -/
theorem climb_takes_tier {tiers : List Tier} {tier : Tier}
    (tighter : Takes (climb operand chain tiers) (Derives room (operandOf tier)))
    (chains : Continues room chain) :
    Takes (climb operand chain (tiers ++ [tier])) (Derives room (.tier tier)) := by
  intro lexemes rest e success
  rw [climb_append] at success
  obtain ⟨⟨left, behind⟩, first, continued⟩ := bind_ok success
  obtain ⟨before, rfl, derived⟩ := tighter first
  obtain ⟨taken, rfl, whole⟩ := chains (.first derived) continued
  exact ⟨before ++ taken, (List.append_assoc ..).symm, whole⟩

/-- Reading the tighter tiers takes an operand of the tier. -/
theorem climb_takes_operandOf (operands : Takes operand (Derives room .operand))
    (chains : Continues room chain) (tier : Tier) :
    Takes (climb operand chain tier.tighter) (Derives room (operandOf tier)) := by
  have products : Takes (climb operand chain ([] ++ [.product])) (Derives room (.tier .product)) :=
    climb_takes_tier operands chains
  have sums : Takes (climb operand chain ([.product] ++ [.sum])) (Derives room (.tier .sum)) :=
    climb_takes_tier products chains
  have comparisons : Takes (climb operand chain ([.product, .sum] ++ [.comparison]))
      (Derives room (.tier .comparison)) :=
    climb_takes_tier sums chains
  cases tier with
  | product => exact operands
  | sum => exact products
  | comparison => exact sums
  | equality => exact comparisons

theorem climb_takes_expression (operands : Takes operand (Derives room .operand))
    (chains : Continues room chain) :
    Takes (climb operand chain [.product, .sum, .comparison, .equality])
      (Derives room (.tier .equality)) :=
  climb_takes_tier (climb_takes_operandOf operands chains .equality) chains

end

/-- Arguments up to the closing parenthesis. -/
theorem arguments_take {read : List Lexeme → Except Diagnostic (Expr × List Lexeme)}
    {phrase : List Lexeme → Expr → Prop} (reads : Takes read phrase) {stop : Lexeme} {bound : Nat}
    {lexemes rest : List Lexeme} {args : List Expr}
    (success : arguments read stop bound lexemes = .ok (args, rest)) :
    ∃ (phrases : List (List Lexeme × Expr)) (taken : List Lexeme) (right : Position),
      phrases ≠ [] ∧ phrases.map Prod.snd = args ∧
      Listed (phrases.map Prod.fst) taken ∧ (∀ arg ∈ phrases, phrase arg.1 arg.2) ∧
      lexemes = taken ++ ⟨.rightParen, right⟩ :: rest := by
  induction bound generalizing lexemes args with
  | zero => cases success
  | succ bound inductionHypothesis =>
    obtain ⟨arg, behind, pos, after, first, last | more⟩ := arguments_ok success
    · obtain ⟨rfl, rfl, rfl⟩ := last
      obtain ⟨stretch, rfl, derived⟩ := reads first
      exact ⟨[(stretch, arg)], stretch, pos, by simp, rfl, .one stretch, by simpa using derived, rfl⟩
    · obtain ⟨others, rfl, rfl, continued⟩ := more
      obtain ⟨stretch, rfl, derived⟩ := reads first
      obtain ⟨phrases, taken, right, nonempty, rfl, listed, each, rfl⟩ :=
        inductionHypothesis continued
      obtain ⟨next, phrases, rfl⟩ := List.exists_cons_of_ne_nil nonempty
      refine ⟨(stretch, arg) :: next :: phrases, _, right, by simp, rfl, .more pos listed, ?_,
        by simp⟩
      intro found membership
      rcases List.mem_cons.mp membership with rfl | later
      · exact derived
      · exact each found later

theorem callArguments_take {read : List Lexeme → Except Diagnostic (Expr × List Lexeme)}
    {phrase : List Lexeme → Expr → Prop} (reads : Takes read phrase) {stop : Lexeme}
    {lexemes rest : List Lexeme} {args : List Expr}
    (success : callArguments read stop lexemes = .ok (args, rest)) :
    ∃ (phrases : List (List Lexeme × Expr)) (taken : List Lexeme) (right : Position),
      phrases.map Prod.snd = args ∧ Listed (phrases.map Prod.fst) taken ∧
      (∀ arg ∈ phrases, phrase arg.1 arg.2) ∧ lexemes = taken ++ ⟨.rightParen, right⟩ :: rest := by
  unfold callArguments at success
  split at success
  case h_1 right after =>
    cases success
    exact ⟨[], [], right, rfl, .none, by simp, rfl⟩
  case h_2 =>
    obtain ⟨phrases, taken, right, -, found⟩ := arguments_take reads success
    exact ⟨phrases, taken, right, found⟩

theorem closing_ok {stop : Lexeme} {inner e : Expr} {lexemes rest : List Lexeme}
    (success : closing stop inner lexemes = .ok (e, rest)) :
    e = inner ∧ ∃ right, lexemes = ⟨.rightParen, right⟩ :: rest := by
  unfold closing at success
  split at success
  case h_1 right after =>
    cases success
    exact ⟨rfl, right, rfl⟩
  case h_2 => cases success

/-- The two readers that call each other, by induction on the room that both use up. -/
theorem readers_take (stop : Lexeme) (room : Nat) :
    Takes (unary stop room) (Derives room .operand) ∧ Continues room (chain stop room) := by
  induction room with
  | zero =>
    constructor
    · intro lexemes rest e success
      obtain ⟨value, opens, rfl⟩ | ⟨text, pos, opens, rfl⟩ | ⟨less, _, impossible, _⟩ :=
        unary_ok success
      · obtain ⟨lexeme, isLiteral, rfl⟩ := opening?_eq_some opens
        exact ⟨[lexeme], rfl, .literal isLiteral⟩
      · obtain ⟨isName, rfl⟩ := opening?_eq_some opens
        exact ⟨[_], rfl, .name isName⟩
      · cases impossible
    · intro tier count before left derived lexemes rest e success
      obtain ⟨rfl, rfl⟩ | ⟨less, _, _, _, _, _, impossible, _⟩ := chain_ok success
      · exact derived.ended
      · cases impossible
  | succ room inductionHypothesis =>
    obtain ⟨operands, chains⟩ := inductionHypothesis
    have expressions : Takes (expression stop room) (Derives room (.tier .equality)) :=
      climb_takes_expression operands chains
    constructor
    · intro lexemes rest e success
      obtain ⟨value, opens, rfl⟩ | ⟨text, pos, opens, rfl⟩ | ⟨less, after, roomIs, enclosing⟩ :=
        unary_ok success
      · obtain ⟨lexeme, isLiteral, rfl⟩ := opening?_eq_some opens
        exact ⟨[lexeme], rfl, .literal isLiteral⟩
      · obtain ⟨isName, rfl⟩ := opening?_eq_some opens
        exact ⟨[_], rfl, .name isName⟩
      · cases roomIs
        obtain ⟨op, pos, operand, opens, read, rfl⟩ | ⟨function, pos, args, opens, read, rfl⟩ |
          ⟨inner, behind, opens, read, closes⟩ := enclosing
        · obtain ⟨token, isSign, rfl⟩ := opening?_eq_some opens
          obtain ⟨taken, rfl, derived⟩ := operands read
          exact ⟨_ :: taken, rfl, .sign isSign derived⟩
        · obtain ⟨isName, left, rfl⟩ := opening?_eq_some opens
          obtain ⟨phrases, taken, right, rfl, listed, each, rfl⟩ :=
            callArguments_take expressions read
          exact ⟨_, by simp, .call left right isName listed each⟩
        · obtain ⟨left, rfl⟩ := opening?_eq_some opens
          obtain ⟨taken, rfl, derived⟩ := expressions read
          obtain ⟨rfl, right, rfl⟩ := closing_ok closes
          exact ⟨_, by simp, .group left right derived⟩
    · intro tier count before left derived lexemes rest e success
      obtain ⟨rfl, rfl⟩ | ⟨less, op, pos, after, right, behind, roomIs, rfl, rfl, read, continued⟩ :=
        chain_ok success
      · exact derived.ended
      · cases roomIs
        obtain ⟨taken, rfl, rightDerived⟩ := climb_takes_operandOf operands chains op.tier read
        rw [Nat.add_right_comm, Nat.add_assoc] at derived ⊢
        obtain ⟨more, rfl, whole⟩ := chains (.next derived rightDerived) continued
        exact ⟨⟨.operator op, pos⟩ :: (taken ++ more), by simp, by simpa using whole⟩

theorem expression_takes (stop : Lexeme) (room : Nat) :
    Takes (expression stop room) (Derives room (.tier .equality)) :=
  climb_takes_expression (readers_take stop room).1 (readers_take stop room).2

theorem expressionStatement_ok {stop : Lexeme} {lexemes rest : List Lexeme} {result : Statement}
    (success : expressionStatement stop lexemes = .ok (result, rest)) :
    ∃ taken, lexemes = taken ++ rest ∧ DerivesStatement taken result := by
  obtain ⟨⟨e, behind⟩, read, built⟩ := bind_ok success
  cases built
  obtain ⟨taken, rfl, derived⟩ := expression_takes stop nestingLimit read
  obtain ⟨first, taken, rfl⟩ := List.exists_cons_of_ne_nil derived.ne_nil
  exact ⟨first :: taken, rfl, .expr derived⟩

theorem statement_ok {stop : Lexeme} {lexemes rest : List Lexeme} {result : Statement}
    (success : statement stop lexemes = .ok (result, rest)) :
    ∃ taken, lexemes = taken ++ rest ∧ DerivesStatement taken result := by
  unfold statement at success
  split at success
  case h_1 first word pos name assign after =>
    split at success
    case h_1 declares =>
      obtain ⟨⟨init, behind⟩, read, built⟩ := bind_ok success
      cases built
      obtain ⟨taken, rfl, derived⟩ := expression_takes stop nestingLimit read
      exact ⟨_ :: _ :: _ :: taken, rfl, .declare declares derived⟩
    case h_2 => exact expressionStatement_ok success
  case h_2 => exact expressionStatement_ok success

end Parser

open Grammar

theorem Grammar.DerivesStatement.body {lexemes : List Lexeme} {statement : Statement}
    (derived : DerivesStatement lexemes statement) :
    ∃ taken, Derives nestingLimit (.tier .equality) taken statement.body := by
  cases derived with
  | declare _ init => exact ⟨_, init⟩
  | expr e => exact ⟨_, e⟩

/-- A segment is read as the statement that its lexemes derive. -/
theorem Segment.parse_ok {segment : Segment} {result : Statement}
    (success : segment.parse = .ok result) :
    ∃ statement, DerivesStatement segment.body statement ∧
      result = statement.endedBy segment.stop.token := by
  obtain ⟨⟨statement, rest⟩, read, finished⟩ := Parser.bind_ok success
  obtain ⟨taken, bodyIs, derived⟩ := Parser.statement_ok read
  dsimp only at finished
  split at finished
  case isTrue nothingLeft =>
    rw [List.isEmpty_iff.mp nothingLeft, List.append_nil] at bodyIs
    cases finished
    exact ⟨statement, bodyIs ▸ derived, rfl⟩
  case isFalse => cases finished

/-- Results without a failure are all statements. -/
theorem failures_eq_nil_iff {results : List (Except Diagnostic Statement)} :
    results.filterMap failure? = [] ↔ results = (results.filterMap Except.toOption).map .ok := by
  induction results with
  | nil => simp
  | cons result results inductionHypothesis =>
    cases result with
    | error d =>
      constructor
      · intro nothing
        simp [failure?] at nothing
      · intro allStatements
        have among : Except.error d ∈ List.map Except.ok _ := allStatements ▸ List.mem_cons_self
        simp at among
    | ok statement => simpa [failure?, Except.toOption] using inductionHypothesis

/-- A text is accepted if nothing is wrong with its characters and every segment is a statement. -/
theorem parse_eq_ok_iff {source : String} {program : List Statement} :
    parse source = .ok program ↔
      (lex source).2 = [] ∧ parseSegments (lex source).1 = program.map .ok := by
  unfold parse
  dsimp only
  constructor
  · intro accepted
    split at accepted
    case h_1 nothing =>
      cases accepted
      obtain ⟨characters, segments⟩ := List.append_eq_nil_iff.mp nothing
      exact ⟨characters, failures_eq_nil_iff.mp segments⟩
    case h_2 => cases accepted
  · rintro ⟨characters, segments⟩
    have noFailure : (program.map Except.ok).filterMap failure? = [] := by
      simp [failure?, List.filterMap_eq_nil_iff]
    simp [characters, segments, noFailure, Except.toOption, Function.comp_def]

/-- Every expression of an accepted text is derived within the nesting limit. -/
theorem derives_of_parse {source : String} {program : List Statement}
    (accepted : parse source = .ok program) {statement : Statement}
    (membership : statement ∈ program) :
    ∃ lexemes, Derives nestingLimit (.tier .equality) lexemes statement.body := by
  obtain ⟨-, segments⟩ := parse_eq_ok_iff.mp accepted
  have among : Except.ok statement ∈ parseSegments (lex source).1 :=
    segments ▸ List.mem_map_of_mem membership
  obtain ⟨segment, -, success⟩ := List.mem_map.mp among
  obtain ⟨read, derived, rfl⟩ := Segment.parse_ok success
  rw [Statement.body_endedBy]
  exact derived.body

end Colloquy.Calc

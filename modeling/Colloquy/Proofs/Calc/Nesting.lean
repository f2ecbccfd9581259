import Colloquy.Proofs.Calc.Completeness
import Colloquy.Proofs.Calc.Lines
import Mathlib.Tactic.Ring

set_option autoImplicit false

/-!
How deep the trees of accepted texts are. The room for nesting is spent on the operands behind the
operators of a chain, one level for each operator, while the tree of the chain leans to the left: its
first operand is under all operators of the chain and has all the room. A text can therefore nest
chains in first operands at no cost but the parentheses, and a path of its tree can be much longer
than the nesting limit. What the limit does bound is the part of a path that does not go left.
-/

namespace Colloquy.Calc

/-- A path from the root of an expression to a leaf has some number of operations and calls on it, and
leaves some of the binary operations among them to the left. -/
inductive Expr.Path : Expr → Nat → Nat → Prop
  | literal (value : Value) : Path (.literal value) 0 0
  | name (text : String) (pos : Position) : Path (.name text pos) 0 0
  | unary {operand : Expr} {nodes left : Nat} (op : UnaryOp) (pos : Position) :
      Path operand nodes left → Path (.unary op operand pos) (nodes + 1) left
  | left {first : Expr} {nodes left : Nat} (op : BinaryOp) (second : Expr) (pos : Position) :
      Path first nodes left → Path (.binary op first second pos) (nodes + 1) (left + 1)
  | right {second : Expr} {nodes left : Nat} (op : BinaryOp) (first : Expr) (pos : Position) :
      Path second nodes left → Path (.binary op first second pos) (nodes + 1) left
  /-- A call without arguments is a leaf. -/
  | bare (function : String) (pos : Position) : Path (.call function [] pos) 1 0
  | argument {arg : Expr} {args : List Expr} {nodes left : Nat} (function : String)
      (pos : Position) : arg ∈ args → Path arg nodes left →
      Path (.call function args pos) (nodes + 1) left

/-- A path through a call ends there or goes on in an argument. -/
theorem Expr.Path.call_cases {function : String} {args : List Expr} {pos : Position}
    {nodes left : Nat} (path : Path (.call function args pos) nodes left) :
    nodes = 1 ∨ ∃ arg ∈ args, ∃ shorter, nodes = shorter + 1 ∧ arg.Path shorter left := by
  cases path with
  | bare => exact .inl rfl
  | argument _ _ membership path => exact .inr ⟨_, membership, _, rfl, path⟩

namespace Grammar

/-- The length of the longest path in an operand: a call around an expression that uses all the room
left in the chain of each of the four tiers. -/
def reach : Nat → Nat
  | 0 => 0
  | room + 1 => reach room + 4 * room + 1

theorem reach_add (room : Nat) : reach room + room = 2 * room ^ 2 := by
  induction room with
  | zero => rfl
  | succ room inductionHypothesis =>
    have square : 2 * (room + 1) ^ 2 = 2 * room ^ 2 + 4 * room + 2 := by ring
    rw [square, ← inductionHypothesis, reach]
    omega

theorem reach_mono {less room : Nat} (fewer : less ≤ room) : reach less ≤ reach room := by
  induction fewer with
  | refl => exact Nat.le_refl _
  | step _ inductionHypothesis =>
    rw [reach]
    omega

/-- How many chains, one in the first operand of another, lead from a tier down to an operand. -/
def rank : Tier → Nat
  | .product => 1
  | .sum => 2
  | .comparison => 3
  | .equality => 4

/-- The length of the longest path in a phrase. -/
def longest (room : Nat) : Phrase → Nat
  | .operand => reach room
  | .chain tier count => reach room + (rank tier - 1) * room + count
  | .tier tier => reach room + rank tier * room

theorem longest_operandOf (room : Nat) (tier : Tier) :
    longest room (operandOf tier) = reach room + (rank tier - 1) * room := by
  cases tier <;> simp [operandOf, longest, rank]

theorem Derives.count_le {room count : Nat} {tier : Tier} {lexemes : List Lexeme} {e : Expr}
    (derived : Derives room (.chain tier count) lexemes e) : count ≤ room := by
  cases derived with
  | first => exact Nat.zero_le _
  | next => exact Nat.le_add_left _ _

/-- The limit holds for what is not left of an operator. -/
theorem Derives.path_le_room {room : Nat} {phrase : Phrase} {lexemes : List Lexeme} {e : Expr}
    (derived : Derives room phrase lexemes e) {nodes left : Nat} (path : e.Path nodes left) :
    nodes ≤ room + left := by
  induction derived generalizing nodes left with
  | literal | name =>
    cases path
    exact Nat.zero_le _
  | sign _ _ operand =>
    cases path with
    | unary _ _ path =>
      have shorter := operand path
      omega
  | group _ _ _ inner =>
    have shorter := inner path
    omega
  | call _ _ _ _ _ args =>
    obtain rfl | ⟨e, membership, nodes, rfl, path⟩ := path.call_cases
    · omega
    · obtain ⟨arg, among, rfl⟩ := List.mem_map.mp membership
      have shorter := args arg among path
      omega
  | first _ operand => exact operand path
  | next _ _ before right =>
    cases path with
    | left _ _ _ path =>
      have shorter := before path
      omega
    | right _ _ _ path =>
      have shorter := right path
      omega
  | whole _ chain => exact chain path

theorem Derives.path_le_longest {room : Nat} {phrase : Phrase} {lexemes : List Lexeme} {e : Expr}
    (derived : Derives room phrase lexemes e) {nodes left : Nat} (path : e.Path nodes left) :
    nodes ≤ longest room phrase := by
  induction derived generalizing nodes left with
  | literal | name =>
    cases path
    exact Nat.zero_le _
  | @sign room _ _ _ _ _ _ _ operand =>
    cases path with
    | unary _ _ path =>
      have shorter : _ ≤ reach room := operand path
      rw [longest, reach]
      omega
  | @group room _ _ _ _ _ inner =>
    have shorter : nodes ≤ reach room + 4 * room := inner path
    rw [longest, reach]
    omega
  | @call room _ _ _ _ _ _ _ _ _ args =>
    rw [longest, reach]
    obtain rfl | ⟨e, membership, nodes, rfl, path⟩ := path.call_cases
    · omega
    · obtain ⟨arg, among, rfl⟩ := List.mem_map.mp membership
      have shorter : nodes ≤ reach room + 4 * room := args arg among path
      omega
  | first _ operand =>
    have shorter := operand path
    rwa [longest_operandOf] at shorter
  | @next room count op _ _ _ _ _ _ _ before right =>
    cases path with
    | left _ _ _ path =>
      -- One operator more, and the same room.
      have shorter := before path
      simp only [longest] at shorter ⊢
      omega
    | right _ _ _ path =>
      -- One operator more, and less room.
      have shorter := right path
      have less : reach room ≤ reach (room + (count + 1)) := reach_mono (Nat.le_add_right _ _)
      have lessTighter : (rank op.tier - 1) * room ≤ (rank op.tier - 1) * (room + (count + 1)) :=
        Nat.mul_le_mul_left _ (Nat.le_add_right _ _)
      rw [longest_operandOf] at shorter
      rw [longest]
      omega
  | @whole room count tier _ _ derived chain =>
    have shorter := chain path
    have enough := derived.count_le
    cases tier <;> simp only [longest, rank] at shorter ⊢ <;> omega

end Grammar

/-! Texts with paths of a given length, built up from their parts. -/

namespace Nesting

open Lexer Grammar

/-- Read anywhere between two tokens, the text is a phrase with a path of the given length. -/
def Spells (room : Nat) (phrase : Phrase) (nodes : Nat) (text : List Char) : Prop :=
  ∀ (pos : Position) (depth : Nat), ∃ (lexemes : List Lexeme) (next : Position) (e : Expr)
    (left : Nat), given ⟨.ready, pos, depth⟩ text = lexemes.map .ok ∧
      after ⟨.ready, pos, depth⟩ text = ⟨.ready, next, depth⟩ ∧
      Derives room phrase lexemes e ∧ e.Path nodes left

def one : List Char := ['1', ' ']

theorem one_spells (room : Nat) : Spells room .operand 0 one :=
  fun pos _ => ⟨[⟨.int 1, pos⟩], right (right pos), .literal (.int 1), 0, rfl, rfl, .literal rfl,
    .literal _⟩

/-- An operator of each tier, and a right operand. -/
def link : Tier → BinaryOp × List Char
  | .product => (.mul, ['*', ' ', '1', ' '])
  | .sum => (.add, ['+', ' ', '1', ' '])
  | .comparison => (.lt, ['<', ' ', '1', ' '])
  | .equality => (.eq, ['=', '=', ' ', '1', ' '])

theorem link_given (tier : Tier) (pos : Position) (depth : Nat) :
    (link tier).1.tier = tier ∧ ∃ (operand next : Position),
      given ⟨.ready, pos, depth⟩ (link tier).2 =
        [.ok ⟨.operator (link tier).1, pos⟩, .ok ⟨.int 1, operand⟩] ∧
      after ⟨.ready, pos, depth⟩ (link tier).2 = ⟨.ready, next, depth⟩ := by
  cases tier
  all_goals
    rw [link, given, after, step, ready, isNameStart_mark (by simp)]
    exact ⟨rfl, _, _, rfl, rfl⟩

theorem Spells.first {room nodes : Nat} {tier : Tier} {text : List Char}
    (spells : Spells room (operandOf tier) nodes text) : Spells room (.chain tier 0) nodes text := by
  intro pos depth
  obtain ⟨lexemes, next, e, left, givenIs, afterIs, derived, path⟩ := spells pos depth
  exact ⟨lexemes, next, e, left, givenIs, afterIs, .first derived, path⟩

/-- One operator more puts one node above the path. -/
theorem Spells.next {room count nodes : Nat} {tier : Tier} {text : List Char}
    (spells : Spells (room + (count + 1)) (.chain tier count) nodes text) :
    Spells (room + (count + 1)) (.chain tier (count + 1)) (nodes + 1) (text ++ (link tier).2) := by
  intro pos depth
  obtain ⟨lexemes, middle, e, left, givenIs, afterIs, derived, path⟩ := spells pos depth
  obtain ⟨sameTier, operand, next, linkGiven, linkAfter⟩ := link_given tier middle depth
  have right : Derives room (operandOf (link tier).1.tier) [⟨.int 1, operand⟩] (.literal (.int 1)) :=
    .ofOperand (.literal rfl) _
  rw [← sameTier] at derived
  have whole : Derives (room + (count + 1)) _ (lexemes ++ ⟨.operator _, middle⟩ :: [_]) _ :=
    .next derived right
  rw [sameTier] at whole
  refine ⟨_, next, _, _, ?_, ?_, whole, .left _ _ _ path⟩
  · rw [given_append, givenIs, afterIs, linkGiven]
    simp
  · rw [after_append, afterIs, linkAfter]

def links (tier : Tier) (count : Nat) : List Char :=
  (List.replicate count (link tier).2).flatten

theorem Spells.links {room nodes : Nat} {tier : Tier} {text : List Char}
    (spells : Spells room (operandOf tier) nodes text) {count : Nat} (enough : count ≤ room) :
    Spells room (.chain tier count) (nodes + count) (text ++ links tier count) := by
  induction count with
  | zero =>
    rw [Nesting.links, List.replicate_zero, List.flatten_nil, List.append_nil]
    exact spells.first
  | succ count inductionHypothesis =>
    obtain ⟨less, rfl⟩ := Nat.exists_eq_add_of_le enough
    rw [Nat.add_comm] at inductionHypothesis ⊢
    have longer := (inductionHypothesis (by omega)).next
    rwa [Nesting.links, List.replicate_succ', List.flatten_append, List.flatten_singleton,
      ← List.append_assoc]

theorem Spells.tier {room nodes : Nat} {tier : Tier} {text : List Char}
    (spells : Spells room (operandOf tier) nodes text) {count : Nat} (enough : count ≤ room) :
    Spells room (.tier tier) (nodes + count) (text ++ Nesting.links tier count) := by
  intro pos depth
  obtain ⟨lexemes, next, e, left, givenIs, afterIs, derived, path⟩ :=
    spells.links enough pos depth
  exact ⟨lexemes, next, e, left, givenIs, afterIs, .whole derived, path⟩

theorem Spells.call {room nodes : Nat} {text : List Char}
    (spells : Spells room (.tier .equality) nodes text) :
    Spells (room + 1) .operand (nodes + 1) ('f' :: '(' :: (text ++ [')', ' '])) := by
  intro pos depth
  have isName : Text.isNameStart 'f' = true := by decide +kernel
  have notPart : Text.isNameChar '(' = false := by decide +kernel
  have word : step ⟨.ready, pos, depth⟩ 'f' = (⟨.word pos ['f'], right pos, depth⟩, []) := by
    rw [step, ready, isName]
    rfl
  have parenthesis : ready ⟨.ready, right pos, depth⟩ '(' =
      (⟨.ready, right (right pos), depth + 1⟩, [found .leftParen (right pos)]) := by
    rw [ready, isNameStart_mark (by simp)]
    rfl
  have opens : step ⟨.word pos ['f'], right pos, depth⟩ '(' =
      (⟨.ready, right (right pos), depth + 1⟩,
        [found (.name "f") pos, found .leftParen (right pos)]) := by
    rw [step, notPart, interrupt, parenthesis]
    rfl
  have closes (behind : Position) :
      given ⟨.ready, behind, depth + 1⟩ [')', ' '] = [found .rightParen behind] ∧
        after ⟨.ready, behind, depth + 1⟩ [')', ' '] = ⟨.ready, right (right behind), depth⟩ := by
    rw [given, after, step, ready, isNameStart_mark (by simp)]
    exact ⟨rfl, rfl⟩
  obtain ⟨lexemes, behind, e, left, givenIs, afterIs, derived, path⟩ :=
    spells (right (right pos)) (depth + 1)
  have listed : Listed ([(lexemes, e)].map Prod.fst) lexemes := .one lexemes
  have whole : Derives (room + 1) .operand _ (.call "f" [e] pos) :=
    .call (right pos) behind ⟨by decide, by decide⟩ listed (by simpa using derived)
  refine ⟨_, right (right behind), _, _, ?_, ?_, whole, .argument _ _ List.mem_cons_self path⟩
  · rw [given, word, given, opens, given_append, givenIs, afterIs, (closes behind).1]
    simp [found]
  · rw [after, word, after, opens, after_append, afterIs, (closes behind).2]

/-- An operand with a chain of each tier behind it. -/
def chains (operand : List Char) (count : Tier → Nat) : List Char :=
  operand ++ links .product (count .product) ++ links .sum (count .sum) ++
    links .comparison (count .comparison) ++ links .equality (count .equality)

theorem Spells.chains {room nodes : Nat} {text : List Char}
    (spells : Spells room .operand nodes text) {count : Tier → Nat}
    (enough : ∀ tier, count tier ≤ room) :
    Spells room (.tier .equality)
      (nodes + count .product + count .sum + count .comparison + count .equality)
      (chains text count) := by
  have products : Spells room (operandOf .sum) (nodes + count .product) _ :=
    Spells.tier (show Spells room (operandOf .product) nodes text from spells) (enough .product)
  have sums : Spells room (operandOf .comparison) (nodes + count .product + count .sum) _ :=
    products.tier (enough .sum)
  have comparisons : Spells room (operandOf .equality)
      (nodes + count .product + count .sum + count .comparison) _ :=
    sums.tier (enough .comparison)
  exact comparisons.tier (enough .equality)

/-- Calls around chains around calls. -/
def tower : Nat → List Char
  | 0 => one
  | room + 1 => 'f' :: '(' :: (chains (tower room) (fun _ => room) ++ [')', ' '])

theorem tower_spells (room : Nat) : Spells room .operand (reach room) (tower room) := by
  induction room with
  | zero => exact one_spells 0
  | succ room inductionHypothesis =>
    have total : reach (room + 1) = reach room + room + room + room + room + 1 := by
      rw [reach]
      omega
    rw [total]
    exact (inductionHypothesis.chains fun _ => Nat.le_refl room).call

/-- A text that spells an expression within the limit is accepted as that expression. -/
theorem Spells.accepted {nodes : Nat} {text : List Char}
    (spells : Spells nestingLimit (.tier .equality) nodes text) :
    ∃ program statement left, parse (String.ofList text) = .ok program ∧ statement ∈ program ∧
      statement.body.Path nodes left := by
  obtain ⟨lexemes, next, e, left, givenIs, afterIs, derived, path⟩ := spells ⟨1, 1⟩ 0
  have items : run .initial text = lexemes.map .ok ++ [found .eof next] := by
    rw [run_eq_given, State.initial, givenIs, afterIs]
    rfl
  have characters : (lex (String.ofList text)).2 = [] := by
    simp [lex, items, found, complaint?, List.filterMap_eq_nil_iff]
  have spelled : (lex (String.ofList text)).1 = lexemes ++ [⟨.eof, next⟩] := by
    simp [lex, items, found, lexeme?, Function.comp_def]
  obtain ⟨pos, accepted⟩ := parse_of_derives characters spelled derived
  exact ⟨_, _, left, accepted, List.mem_cons_self, path⟩

theorem Spells.sign {room nodes : Nat} {text : List Char} (spells : Spells room .operand nodes text) :
    Spells (room + 1) .operand (nodes + 1) ('-' :: text) := by
  intro pos depth
  have minus : step ⟨.ready, pos, depth⟩ '-' =
      (⟨.ready, right pos, depth⟩, [found (.operator .sub) pos]) := by
    rw [step, ready, isNameStart_mark (by simp)]
    rfl
  obtain ⟨lexemes, next, e, left, givenIs, afterIs, derived, path⟩ := spells (right pos) depth
  have whole : Derives (room + 1) .operand (⟨.operator .sub, pos⟩ :: lexemes) _ :=
    .sign rfl derived
  refine ⟨_, next, _, left, ?_, ?_, whole, .unary _ _ path⟩
  · rw [given, minus, givenIs]
    rfl
  · rw [after, minus, afterIs]

theorem Spells.signs {room nodes : Nat} {text : List Char} (spells : Spells room .operand nodes text)
    (count : Nat) :
    Spells (room + count) .operand (nodes + count) (List.replicate count '-' ++ text) := by
  induction count with
  | zero => exact spells
  | succ count inductionHypothesis => exact inductionHypothesis.sign

end Nesting

theorem longest_expression :
    Grammar.longest nestingLimit (.tier .equality) = 2 * nestingLimit ^ 2 + 3 * nestingLimit := by
  have sum := Grammar.reach_add nestingLimit
  simp only [Grammar.longest, Grammar.rank]
  omega

/-- An expression of an accepted text keeps to the limit if and only if its paths through the left
operand of an operator do. Those can be longer by the number of times they go left, up to a length
that is quadratic in the limit. -/
theorem path_le_limit_iff {source : String} {program : List Statement}
    (accepted : parse source = .ok program) {statement : Statement}
    (membership : statement ∈ program) :
    ((∀ nodes left, statement.body.Path nodes left → nodes ≤ nestingLimit) ↔
      ∀ nodes left, statement.body.Path nodes left → 0 < left → nodes ≤ nestingLimit) ∧
    ∀ nodes left, statement.body.Path nodes left →
      nodes ≤ nestingLimit + left ∧ nodes ≤ 2 * nestingLimit ^ 2 + 3 * nestingLimit := by
  obtain ⟨lexemes, derived⟩ := derives_of_parse accepted membership
  have bounded : ∀ nodes left, statement.body.Path nodes left →
      nodes ≤ nestingLimit + left ∧ nodes ≤ 2 * nestingLimit ^ 2 + 3 * nestingLimit := by
    intro nodes left path
    rw [← longest_expression]
    exact ⟨derived.path_le_room path, derived.path_le_longest path⟩
  refine ⟨⟨fun all nodes left path _ => all nodes left path, ?_⟩, bounded⟩
  intro throughLeft nodes left path
  rcases Nat.eq_zero_or_pos left with rfl | goesLeft
  · exact (bounded nodes 0 path).1
  · exact throughLeft nodes left path goesLeft

/-- The longest path there can be. All but as many nodes as the limit allows are left to the left. -/
theorem longest_path_attained :
    ∃ (source : String) (program : List Statement) (statement : Statement) (left : Nat),
      parse source = .ok program ∧ statement ∈ program ∧
      statement.body.Path (2 * nestingLimit ^ 2 + 3 * nestingLimit) left ∧
      2 * nestingLimit ^ 2 + 3 * nestingLimit ≤ nestingLimit + left := by
  have spells := (Nesting.tower_spells nestingLimit).chains fun _ => Nat.le_refl nestingLimit
  obtain ⟨program, statement, left, accepted, membership, path⟩ := spells.accepted
  have total : Grammar.reach nestingLimit + nestingLimit + nestingLimit + nestingLimit +
      nestingLimit = 2 * nestingLimit ^ 2 + 3 * nestingLimit := by
    have sum := Grammar.reach_add nestingLimit
    omega
  rw [total] at path
  exact ⟨_, program, statement, left, accepted, membership, path,
    ((path_le_limit_iff accepted membership).2 _ left path).1⟩

/-- As many signs as the limit allows, in the first operand of a sum. -/
theorem signs_before_sum_exceed_limit :
    ∃ program statement left,
      parse (String.ofList (List.replicate 128 '-' ++ ['1', ' ', '+', ' ', '1', ' '])) =
        .ok program ∧
      statement ∈ program ∧ statement.body.Path (nestingLimit + 1) left := by
  have enough : ∀ tier : Tier, (if tier = .sum then 1 else 0) ≤ 0 + nestingLimit := by
    intro tier
    cases tier <;> decide
  exact (((Nesting.one_spells 0).signs nestingLimit).chains enough).accepted

end Colloquy.Calc

import Colloquy.Proofs.Calc.Completeness

set_option autoImplicit false

/-!
Programs as texts. An expression is printed with parentheses only where the grammar needs them: around
an operation of a looser tier, around one of the same tier that stands on the right, and around any
operation behind a sign.

The lexemes that are printed for an expression derive it, at whatever positions they stand, if and
only if the room is as large as the nesting of what is printed.
-/

namespace Colloquy.Calc

/-! Trees without their positions. -/

mutual

/-- The same expression with all positions at one place. -/
def Expr.bare : Expr → Expr
  | .literal value => .literal value
  | .name text _ => .name text ⟨0, 0⟩
  | .unary op operand _ => .unary op operand.bare ⟨0, 0⟩
  | .binary op left right _ => .binary op left.bare right.bare ⟨0, 0⟩
  | .call function args _ => .call function (Expr.bareAll args) ⟨0, 0⟩

def Expr.bareAll : List Expr → List Expr
  | [] => []
  | arg :: args => arg.bare :: Expr.bareAll args

end

def Statement.bare : Statement → Statement
  | .declare name kind? init _ => .declare name kind? init.bare ⟨0, 0⟩
  | .expr e terminated _ => .expr e.bare terminated ⟨0, 0⟩

/-! The tokens of an expression. -/

/-- A tier and the tighter ones. -/
def Tier.upTo (tier : Tier) : List Tier :=
  tier.tighter ++ [tier]

def UnaryOp.token : UnaryOp → Token
  | .neg => .operator .sub
  | .not => .bang

/-- The token of a literal. There is none for `unit`. -/
def literalToken : Value → Token
  | .unit => .eof
  | .bool true => .name "true"
  | .bool false => .name "false"
  | .int n => .int n
  | .double x => .double x
  | .string text => .string text

mutual

/-- The tokens that an expression is printed as, where operations of some tiers need no parentheses. -/
def Expr.tokens (tiers : List Tier) : Expr → List Token
  | .literal value => [literalToken value]
  | .name text _ => [.name text]
  | .unary op operand _ => op.token :: operand.tokens []
  | .binary op left right _ =>
    let operation :=
      left.tokens op.tier.upTo ++ .operator op :: right.tokens op.tier.tighter
    if op.tier ∈ tiers then operation else .leftParen :: operation ++ [.rightParen]
  | .call function args _ =>
    .name function :: .leftParen :: [.comma].intercalate (Expr.tokensAll args) ++ [.rightParen]

def Expr.tokensAll : List Expr → List (List Token)
  | [] => []
  | arg :: args => arg.tokens Tier.equality.upTo :: Expr.tokensAll args

end

theorem Expr.tokensAll_eq_map (args : List Expr) :
    Expr.tokensAll args = args.map (Expr.tokens Tier.equality.upTo) := by
  induction args with
  | nil => rfl
  | cons arg args inductionHypothesis => rw [tokensAll, inductionHypothesis, List.map_cons]

/-- How many operators of a tier follow each other on the left of an expression. -/
def Expr.chainLength (tier : Tier) : Expr → Nat
  | .binary op left _ _ => if op.tier = tier then left.chainLength tier + 1 else 0
  | _ => 0

mutual

/-- The deepest level of nesting in what is printed for an expression. -/
def Expr.nesting (tiers : List Tier) : Expr → Nat
  | .literal _ | .name _ _ => 0
  | .unary _ operand _ => operand.nesting [] + 1
  | .binary op left right _ =>
    let operation := max (left.nesting op.tier.upTo)
      (left.chainLength op.tier + 1 + right.nesting op.tier.tighter)
    if op.tier ∈ tiers then operation else operation + 1
  | .call _ args _ => Expr.nestingAll args + 1

def Expr.nestingAll : List Expr → Nat
  | [] => 0
  | arg :: args => max (arg.nesting Tier.equality.upTo) (Expr.nestingAll args)

end

/-- The literals that can be written down. A negative number is written with a sign, and a double not
always in a way that is read as the same one. -/
def isWritable : Value → Bool
  | .bool _ | .string _ => true
  | .int n => 0 ≤ n.toInt
  | .unit | .double _ => false

/-- Whether a text is read as one name. -/
def isWord (text : String) : Bool :=
  match text.toList with
  | [] => false
  | first :: rest => Text.isNameStart first && rest.all Text.isNameChar

open Grammar in
/-- All literals of the expression can be written down, and its names are names. -/
inductive Expr.Printable : Expr → Prop
  | literal {value : Value} : isWritable value = true → Printable (.literal value)
  | name {text : String} (pos : Position) :
      isWord text = true → IsName text → Printable (.name text pos)
  | unary {operand : Expr} (op : UnaryOp) (pos : Position) :
      Printable operand → Printable (.unary op operand pos)
  | binary {left right : Expr} (op : BinaryOp) (pos : Position) :
      Printable left → Printable right → Printable (.binary op left right pos)
  | call {function : String} {args : List Expr} (pos : Position) :
      isWord function = true → IsName function → (∀ arg ∈ args, Printable arg) →
      Printable (.call function args pos)

namespace Grammar

/-! Phrases that are also phrases of a looser kind. -/

theorem Derives.loosen {room : Nat} {tier looser : Tier} {lexemes : List Lexeme} {e : Expr}
    (derived : Derives room (.tier tier) lexemes e) (isTighter : tier ∈ looser.tighter) :
    Derives room (operandOf looser) lexemes e := by
  cases looser with
  | product => cases isTighter
  | sum =>
    cases tier with
    | product => exact derived
    | _ => simp [Tier.tighter] at isTighter
  | comparison =>
    cases tier with
    | product => exact Derives.alone derived
    | sum => exact derived
    | _ => simp [Tier.tighter] at isTighter
  | equality =>
    cases tier with
    | product => exact Derives.alone (Derives.alone derived)
    | sum => exact Derives.alone derived
    | comparison => exact derived
    | equality => simp [Tier.tighter] at isTighter

theorem Derives.widen {room : Nat} {tier looser : Tier} {lexemes : List Lexeme} {e : Expr}
    (derived : Derives room (.tier tier) lexemes e) (among : tier ∈ looser.upTo) :
    Derives room (.tier looser) lexemes e := by
  rcases List.mem_append.mp among with isTighter | same
  · exact .alone (derived.loosen isTighter)
  · cases List.mem_singleton.mp same
    exact derived

/-- Lexemes with the given tokens derive the expression, up to positions. -/
def Derivable (room : Nat) (phrase : Phrase) (tokens : List Token) (e : Expr) : Prop :=
  ∀ lexemes : List Lexeme, lexemes.map Lexeme.token = tokens →
    ∃ read : Expr, read.bare = e.bare ∧ Derives room phrase lexemes read

section

variable {room : Nat} {tokens : List Token} {e : Expr}

theorem Derivable.mono {phrase looser : Phrase}
    (derivable : Derivable room phrase tokens e)
    (loosen : ∀ {lexemes read}, Derives room phrase lexemes read → Derives room looser lexemes read) :
    Derivable room looser tokens e := by
  intro lexemes spelled
  obtain ⟨read, same, derived⟩ := derivable lexemes spelled
  exact ⟨read, same, loosen derived⟩

theorem literal?_literalToken {value : Value} (writable : isWritable value = true) :
    literal? (literalToken value) = some value := by
  rcases value with _ | (_ | _) | n | x | text
  · cases writable
  · rfl
  · rfl
  · rfl
  · cases writable
  · rfl

theorem Derivable.literal {value : Value} (writable : isWritable value = true) :
    Derivable room .operand [literalToken value] (.literal value) := by
  intro lexemes spelled
  obtain ⟨lexeme, rfl, token⟩ := List.map_eq_singleton_iff.mp spelled
  refine ⟨.literal value, rfl, .literal ?_⟩
  rw [token]
  exact literal?_literalToken writable

theorem Derivable.name {text : String} (isName : IsName text) (pos : Position) :
    Derivable room .operand [.name text] (.name text pos) := by
  intro lexemes spelled
  obtain ⟨⟨_, pos⟩, rfl, rfl⟩ := List.map_eq_singleton_iff.mp spelled
  exact ⟨.name text pos, rfl, .name isName⟩

theorem sign?_token (op : UnaryOp) : sign? op.token = some op := by
  cases op <;> rfl

theorem Derivable.sign (op : UnaryOp) (pos : Position)
    (operand : Derivable room .operand tokens e) :
    Derivable (room + 1) .operand (op.token :: tokens) (.unary op e pos) := by
  intro lexemes spelled
  obtain ⟨⟨_, pos⟩, behind, rfl, rfl, behindSpelled⟩ := List.map_eq_cons_iff.mp spelled
  obtain ⟨read, same, derived⟩ := operand behind behindSpelled
  refine ⟨.unary op read pos, ?_, .sign (sign?_token op) derived⟩
  rw [Expr.bare, Expr.bare, same]

theorem Derivable.group (inner : Derivable room (.tier .equality) tokens e) :
    Derivable (room + 1) .operand (.leftParen :: tokens ++ [.rightParen]) e := by
  intro lexemes spelled
  obtain ⟨front, back, rfl, frontSpelled, backSpelled⟩ := List.map_eq_append_iff.mp spelled
  obtain ⟨⟨_, left⟩, inside, rfl, rfl, insideSpelled⟩ := List.map_eq_cons_iff.mp frontSpelled
  obtain ⟨⟨_, right⟩, rfl, rfl⟩ := List.map_eq_singleton_iff.mp backSpelled
  obtain ⟨read, same, derived⟩ := inner inside insideSpelled
  exact ⟨read, same, .group left right derived⟩

/-- Arguments that can be derived one by one. -/
theorem derivable_listed {args : List Expr} (derivable : ∀ arg ∈ args,
      Derivable room (.tier .equality) (arg.tokens Tier.equality.upTo) arg) {lexemes : List Lexeme}
    (spelled : lexemes.map Lexeme.token = [.comma].intercalate (Expr.tokensAll args)) :
    ∃ phrases : List (List Lexeme × Expr), Listed (phrases.map Prod.fst) lexemes ∧
      (∀ phrase ∈ phrases, Derives room (.tier .equality) phrase.1 phrase.2) ∧
      Expr.bareAll (phrases.map Prod.snd) = Expr.bareAll args := by
  induction args generalizing lexemes with
  | nil =>
    cases List.map_eq_nil_iff.mp spelled
    exact ⟨[], .none, nofun, rfl⟩
  | cons arg args inductionHypothesis =>
    obtain ⟨first, others⟩ := List.forall_mem_cons.mp derivable
    rcases args with _ | ⟨next, args⟩
    · rw [Expr.tokensAll, Expr.tokensAll, List.intercalate_singleton] at spelled
      obtain ⟨read, same, derived⟩ := first lexemes spelled
      refine ⟨[(lexemes, read)], .one lexemes, List.forall_mem_singleton.mpr derived, ?_⟩
      simp [Expr.bareAll, same]
    · rw [Expr.tokensAll, Expr.tokensAll, List.intercalate_cons_cons, List.append_assoc] at spelled
      obtain ⟨stretch, back, rfl, stretchSpelled, backSpelled⟩ := List.map_eq_append_iff.mp spelled
      obtain ⟨⟨_, comma⟩, later, rfl, rfl, laterSpelled⟩ := List.map_eq_cons_iff.mp backSpelled
      obtain ⟨read, same, derived⟩ := first stretch stretchSpelled
      obtain ⟨phrases, listed, each, sameOthers⟩ := inductionHypothesis others laterSpelled
      rcases phrases with _ | ⟨second, phrases⟩
      · cases sameOthers
      · refine ⟨(stretch, read) :: second :: phrases, .more comma listed,
          List.forall_mem_cons.mpr ⟨derived, each⟩, ?_⟩
        rw [List.map_cons, Expr.bareAll, sameOthers, same]
        rfl

theorem Derivable.call {function : String} (isName : IsName function) {args : List Expr}
    (derivable : ∀ arg ∈ args,
      Derivable room (.tier .equality) (arg.tokens Tier.equality.upTo) arg) (pos : Position) :
    Derivable (room + 1) .operand
      (.name function :: .leftParen :: [.comma].intercalate (Expr.tokensAll args) ++ [.rightParen])
      (.call function args pos) := by
  intro lexemes spelled
  obtain ⟨front, back, rfl, frontSpelled, backSpelled⟩ := List.map_eq_append_iff.mp spelled
  obtain ⟨⟨_, pos⟩, opened, rfl, rfl, openedSpelled⟩ := List.map_eq_cons_iff.mp frontSpelled
  obtain ⟨⟨_, left⟩, inside, rfl, rfl, insideSpelled⟩ := List.map_eq_cons_iff.mp openedSpelled
  obtain ⟨⟨_, right⟩, rfl, rfl⟩ := List.map_eq_singleton_iff.mp backSpelled
  obtain ⟨phrases, listed, each, same⟩ := derivable_listed derivable insideSpelled
  refine ⟨.call function (phrases.map Prod.snd) pos, ?_, .call left right isName listed each⟩
  rw [Expr.bare, Expr.bare, same]

/-- One operator more in a chain. -/
theorem Derivable.next {count : Nat} {op : BinaryOp} {leftTokens rightTokens : List Token}
    {left right : Expr}
    (before : Derivable (room + (count + 1)) (.chain op.tier count) leftTokens left)
    (behind : Derivable room (operandOf op.tier) rightTokens right) (pos : Position) :
    Derivable (room + (count + 1)) (.chain op.tier (count + 1))
      (leftTokens ++ .operator op :: rightTokens) (.binary op left right pos) := by
  intro lexemes spelled
  obtain ⟨front, back, rfl, frontSpelled, backSpelled⟩ := List.map_eq_append_iff.mp spelled
  obtain ⟨⟨_, pos⟩, operand, rfl, rfl, operandSpelled⟩ := List.map_eq_cons_iff.mp backSpelled
  obtain ⟨first, sameFirst, firstDerived⟩ := before front frontSpelled
  obtain ⟨second, sameSecond, secondDerived⟩ := behind operand operandSpelled
  refine ⟨.binary op first second pos, ?_, .next firstDerived secondDerived⟩
  rw [Expr.bare, Expr.bare, sameFirst, sameSecond]

end

/-- What is printed for an operand, and what is printed in a chain of a tier. -/
structure Printed (e : Expr) : Prop where
  operand : ∀ room, e.nesting [] ≤ room → Derivable room .operand (e.tokens []) e
  chain : ∀ tier room, e.nesting tier.upTo ≤ room →
    Derivable room (.chain tier (e.chainLength tier)) (e.tokens tier.upTo) e

theorem Printed.tier {e : Expr} (printed : Printed e) (tier : Tier) {room : Nat}
    (enough : e.nesting tier.upTo ≤ room) : Derivable room (.tier tier) (e.tokens tier.upTo) e :=
  (printed.chain tier room enough).mono .whole

theorem Printed.operandOf {e : Expr} (printed : Printed e) {tier : Tier} {room : Nat}
    (enough : e.nesting tier.tighter ≤ room) :
    Derivable room (operandOf tier) (e.tokens tier.tighter) e := by
  cases tier with
  | product => exact printed.operand room enough
  | sum => exact printed.tier .product enough
  | comparison => exact printed.tier .sum enough
  | equality => exact printed.tier .comparison enough

/-- What is no operation is printed in the same way everywhere. -/
theorem Printed.ofOperand {e : Expr} (tokens : ∀ tiers, e.tokens tiers = e.tokens [])
    (nesting : ∀ tiers, e.nesting tiers = e.nesting []) (noChain : ∀ tier, e.chainLength tier = 0)
    (operand : ∀ room, e.nesting [] ≤ room → Derivable room .operand (e.tokens []) e) :
    Printed e where
  operand := operand
  chain tier room enough := by
    rw [nesting] at enough
    rw [tokens, noChain]
    exact (operand room enough).mono fun derived => .first (derived.ofOperand tier)

theorem mem_upTo_equality (tier : Tier) : tier ∈ Tier.equality.upTo := by
  cases tier <;> decide

section

variable {op : BinaryOp} {left right : Expr} (pos : Position)

/-- An operation without parentheses around it. -/
theorem Printed.operation (leftPrinted : Printed left) (rightPrinted : Printed right) {room : Nat}
    (enough : max (left.nesting op.tier.upTo)
      (left.chainLength op.tier + 1 + right.nesting op.tier.tighter) ≤ room) :
    Derivable room (.chain op.tier (left.chainLength op.tier + 1))
      (left.tokens op.tier.upTo ++ .operator op :: right.tokens op.tier.tighter)
      (.binary op left right pos) := by
  obtain ⟨leftEnough, rightEnough⟩ := Nat.max_le.mp enough
  obtain ⟨less, rfl⟩ : ∃ less, room = less + (left.chainLength op.tier + 1) :=
    ⟨room - (left.chainLength op.tier + 1), by omega⟩
  apply Derivable.next
  · exact leftPrinted.chain op.tier _ leftEnough
  · exact rightPrinted.operandOf (by omega)

theorem Printed.binary (leftPrinted : Printed left) (rightPrinted : Printed right) :
    Printed (.binary op left right pos) := by
  have enclosed : ∀ {tiers room}, op.tier ∉ tiers →
      (Expr.binary op left right pos).nesting tiers ≤ room →
      Derivable room .operand ((Expr.binary op left right pos).tokens tiers)
        (.binary op left right pos) := by
    intro tiers room loose enough
    rw [Expr.nesting, if_neg loose] at enough
    rw [Expr.tokens, if_neg loose]
    obtain ⟨less, rfl⟩ := Nat.exists_eq_add_of_le' (Nat.le_of_add_left_le enough)
    apply Derivable.group
    have operation := leftPrinted.operation pos rightPrinted (Nat.le_of_add_le_add_right enough)
    exact operation.mono fun derived => .widen (.whole derived) (mem_upTo_equality op.tier)
  refine ⟨fun room => enclosed List.not_mem_nil, ?_⟩
  intro tier room enough
  by_cases among : op.tier ∈ tier.upTo
  · rw [Expr.nesting, if_pos among] at enough
    rw [Expr.tokens, if_pos among, Expr.chainLength]
    by_cases same : op.tier = tier
    · subst same
      rw [if_pos rfl]
      exact leftPrinted.operation pos rightPrinted enough
    · have isTighter : op.tier ∈ tier.tighter := by
        simpa [Tier.upTo, same] using among
      rw [if_neg same]
      exact (leftPrinted.operation pos rightPrinted enough).mono fun derived =>
        .first (.loosen (.whole derived) isTighter)
  · have different : op.tier ≠ tier := by
      rintro rfl
      exact among (by simp [Tier.upTo])
    rw [Expr.chainLength, if_neg different]
    exact (enclosed among enough).mono fun derived => .first (derived.ofOperand tier)

end

theorem nestingAll_le_iff {args : List Expr} {room : Nat} :
    Expr.nestingAll args ≤ room ↔ ∀ arg ∈ args, arg.nesting Tier.equality.upTo ≤ room := by
  induction args with
  | nil => simp [Expr.nestingAll]
  | cons arg args inductionHypothesis =>
    rw [Expr.nestingAll, Nat.max_le, inductionHypothesis, List.forall_mem_cons]

theorem printed_of_printable {e : Expr} (printable : e.Printable) : Printed e := by
  induction printable with
  | literal writable =>
    exact .ofOperand (fun _ => rfl) (fun _ => rfl) (fun _ => rfl) fun _ _ => .literal writable
  | name pos _ isName =>
    exact .ofOperand (fun _ => rfl) (fun _ => rfl) (fun _ => rfl) fun _ _ => .name isName pos
  | unary op pos _ operand =>
    refine .ofOperand (fun _ => rfl) (fun _ => rfl) (fun _ => rfl) fun room enough => ?_
    obtain ⟨less, rfl⟩ := Nat.exists_eq_add_of_le' (Nat.le_of_add_left_le enough)
    exact .sign op pos (operand.operand less (Nat.le_of_add_le_add_right enough))
  | binary op pos _ _ left right => exact left.binary pos right
  | call pos _ isName _ args =>
    refine .ofOperand (fun _ => rfl) (fun _ => rfl) (fun _ => rfl) fun room enough => ?_
    obtain ⟨less, rfl⟩ := Nat.exists_eq_add_of_le' (Nat.le_of_add_left_le enough)
    have each := nestingAll_le_iff.mp (Nat.le_of_add_le_add_right enough)
    exact .call isName (fun arg membership => (args arg membership).tier _ (each arg membership)) pos

end Grammar

/-! Where the room is smaller than the nesting of what is printed, the readers refuse it. -/

namespace Parser

open Grammar

/-- Lexemes with the given tokens are refused, whatever follows them. -/
def Refused (room : Nat) (tiers : List Tier) (tokens : List Token) : Prop :=
  ∀ lexemes : List Lexeme, lexemes.map Lexeme.token = tokens → ∀ (stop : Lexeme) (rest : List Lexeme),
    ∃ d, climb (unary stop room) (chain stop room) tiers (lexemes ++ rest) = .error d

theorem bind_error {α β : Type} {first : Except Diagnostic α} {d : Diagnostic}
    (failure : first = .error d) (second : α → Except Diagnostic β) :
    first >>= second = .error d := by
  rw [failure]
  rfl

section

variable {room : Nat} {tokens : List Token}

theorem Refused.looser {tiers : List Tier} (refused : Refused room tiers tokens)
    (looser : List Tier) : Refused room (tiers ++ looser) tokens := by
  induction looser generalizing tiers with
  | nil => rwa [List.append_nil]
  | cons tier looser inductionHypothesis =>
    rw [List.append_cons]
    apply inductionHypothesis
    intro lexemes spelled stop rest
    obtain ⟨d, failure⟩ := refused lexemes spelled stop rest
    rw [climb_append]
    exact ⟨d, bind_error failure _⟩

theorem Refused.sign (op : UnaryOp)
    (operand : ∀ less, room = less + 1 → Refused less [] tokens) :
    Refused room [] (op.token :: tokens) := by
  intro lexemes spelled stop rest
  obtain ⟨⟨_, pos⟩, behind, rfl, rfl, behindSpelled⟩ := List.map_eq_cons_iff.mp spelled
  change ∃ d, unary stop room (_ :: (behind ++ rest)) = .error d
  unfold unary
  rw [opening?_sign (sign?_token op)]
  cases room with
  | zero => exact ⟨_, rfl⟩
  | succ less =>
    obtain ⟨d, failure⟩ := operand less rfl behind behindSpelled stop rest
    exact ⟨d, bind_error failure _⟩

theorem Refused.group
    (inner : ∀ less, room = less + 1 → Refused less Tier.equality.upTo tokens) :
    Refused room [] (.leftParen :: tokens ++ [.rightParen]) := by
  intro lexemes spelled stop rest
  obtain ⟨front, back, rfl, frontSpelled, backSpelled⟩ := List.map_eq_append_iff.mp spelled
  obtain ⟨⟨_, left⟩, inside, rfl, rfl, insideSpelled⟩ := List.map_eq_cons_iff.mp frontSpelled
  rw [List.append_assoc]
  change ∃ d, unary stop room (⟨.leftParen, left⟩ :: (inside ++ (back ++ rest))) = .error d
  unfold unary
  cases room with
  | zero => exact ⟨_, rfl⟩
  | succ less =>
    obtain ⟨d, failure⟩ := inner less rfl inside insideSpelled stop (back ++ rest)
    exact ⟨d, bind_error failure _⟩

end

/-- Where the room is too small for what is printed, it is refused. -/
structure Exceeds (e : Expr) : Prop where
  operand : ∀ room, room < e.nesting [] → Refused room [] (e.tokens [])
  tier : ∀ (tier : Tier) (room : Nat), room < e.nesting tier.upTo →
    Refused room tier.upTo (e.tokens tier.upTo)

theorem Exceeds.operandOf {e : Expr} (exceeds : Exceeds e) {tier : Tier} {room : Nat}
    (tooSmall : room < e.nesting tier.tighter) :
    Refused room tier.tighter (e.tokens tier.tighter) := by
  cases tier with
  | product => exact exceeds.operand room tooSmall
  | sum => exact exceeds.tier .product room tooSmall
  | comparison => exact exceeds.tier .sum room tooSmall
  | equality => exact exceeds.tier .comparison room tooSmall

theorem Exceeds.ofOperand {e : Expr} (tokens : ∀ tiers, e.tokens tiers = e.tokens [])
    (nesting : ∀ tiers, e.nesting tiers = e.nesting [])
    (operand : ∀ room, room < e.nesting [] → Refused room [] (e.tokens [])) : Exceeds e where
  operand := operand
  tier tier room tooSmall := by
    rw [nesting] at tooSmall
    rw [tokens]
    exact (operand room tooSmall).looser tier.upTo

section

variable {op : BinaryOp} {left right : Expr}

theorem Exceeds.operation (leftPrinted : Printed left) (leftExceeds : Exceeds left)
    (rightExceeds : Exceeds right) {room : Nat}
    (tooSmall : room < max (left.nesting op.tier.upTo)
      (left.chainLength op.tier + 1 + right.nesting op.tier.tighter)) :
    Refused room op.tier.upTo
      (left.tokens op.tier.upTo ++ .operator op :: right.tokens op.tier.tighter) := by
  intro lexemes spelled stop rest
  obtain ⟨front, back, rfl, frontSpelled, backSpelled⟩ := List.map_eq_append_iff.mp spelled
  obtain ⟨⟨_, pos⟩, operand, rfl, rfl, operandSpelled⟩ := List.map_eq_cons_iff.mp backSpelled
  rw [List.append_assoc]
  by_cases leftEnough : left.nesting op.tier.upTo ≤ room
  · -- The operands before the last operator are read; then the room is used up, or what is left of
    -- it is too small for the last operand.
    have rightTooSmall : room < left.chainLength op.tier + 1 + right.nesting op.tier.tighter := by
      omega
    obtain ⟨read, -, derived⟩ := leftPrinted.chain op.tier room leftEnough front frontSpelled
    obtain ⟨-, reads⟩ := @accepts_of_derives _ _ _ _ derived stop _
      (Follows.operator op pos (operand ++ rest))
    rw [Tier.upTo, List.cons_append, reads]
    unfold chain
    simp only [if_true]
    rcases roomLeft : room - left.chainLength op.tier with _ | less
    · exact ⟨_, rfl⟩
    · have lessTooSmall : less < right.nesting op.tier.tighter := by
        omega
      obtain ⟨d, failure⟩ := rightExceeds.operandOf lessTooSmall operand operandSpelled stop rest
      exact ⟨d, bind_error failure _⟩
  · exact leftExceeds.tier op.tier room (by omega) front frontSpelled stop _

theorem upTo_prefix {tier looser : Tier} (among : tier ∈ looser.upTo) :
    tier.upTo <+: looser.upTo := by
  revert among
  cases tier <;> cases looser <;> decide

theorem Exceeds.binary (leftPrinted : Printed left) (leftExceeds : Exceeds left)
    (rightExceeds : Exceeds right) (pos : Position) : Exceeds (.binary op left right pos) := by
  have enclosed : ∀ {tiers room}, op.tier ∉ tiers →
      room < (Expr.binary op left right pos).nesting tiers →
      Refused room [] ((Expr.binary op left right pos).tokens tiers) := by
    intro tiers room loose tooSmall
    rw [Expr.nesting, if_neg loose] at tooSmall
    rw [Expr.tokens, if_neg loose]
    apply Refused.group
    rintro less rfl
    obtain ⟨looser, isPrefix⟩ := upTo_prefix (mem_upTo_equality op.tier)
    rw [← isPrefix]
    exact (Exceeds.operation leftPrinted leftExceeds rightExceeds
      (Nat.lt_of_succ_lt_succ tooSmall)).looser looser
  refine ⟨fun room => enclosed List.not_mem_nil, ?_⟩
  intro tier room tooSmall
  by_cases among : op.tier ∈ tier.upTo
  · rw [Expr.nesting, if_pos among] at tooSmall
    rw [Expr.tokens, if_pos among]
    obtain ⟨looser, isPrefix⟩ := upTo_prefix among
    rw [← isPrefix]
    exact (Exceeds.operation leftPrinted leftExceeds rightExceeds tooSmall).looser looser
  · exact (enclosed among tooSmall).looser tier.upTo

end

/-- The first argument that needs more room than there is gets refused. -/
theorem arguments_refused {args : List Expr} (printed : ∀ arg ∈ args, Printed arg)
    (exceeds : ∀ arg ∈ args, Exceeds arg) {room : Nat} (tooSmall : room < Expr.nestingAll args)
    {lexemes : List Lexeme}
    (spelled : lexemes.map Lexeme.token = [.comma].intercalate (Expr.tokensAll args))
    (stop : Lexeme) (bound : Nat) (rest : List Lexeme) :
    ∃ d, arguments (expression stop room) stop bound (lexemes ++ rest) = .error d := by
  induction args generalizing lexemes bound with
  | nil => cases tooSmall
  | cons arg args inductionHypothesis =>
    obtain ⟨argPrinted, argsPrinted⟩ := List.forall_mem_cons.mp printed
    obtain ⟨argExceeds, argsExceed⟩ := List.forall_mem_cons.mp exceeds
    rcases bound with _ | bound
    · exact ⟨_, rfl⟩
    rw [Expr.nestingAll] at tooSmall
    rw [Expr.tokensAll] at spelled
    by_cases enough : arg.nesting Tier.equality.upTo ≤ room
    · have laterTooSmall : room < Expr.nestingAll args := by omega
      rcases args with _ | ⟨next, args⟩
      · cases laterTooSmall
      rw [Expr.tokensAll, List.intercalate_cons_cons, List.append_assoc] at spelled
      obtain ⟨stretch, back, rfl, stretchSpelled, backSpelled⟩ := List.map_eq_append_iff.mp spelled
      obtain ⟨⟨_, comma⟩, later, rfl, rfl, laterSpelled⟩ := List.map_eq_cons_iff.mp backSpelled
      obtain ⟨read, -, derived⟩ := argPrinted.tier _ enough stretch stretchSpelled
      have reads : expression stop room (stretch ++ ⟨.comma, comma⟩ :: (later ++ rest)) = _ :=
        accepts_of_derives derived (.comma _ comma (later ++ rest))
      obtain ⟨d, failure⟩ := inductionHypothesis argsPrinted argsExceed laterTooSmall laterSpelled
        bound
      rw [List.append_assoc, List.cons_append, arguments, reads]
      exact ⟨d, bind_error failure _⟩
    · have front : ∃ stretch behind, lexemes = stretch ++ behind ∧
          stretch.map Lexeme.token = arg.tokens Tier.equality.upTo := by
        rcases args with _ | ⟨next, args⟩
        · rw [Expr.tokensAll, List.intercalate_singleton] at spelled
          exact ⟨lexemes, [], (List.append_nil _).symm, spelled⟩
        · rw [Expr.tokensAll, List.intercalate_cons_cons, List.append_assoc] at spelled
          obtain ⟨stretch, behind, split, stretchSpelled, -⟩ := List.map_eq_append_iff.mp spelled
          exact ⟨stretch, behind, split, stretchSpelled⟩
      obtain ⟨stretch, behind, rfl, stretchSpelled⟩ := front
      obtain ⟨d, failure⟩ := argExceeds.tier .equality room (by omega) stretch stretchSpelled stop
        (behind ++ rest)
      rw [List.append_assoc]
      exact ⟨d, bind_error failure _⟩

/-- The arguments of a call do not start with its closing parenthesis. -/
theorem start_of_tokensAll {args : List Expr} (printed : ∀ arg ∈ args, Printed arg)
    (nonempty : args ≠ []) {lexemes : List Lexeme}
    (spelled : lexemes.map Lexeme.token = [.comma].intercalate (Expr.tokensAll args)) :
    ∃ lexeme rest, lexemes = lexeme :: rest ∧ lexeme.token ≠ .rightParen := by
  have enough := nestingAll_le_iff.mp (Nat.le_refl (Expr.nestingAll args))
  obtain ⟨phrases, listed, each, same⟩ := derivable_listed
    (fun arg membership => (printed arg membership).tier _ (enough arg membership)) spelled
  rcases args with _ | ⟨arg, args⟩
  · exact (nonempty rfl).elim
  rcases phrases with _ | ⟨phrase, phrases⟩
  · cases same
  obtain ⟨lexeme, rest, starts, notRight⟩ := (each phrase List.mem_cons_self).start
  obtain ⟨behind, rfl⟩ := listed.front
  exact ⟨lexeme, rest ++ behind, by rw [starts, List.cons_append], notRight⟩

theorem callArguments_refused {args : List Expr} (printed : ∀ arg ∈ args, Printed arg)
    (exceeds : ∀ arg ∈ args, Exceeds arg) {room : Nat} (tooSmall : room < Expr.nestingAll args)
    {lexemes : List Lexeme}
    (spelled : lexemes.map Lexeme.token = [.comma].intercalate (Expr.tokensAll args))
    (stop : Lexeme) (rest : List Lexeme) :
    ∃ d, callArguments (expression stop room) stop (lexemes ++ rest) = .error d := by
  have nonempty : args ≠ [] := by
    rintro rfl
    cases tooSmall
  have refused := arguments_refused printed exceeds tooSmall spelled stop
    ((lexemes ++ rest).length + 1) rest
  obtain ⟨lexeme, others, rfl, notRight⟩ := start_of_tokensAll printed nonempty spelled
  unfold callArguments
  split
  case h_1 isRight =>
    cases isRight
    exact (notRight rfl).elim
  case h_2 => exact refused

theorem Exceeds.call {function : String} (isName : IsName function) {args : List Expr}
    (printed : ∀ arg ∈ args, Printed arg) (exceeds : ∀ arg ∈ args, Exceeds arg) (pos : Position) :
    Exceeds (.call function args pos) := by
  refine .ofOperand (fun _ => rfl) (fun _ => rfl) ?_
  intro room tooSmall lexemes spelled stop rest
  obtain ⟨front, back, rfl, frontSpelled, backSpelled⟩ := List.map_eq_append_iff.mp spelled
  obtain ⟨⟨_, pos⟩, opened, rfl, rfl, openedSpelled⟩ := List.map_eq_cons_iff.mp frontSpelled
  obtain ⟨⟨_, left⟩, inside, rfl, rfl, insideSpelled⟩ := List.map_eq_cons_iff.mp openedSpelled
  rw [List.append_assoc]
  change ∃ d, unary stop room (_ :: _ :: (inside ++ (back ++ rest))) = .error d
  unfold unary
  rw [opening?_call isName]
  rcases room with _ | room
  · exact ⟨_, rfl⟩
  · obtain ⟨d, failure⟩ := callArguments_refused printed exceeds (Nat.lt_of_succ_lt_succ tooSmall)
      insideSpelled stop (back ++ rest)
    exact ⟨d, bind_error failure _⟩

theorem exceeds_of_printable {e : Expr} (printable : e.Printable) : Exceeds e := by
  induction printable with
  | literal | name => exact .ofOperand (fun _ => rfl) (fun _ => rfl) nofun
  | unary op pos _ operand =>
    refine .ofOperand (fun _ => rfl) (fun _ => rfl) fun room tooSmall => ?_
    apply Refused.sign op
    rintro less rfl
    exact operand.operand less (Nat.lt_of_succ_lt_succ tooSmall)
  | binary op pos left _ leftExceeds rightExceeds =>
    exact .binary (printed_of_printable left) leftExceeds rightExceeds pos
  | call pos _ isName args exceeds =>
    exact .call isName (fun arg membership => printed_of_printable (args arg membership)) exceeds pos

/-- What is printed for an expression is derived only with as much room as its nesting. -/
theorem nesting_le_of_derives {e : Expr} (printable : e.Printable) {room : Nat}
    {lexemes : List Lexeme} (spelled : lexemes.map Lexeme.token = e.tokens Tier.equality.upTo)
    {read : Expr} (derived : Derives room (.tier .equality) lexemes read) :
    e.nesting Tier.equality.upTo ≤ room := by
  rcases Nat.lt_or_ge room (e.nesting Tier.equality.upTo) with tooSmall | enough
  · have reads : expression ⟨.eof, ⟨0, 0⟩⟩ room (lexemes ++ []) = _ :=
      accepts_of_derives derived (.nil _)
    obtain ⟨d, failure⟩ := (exceeds_of_printable printable).tier .equality room tooSmall lexemes
      spelled ⟨.eof, ⟨0, 0⟩⟩ []
    cases reads.symm.trans failure
  · exact enough

end Parser

namespace Grammar

/-! No lexemes that derive an expression have fewer parentheses than are printed for it. -/

/-- How many parentheses are opened. -/
def parens : List Token → Nat
  | [] => 0
  | .leftParen :: tokens => parens tokens + 1
  | _ :: tokens => parens tokens

@[simp] theorem parens_append (first second : List Token) :
    parens (first ++ second) = parens first + parens second := by
  induction first with
  | nil => exact (Nat.zero_add _).symm
  | cons token first inductionHypothesis =>
    cases token with
    | leftParen =>
      change parens (first ++ second) + 1 = parens first + 1 + parens second
      omega
    | _ => exact inductionHypothesis

theorem parens_le_cons (token : Token) (tokens : List Token) :
    parens tokens ≤ parens (token :: tokens) := by
  cases token with
  | leftParen => exact Nat.le_add_right _ 1
  | _ => exact Nat.le_refl _

/-- The tiers whose operations need no parentheses in a phrase. -/
def unenclosed : Phrase → List Tier
  | .operand => []
  | .chain tier _ | .tier tier => tier.upTo

theorem unenclosed_operandOf (tier : Tier) : unenclosed (operandOf tier) = tier.tighter := by
  cases tier <;> rfl

theorem parens_mono {tiers more : List Tier} (fewer : tiers ⊆ more) (e : Expr) :
    parens (e.tokens more) ≤ parens (e.tokens tiers) := by
  cases e with
  | binary op left right pos =>
    by_cases among : op.tier ∈ tiers
    · have same : (Expr.binary op left right pos).tokens more =
          (Expr.binary op left right pos).tokens tiers := by
        rw [Expr.tokens, Expr.tokens, if_pos among, if_pos (fewer among)]
      exact Nat.le_of_eq (congrArg parens same)
    · rw [Expr.tokens, Expr.tokens, if_neg among]
      split
      · rw [List.cons_append, parens, parens_append _ [_]]
        omega
      · exact Nat.le_refl _
  | _ => exact Nat.le_refl _

/-- One pair of parentheses is enough around an expression. -/
theorem parens_operand (e : Expr) :
    parens (e.tokens []) ≤ parens (e.tokens Tier.equality.upTo) + 1 := by
  cases e with
  | binary op left right pos =>
    rw [Expr.tokens, Expr.tokens, if_neg List.not_mem_nil, if_pos (mem_upTo_equality op.tier),
      List.cons_append, parens, parens_append _ [_]]
    exact Nat.le_refl _
  | _ => exact Nat.le_add_right _ 1

theorem parens_listed {args : List (List Lexeme × Expr)} {lexemes : List Lexeme}
    (listed : Listed (args.map Prod.fst) lexemes)
    (fewest : ∀ arg ∈ args, parens (arg.2.tokens Tier.equality.upTo) ≤
      parens (arg.1.map Lexeme.token)) :
    parens ([.comma].intercalate (Expr.tokensAll (args.map Prod.snd))) ≤
      parens (lexemes.map Lexeme.token) := by
  induction args generalizing lexemes with
  | nil => exact Nat.zero_le _
  | cons arg args inductionHypothesis =>
    obtain ⟨first, others⟩ := List.forall_mem_cons.mp fewest
    rcases args with _ | ⟨next, args⟩
    · cases listed
      rw [List.map_cons, List.map_nil, Expr.tokensAll, Expr.tokensAll, List.intercalate_singleton]
      exact first
    · cases listed with
      | more comma listed =>
        have later := inductionHypothesis listed others
        rw [List.map_cons, List.map_cons, Expr.tokensAll, Expr.tokensAll,
          List.intercalate_cons_cons, List.append_assoc, List.singleton_append, List.map_append,
          parens_append, parens_append (arg.1.map _)]
        exact Nat.add_le_add first later

/-- The parentheses that are printed for an expression are needed. -/
theorem Derives.parens_le {room : Nat} {phrase : Phrase} {lexemes : List Lexeme} {e : Expr}
    (derived : Derives room phrase lexemes e) :
    parens (e.tokens (unenclosed phrase)) ≤ parens (lexemes.map Lexeme.token) := by
  induction derived with
  | @literal _ _ value =>
    rcases value with _ | (_ | _) | _ | _ | _ <;> exact Nat.zero_le _
  | name => exact Nat.zero_le _
  | @sign _ token _ op _ _ _ _ operand =>
    refine Nat.le_trans ?_ (parens_le_cons token _)
    cases op <;> exact operand
  | @group _ lexemes e left right _ inner =>
    have one := parens_operand e
    simp only [List.cons_append, List.map_cons, List.map_append, parens, parens_append]
    exact Nat.le_trans one (Nat.add_le_add_right (Nat.le_add_right_of_le inner) 1)
  | call _ _ _ listed _ args =>
    have inner := parens_listed listed args
    simp only [Expr.tokens, List.cons_append, List.map_cons, List.map_append, parens,
      parens_append]
    omega
  | @first _ tier _ e _ operand =>
    rw [unenclosed_operandOf] at operand
    exact Nat.le_trans (parens_mono (List.subset_append_left _ _) e) operand
  | @next _ _ op _ _ _ _ _ _ _ before right =>
    rw [unenclosed_operandOf] at right
    have among : op.tier ∈ op.tier.upTo := by
      simp [Tier.upTo]
    rw [unenclosed, Expr.tokens, if_pos among, List.map_append, parens_append,
      parens_append (List.map _ _)]
    exact Nat.add_le_add before right
  | whole _ chain => exact chain

end Grammar

end Colloquy.Calc

import Colloquy.Proofs.Calc.Grammar

set_option autoImplicit false

/-!
The other direction: the readers take every phrase of the grammar that is derived within the room
they have. What decides where a reader stops is the lexeme behind the phrase, so each statement is
about a phrase and what may follow it: no parenthesis, which would make a call of a name, and no
operator of a tier that the reader still looks for.
-/

namespace Colloquy.Calc

namespace Grammar

/-- What may stand behind a phrase while operators of some tiers are looked for. -/
def Follows (tiers : List Tier) (rest : List Lexeme) : Prop :=
  ∀ ⦃lexeme : Lexeme⦄ ⦃behind : List Lexeme⦄, rest = lexeme :: behind →
    lexeme.token ≠ .leftParen ∧
      ∀ ⦃op : BinaryOp⦄, lexeme.token = .operator op → op.tier ∉ tiers

theorem Follows.mono {tiers fewer : List Tier} {rest : List Lexeme} (follows : Follows tiers rest)
    (fewerTiers : fewer ⊆ tiers) : Follows fewer rest := by
  intro lexeme behind restIs
  obtain ⟨notCall, looser⟩ := follows restIs
  exact ⟨notCall, fun op isOperator among => looser isOperator (fewerTiers among)⟩

theorem Follows.nil (tiers : List Tier) : Follows tiers [] :=
  fun _ _ impossible => nomatch impossible

theorem Follows.rightParen (tiers : List Tier) (pos : Position) (rest : List Lexeme) :
    Follows tiers (⟨.rightParen, pos⟩ :: rest) := by
  rintro _ _ ⟨⟩
  exact ⟨nofun, nofun⟩

theorem Follows.comma (tiers : List Tier) (pos : Position) (rest : List Lexeme) :
    Follows tiers (⟨.comma, pos⟩ :: rest) := by
  rintro _ _ ⟨⟩
  exact ⟨nofun, nofun⟩

/-- An operator may follow where only tighter ones are looked for. -/
theorem Follows.operator (op : BinaryOp) (pos : Position) (rest : List Lexeme) :
    Follows op.tier.tighter (⟨.operator op, pos⟩ :: rest) := by
  rintro _ _ ⟨⟩
  refine ⟨nofun, ?_⟩
  rintro _ ⟨⟩
  cases op <;> decide

/-- The tokens that expressions are made of. -/
def ofExpression (token : Token) : Prop :=
  token.isStop = false ∧ token ≠ .assign

theorem sign?_ofExpression {token : Token} {op : UnaryOp} (isSign : sign? token = some op) :
    ofExpression token ∧ token ≠ .rightParen := by
  unfold sign? at isSign
  split at isSign
  case h_3 => cases isSign
  all_goals exact ⟨⟨rfl, nofun⟩, nofun⟩

theorem literal?_ofExpression {token : Token} {value : Value}
    (isLiteral : literal? token = some value) :
    ofExpression token ∧ token ≠ .rightParen := by
  unfold literal? at isLiteral
  split at isLiteral
  case h_6 => cases isLiteral
  all_goals exact ⟨⟨rfl, nofun⟩, nofun⟩

theorem Listed.mem {stretches : List (List Lexeme)} {lexemes : List Lexeme}
    (listed : Listed stretches lexemes) {lexeme : Lexeme} (membership : lexeme ∈ lexemes) :
    lexeme.token = .comma ∨ ∃ stretch ∈ stretches, lexeme ∈ stretch := by
  induction listed with
  | none => cases membership
  | one stretch => exact .inr ⟨stretch, by simp, membership⟩
  | more comma _ inductionHypothesis =>
    rcases List.mem_append.mp membership with here | later
    · exact .inr ⟨_, by simp, here⟩
    · rcases List.mem_cons.mp later with rfl | later
      · exact .inl rfl
      · rcases inductionHypothesis later with isComma | ⟨stretch, among, found⟩
        · exact .inl isComma
        · exact .inr ⟨stretch, List.mem_cons_of_mem _ among, found⟩

theorem Listed.length_le {stretches : List (List Lexeme)} {lexemes : List Lexeme}
    (listed : Listed stretches lexemes) : stretches.length ≤ lexemes.length + 1 := by
  induction listed with
  | none => exact Nat.zero_le _
  | one => exact Nat.le_add_left 1 _
  | more comma _ inductionHypothesis =>
    simp only [List.length_cons, List.length_append] at inductionHypothesis ⊢
    omega

theorem Listed.front {stretch : List Lexeme} {others : List (List Lexeme)} {lexemes : List Lexeme}
    (listed : Listed (stretch :: others) lexemes) : ∃ behind, lexemes = stretch ++ behind := by
  cases listed with
  | one => exact ⟨[], (List.append_nil stretch).symm⟩
  | more comma => exact ⟨_, rfl⟩

theorem Derives.tokens {room : Nat} {phrase : Phrase} {lexemes : List Lexeme} {e : Expr}
    (derived : Derives room phrase lexemes e) :
    ∀ lexeme ∈ lexemes, ofExpression lexeme.token := by
  induction derived with
  | literal isLiteral => exact List.forall_mem_singleton.mpr (literal?_ofExpression isLiteral).1
  | name => exact List.forall_mem_singleton.mpr ⟨rfl, nofun⟩
  | sign isSign _ operand =>
    exact List.forall_mem_cons.mpr ⟨(sign?_ofExpression isSign).1, operand⟩
  | group left right _ inner =>
    exact List.forall_mem_append.mpr ⟨List.forall_mem_cons.mpr ⟨⟨rfl, nofun⟩, inner⟩,
      List.forall_mem_singleton.mpr ⟨rfl, nofun⟩⟩
  | call left right _ listed _ args =>
    refine List.forall_mem_append.mpr ⟨List.forall_mem_cons.mpr ⟨⟨rfl, nofun⟩,
      List.forall_mem_cons.mpr ⟨⟨rfl, nofun⟩, ?_⟩⟩, List.forall_mem_singleton.mpr ⟨rfl, nofun⟩⟩
    intro lexeme membership
    rcases listed.mem membership with isComma | ⟨stretch, among, found⟩
    · rw [isComma]
      exact ⟨rfl, nofun⟩
    · obtain ⟨arg, argAmong, rfl⟩ := List.mem_map.mp among
      exact args arg argAmong lexeme found
  | first _ operand => exact operand
  | next _ _ before right =>
    exact List.forall_mem_append.mpr ⟨before, List.forall_mem_cons.mpr ⟨⟨rfl, nofun⟩, right⟩⟩
  | whole _ chain => exact chain

/-- A phrase does not start with the end of a list of arguments. -/
theorem Derives.start {room : Nat} {phrase : Phrase} {lexemes : List Lexeme} {e : Expr}
    (derived : Derives room phrase lexemes e) :
    ∃ lexeme rest, lexemes = lexeme :: rest ∧ lexeme.token ≠ .rightParen := by
  induction derived with
  | literal isLiteral => exact ⟨_, [], rfl, (literal?_ofExpression isLiteral).2⟩
  | name => exact ⟨_, [], rfl, nofun⟩
  | sign isSign => exact ⟨_, _, rfl, (sign?_ofExpression isSign).2⟩
  | group | call => exact ⟨_, _, rfl, nofun⟩
  | first _ operand => exact operand
  | next _ _ before =>
    obtain ⟨lexeme, rest, rfl, notRight⟩ := before
    exact ⟨lexeme, _, rfl, notRight⟩
  | whole _ chain => exact chain

/-- The tiers that a phrase may hold operators of. -/
def tiers : Phrase → List Tier
  | .operand => []
  | .chain tier _ => tier.tighter
  | .tier tier => tier.tighter ++ [tier]

end Grammar

namespace Parser

open Grammar

theorem chain_stops {stop : Lexeme} (room : Nat) {tier : Tier} {tiers : List Tier} (left : Expr)
    {rest : List Lexeme} (follows : Follows tiers rest) (among : tier ∈ tiers) :
    chain stop room tier left rest = .ok (left, rest) := by
  unfold chain
  split
  case h_1 op pos behind =>
    have looser : op.tier ≠ tier := by
      rintro rfl
      exact (follows rfl).2 rfl among
    rw [if_neg looser]
  case h_2 => rfl

/-- An operator of the tier is taken, and what follows it is the right operand. -/
theorem chain_goes_on {stop : Lexeme} {room : Nat} {op : BinaryOp} {left right : Expr}
    {pos : Position} {rest behind : List Lexeme}
    (reads : climb (unary stop room) (chain stop room) op.tier.tighter rest = .ok (right, behind)) :
    chain stop (room + 1) op.tier left (⟨.operator op, pos⟩ :: rest) =
      chain stop room op.tier (.binary op left right pos) behind := by
  rw [chain]
  simp only [if_true, reads]
  rfl

theorem opening?_literal {lexeme : Lexeme} {value : Value}
    (isLiteral : literal? lexeme.token = some value) (rest : List Lexeme) :
    opening? (lexeme :: rest) = some (.literal value, rest) := by
  obtain ⟨token, pos⟩ := lexeme
  unfold literal? at isLiteral
  split at isLiteral
  case h_6 => cases isLiteral
  all_goals
    rename_i isToken
    cases isLiteral
    cases isToken
    rfl

theorem opening?_sign {token : Token} {op : UnaryOp} (isSign : sign? token = some op)
    (pos : Position) (rest : List Lexeme) :
    opening? (⟨token, pos⟩ :: rest) = some (.sign op pos, rest) := by
  unfold sign? at isSign
  split at isSign
  case h_3 => cases isSign
  all_goals
    cases isSign
    rfl

theorem opening?_call {function : String} (isName : IsName function) (pos left : Position)
    (rest : List Lexeme) :
    opening? (⟨.name function, pos⟩ :: ⟨.leftParen, left⟩ :: rest) =
      some (.call function pos, rest) := by
  obtain ⟨notTrue, notFalse⟩ := isName
  unfold opening?
  split
  case h_9 notCall isName =>
    obtain ⟨⟩ := isName
    exact (notCall left rest rfl).elim
  all_goals simp_all

theorem opening?_name {text : String} (isName : IsName text) (pos : Position) {rest : List Lexeme}
    (follows : Follows [] rest) :
    opening? (⟨.name text, pos⟩ :: rest) = some (.name text pos, rest) := by
  obtain ⟨notTrue, notFalse⟩ := isName
  unfold opening?
  split
  case h_8 isCall =>
    obtain ⟨⟩ := isCall
    exact ((follows rfl).1 rfl).elim
  all_goals simp_all

/-- The readers with some room take a phrase off the front of the lexemes. For a chain, what is
left of the reading is the rest of the chain. -/
def Accepts (room : Nat) (phrase : Phrase) (lexemes : List Lexeme) (e : Expr) : Prop :=
  ∀ ⦃stop : Lexeme⦄ ⦃rest : List Lexeme⦄, Follows (tiers phrase) rest →
    match phrase with
    | .chain tier count =>
      count ≤ room ∧
        climb (unary stop room) (chain stop room) (tier.tighter ++ [tier]) (lexemes ++ rest) =
          chain stop (room - count) tier e rest
    | _ =>
      climb (unary stop room) (chain stop room) (tiers phrase) (lexemes ++ rest) = .ok (e, rest)

theorem Accepts.operandOf {room : Nat} {tier : Tier} {lexemes : List Lexeme} {e : Expr}
    (accepts : Accepts room (operandOf tier) lexemes e) {stop : Lexeme} {rest : List Lexeme}
    (follows : Follows tier.tighter rest) :
    climb (unary stop room) (chain stop room) tier.tighter (lexemes ++ rest) = .ok (e, rest) := by
  cases tier <;> exact accepts follows

/-- Arguments with the parenthesis behind them. -/
theorem arguments_accept {room : Nat} {args : List (List Lexeme × Expr)}
    (accepts : ∀ arg ∈ args, Accepts room (.tier .equality) arg.1 arg.2) {lexemes : List Lexeme}
    (listed : Listed (args.map Prod.fst) lexemes) (nonempty : args ≠ []) {bound : Nat}
    (enough : args.length ≤ bound) (stop : Lexeme) (right : Position) (rest : List Lexeme) :
    arguments (expression stop room) stop bound (lexemes ++ ⟨.rightParen, right⟩ :: rest) =
      .ok (args.map Prod.snd, rest) := by
  induction args generalizing lexemes bound with
  | nil => exact (nonempty rfl).elim
  | cons arg others inductionHypothesis =>
    obtain ⟨bound, rfl⟩ := Nat.exists_eq_succ_of_ne_zero (Nat.ne_zero_of_lt enough)
    have othersAccept : ∀ other ∈ others, Accepts room (.tier .equality) other.1 other.2 :=
      fun other membership => accepts other (List.mem_cons_of_mem _ membership)
    obtain ⟨stretch, e⟩ := arg
    have reads : ∀ {behind : List Lexeme}, Follows (tiers (.tier .equality)) behind →
        expression stop room (stretch ++ behind) = .ok (e, behind) :=
      fun follows => accepts (stretch, e) List.mem_cons_self follows
    rcases others with _ | ⟨next, others⟩
    · cases listed
      rw [arguments, reads (.rightParen _ right rest)]
      rfl
    · cases listed with
      | more comma listed =>
        dsimp only
        rw [List.append_assoc, List.cons_append, arguments, reads (.comma _ comma _)]
        change (arguments (expression stop room) stop bound _ >>= _) = _
        rw [inductionHypothesis othersAccept listed nofun (Nat.le_of_succ_le_succ enough)]
        rfl

theorem callArguments_accept {room : Nat} {args : List (List Lexeme × Expr)}
    (accepts : ∀ arg ∈ args, Accepts room (.tier .equality) arg.1 arg.2)
    (starts : ∀ arg ∈ args, ∃ lexeme rest, arg.1 = lexeme :: rest ∧ lexeme.token ≠ .rightParen)
    {lexemes : List Lexeme} (listed : Listed (args.map Prod.fst) lexemes) (stop : Lexeme)
    (right : Position) (rest : List Lexeme) :
    callArguments (expression stop room) stop (lexemes ++ ⟨.rightParen, right⟩ :: rest) =
      .ok (args.map Prod.snd, rest) := by
  rcases args with _ | ⟨arg, others⟩
  · cases listed
    rfl
  · have enough : (arg :: others).length ≤
        (lexemes ++ ⟨.rightParen, right⟩ :: rest).length + 1 := by
      have bounded := listed.length_le
      simp only [List.length_map, List.length_append] at bounded ⊢
      omega
    have read := arguments_accept accepts listed nofun enough stop right rest
    obtain ⟨lexeme, stretch, argIs, notRight⟩ := starts arg List.mem_cons_self
    obtain ⟨behind, rfl⟩ := listed.front
    rw [argIs] at read ⊢
    unfold callArguments
    split
    case h_1 first => 
      cases first
      exact (notRight rfl).elim
    case h_2 => exact read

/-- Every phrase is read, by induction on its derivation. -/
theorem accepts_of_derives {room : Nat} {phrase : Phrase} {lexemes : List Lexeme} {e : Expr}
    (derived : Derives room phrase lexemes e) : Accepts room phrase lexemes e := by
  induction derived with
  | literal isLiteral =>
    intro stop rest follows
    change unary _ _ (_ :: rest) = _
    unfold unary
    rw [opening?_literal isLiteral]
  | name isName =>
    intro stop rest follows
    change unary _ _ (_ :: rest) = _
    unfold unary
    rw [opening?_name isName _ follows]
  | @sign room token pos op lexemes operand isSign _ operands =>
    intro stop rest follows
    have reads : unary stop room (lexemes ++ rest) = .ok (operand, rest) := operands follows
    change unary stop (room + 1) (_ :: (lexemes ++ rest)) = _
    unfold unary
    rw [opening?_sign isSign]
    simp only [reads]
    rfl
  | @group room lexemes inner left right _ inners =>
    intro stop rest follows
    have reads : expression stop room (lexemes ++ ⟨.rightParen, right⟩ :: rest) =
        .ok (inner, ⟨.rightParen, right⟩ :: rest) := inners (.rightParen _ right rest)
    change unary stop (room + 1) (⟨.leftParen, left⟩ :: (lexemes ++ [_]) ++ rest) = _
    rw [List.cons_append, List.append_assoc]
    unfold unary
    change (expression stop room (lexemes ++ ⟨.rightParen, right⟩ :: rest) >>= _) = _
    rw [reads]
    rfl
  | @call room function pos lexemes args left right isName listed derived accepts =>
    intro stop rest follows
    have reads := callArguments_accept accepts (fun arg membership => (derived arg membership).start)
      listed stop right rest
    change unary stop (room + 1) (_ :: _ :: (lexemes ++ [_]) ++ rest) = _
    rw [List.cons_append, List.cons_append, List.append_assoc]
    unfold unary
    rw [opening?_call isName]
    change (callArguments (expression stop room) stop (lexemes ++ ⟨.rightParen, right⟩ :: rest)
      >>= _) = _
    rw [reads]
    rfl
  | @first room tier lexemes e _ operand =>
    intro stop rest follows
    refine ⟨Nat.zero_le _, ?_⟩
    rw [climb_append, operand.operandOf follows]
    rfl
  | @next room count op pos before lexemes left right _ _ chains operand =>
    intro stop rest follows
    obtain ⟨enough, reads⟩ := chains (Follows.operator op pos (lexemes ++ rest))
    refine ⟨Nat.le_add_left _ _, ?_⟩
    have roomLeft : room + (count + 1) - count = room + 1 := by omega
    rw [List.append_assoc, List.cons_append, reads, roomLeft,
      chain_goes_on (operand.operandOf follows), Nat.add_sub_cancel]
  | @whole room count tier lexemes e _ chains =>
    intro stop rest follows
    have among : tier ∈ tiers (.tier tier) := List.mem_append_right _ List.mem_cons_self
    obtain ⟨_, reads⟩ := chains (follows.mono (List.subset_append_left _ _))
    exact reads.trans (chain_stops _ e follows among)

theorem statement_accepts_expression {lexemes : List Lexeme} {e : Expr}
    (derived : Derives nestingLimit (.tier .equality) lexemes e) (stop : Lexeme) :
    statement stop lexemes = .ok (.expr e false (front stop lexemes).pos, []) := by
  have reads : expression stop nestingLimit (lexemes ++ []) = .ok (e, []) :=
    accepts_of_derives derived (.nil _)
  have plain : expressionStatement stop lexemes =
      .ok (.expr e false (front stop lexemes).pos, []) := by
    rw [List.append_nil] at reads
    rw [expressionStatement, reads]
    rfl
  unfold statement
  split
  case h_1 assign rest =>
    exact ((derived.tokens ⟨.assign, assign⟩ (by simp)).2 rfl).elim
  case h_2 => exact plain

end Parser

open Grammar

theorem Segment.divide_single {body : List Lexeme} {stop : Lexeme}
    (inside : ∀ lexeme ∈ body, lexeme.token.isStop = false) (stops : stop.token.isStop = true) :
    Segment.divide (body ++ [stop]) = [⟨body, stop⟩] := by
  induction body with
  | nil => simp [Segment.divide, stops]
  | cons lexeme body inductionHypothesis =>
    obtain ⟨here, later⟩ := List.forall_mem_cons.mp inside
    simp [Segment.divide, here, inductionHypothesis later]

/-- A text whose lexemes are one expression is accepted as such. -/
theorem parse_of_derives {source : String} {lexemes : List Lexeme} {finish : Position} {e : Expr}
    (characters : (lex source).2 = []) (spelled : (lex source).1 = lexemes ++ [⟨.eof, finish⟩])
    (derived : Derives nestingLimit (.tier .equality) lexemes e) :
    ∃ pos, parse source = .ok [.expr e false pos] := by
  have single : Segment.divide (lexemes ++ [⟨.eof, finish⟩]) = [⟨lexemes, ⟨.eof, finish⟩⟩] :=
    Segment.divide_single (fun lexeme membership => (derived.tokens lexeme membership).1) rfl
  obtain ⟨first, rest, rfl, -⟩ := derived.start
  refine ⟨first.pos, parse_eq_ok_iff.mpr ⟨characters, ?_⟩⟩
  rw [spelled, parseSegments, single]
  change [Segment.parse ⟨first :: rest, ⟨.eof, finish⟩⟩] = _
  rw [Segment.parse, Parser.statement_accepts_expression derived]
  rfl

end Colloquy.Calc

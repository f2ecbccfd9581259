import Colloquy.Proofs.Calc.Program
import Colloquy.Proofs.Calc.Spelling

set_option autoImplicit false

/-!
Programs are read back from their texts. Each statement is printed on a line of its own, with a
semicolon where its value is not wanted. The text is read as the same program, up to positions, if and
only if none of its expressions is nested too deeply.
-/

namespace Colloquy.Calc

open Grammar Lexer

/-! What is printed for an expression can be spelled, and it closes the parentheses that it opens. -/

theorem isLegible_literalToken {value : Value} (writable : isWritable value = true) :
    (literalToken value).isLegible = true := by
  rcases value with _ | (_ | _) | n | x | text
  · cases writable
  · decide +kernel
  · decide +kernel
  · exact writable
  · cases writable
  · rfl

theorem isLegible_unary (op : UnaryOp) : op.token.isLegible = true := by
  cases op <;> rfl

theorem mem_intercalate_comma {token : Token} {parts : List (List Token)}
    (membership : token ∈ [Token.comma].intercalate parts) :
    token = .comma ∨ ∃ part ∈ parts, token ∈ part := by
  induction parts with
  | nil => cases membership
  | cons part parts inductionHypothesis =>
    rcases parts with _ | ⟨next, parts⟩
    · rw [List.intercalate_singleton] at membership
      exact .inr ⟨part, List.mem_cons_self, membership⟩
    · rw [List.intercalate_cons_cons, List.append_assoc, List.singleton_append, List.mem_append,
        List.mem_cons] at membership
      rcases membership with here | rfl | later
      · exact .inr ⟨part, List.mem_cons_self, here⟩
      · exact .inl rfl
      · rcases inductionHypothesis later with isComma | ⟨found, among, inside⟩
        · exact .inl isComma
        · exact .inr ⟨found, List.mem_cons_of_mem _ among, inside⟩

theorem Expr.Printable.isLegible {e : Expr} (printable : e.Printable) (tiers : List Tier) :
    ∀ token ∈ e.tokens tiers, token.isLegible = true := by
  induction printable generalizing tiers with
  | literal writable => exact List.forall_mem_singleton.mpr (isLegible_literalToken writable)
  | name pos isWord => exact List.forall_mem_singleton.mpr isWord
  | unary op pos _ operand => exact List.forall_mem_cons.mpr ⟨isLegible_unary op, operand []⟩
  | @binary left right op pos _ _ leftLegible rightLegible =>
    have operation : ∀ token ∈ left.tokens op.tier.upTo ++ .operator op :: right.tokens op.tier.tighter,
        token.isLegible = true :=
      List.forall_mem_append.mpr ⟨leftLegible _, List.forall_mem_cons.mpr ⟨rfl, rightLegible _⟩⟩
    rw [Expr.tokens]
    split
    · exact operation
    · exact List.forall_mem_append.mpr ⟨List.forall_mem_cons.mpr ⟨rfl, operation⟩,
        List.forall_mem_singleton.mpr rfl⟩
  | @call function args pos isWord _ _ argsLegible =>
    refine List.forall_mem_append.mpr ⟨List.forall_mem_cons.mpr ⟨isWord,
      List.forall_mem_cons.mpr ⟨rfl, ?_⟩⟩, List.forall_mem_singleton.mpr rfl⟩
    intro token membership
    rcases mem_intercalate_comma membership with rfl | ⟨part, among, inside⟩
    · rfl
    · rw [Expr.tokensAll_eq_map] at among
      obtain ⟨arg, argAmong, rfl⟩ := List.mem_map.mp among
      exact argsLegible arg argAmong _ token inside

/-- The tokens close as many parentheses as they open. -/
def Level (tokens : List Token) : Prop :=
  ∀ depth, tokens.foldl depthBehind depth = depth

theorem Level.append {first second : List Token} (firstLevel : Level first)
    (secondLevel : Level second) : Level (first ++ second) := by
  intro depth
  rw [List.foldl_append, firstLevel, secondLevel]

theorem Level.cons {token : Token} {tokens : List Token}
    (level : ∀ depth, depthBehind depth token = depth) (tokensLevel : Level tokens) :
    Level (token :: tokens) := by
  intro depth
  rw [List.foldl_cons, level, tokensLevel]

theorem Level.enclosed {tokens : List Token} (level : Level tokens) :
    Level (.leftParen :: tokens ++ [.rightParen]) := by
  intro depth
  rw [List.cons_append, List.foldl_cons, List.foldl_append, level]
  rfl

theorem Level.intercalate {parts : List (List Token)} (level : ∀ part ∈ parts, Level part) :
    Level ([.comma].intercalate parts) := by
  induction parts with
  | nil => exact fun _ => rfl
  | cons part parts inductionHypothesis =>
    obtain ⟨first, others⟩ := List.forall_mem_cons.mp level
    rcases parts with _ | ⟨next, parts⟩
    · rwa [List.intercalate_singleton]
    · rw [List.intercalate_cons_cons, List.append_assoc]
      exact first.append (.cons (fun _ => rfl) (inductionHypothesis others))

theorem Expr.tokens_level (e : Expr) (tiers : List Tier) : Level (e.tokens tiers) := by
  induction e generalizing tiers with
  | literal value => rcases value with _ | (_ | _) | _ | _ | _ <;> exact fun _ => rfl
  | name => exact fun _ => rfl
  | unary op operand pos inductionHypothesis =>
    exact .cons (by cases op <;> exact fun _ => rfl) (inductionHypothesis [])
  | binary op left right pos leftLevel rightLevel =>
    have operation : Level (left.tokens op.tier.upTo ++ .operator op :: right.tokens op.tier.tighter) :=
      (leftLevel _).append (.cons (fun _ => rfl) (rightLevel _))
    rw [Expr.tokens]
    split
    · exact operation
    · exact operation.enclosed
  | call function args pos inductionHypothesis =>
    have level : Level ([.comma].intercalate (Expr.tokensAll args)) := by
      rw [Expr.tokensAll_eq_map]
      exact .intercalate (List.forall_mem_map.mpr fun arg membership => inductionHypothesis arg membership _)
    exact Level.cons (fun _ => rfl) level.enclosed

/-! Statements. -/

/-- The word that a declaration starts with. -/
def declarator : Option Kind → String
  | none => "var"
  | some kind => kind.name

def Statement.tokens : Statement → List Token
  | .declare name kind? init _ =>
    .name (declarator kind?) :: .name name :: .assign :: init.tokens Tier.equality.upTo
  | .expr e _ _ => e.tokens Tier.equality.upTo

/-- A variable may have any name, but in an expression some words are literals. -/
inductive Statement.Printable : Statement → Prop
  | declare {name : String} {kind? : Option Kind} {init : Expr} (pos : Position) :
      isWord name = true → kind? ≠ some .void → init.Printable →
      Printable (.declare name kind? init pos)
  | expr {e : Expr} (terminated : Bool) (pos : Position) :
      e.Printable → Printable (.expr e terminated pos)

/-- Whether a statement can be written with a semicolon behind it, or without one. -/
def Statement.mayEnd (semicolon : Bool) : Statement → Bool
  | .declare .. => true
  | .expr _ terminated _ => terminated == semicolon

theorem declarator?_declarator {kind? : Option Kind} (declarable : kind? ≠ some .void) :
    Parser.declarator? (declarator kind?) = some kind? := by
  rcases kind? with _ | _ | _ | _ | _ | _
  case some.void => exact (declarable rfl).elim
  all_goals rfl

theorem isWord_declarator (kind? : Option Kind) : isWord (declarator kind?) = true := by
  rcases kind? with _ | _ | _ | _ | _ | _ <;> decide +kernel

theorem Statement.Printable.isLegible {statement : Statement} (printable : statement.Printable) :
    ∀ token ∈ statement.tokens, token.isLegible = true := by
  cases printable with
  | @declare _ kind? _ _ isWord _ init =>
    exact List.forall_mem_cons.mpr ⟨isWord_declarator kind?, List.forall_mem_cons.mpr ⟨isWord,
      List.forall_mem_cons.mpr ⟨rfl, init.isLegible _⟩⟩⟩
  | expr _ _ e => exact e.isLegible _

theorem Statement.tokens_level (statement : Statement) : Level statement.tokens := by
  cases statement with
  | declare name kind? init pos =>
    exact .cons (fun _ => rfl) (.cons (fun _ => rfl) (.cons (fun _ => rfl) (init.tokens_level _)))
  | expr e => exact e.tokens_level _

/-- Lexemes with the tokens of a statement derive it, if its expression is not nested too deeply. -/
theorem Statement.Printable.derives {statement : Statement} (printable : statement.Printable)
    (enough : statement.body.nesting Tier.equality.upTo ≤ nestingLimit) {lexemes : List Lexeme}
    (spelled : lexemes.map Lexeme.token = statement.tokens) {stop : Token}
    (fits : statement.mayEnd (stop matches .semicolon) = true) :
    ∃ read, DerivesStatement lexemes read ∧ (read.endedBy stop).bare = statement.bare := by
  cases printable with
  | @declare name kind? init pos _ declarable init =>
    obtain ⟨⟨_, first⟩, named, rfl, rfl, namedSpelled⟩ := List.map_eq_cons_iff.mp spelled
    obtain ⟨⟨_, pos⟩, assigned, rfl, rfl, assignedSpelled⟩ := List.map_eq_cons_iff.mp namedSpelled
    obtain ⟨⟨_, assign⟩, value, rfl, rfl, valueSpelled⟩ := List.map_eq_cons_iff.mp assignedSpelled
    obtain ⟨read, same, derived⟩ := (printed_of_printable init).tier _ enough value valueSpelled
    refine ⟨.declare name kind? read pos, .declare (declarator?_declarator declarable) derived, ?_⟩
    cases stop <;> simp [endedBy, terminate, bare, same]
  | @expr e terminated pos printable =>
    obtain ⟨read, same, derived⟩ := (printed_of_printable printable).tier _ enough lexemes spelled
    obtain ⟨first, lexemes, rfl⟩ := List.exists_cons_of_ne_nil derived.ne_nil
    refine ⟨.expr read false first.pos, .expr derived, ?_⟩
    obtain rfl := beq_iff_eq.mp fits
    cases stop <;> simp [endedBy, terminate, bare, same]

theorem Grammar.Derives.assign_not_mem {room : Nat} {phrase : Phrase} {lexemes : List Lexeme}
    {e : Expr} (derived : Derives room phrase lexemes e) :
    Token.assign ∉ lexemes.map Lexeme.token := by
  intro membership
  obtain ⟨lexeme, among, isAssign⟩ := List.mem_map.mp membership
  exact (derived.tokens lexeme among).2 isAssign

/-- Lexemes with the tokens of a statement derive nothing if its expression is nested too deeply. -/
theorem Statement.Printable.nesting_le {statement : Statement} (printable : statement.Printable)
    {lexemes : List Lexeme} (spelled : lexemes.map Lexeme.token = statement.tokens)
    {read : Statement} (derived : DerivesStatement lexemes read) :
    statement.body.nesting Tier.equality.upTo ≤ nestingLimit := by
  cases printable with
  | declare pos _ _ init =>
    cases derived with
    | declare _ derived =>
      simp only [tokens, List.map_cons, List.cons.injEq] at spelled
      exact Parser.nesting_le_of_derives init spelled.2.2.2 derived
    | expr derived =>
      have noAssign := derived.assign_not_mem
      rw [spelled] at noAssign
      exact (noAssign (by simp [tokens])).elim
  | expr _ _ e =>
    cases derived with
    | declare _ derived =>
      obtain ⟨read, -, derived⟩ := (printed_of_printable e).tier _ (Nat.le_refl _) _ spelled
      exact (derived.assign_not_mem (by simp)).elim
    | expr derived => exact Parser.nesting_le_of_derives e spelled derived

theorem Statement.Printable.ne_nil {statement : Statement} (printable : statement.Printable)
    {lexemes : List Lexeme} (spelled : lexemes.map Lexeme.token = statement.tokens) :
    lexemes ≠ [] := by
  cases printable with
  | declare =>
    rintro rfl
    cases spelled
  | expr _ _ e =>
    obtain ⟨read, -, derived⟩ := (printed_of_printable e).tier _ (Nat.le_refl _) _ spelled
    exact derived.ne_nil

theorem Token.isStop_of_isLegible {token : Token} (legible : token.isLegible = true) :
    token.isStop = false := by
  cases token <;> first | rfl | cases legible

/-! Lines. -/

/-- A statement on a line of its own, with some blanks behind it. -/
structure PrintedLine where
  statement : Statement
  blanks : Nat
  semicolon : Bool
  fits : statement.mayEnd semicolon = true

namespace PrintedLine

def tokens (line : PrintedLine) : List Token :=
  line.statement.tokens ++ if line.semicolon then [.semicolon, .newline] else [.newline]

def text (line : PrintedLine) : List Char :=
  spaced line.statement.tokens ++ List.replicate line.blanks ' ' ++
    if line.semicolon then [';', '\n'] else ['\n']

theorem readsLines {line : PrintedLine} (printable : line.statement.Printable) :
    ReadsLines line.text line.tokens := by
  have reads := (Reads.spaced printable.isLegible).blanks line.blanks
  have level := line.statement.tokens_level
  unfold text tokens
  split
  · have further := reads.semicolon.newline ((level.append fun _ => rfl) 0)
    rwa [List.append_assoc _ [';'], List.append_assoc _ [Token.semicolon]] at further
  · exact reads.newline (level 0)

/-- The segment of a line is read on its own; a line break behind a semicolon is not noticed. -/
theorem parseSegments_line {line : PrintedLine} (printable : line.statement.Printable)
    {tokens : List Token} {lexemes : List Lexeme}
    (spelled : lexemes.map Lexeme.token = line.tokens ++ tokens) (finish : Lexeme) :
    ∃ body stop rest, body.map Lexeme.token = line.statement.tokens ∧
      (stop.token matches .semicolon) = line.semicolon ∧ rest.map Lexeme.token = tokens ∧
      parseSegments (lexemes ++ [finish]) =
        Segment.parse ⟨body, stop⟩ :: parseSegments (rest ++ [finish]) := by
  rw [PrintedLine.tokens, List.append_assoc] at spelled
  obtain ⟨body, behind, rfl, bodySpelled, behindSpelled⟩ := List.map_eq_append_iff.mp spelled
  have inside : ∀ lexeme ∈ body, lexeme.token.isStop = false := by
    intro lexeme membership
    apply Token.isStop_of_isLegible
    apply printable.isLegible
    rw [← bodySpelled]
    exact List.mem_map_of_mem membership
  have segment {stop : Lexeme} (stops : stop.token.isStop = true) :
      parseSegments (body ++ [stop]) = [Segment.parse ⟨body, stop⟩] :=
    Segment.parseSegments_single (printable.ne_nil bodySpelled) inside stops
  cases semicolon : line.semicolon with
  | true =>
    rw [semicolon] at behindSpelled
    obtain ⟨⟨_, pos⟩, broken, rfl, rfl, brokenSpelled⟩ := List.map_eq_cons_iff.mp behindSpelled
    obtain ⟨⟨_, newline⟩, rest, rfl, rfl, restSpelled⟩ := List.map_eq_cons_iff.mp brokenSpelled
    refine ⟨body, ⟨.semicolon, pos⟩, rest, bodySpelled, rfl, restSpelled, ?_⟩
    have unnoticed : parseSegments (⟨.newline, newline⟩ :: (rest ++ [finish])) =
        parseSegments (rest ++ [finish]) :=
      Segment.parseSegments_stop rfl _
    rw [List.append_assoc, List.cons_append, List.cons_append, parseSegments_append_stop _ _ rfl,
      segment rfl, unnoticed]
    rfl
  | false =>
    rw [semicolon] at behindSpelled
    obtain ⟨⟨_, pos⟩, rest, rfl, rfl, restSpelled⟩ := List.map_eq_cons_iff.mp behindSpelled
    refine ⟨body, ⟨.newline, pos⟩, rest, bodySpelled, rfl, restSpelled, ?_⟩
    rw [List.append_assoc, List.cons_append, parseSegments_append_stop _ _ rfl, segment rfl]
    rfl

/-- The segment of a line is read as its statement if and only if that is not nested too deeply. -/
theorem parse_iff {line : PrintedLine} (printable : line.statement.Printable)
    {body : List Lexeme} (spelled : body.map Lexeme.token = line.statement.tokens) {stop : Lexeme}
    (stopIs : (stop.token matches .semicolon) = line.semicolon) :
    (∃ read, Segment.parse ⟨body, stop⟩ = .ok read ∧ read.bare = line.statement.bare) ↔
      line.statement.body.nesting Tier.equality.upTo ≤ nestingLimit := by
  constructor
  · rintro ⟨read, success, -⟩
    obtain ⟨statement, derived, -⟩ := Segment.parse_ok success
    exact printable.nesting_le spelled derived
  · intro enough
    have fits := line.fits
    rw [← stopIs] at fits
    obtain ⟨read, derived, same⟩ := printable.derives enough spelled fits
    exact ⟨_, Segment.parse_of_derives derived stop, same⟩

theorem parseSegments_iff {lines : List PrintedLine}
    (printable : ∀ line ∈ lines, line.statement.Printable) {lexemes : List Lexeme}
    (spelled : lexemes.map Lexeme.token = lines.flatMap tokens) (finish : Position) :
    (∃ read : List Statement, parseSegments (lexemes ++ [⟨.eof, finish⟩]) = read.map .ok ∧
        read.map Statement.bare = lines.map fun line => line.statement.bare) ↔
      ∀ line ∈ lines, line.statement.body.nesting Tier.equality.upTo ≤ nestingLimit := by
  induction lines generalizing lexemes with
  | nil =>
    cases List.map_eq_nil_iff.mp spelled
    exact ⟨fun _ => nofun, fun _ => ⟨[], rfl, rfl⟩⟩
  | cons line lines inductionHypothesis =>
    obtain ⟨linePrintable, others⟩ := List.forall_mem_cons.mp printable
    rw [List.flatMap_cons] at spelled
    obtain ⟨body, stop, rest, bodySpelled, stopIs, restSpelled, results⟩ :=
      parseSegments_line linePrintable spelled ⟨.eof, finish⟩
    rw [List.forall_mem_cons, ← parse_iff linePrintable bodySpelled stopIs,
      ← inductionHypothesis others restSpelled, results]
    constructor
    · rintro ⟨read, parsed, same⟩
      obtain ⟨first, later, rfl, firstParsed, laterParsed⟩ := List.map_eq_cons_iff.mp parsed.symm
      obtain ⟨firstSame, laterSame⟩ := List.cons.inj same
      exact ⟨⟨first, firstParsed.symm, firstSame⟩, ⟨later, laterParsed.symm, laterSame⟩⟩
    · rintro ⟨⟨first, firstParsed, firstSame⟩, ⟨later, laterParsed, laterSame⟩⟩
      refine ⟨first :: later, ?_, ?_⟩
      · rw [firstParsed, laterParsed, List.map_cons]
      · rw [List.map_cons, firstSame, laterSame, List.map_cons]

end PrintedLine

/-- The text of some lines. -/
def printed (lines : List PrintedLine) : String :=
  String.ofList (lines.flatMap PrintedLine.text)

theorem printed_readsLines {lines : List PrintedLine}
    (printable : ∀ line ∈ lines, line.statement.Printable) :
    ReadsLines (lines.flatMap PrintedLine.text) (lines.flatMap PrintedLine.tokens) := by
  induction lines with
  | nil => exact .nil
  | cons line lines inductionHypothesis =>
    obtain ⟨first, others⟩ := List.forall_mem_cons.mp printable
    exact (PrintedLine.readsLines first).append (inductionHypothesis others)

/-- A printed program is read as the same program, up to positions, if and only if none of its
expressions is nested too deeply; and no other text of its expressions has fewer parentheses. -/
theorem parse_printed {lines : List PrintedLine}
    (printable : ∀ line ∈ lines, line.statement.Printable) :
    ((∃ read, parse (printed lines) = .ok read ∧
        read.map Statement.bare = lines.map fun line => line.statement.bare) ↔
      ∀ line ∈ lines, line.statement.body.nesting Tier.equality.upTo ≤ nestingLimit) ∧
    ∀ line ∈ lines, ∀ room lexemes,
      Derives room (.tier .equality) lexemes line.statement.body →
        parens (line.statement.body.tokens Tier.equality.upTo) ≤
          parens (lexemes.map Lexeme.token) := by
  refine ⟨?_, fun line _ room lexemes derived => derived.parens_le⟩
  obtain ⟨lexemes, finish, spelled, lexed⟩ := (printed_readsLines printable).lex
  rw [← PrintedLine.parseSegments_iff printable spelled finish]
  simp only [parse_eq_ok_iff, printed, lexed, true_and]

/-- A declaration, with parentheses that a product and a difference need. -/
def difference : Statement :=
  .declare "x" (some .int)
    (.binary .sub (.literal (.int 7))
      (.binary .sub
        (.binary .mul (.binary .add (.literal (.int 1)) (.literal (.int 2)) ⟨0, 0⟩)
          (.unary .neg (.name "y" ⟨0, 0⟩) ⟨0, 0⟩) ⟨0, 0⟩)
        (.literal (.int 3)) ⟨0, 0⟩) ⟨0, 0⟩) ⟨0, 0⟩

/-- A call whose first argument needs all escapes. -/
def remark : Statement :=
  .expr (.call "say" [.literal (.string "\"\\\n"), .literal (.bool true)] ⟨0, 0⟩) false ⟨0, 0⟩

theorem difference_printable : difference.Printable :=
  .declare _ (by decide +kernel) (by decide)
    (.binary _ _ (.literal rfl)
      (.binary _ _
        (.binary _ _ (.binary _ _ (.literal rfl) (.literal rfl))
          (.unary _ _ (.name _ (by decide +kernel) ⟨by decide, by decide⟩)))
        (.literal rfl)))

theorem remark_printable : remark.Printable :=
  .expr _ _ (.call _ (by decide +kernel) ⟨by decide, by decide⟩
    (List.forall_mem_cons.mpr ⟨.literal rfl, List.forall_mem_singleton.mpr (.literal rfl)⟩))

theorem difference_and_remark_read_back :
    let lines : List PrintedLine := [⟨difference, 1, true, rfl⟩, ⟨remark, 0, false, rfl⟩]
    printed lines =
      "int x = 7 - ( ( 1 + 2 ) * - y - 3 ) ;\nsay ( \"\\\"\\\\\\n\" , true )\n" ∧
    ∃ read, parse (printed lines) = .ok read ∧
      read.map Statement.bare = [difference.bare, remark.bare] :=
  ⟨by decide +kernel, (parse_printed (List.forall_mem_cons.mpr
    ⟨difference_printable, List.forall_mem_singleton.mpr remark_printable⟩)).1.mpr (by decide)⟩

end Colloquy.Calc

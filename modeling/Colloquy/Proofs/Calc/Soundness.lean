import Colloquy.Calc.Session
import Colloquy.Proofs.Calc.Grammar

set_option autoImplicit false

/-!
Evaluation of what the checker accepts. The outcome of an accepted expression is a fault or a value
of the kind that was computed for it, and evaluation takes no stand-in on the way. Sessions keep
this up over any number of submissions, also those that fault half way.
-/

namespace Colloquy.Calc

theorem Grammar.literal?_ne_unit {token : Token} {value : Value}
    (isLiteral : literal? token = some value) : value ≠ .unit := by
  unfold literal? at isLiteral
  split at isLiteral <;> cases isLiteral <;> simp

theorem Grammar.Derives.proper {room : Nat} {phrase : Phrase} {lexemes : List Lexeme} {e : Expr}
    (derived : Derives room phrase lexemes e) : e.Proper := by
  induction derived with
  | literal isLiteral => exact .literal (literal?_ne_unit isLiteral)
  | name _ => exact .name _ _
  | sign _ _ operand => exact .unary _ _ operand
  | group _ _ _ inner => exact inner
  | @call room function pos lexemes args left right isName listed derived each =>
    refine .call function pos ?_
    intro arg membership
    obtain ⟨found, among, rfl⟩ := List.mem_map.mp membership
    exact each found among
  | first _ operand => exact operand
  | next _ _ left right => exact .binary _ _ left right
  | whole _ chain => exact chain

theorem proper_of_parse {source : String} {program : List Statement}
    (accepted : parse source = .ok program) {statement : Statement}
    (membership : statement ∈ program) : statement.body.Proper :=
  (derives_of_parse accepted membership).choose_spec.proper

/-- The stand-ins of evaluation, for values that are missing or of a kind that does not fit. -/
inductive Fallback where
  | unboundName (name : String)
  | operand (op : UnaryOp) (value : Value)
  | number (value : Value)
  | index (value : Value)

namespace Fallback

def ofNumber : Value → List Fallback
  | .int _ | .double _ => []
  | value => [.number value]

def ofUnary : UnaryOp → Value → List Fallback
  | .neg, .int _ | .neg, .double _ | .not, .bool _ => []
  | op, value => [.operand op value]

def ofComparison : Value → Value → List Fallback
  | .string _, .string _ | .int _, .int _ => []
  | left, right => ofNumber left ++ ofNumber right

def ofArithmetic : Value → Value → List Fallback
  | .int _, .int _ => []
  | left, right => ofNumber left ++ ofNumber right

def ofBinary (op : BinaryOp) (left right : Value) : List Fallback :=
  match op with
  | .add => if isString left || isString right then [] else ofArithmetic left right
  | .eq | .ne => []
  | .lt | .le | .gt | .ge => ofComparison left right
  | _ => ofArithmetic left right

def ofIndex : Value → List Fallback
  | .int _ => []
  | value => [.index value]

/-- What follows an outcome: nothing after a fault. -/
def after (outcome : Except Fault Value) (next : Value → List Fallback) : List Fallback :=
  match outcome with
  | .error _ => []
  | .ok value => next value

end Fallback

/-- The stand-ins that the evaluation of an expression takes, in the order in which it does. -/
def fallbacks (env : Environment) : Expr → List Fallback
  | .literal _ => []
  | .name name _ =>
    match env.value? name with
    | some _ => []
    | none => [.unboundName name]
  | .unary op operand _ =>
    fallbacks env operand ++ Fallback.after (eval env operand) (Fallback.ofUnary op)
  | .binary op left right _ =>
    fallbacks env left ++ Fallback.after (eval env left) fun a =>
      fallbacks env right ++ Fallback.after (eval env right) (Fallback.ofBinary op a)
  | .call function args _ =>
    if function = "argc" then []
    else
      match args with
      | [] => [.index .unit]
      | index :: _ => fallbacks env index ++ Fallback.after (eval env index) Fallback.ofIndex

/-- An outcome is a fault or a value of a kind. -/
def Yields (kind : Kind) (outcome : Except Fault Value) : Prop :=
  (∃ fault, outcome = .error fault) ∨ ∃ value, outcome = .ok value ∧ value.kind = kind

/-- No name has the kind of nothing. -/
def Scope.Proper (scope : Scope) : Prop :=
  ∀ name, scope.lookup name ≠ some .void

/-- The checker and evaluation know the same names, and agree on their kinds. -/
def Agree (scope : Scope) (env : Environment) : Prop :=
  ∀ name, scope.lookup name = (env.value? name).map Value.kind

/-! The operators: one that applies to the kinds of its operands gives a value of the kind that it
is said to have. -/

theorem UnaryOp.kind?_ne_void {op : UnaryOp} {operand kind : Kind}
    (applies : op.kind? operand = some kind) : kind ≠ .void := by
  unfold UnaryOp.kind? at applies
  split at applies <;> cases applies <;> decide

theorem arithmetic?_ne_void {left right kind : Kind} (applies : arithmetic? left right = some kind) :
    kind ≠ .void := by
  unfold arithmetic? at applies
  split at applies <;> cases applies <;> decide

theorem BinaryOp.kind?_ne_void {op : BinaryOp} {left right kind : Kind}
    (applies : op.kind? left right = some kind) : kind ≠ .void := by
  unfold BinaryOp.kind? at applies
  split at applies
  case h_1 =>
    split at applies
    · cases applies
      decide
    · exact arithmetic?_ne_void applies
  case h_2 | h_3 | h_4 | h_5 => exact arithmetic?_ne_void applies
  all_goals
    split at applies <;> cases applies
    decide

theorem Yields.ok {kind : Kind} {value : Value} (same : value.kind = kind) :
    Yields kind (.ok value) :=
  .inr ⟨value, rfl, same⟩

theorem integer_yields (n : Int) (pos : Position) : Yields .int (integer n pos) := by
  unfold integer
  split
  · exact .ok rfl
  · exact .inl ⟨_, rfl⟩

theorem evalUnary_yields {op : UnaryOp} {value : Value} {kind : Kind}
    (applies : op.kind? value.kind = some kind) (pos : Position) :
    Fallback.ofUnary op value = [] ∧ Yields kind (evalUnary op value pos) := by
  cases op <;> cases value <;> cases applies
  case neg.int n => exact ⟨rfl, integer_yields _ pos⟩
  case neg.double x => exact ⟨rfl, .ok rfl⟩
  case not.bool b => exact ⟨rfl, .ok rfl⟩

theorem integerArithmetic_yields (op : BinaryOp) (a b : Int) (pos : Position) :
    Yields .int (integerArithmetic op a b pos) := by
  unfold integerArithmetic
  split
  case h_1 | h_2 | h_3 => exact integer_yields _ pos
  case h_4 =>
    split
    · exact .inl ⟨_, rfl⟩
    · exact integer_yields _ pos
  case h_5 =>
    split
    · exact .inl ⟨_, rfl⟩
    · split
      · exact .inl ⟨_, rfl⟩
      · exact integer_yields _ pos

theorem arithmetic_yields (op : BinaryOp) {left right : Value} {kind : Kind}
    (applies : arithmetic? left.kind right.kind = some kind) (pos : Position) :
    Fallback.ofArithmetic left right = [] ∧ Yields kind (arithmetic op left right pos) := by
  cases left <;> cases right <;> cases applies
  case int.int a b => exact ⟨rfl, integerArithmetic_yields op _ _ pos⟩
  all_goals exact ⟨rfl, .ok rfl⟩

theorem isString_eq_decide (value : Value) : isString value = decide (value.kind = .string) := by
  cases value <;> rfl

/-- Values that can be ordered are two strings or two numbers. -/
theorem ofComparison_eq_nil {left right : Value}
    (ordered : (left.kind.isNumeric && right.kind.isNumeric) ||
      (left.kind = .string && right.kind = .string)) :
    Fallback.ofComparison left right = [] := by
  cases left <;> cases right <;> first | rfl | cases ordered

theorem evalBinary_yields {op : BinaryOp} {left right : Value} {kind : Kind}
    (applies : op.kind? left.kind right.kind = some kind) (pos : Position) :
    Fallback.ofBinary op left right = [] ∧ Yields kind (evalBinary op left right pos) := by
  cases op
  case add =>
    simp only [BinaryOp.kind?, Fallback.ofBinary, evalBinary, isString_eq_decide] at applies ⊢
    split at applies
    case isTrue concatenates =>
      cases applies
      rw [if_pos concatenates, if_pos concatenates]
      exact ⟨rfl, .ok rfl⟩
    case isFalse numbers =>
      rw [if_neg numbers, if_neg numbers]
      exact arithmetic_yields .add applies pos
  case sub | mul | div | rem => exact arithmetic_yields _ applies pos
  case eq | ne =>
    simp only [BinaryOp.kind?] at applies
    split at applies <;> cases applies
    exact ⟨rfl, .ok rfl⟩
  case lt | le | gt | ge =>
    simp only [BinaryOp.kind?] at applies
    split at applies <;> cases applies
    case isTrue ordered => exact ⟨ofComparison_eq_nil ordered, .ok rfl⟩

theorem argumentAt_yields (env : Environment) {index : Value} (isIndex : index.kind = .int)
    (pos : Position) :
    Fallback.ofIndex index = [] ∧ Yields .string (argumentAt env index pos) := by
  cases index <;> cases isIndex
  refine ⟨rfl, ?_⟩
  unfold argumentAt
  dsimp only
  split
  · exact .ok rfl
  · exact .inl ⟨_, rfl⟩

/-! The checker: an expression without a complaint has accepted parts, to which its operator
applies. -/

theorem not_refused {before : List Diagnostic} {pos : Position} {message : String}
    (accepted : (Checked.refuse before pos message).complaints = []) : False := by
  simp [Checked.refuse] at accepted

theorem checkUnary_accepted {op : UnaryOp} {operand : Checked} {pos : Position}
    (accepted : (checkUnary op operand pos).complaints = []) :
    operand.complaints = [] ∧
      (operand.kind ≠ .void → op.kind? operand.kind = some (checkUnary op operand pos).kind) := by
  unfold checkUnary at accepted ⊢
  split at accepted
  case isTrue unknown => exact ⟨accepted, fun known => absurd unknown known⟩
  case isFalse known =>
    rw [if_neg known]
    split at accepted
    case h_1 kind applies => exact ⟨accepted, fun _ => by simp only [applies]⟩
    case h_2 => exact (not_refused accepted).elim

theorem checkBinary_accepted {op : BinaryOp} {left right : Checked} {pos : Position}
    (accepted : (checkBinary op left right pos).complaints = []) :
    left.complaints = [] ∧ right.complaints = [] ∧
      (left.kind ≠ .void → right.kind ≠ .void →
        op.kind? left.kind right.kind = some (checkBinary op left right pos).kind) := by
  unfold checkBinary at accepted ⊢
  dsimp only at accepted ⊢
  split at accepted
  case isTrue unknown =>
    obtain ⟨leftAccepted, rightAccepted⟩ := List.append_eq_nil_iff.mp accepted
    refine ⟨leftAccepted, rightAccepted, fun leftKnown rightKnown => ?_⟩
    simp [leftKnown, rightKnown] at unknown
  case isFalse known =>
    rw [if_neg known]
    split at accepted
    case h_1 kind applies =>
      obtain ⟨leftAccepted, rightAccepted⟩ := List.append_eq_nil_iff.mp accepted
      exact ⟨leftAccepted, rightAccepted, fun _ _ => by simp only [applies]⟩
    case h_2 => exact (not_refused accepted).elim

/-- A call that is accepted is one of the two functions of the host with its arguments. -/
theorem checkCall_accepted {function : String} {args : List Checked} {pos : Position}
    (accepted : (checkCall function args pos).complaints = []) :
    (∀ arg ∈ args, arg.complaints = []) ∧
      ((∀ arg ∈ args, arg.kind ≠ .void) →
        (function = "argc" ∧ (checkCall function args pos).kind = .int ∧ args = []) ∨
        (function = "arg" ∧ (checkCall function args pos).kind = .string ∧
          ∃ index, args = [index] ∧ index.kind = .int)) := by
  have each : args.flatMap Checked.complaints = [] → ∀ arg ∈ args, arg.complaints = [] :=
    List.flatMap_eq_nil_iff.mp
  unfold checkCall at accepted ⊢
  dsimp only at accepted ⊢
  split at accepted
  case h_1 kinds => exact ⟨each accepted, fun _ => .inl ⟨rfl, rfl, List.map_eq_nil_iff.mp kinds⟩⟩
  case h_2 kinds =>
    obtain ⟨index, rfl, isIndex⟩ := List.map_eq_singleton_iff.mp kinds
    exact ⟨each accepted, fun _ => .inr ⟨rfl, rfl, index, rfl, isIndex⟩⟩
  case h_3 kinds =>
    obtain ⟨index, rfl, unknown⟩ := List.map_eq_singleton_iff.mp kinds
    exact ⟨each accepted, fun known => absurd unknown (known index (by simp))⟩
  case h_4 =>
    split at accepted <;> exact (not_refused accepted).elim

theorem checkUnary_kind_eq_void_iff {op : UnaryOp} {operand : Checked} {pos : Position}
    (accepted : (checkUnary op operand pos).complaints = []) :
    (checkUnary op operand pos).kind = .void ↔ operand.kind = .void := by
  constructor
  · intro isVoid
    apply Decidable.byContradiction
    intro known
    exact UnaryOp.kind?_ne_void ((checkUnary_accepted accepted).2 known) isVoid
  · intro unknown
    rw [checkUnary, if_pos unknown]

theorem checkBinary_kind_eq_void_iff {op : BinaryOp} {left right : Checked} {pos : Position}
    (accepted : (checkBinary op left right pos).complaints = []) :
    (checkBinary op left right pos).kind = .void ↔ left.kind = .void ∨ right.kind = .void := by
  constructor
  · intro isVoid
    apply Decidable.byContradiction
    intro known
    obtain ⟨leftKnown, rightKnown⟩ := not_or.mp known
    exact BinaryOp.kind?_ne_void ((checkBinary_accepted accepted).2.2 leftKnown rightKnown) isVoid
  · intro unknown
    rw [checkBinary, if_pos (by simpa using unknown)]

theorem checkCall_kind_eq_void_iff {function : String} {args : List Checked} {pos : Position}
    (accepted : (checkCall function args pos).complaints = []) :
    (checkCall function args pos).kind = .void ↔ ∃ arg ∈ args, arg.kind = .void := by
  constructor
  · intro isVoid
    apply Decidable.byContradiction
    intro known
    have argsKnown : ∀ arg ∈ args, arg.kind ≠ .void :=
      fun arg membership unknown => known ⟨arg, membership, unknown⟩
    rcases (checkCall_accepted accepted).2 argsKnown with ⟨-, isInt, -⟩ | ⟨-, isString, -⟩
    · exact absurd (isInt.symm.trans isVoid) (by decide)
    · exact absurd (isString.symm.trans isVoid) (by decide)
  · rintro ⟨arg, membership, unknown⟩
    have listed : Kind.void ∈ args.map Checked.kind := List.mem_map.mpr ⟨arg, membership, unknown⟩
    unfold checkCall at accepted ⊢
    dsimp only at accepted ⊢
    split at accepted
    case h_1 kinds => exact absurd listed (by rw [kinds]; exact List.not_mem_nil)
    case h_2 kinds => exact absurd listed (by rw [kinds]; decide)
    case h_3 kinds => rfl
    case h_4 =>
      split at accepted <;> exact (not_refused accepted).elim

/-- The expression uses a name that stands for nothing. -/
def Expr.UsesVoid (e : Expr) (scope : Scope) : Prop :=
  ∃ name, e.Mentions name ∧ scope.lookup name = some .void

/-- An accepted expression has no kind if and only if a name that it uses has none. -/
theorem check_kind_eq_void_iff {scope : Scope} {e : Expr} (proper : e.Proper)
    (accepted : (check scope e).complaints = []) :
    (check scope e).kind = .void ↔ e.UsesVoid scope := by
  induction proper with
  | @literal value notUnit =>
    constructor
    · intro isVoid
      cases value <;> simp_all [check, Value.kind]
    · rintro ⟨name, ⟨⟩, -⟩
  | name text pos =>
    simp only [check] at accepted ⊢
    split at accepted
    case h_1 kind found =>
      constructor
      · rintro ⟨⟩
        exact ⟨text, .name pos, found⟩
      · rintro ⟨_, ⟨⟩, isVoid⟩
        exact Option.some.inj (found.symm.trans isVoid)
    case h_2 => exact (not_refused accepted).elim
  | unary op pos _ operandVoid =>
    simp only [check] at accepted ⊢
    rw [checkUnary_kind_eq_void_iff accepted, operandVoid (checkUnary_accepted accepted).1]
    constructor
    · rintro ⟨name, mentioned, isVoid⟩
      exact ⟨name, .unary op pos mentioned, isVoid⟩
    · rintro ⟨name, _ | ⟨_, _, mentioned⟩, isVoid⟩
      exact ⟨name, mentioned, isVoid⟩
  | binary op pos _ _ leftVoid rightVoid =>
    simp only [check] at accepted ⊢
    obtain ⟨leftAccepted, rightAccepted, -⟩ := checkBinary_accepted accepted
    rw [checkBinary_kind_eq_void_iff accepted, leftVoid leftAccepted, rightVoid rightAccepted]
    constructor
    · rintro (⟨name, mentioned, isVoid⟩ | ⟨name, mentioned, isVoid⟩)
      · exact ⟨name, .left op _ pos mentioned, isVoid⟩
      · exact ⟨name, .right op _ pos mentioned, isVoid⟩
    · rintro ⟨name, mentioned, isVoid⟩
      cases mentioned with
      | left _ _ _ mentioned => exact .inl ⟨name, mentioned, isVoid⟩
      | right _ _ _ mentioned => exact .inr ⟨name, mentioned, isVoid⟩
  | @call args function pos _ argVoid =>
    simp only [check, checkAll_eq_map] at accepted ⊢
    have argsAccepted := (checkCall_accepted accepted).1
    rw [checkCall_kind_eq_void_iff accepted]
    constructor
    · rintro ⟨_, membership, unknown⟩
      obtain ⟨arg, among, rfl⟩ := List.mem_map.mp membership
      obtain ⟨name, mentioned, isVoid⟩ := (argVoid arg among (argsAccepted _ membership)).mp unknown
      exact ⟨name, .arg function pos among mentioned, isVoid⟩
    · rintro ⟨name, mentioned, isVoid⟩
      cases mentioned with
      | @arg _ arg _ _ among mentioned =>
        have membership := List.mem_map_of_mem (f := check scope) among
        exact ⟨_, membership,
          (argVoid arg among (argsAccepted _ membership)).mpr ⟨name, mentioned, isVoid⟩⟩

/-- Among names that all have a kind, so does every accepted expression. -/
theorem check_kind_ne_void {scope : Scope} (names : scope.Proper) {e : Expr} (proper : e.Proper)
    (accepted : (check scope e).complaints = []) : (check scope e).kind ≠ .void := by
  rw [Ne, check_kind_eq_void_iff proper accepted]
  rintro ⟨name, -, isVoid⟩
  exact names name isVoid

theorem Fallback.after_eq_nil {kind : Kind} {outcome : Except Fault Value}
    {next : Value → List Fallback} (yields : Yields kind outcome)
    (each : ∀ value, value.kind = kind → next value = []) : Fallback.after outcome next = [] := by
  obtain ⟨fault, rfl⟩ | ⟨value, rfl, same⟩ := yields
  · rfl
  · exact each value same

theorem Yields.bind {kind result : Kind} {outcome : Except Fault Value}
    {next : Value → Except Fault Value} (yields : Yields kind outcome)
    (each : ∀ value, value.kind = kind → Yields result (next value)) :
    Yields result (outcome >>= next) := by
  obtain ⟨fault, rfl⟩ | ⟨value, rfl, same⟩ := yields
  · exact .inl ⟨fault, rfl⟩
  · exact each value same

/-- An accepted expression is evaluated without a stand-in, to a fault or a value of its kind. -/
theorem eval_sound {scope : Scope} {env : Environment} (names : scope.Proper)
    (agree : Agree scope env) {e : Expr} (proper : e.Proper)
    (accepted : (check scope e).complaints = []) :
    fallbacks env e = [] ∧ Yields (check scope e).kind (eval env e) := by
  induction proper with
  | @literal value notUnit => exact ⟨rfl, .ok rfl⟩
  | name text pos =>
    have known := agree text
    simp only [check] at accepted ⊢
    split at accepted
    case h_1 kind found =>
      rw [found] at known
      obtain ⟨value, bound, same⟩ := Option.map_eq_some_iff.mp known.symm
      constructor
      · simp [fallbacks, bound]
      · simp only [eval, bound]
        exact .ok same
    case h_2 => exact (not_refused accepted).elim
  | @unary operand op pos operandProper operandSound =>
    simp only [check, fallbacks, eval] at accepted ⊢
    obtain ⟨operandAccepted, applies⟩ := checkUnary_accepted accepted
    have kinds := applies (check_kind_ne_void names operandProper operandAccepted)
    obtain ⟨noFallback, yields⟩ := operandSound operandAccepted
    have step : ∀ value : Value, value.kind = (check scope operand).kind →
        Fallback.ofUnary op value = [] ∧
          Yields (checkUnary op (check scope operand) pos).kind (evalUnary op value pos) := by
      intro value same
      rw [← same] at kinds
      exact evalUnary_yields kinds pos
    refine ⟨?_, yields.bind fun value same => (step value same).2⟩
    rw [noFallback, List.nil_append]
    exact Fallback.after_eq_nil yields fun value same => (step value same).1
  | @binary left right op pos leftProper rightProper leftSound rightSound =>
    simp only [check, fallbacks, eval] at accepted ⊢
    obtain ⟨leftAccepted, rightAccepted, applies⟩ := checkBinary_accepted accepted
    have kinds := applies (check_kind_ne_void names leftProper leftAccepted)
      (check_kind_ne_void names rightProper rightAccepted)
    obtain ⟨leftFallback, leftYields⟩ := leftSound leftAccepted
    obtain ⟨rightFallback, rightYields⟩ := rightSound rightAccepted
    have step : ∀ a b : Value, a.kind = (check scope left).kind →
        b.kind = (check scope right).kind →
        Fallback.ofBinary op a b = [] ∧
          Yields (checkBinary op (check scope left) (check scope right) pos).kind
            (evalBinary op a b pos) := by
      intro a b sameLeft sameRight
      rw [← sameLeft, ← sameRight] at kinds
      exact evalBinary_yields kinds pos
    constructor
    · rw [leftFallback, rightFallback, List.nil_append]
      refine Fallback.after_eq_nil leftYields fun a sameLeft => ?_
      exact Fallback.after_eq_nil rightYields fun b sameRight => (step a b sameLeft sameRight).1
    · refine leftYields.bind fun a sameLeft => ?_
      exact rightYields.bind fun b sameRight => (step a b sameLeft sameRight).2
  | @call args function pos argsProper sound =>
    simp only [check, checkAll_eq_map] at accepted ⊢
    obtain ⟨argsAccepted, functions⟩ := checkCall_accepted accepted
    have argAccepted : ∀ arg ∈ args, (check scope arg).complaints = [] :=
      fun arg among => argsAccepted _ (List.mem_map_of_mem among)
    have argsKnown : ∀ arg ∈ args.map (check scope), arg.kind ≠ .void := by
      intro checked membership
      obtain ⟨arg, among, rfl⟩ := List.mem_map.mp membership
      exact check_kind_ne_void names (argsProper arg among) (argAccepted arg among)
    rcases functions argsKnown with
      ⟨rfl, isInt, none⟩ | ⟨rfl, isString, checked, single, isIndex⟩
    · rw [isInt]
      obtain rfl := List.map_eq_nil_iff.mp none
      exact ⟨rfl, .ok rfl⟩
    · rw [isString]
      obtain ⟨index, rfl, rfl⟩ := List.map_eq_singleton_iff.mp single
      obtain ⟨noFallback, yields⟩ := sound index (by simp) (argAccepted index (by simp))
      rw [isIndex] at yields
      refine ⟨?_, yields.bind fun value same => (argumentAt_yields env same pos).2⟩
      simp only [fallbacks, noFallback, List.nil_append]
      exact Fallback.after_eq_nil yields fun value same => (argumentAt_yields env same pos).1

end Colloquy.Calc

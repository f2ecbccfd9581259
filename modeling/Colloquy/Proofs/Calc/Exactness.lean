import Colloquy.Proofs.Calc.Checking

set_option autoImplicit false

/-!
Integer expressions against the arithmetic of the unbounded integers. An expression of integers is
evaluated to the value that it has there, unless some node on the way has no value, because it divides
by zero, or one outside the range of the integers of scripts. The least integer has a remainder by minus
one, which is refused all the same. Where there are several such nodes, the fault is that of the first
one from left to right, parts first.
-/

namespace Colloquy

def Integer.InRange (n : Int) : Prop :=
  least ≤ n ∧ n ≤ greatest

theorem Integer.inRange_toInt (n : Int64) : InRange n.toInt := by
  have low := n.le_toInt
  have high := n.toInt_lt
  simp only [InRange, least, greatest]
  omega

theorem Integer.ofInt?_of_not_inRange {n : Int} (outside : ¬InRange n) : ofInt? n = none :=
  if_neg outside

theorem Integer.exists_of_inRange {n : Int} (inside : InRange n) :
    ∃ i : Int64, ofInt? n = some i ∧ i.toInt = n := by
  have isSome : ofInt? n = some (Int64.ofInt n) := if_pos inside
  exact ⟨_, isSome, toInt_of_ofInt?_eq_some isSome⟩

namespace Calc

/-! The arithmetic of the unbounded integers. -/

/-- Division toward zero: the remainder is smaller than the divisor, and its sign is that of the
dividend. -/
structure Truncates (dividend divisor quotient remainder : Int) : Prop where
  parts : dividend = divisor * quotient + remainder
  smaller : remainder.natAbs < divisor.natAbs
  nonneg : 0 ≤ dividend → 0 ≤ remainder
  nonpos : dividend ≤ 0 → remainder ≤ 0

inductive BinaryOp.Computes : BinaryOp → Int → Int → Int → Prop
  | add (a b : Int) : Computes .add a b (a + b)
  | sub (a b : Int) : Computes .sub a b (a - b)
  | mul (a b : Int) : Computes .mul a b (a * b)
  | div {a b quotient remainder : Int} :
      Truncates a b quotient remainder → Computes .div a b quotient
  | rem {a b quotient remainder : Int} :
      Truncates a b quotient remainder → Computes .rem a b remainder

/-- The number of arguments as 64 bits hold it, which is the number itself for every list of
arguments that has less than `2 ^ 63` of them. -/
def Environment.argumentCount (env : Environment) : Int :=
  (env.args.length : Int).bmod 0x10000000000000000

theorem Environment.argumentCount_of_lt {env : Environment}
    (few : env.args.length < 0x8000000000000000) : env.argumentCount = env.args.length := by
  apply Int.bmod_eq_of_le <;> omega

/-- The expressions of integers: literals, names that stand for integers, the number of arguments, and
operations on such expressions. -/
inductive Expr.IsIntegral (env : Environment) : Expr → Prop
  | literal (n : Int64) : Expr.IsIntegral env (.literal (.int n))
  | name {name : String} {n : Int64} (pos : Position) : env.value? name = some (.int n) →
      Expr.IsIntegral env (.name name pos)
  | argc (pos : Position) : Expr.IsIntegral env (.call "argc" [] pos)
  | neg {operand : Expr} (pos : Position) : operand.IsIntegral env →
      Expr.IsIntegral env (.unary .neg operand pos)
  | binary {op : BinaryOp} {left right : Expr} (pos : Position) : op.IsArithmetic →
      left.IsIntegral env → right.IsIntegral env → Expr.IsIntegral env (.binary op left right pos)

/-- The value of an expression over the unbounded integers. There is none where it divides by zero. -/
inductive Exact (env : Environment) : Expr → Int → Prop
  | literal (n : Int64) : Exact env (.literal (.int n)) n.toInt
  | name {name : String} {n : Int64} (pos : Position) : env.value? name = some (.int n) →
      Exact env (.name name pos) n.toInt
  | argc (pos : Position) : Exact env (.call "argc" [] pos) env.argumentCount
  | neg {operand : Expr} {n : Int} (pos : Position) : Exact env operand n →
      Exact env (.unary .neg operand pos) (-n)
  | binary {op : BinaryOp} {left right : Expr} {a b n : Int} (pos : Position) : Exact env left a →
      Exact env right b → op.Computes a b n → Exact env (.binary op left right pos) n

/-- The node is a division, or a remainder, by zero. -/
inductive Expr.DividesByZero (env : Environment) : Expr → Prop
  | intro {op : BinaryOp} {right : Expr} (left : Expr) (pos : Position) : op = .div ∨ op = .rem →
      Exact env right 0 → Expr.DividesByZero env (.binary op left right pos)

/-- The node is the remainder of the least integer by minus one. -/
inductive Expr.IsLeastRemainder (env : Environment) : Expr → Prop
  | intro {left right : Expr} (pos : Position) : Exact env left Integer.least →
      Exact env right (-1) → Expr.IsLeastRemainder env (.binary .rem left right pos)

/-- The node has an exact value, which is an integer of scripts, and it is not the one remainder that
is refused. -/
structure Expr.Fits (env : Environment) (node : Expr) : Prop where
  value : ∃ n, Exact env node n ∧ Integer.InRange n
  notLeast : ¬node.IsLeastRemainder env

def Expr.pos? : Expr → Option Position
  | .literal _ => none
  | .name _ pos | .unary _ _ pos | .binary _ _ _ pos | .call _ _ pos => some pos

/-- The fault of a node that does not fit. -/
inductive Expr.Blames (env : Environment) (node : Expr) : Fault → Prop
  | division {pos : Position} : node.pos? = some pos → node.DividesByZero env →
      node.Blames env (.divisionByZero pos)
  | overflow {pos : Position} : node.pos? = some pos → ¬node.DividesByZero env →
      node.Blames env (.overflow pos)

/-! Division toward zero. -/

theorem truncates_tdiv (a : Int) {b : Int} (nonzero : b ≠ 0) :
    Truncates a b (a.tdiv b) (a.tmod b) where
  parts := by rw [Int.add_comm, Int.tmod_add_mul_tdiv]
  smaller := by
    rw [Int.natAbs_tmod]
    exact Nat.mod_lt _ (Int.natAbs_pos.mpr nonzero)
  nonneg := Int.tmod_nonneg b
  nonpos nonpos := by
    have negated := Int.tmod_nonneg b (Int.neg_nonneg_of_nonpos nonpos)
    rw [Int.neg_tmod] at negated
    omega

namespace Truncates

variable {a b quotient remainder : Int} (truncates : Truncates a b quotient remainder)
include truncates

theorem divisor_ne_zero : b ≠ 0 := by
  rintro rfl
  exact Nat.not_lt_zero _ truncates.smaller

theorem eq_tdiv_tmod : a.tdiv b = quotient ∧ a.tmod b = remainder := by
  obtain ⟨parts, smaller, nonneg, nonpos⟩ := truncates
  have nonzero := divisor_ne_zero ⟨parts, smaller, nonneg, nonpos⟩
  rcases Int.le_total 0 a with isNonneg | isNonpos
  · rw [Int.tdiv_tmod_unique isNonneg nonzero]
    have := nonneg isNonneg
    omega
  · rw [Int.tdiv_tmod_unique' isNonpos nonzero]
    have := nonpos isNonpos
    omega

end Truncates

/-! Exact values are unique. -/

theorem BinaryOp.Computes.unique {op : BinaryOp} {a b n m : Int} (first : op.Computes a b n)
    (second : op.Computes a b m) : n = m := by
  cases first with
  | add | sub | mul =>
    cases second
    rfl
  | div truncates =>
    cases second with
    | div other => rw [← truncates.eq_tdiv_tmod.1, other.eq_tdiv_tmod.1]
  | rem truncates =>
    cases second with
    | rem other => rw [← truncates.eq_tdiv_tmod.2, other.eq_tdiv_tmod.2]

theorem BinaryOp.not_computes_zero {op : BinaryOp} (divides : op = .div ∨ op = .rem) {a n : Int} :
    ¬op.Computes a 0 n := by
  rintro computes
  cases computes with
  | add | sub | mul => simp at divides
  | div truncates | rem truncates => exact truncates.divisor_ne_zero rfl

theorem Exact.unique {env : Environment} {e : Expr} {n m : Int} (first : Exact env e n)
    (second : Exact env e m) : n = m := by
  induction first generalizing m with
  | literal | argc =>
    cases second
    rfl
  | name _ found =>
    cases second with
    | name _ otherFound =>
      cases found.symm.trans otherFound
      rfl
  | neg _ _ inductionHypothesis =>
    cases second with
    | neg _ other => rw [inductionHypothesis other]
  | binary _ _ _ computes leftUnique rightUnique =>
    cases second with
    | binary _ otherLeft otherRight otherComputes =>
      rw [← leftUnique otherLeft, ← rightUnique otherRight] at otherComputes
      exact computes.unique otherComputes

section

variable {env : Environment} {op : BinaryOp} {left right : Expr} {a b : Int} {pos : Position}
  (leftExact : Exact env left a) (rightExact : Exact env right b)
include leftExact rightExact

theorem exact_binary_iff {n : Int} :
    Exact env (.binary op left right pos) n ↔ op.Computes a b n := by
  constructor
  · intro whole
    cases whole with
    | binary _ otherLeft otherRight computes =>
      rwa [leftExact.unique otherLeft, rightExact.unique otherRight]
  · exact Exact.binary pos leftExact rightExact

omit leftExact in
theorem dividesByZero_iff :
    (Expr.binary op left right pos).DividesByZero env ↔ (op = .div ∨ op = .rem) ∧ b = 0 := by
  constructor
  · rintro ⟨_, _, divides, isZero⟩
    exact ⟨divides, rightExact.unique isZero⟩
  · rintro ⟨divides, rfl⟩
    exact .intro left pos divides rightExact

theorem isLeastRemainder_iff :
    (Expr.binary op left right pos).IsLeastRemainder env ↔
      op = .rem ∧ a = Integer.least ∧ b = -1 := by
  constructor
  · rintro ⟨_, isLeast, isMinusOne⟩
    exact ⟨rfl, leftExact.unique isLeast, rightExact.unique isMinusOne⟩
  · rintro ⟨rfl, rfl, rfl⟩
    exact .intro pos leftExact rightExact

end

/-! One operation on two integers. -/

inductive BinaryOp.Settles (op : BinaryOp) (a b : Int) (pos : Position) :
    Except Fault Value → Prop
  | value {n : Int64} : op.Computes a b n.toInt → ¬(op = .rem ∧ a = Integer.least ∧ b = -1) →
      op.Settles a b pos (.ok (.int n))
  | zeroDivisor : op = .div ∨ op = .rem → b = 0 → op.Settles a b pos (.error (.divisionByZero pos))
  | outside {n : Int} : op.Computes a b n → ¬Integer.InRange n →
      op.Settles a b pos (.error (.overflow pos))
  | leastRemainder : op = .rem → a = Integer.least → b = -1 →
      op.Settles a b pos (.error (.overflow pos))

theorem integer_of_inRange {n : Int} (inside : Integer.InRange n) (pos : Position) :
    ∃ i : Int64, integer n pos = .ok (.int i) ∧ i.toInt = n := by
  obtain ⟨i, isSome, same⟩ := Integer.exists_of_inRange inside
  refine ⟨i, ?_, same⟩
  rw [integer, isSome]

theorem integer_of_not_inRange {n : Int} (outside : ¬Integer.InRange n) (pos : Position) :
    integer n pos = .error (.overflow pos) := by
  rw [integer, Integer.ofInt?_of_not_inRange outside]

theorem BinaryOp.Computes.settles {op : BinaryOp} {a b n : Int} (computes : op.Computes a b n)
    (notLeast : ¬(op = .rem ∧ a = Integer.least ∧ b = -1)) (pos : Position) :
    op.Settles a b pos (integer n pos) := by
  by_cases inside : Integer.InRange n
  · obtain ⟨i, evaluates, rfl⟩ := integer_of_inRange inside pos
    rw [evaluates]
    exact .value computes notLeast
  · rw [integer_of_not_inRange inside]
    exact .outside computes inside

theorem integerArithmetic_settles {op : BinaryOp} (isArithmetic : op.IsArithmetic) (a b : Int)
    (pos : Position) : op.Settles a b pos (integerArithmetic op a b pos) := by
  cases op
  case add => exact (BinaryOp.Computes.add a b).settles (by simp) pos
  case sub => exact (BinaryOp.Computes.sub a b).settles (by simp) pos
  case mul => exact (BinaryOp.Computes.mul a b).settles (by simp) pos
  case div =>
    rw [integerArithmetic]
    split
    case isTrue isZero => exact .zeroDivisor (.inl rfl) isZero
    case isFalse nonzero =>
      exact (BinaryOp.Computes.div (truncates_tdiv a nonzero)).settles (by simp) pos
  case rem =>
    simp only [integerArithmetic, Bool.and_eq_true, decide_eq_true_eq]
    split
    case isTrue isZero => exact .zeroDivisor (.inr rfl) isZero
    case isFalse nonzero =>
      split
      case isTrue least => exact .leastRemainder rfl least.1 least.2
      case isFalse notLeast =>
        exact (BinaryOp.Computes.rem (truncates_tdiv a nonzero)).settles
          (fun least => notLeast least.2) pos
  all_goals simp [BinaryOp.IsArithmetic, BinaryOp.tier] at isArithmetic

theorem evalBinary_ints {op : BinaryOp} (isArithmetic : op.IsArithmetic) (a b : Int64)
    (pos : Position) :
    evalBinary op (.int a) (.int b) pos = integerArithmetic op a.toInt b.toInt pos := by
  cases op
  case add | sub | mul | div | rem => rfl
  all_goals simp [BinaryOp.IsArithmetic, BinaryOp.tier] at isArithmetic

/-! Whole expressions. -/

/-- How the evaluation of an expression should end: with the exact value if all nodes fit, and else
with the fault of the first one that does not. -/
inductive Expr.Ends (env : Environment) (e : Expr) : Except Fault Value → Prop
  | value {n : Int64} : (∀ node ∈ e.nodes, node.Fits env) → Exact env e n.toInt →
      e.Ends env (.ok (.int n))
  | fault {before after : List Expr} {node : Expr} {fault : Fault} :
      e.nodes = before ++ node :: after → (∀ earlier ∈ before, earlier.Fits env) →
      ¬node.Fits env → node.Blames env fault → e.Ends env (.error fault)

namespace Expr.Ends

variable {env : Environment}

/-- A part that faults behind others that fit decides the fault. -/
theorem ofPart {e part : Expr} {before after : List Expr} {fault : Fault}
    (split : e.nodes = before ++ part.nodes ++ after)
    (fits : ∀ node ∈ before, node.Fits env) (ends : part.Ends env (.error fault)) :
    e.Ends env (.error fault) := by
  cases ends with
  | @fault inner behind node _ partSplit innerFits notFits blames =>
    rw [partSplit, ← List.append_assoc, List.append_assoc, List.cons_append] at split
    refine .fault split ?_ notFits blames
    intro earlier membership
    rcases List.mem_append.mp membership with isBefore | isInner
    · exact fits earlier isBefore
    · exact innerFits earlier isInner

theorem ofFirst {e part : Expr} {after : List Expr} {fault : Fault}
    (split : e.nodes = part.nodes ++ after) (ends : part.Ends env (.error fault)) :
    e.Ends env (.error fault) :=
  @ofPart env e part [] after fault split nofun ends

/-- The last node of an expression is the expression itself. -/
theorem ofLast {e : Expr} {before : List Expr} {fault : Fault} (split : e.nodes = before ++ [e])
    (fits : ∀ node ∈ before, node.Fits env) (notFits : ¬e.Fits env) (blames : e.Blames env fault) :
    e.Ends env (.error fault) :=
  .fault split fits notFits blames

/-- A leaf that has a value. -/
theorem leaf {e : Expr} {n : Int64} (single : e.nodes = [e]) (isExact : Exact env e n.toInt)
    (notLeast : ¬e.IsLeastRemainder env) : e.Ends env (.ok (.int n)) := by
  refine .value ?_ isExact
  rw [single]
  intro node membership
  obtain rfl := List.mem_singleton.mp membership
  exact ⟨⟨_, isExact, Integer.inRange_toInt n⟩, notLeast⟩

/-- A sign before an expression that has a value. -/
theorem neg {operand : Expr} {n : Int64} (fits : ∀ node ∈ operand.nodes, node.Fits env)
    (isExact : Exact env operand n.toInt) (pos : Position) :
    (Expr.unary .neg operand pos).Ends env (integer (-n.toInt) pos) := by
  have wholeExact : Exact env (.unary .neg operand pos) (-n.toInt) := .neg pos isExact
  by_cases inside : Integer.InRange (-n.toInt)
  · obtain ⟨i, evaluates, same⟩ := integer_of_inRange inside pos
    rw [evaluates]
    refine .value ?_ (same ▸ wholeExact)
    rw [nodes, List.forall_mem_append, List.forall_mem_singleton]
    exact ⟨fits, ⟨_, wholeExact, inside⟩, nofun⟩
  · rw [integer_of_not_inRange inside]
    refine .ofLast rfl fits ?_ (.overflow rfl nofun)
    rintro ⟨⟨m, other, inRange⟩, -⟩
    exact inside (wholeExact.unique other ▸ inRange)

section

variable {left right : Expr} {a b : Int64} (leftExact : Exact env left a.toInt)
  (rightExact : Exact env right b.toInt) {op : BinaryOp} {pos : Position}
  (fits : ∀ node ∈ left.nodes ++ right.nodes, node.Fits env)
include leftExact rightExact fits

/-- An operation on two expressions that have values. -/
theorem binary {outcome : Except Fault Value} (settles : op.Settles a.toInt b.toInt pos outcome) :
    (Expr.binary op left right pos).Ends env outcome := by
  have exact_iff {n : Int} : Exact env (.binary op left right pos) n ↔ op.Computes a.toInt b.toInt n :=
    exact_binary_iff leftExact rightExact
  have zero_iff : (Expr.binary op left right pos).DividesByZero env ↔ _ :=
    dividesByZero_iff rightExact
  have least_iff : (Expr.binary op left right pos).IsLeastRemainder env ↔ _ :=
    isLeastRemainder_iff leftExact rightExact
  cases settles with
  | @value n computes notLeast =>
    have wholeExact := exact_iff.mpr computes
    refine .value ?_ wholeExact
    rw [nodes, List.forall_mem_append, List.forall_mem_singleton]
    exact ⟨fits, ⟨_, wholeExact, Integer.inRange_toInt n⟩, fun least => notLeast (least_iff.mp least)⟩
  | zeroDivisor divides isZero =>
    refine .ofLast rfl fits ?_ (.division rfl (zero_iff.mpr ⟨divides, isZero⟩))
    rintro ⟨⟨n, whole, -⟩, -⟩
    have computes := exact_iff.mp whole
    rw [isZero] at computes
    exact BinaryOp.not_computes_zero divides computes
  | @outside n computes outside =>
    refine .ofLast rfl fits ?_ (.overflow rfl ?_)
    · rintro ⟨⟨m, whole, inside⟩, -⟩
      exact outside ((exact_iff.mp whole).unique computes ▸ inside)
    · intro divides
      obtain ⟨isDivision, isZero⟩ := zero_iff.mp divides
      rw [isZero] at computes
      exact BinaryOp.not_computes_zero isDivision computes
  | leastRemainder isRem isLeast isMinusOne =>
    refine .ofLast rfl fits ?_ (.overflow rfl ?_)
    · exact fun whole => whole.notLeast (least_iff.mpr ⟨isRem, isLeast, isMinusOne⟩)
    · intro divides
      have isZero := (zero_iff.mp divides).2
      omega

end

end Expr.Ends

theorem eval_ends {env : Environment} {e : Expr} (integral : e.IsIntegral env) :
    e.Ends env (eval env e) := by
  induction integral with
  | literal n => exact .leaf rfl (.literal n) (by rintro ⟨⟩)
  | name pos found =>
    rw [eval, found]
    exact .leaf rfl (.name pos found) (by rintro ⟨⟩)
  | argc pos =>
    have counted : (Int64.ofNat env.args.length).toInt = env.argumentCount := Int64.toInt_ofNat'
    have isExact : Exact env (.call "argc" [] pos) env.argumentCount := .argc pos
    exact .leaf rfl (counted ▸ isExact) (by rintro ⟨⟩)
  | @neg operand pos _ ends =>
    rw [eval]
    generalize eval env operand = outcome at ends ⊢
    rcases outcome with fault | value
    · exact ends.ofFirst rfl
    · cases ends with
      | value fits isExact => exact .neg fits isExact pos
  | @binary op left right pos isArithmetic _ _ leftEnds rightEnds =>
    rw [eval]
    generalize eval env left = leftOutcome at leftEnds ⊢
    generalize eval env right = rightOutcome at rightEnds ⊢
    rcases leftOutcome with fault | leftValue
    · exact leftEnds.ofFirst (List.append_assoc _ _ _)
    · cases leftEnds with
      | @value a leftFits leftExact =>
        rcases rightOutcome with fault | rightValue
        · exact rightEnds.ofPart rfl leftFits
        · cases rightEnds with
          | @value b rightFits rightExact =>
            have fits := List.forall_mem_append.mpr ⟨leftFits, rightFits⟩
            have settles := integerArithmetic_settles isArithmetic a.toInt b.toInt pos
            rw [← evalBinary_ints isArithmetic] at settles
            exact .binary leftExact rightExact fits settles

/-- An expression of integers is evaluated to its exact value if and only if all of its nodes have one
in range, the remainder of the least integer by minus one apart. Else the outcome is the fault of the
first node that has none. -/
theorem eval_exact_or_first_fault {env : Environment} {e : Expr} (integral : e.IsIntegral env) :
    (∀ value, eval env e = .ok value ↔
      (∀ node ∈ e.nodes, node.Fits env) ∧ ∃ n : Int64, value = .int n ∧ Exact env e n.toInt) ∧
    ((¬∀ node ∈ e.nodes, node.Fits env) →
      ∃ before node after fault, e.nodes = before ++ node :: after ∧
        (∀ earlier ∈ before, earlier.Fits env) ∧ ¬node.Fits env ∧ node.Blames env fault ∧
        eval env e = .error fault) := by
  have ends := eval_ends integral
  generalize eval env e = outcome at ends ⊢
  cases ends with
  | @value n fits isExact =>
    refine ⟨fun value => ⟨?_, ?_⟩, fun misfit => (misfit fits).elim⟩
    · rintro ⟨⟩
      exact ⟨fits, n, rfl, isExact⟩
    · rintro ⟨-, m, rfl, other⟩
      rw [Int64.toInt_inj.mp (isExact.unique other)]
  | @fault before after node fault split fits notFits blames =>
    refine ⟨fun value => ⟨nofun, ?_⟩, fun _ => ⟨before, node, after, fault, split, fits, notFits,
      blames, rfl⟩⟩
    rintro ⟨allFit, -⟩
    exact (notFits (allFit node (by simp [split]))).elim

/-- A session whose host hands out the greatest integer, and two arguments. -/
def Session.handedGreatest : Session :=
  ofHost ⟨["a", "b"], [⟨"limits", [("top", .int 0x7FFFFFFFFFFFFFFF)]⟩]⟩

/-- `-top - 1` -/
def leastByName : Expr :=
  .binary .sub (.unary .neg (.name "top" ⟨1, 3⟩) ⟨1, 2⟩) (.literal (.int 1)) ⟨1, 7⟩

/-- `argc() + 8` -/
def tenByCount : Expr :=
  .binary .add (.call "argc" [] ⟨1, 15⟩) (.literal (.int 8)) ⟨1, 22⟩

/-- `(-top - 1) % (argc() + 8)` -/
def leastByTen : Expr :=
  .binary .rem leastByName tenByCount ⟨1, 12⟩

/-- `(top + argc()) / 0` -/
def aboveGreatest : Expr :=
  .binary .div (.binary .add (.name "top" ⟨1, 2⟩) (.call "argc" [] ⟨1, 8⟩) ⟨1, 6⟩)
    (.literal (.int 0)) ⟨1, 16⟩

theorem leastByTen_evaluated :
    eval Session.handedGreatest.environment leastByTen = .ok (.int (-8)) := by
  rfl

theorem limits_evaluated :
    let env := Session.handedGreatest.environment
    env.argumentCount = 2 ∧
    leastByTen.IsIntegral env ∧ (∀ node ∈ leastByTen.nodes, node.Fits env) ∧
    Exact env leastByTen (-8) ∧ aboveGreatest.IsIntegral env ∧
    ¬(∀ node ∈ aboveGreatest.nodes, node.Fits env) ∧
    eval env aboveGreatest = .error (.overflow ⟨1, 6⟩) := by
  intro env
  have count : env.argumentCount = 2 := Environment.argumentCount_of_lt (by decide)
  have top : env.value? "top" = some (.int 0x7FFFFFFFFFFFFFFF) := rfl
  have leastIntegral : leastByTen.IsIntegral env :=
    .binary _ (.inr rfl) (.binary _ (.inl rfl) (.neg _ (.name _ top)) (.literal 1))
      (.binary _ (.inl rfl) (.argc _) (.literal 8))
  have aboveIntegral : aboveGreatest.IsIntegral env :=
    .binary _ (.inr rfl) (.binary _ (.inl rfl) (.name _ top) (.argc _)) (.literal 0)
  have aboveFault : eval env aboveGreatest = .error (.overflow ⟨1, 6⟩) := rfl
  obtain ⟨fits, n, isValue, isExact⟩ :=
    ((eval_exact_or_first_fault leastIntegral).1 _).mp leastByTen_evaluated
  cases isValue
  refine ⟨count, leastIntegral, fits, isExact, aboveIntegral, fun allFit => ?_, aboveFault⟩
  obtain ⟨m, wholeExact, inside⟩ := (allFit aboveGreatest (by simp [aboveGreatest, Expr.nodes])).value
  obtain ⟨i, -, rfl⟩ := Integer.exists_of_inRange inside
  have evaluates :=
    ((eval_exact_or_first_fault aboveIntegral).1 (.int i)).mpr ⟨allFit, i, rfl, wholeExact⟩
  cases aboveFault.symm.trans evaluates

end Calc

end Colloquy

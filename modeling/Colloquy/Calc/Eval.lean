import Colloquy.Calc.Expr
import Colloquy.Decimal.Binary
import Colloquy.Integer

/-!
The values of expressions. Integer arithmetic is exact or faults; all other arithmetic is that of
doubles and never does.
-/

set_option autoImplicit false

namespace Colloquy.Calc

/-- What can go wrong while a submission runs. -/
inductive Fault where
  | divisionByZero (pos : Position)
  | overflow (pos : Position)
  | argumentOutOfRange (pos : Position) (index : Int64) (count : Nat)
  deriving DecidableEq, Repr

def Fault.message : Fault → String
  | .divisionByZero pos => pos.render ++ ": division by zero"
  | .overflow pos => pos.render ++ ": integer overflow"
  | .argumentOutOfRange pos index count =>
    pos.render ++ ": argument index " ++ Value.showInt index ++ " out of range (" ++
      showNat count ++ " arguments)"

/-- What expressions are evaluated against: the values of names and the arguments of the host. -/
structure Environment where
  value? : String → Option Value
  args : List String

/-- An exact integer result, which faults outside the range of the integers. -/
def integer (n : Int) (pos : Position) : Except Fault Value :=
  match Integer.ofInt? n with
  | some i => .ok (.int i)
  | none => .error (.overflow pos)

/-- The number a value counts as in the arithmetic of doubles. -/
def toDouble : Value → Float
  | .int n => n.toFloat
  | .double x => x
  | _ => 0.0

def evalUnary (op : UnaryOp) (operand : Value) (pos : Position) : Except Fault Value :=
  match op, operand with
  | .neg, .int n => integer (-n.toInt) pos
  | .neg, .double x => .ok (.double (-x))
  | .not, .bool b => .ok (.bool (!b))
  | _, other => .ok other

/-- Numbers of different kinds are compared as doubles, all other values must be of one kind. -/
def sameValue : Value → Value → Bool
  | .int a, .int b => a == b
  | .int a, .double b => a.toFloat == b
  | .double a, .int b => a == b.toFloat
  | left, right => left == right

/-- Whether an order relation holds between two values of one ordered type. -/
def ordered {α : Type} [LT α] [LE α] [DecidableLT α] [DecidableLE α] (op : BinaryOp) (a b : α) :
    Bool :=
  match op with
  | .lt => a < b
  | .le => a ≤ b
  | .gt => b < a
  | _ => b ≤ a

def compareValues (op : BinaryOp) : Value → Value → Bool
  | .string a, .string b => ordered op a b
  | .int a, .int b => ordered op a b
  | left, right => ordered op (toDouble left) (toDouble right)

/-- Division goes toward zero, and the remainder has the sign of the dividend. The remainder by
minus one of the least integer counts as an overflow, like the quotient. -/
def integerArithmetic (op : BinaryOp) (a b : Int) (pos : Position) : Except Fault Value :=
  match op with
  | .add => integer (a + b) pos
  | .sub => integer (a - b) pos
  | .mul => integer (a * b) pos
  | .div => if b = 0 then .error (.divisionByZero pos) else integer (a.tdiv b) pos
  | _ =>
    if b = 0 then .error (.divisionByZero pos)
    else if a = Integer.least && b = -1 then .error (.overflow pos)
    else integer (a.tmod b) pos

def doubleArithmetic (op : BinaryOp) (a b : Float) : Float :=
  match op with
  | .add => a + b
  | .sub => a - b
  | .mul => a * b
  | .div => a / b
  | _ => Decimal.remainder a b

def arithmetic (op : BinaryOp) (left right : Value) (pos : Position) : Except Fault Value :=
  match left, right with
  | .int a, .int b => integerArithmetic op a.toInt b.toInt pos
  | left, right => .ok (.double (doubleArithmetic op (toDouble left) (toDouble right)))

def isString : Value → Bool
  | .string _ => true
  | _ => false

def evalBinary (op : BinaryOp) (left right : Value) (pos : Position) : Except Fault Value :=
  match op with
  | .add =>
    if isString left || isString right then .ok (.string (left.text ++ right.text))
    else arithmetic .add left right pos
  | .eq => .ok (.bool (sameValue left right))
  | .ne => .ok (.bool (!sameValue left right))
  | .lt | .le | .gt | .ge => .ok (.bool (compareValues op left right))
  | op => arithmetic op left right pos

/-- The argument at an index given as a value, counted from zero. -/
def argumentAt (env : Environment) (index : Value) (pos : Position) : Except Fault Value :=
  let i : Int64 :=
    match index with
    | .int i => i
    | _ => 0
  match if 0 ≤ i then env.args[i.toInt.toNat]? else none with
  | some text => .ok (.string text)
  | none => .error (.argumentOutOfRange pos i env.args.length)

/-- Operands are evaluated from left to right, and the first fault is the outcome. -/
def eval (env : Environment) : Expr → Except Fault Value
  | .literal value => .ok value
  | .name name _ => .ok ((env.value? name).getD .unit)
  | .unary op operand pos => do
    let value ← eval env operand
    evalUnary op value pos
  | .binary op left right pos => do
    let a ← eval env left
    let b ← eval env right
    evalBinary op a b pos
  | .call function args pos =>
    if function = "argc" then .ok (.int (Int64.ofNat env.args.length))
    else
      match args with
      | [] => argumentAt env .unit pos
      | index :: _ => do
        let value ← eval env index
        argumentAt env value pos

end Colloquy.Calc

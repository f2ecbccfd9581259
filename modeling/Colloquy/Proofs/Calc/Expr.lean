import Colloquy.Calc.Parser

set_option autoImplicit false

/-!
Expressions and statements: induction on an expression with all arguments of a call at once, the
expressions that hold no `unit`, and the names that occur in an expression.
-/

namespace Colloquy.Calc

@[induction_eliminator]
theorem Expr.induction {motive : Expr → Prop} (literal : ∀ value, motive (.literal value))
    (name : ∀ text pos, motive (.name text pos))
    (unary : ∀ op operand pos, motive operand → motive (.unary op operand pos))
    (binary : ∀ op left right pos, motive left → motive right →
      motive (.binary op left right pos))
    (call : ∀ function args pos, (∀ arg ∈ args, motive arg) → motive (.call function args pos)) :
    (e : Expr) → motive e
  | .literal value => literal value
  | .name text pos => name text pos
  | .unary op operand pos =>
    unary op operand pos (Expr.induction literal name unary binary call operand)
  | .binary op left right pos =>
    binary op left right pos (Expr.induction literal name unary binary call left)
      (Expr.induction literal name unary binary call right)
  | .call function args pos =>
    call function args pos fun arg _ => Expr.induction literal name unary binary call arg

/-- No literal of the expression is `unit`. -/
inductive Expr.Proper : Expr → Prop
  | literal {value : Value} : value ≠ .unit → Expr.Proper (.literal value)
  | name (text : String) (pos : Position) : Expr.Proper (.name text pos)
  | unary {operand : Expr} (op : UnaryOp) (pos : Position) :
      operand.Proper → Expr.Proper (.unary op operand pos)
  | binary {left right : Expr} (op : BinaryOp) (pos : Position) :
      left.Proper → right.Proper → Expr.Proper (.binary op left right pos)
  | call {args : List Expr} (function : String) (pos : Position) :
      (∀ arg ∈ args, arg.Proper) → Expr.Proper (.call function args pos)

/-- The name occurs in the expression, as that of a value. -/
inductive Expr.Mentions (name : String) : Expr → Prop
  | name (pos : Position) : Expr.Mentions name (.name name pos)
  | unary {operand : Expr} (op : UnaryOp) (pos : Position) :
      operand.Mentions name → Expr.Mentions name (.unary op operand pos)
  | left {left : Expr} (op : BinaryOp) (right : Expr) (pos : Position) :
      left.Mentions name → Expr.Mentions name (.binary op left right pos)
  | right {right : Expr} (op : BinaryOp) (left : Expr) (pos : Position) :
      right.Mentions name → Expr.Mentions name (.binary op left right pos)
  | arg {args : List Expr} {arg : Expr} (function : String) (pos : Position) :
      arg ∈ args → arg.Mentions name → Expr.Mentions name (.call function args pos)

/-- The expression that a statement evaluates. -/
def Statement.body : Statement → Expr
  | .declare _ _ init _ => init
  | .expr e _ _ => e

/-- A statement and the token that ends it. -/
def Statement.endedBy (statement : Statement) : Token → Statement
  | .semicolon => statement.terminate
  | _ => statement

@[simp] theorem Statement.body_terminate (statement : Statement) :
    statement.terminate.body = statement.body := by
  cases statement <;> rfl

@[simp] theorem Statement.body_endedBy (statement : Statement) (token : Token) :
    (statement.endedBy token).body = statement.body := by
  cases token <;> simp [endedBy]

end Colloquy.Calc

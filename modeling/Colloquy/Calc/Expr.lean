import Colloquy.Diagnostic
import Colloquy.Value

/-!
The language of submissions: typed expressions, and statements that declare variables or evaluate
an expression.
-/

set_option autoImplicit false

namespace Colloquy.Calc

inductive UnaryOp where
  | neg
  | not
  deriving DecidableEq, Repr

inductive BinaryOp where
  | add
  | sub
  | mul
  | div
  | rem
  | eq
  | ne
  | lt
  | le
  | gt
  | ge
  deriving DecidableEq, Repr

def UnaryOp.symbol : UnaryOp → String
  | .neg => "-"
  | .not => "!"

def BinaryOp.symbol : BinaryOp → String
  | .add => "+"
  | .sub => "-"
  | .mul => "*"
  | .div => "/"
  | .rem => "%"
  | .eq => "=="
  | .ne => "!="
  | .lt => "<"
  | .le => "<="
  | .gt => ">"
  | .ge => ">="

/-- The four levels of precedence of the binary operators. -/
inductive Tier where
  | product
  | sum
  | comparison
  | equality
  deriving DecidableEq, Repr

def BinaryOp.tier : BinaryOp → Tier
  | .mul | .div | .rem => .product
  | .add | .sub => .sum
  | .lt | .le | .gt | .ge => .comparison
  | .eq | .ne => .equality

/-- The tiers that bind tighter than a tier, tightest first. -/
def Tier.tighter : Tier → List Tier
  | .product => []
  | .sum => [.product]
  | .comparison => [.product, .sum]
  | .equality => [.product, .sum, .comparison]

inductive Expr where
  | literal (value : Value)
  | name (name : String) (pos : Position)
  | unary (op : UnaryOp) (operand : Expr) (pos : Position)
  | binary (op : BinaryOp) (left right : Expr) (pos : Position)
  | call (function : String) (args : List Expr) (pos : Position)

inductive Statement where
  /-- A declaration, at the position of the declared name. Without a written kind the variable takes
  the kind of its initial value. -/
  | declare (name : String) (kind? : Option Kind) (init : Expr) (pos : Position)
  /-- An expression; one that ends with a semicolon gives no value. -/
  | expr (expr : Expr) (terminated : Bool) (pos : Position)

end Colloquy.Calc

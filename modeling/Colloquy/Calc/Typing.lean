import Colloquy.Calc.Expr

/-!
The kinds of expressions. `check` gives the kind of an expression in a scope together with all
complaints about it; an expression with a complaint has the kind `void`, and nothing is said about
an operation on such an expression.
-/

set_option autoImplicit false

namespace Colloquy.Calc

/-- The kinds of the names in scope, the latest declaration first. -/
abbrev Scope := List (String × Kind)

/-- The kind of a unary operation, if the operator applies to the kind of the operand. -/
def UnaryOp.kind? : UnaryOp → Kind → Option Kind
  | .neg, .int => some .int
  | .neg, .double => some .double
  | .not, .bool => some .bool
  | _, _ => none

def arithmetic? (left right : Kind) : Option Kind :=
  match left, right with
  | .int, .int => some .int
  | .int, .double | .double, .int | .double, .double => some .double
  | _, _ => none

/-- The kind of a binary operation, if the operator applies to the kinds of the operands. -/
def BinaryOp.kind? (op : BinaryOp) (left right : Kind) : Option Kind :=
  match op with
  | .add => if left = .string || right = .string then some .string else arithmetic? left right
  | .sub | .mul | .div | .rem => arithmetic? left right
  | .eq | .ne =>
    if left = right || (left.isNumeric && right.isNumeric) then some .bool else none
  | .lt | .le | .gt | .ge =>
    if (left.isNumeric && right.isNumeric) || (left = .string && right = .string) then some .bool
    else none

/-- The outcome of checking: a kind, and complaints in the order of the text. -/
structure Checked where
  kind : Kind
  complaints : List Diagnostic

namespace Checked

def refuse (before : List Diagnostic) (pos : Position) (message : String) : Checked :=
  ⟨.void, before ++ [.error pos message]⟩

end Checked

def checkUnary (op : UnaryOp) (operand : Checked) (pos : Position) : Checked :=
  if operand.kind = .void then ⟨.void, operand.complaints⟩
  else
    match op.kind? operand.kind with
    | some kind => ⟨kind, operand.complaints⟩
    | none => .refuse operand.complaints pos
        ("operator `" ++ op.symbol ++ "` cannot be applied to `" ++ operand.kind.name ++ "`")

def checkBinary (op : BinaryOp) (left right : Checked) (pos : Position) : Checked :=
  let complaints := left.complaints ++ right.complaints
  if left.kind = .void || right.kind = .void then ⟨.void, complaints⟩
  else
    match op.kind? left.kind right.kind with
    | some kind => ⟨kind, complaints⟩
    | none => .refuse complaints pos
        ("operator `" ++ op.symbol ++ "` cannot be applied to `" ++ left.kind.name ++ "` and `" ++
          right.kind.name ++ "`")

def checkCall (function : String) (args : List Checked) (pos : Position) : Checked :=
  let complaints := args.flatMap Checked.complaints
  match function, args.map Checked.kind with
  | "argc", [] => ⟨.int, complaints⟩
  | "arg", [.int] => ⟨.string, complaints⟩
  | "arg", [.void] => ⟨.void, complaints⟩
  | function, _ =>
    if function = "argc" || function = "arg" then
      .refuse complaints pos ("wrong arguments for `" ++ function ++ "`")
    else .refuse complaints pos ("unknown function `" ++ function ++ "`")

mutual

def check (scope : Scope) : Expr → Checked
  | .literal value => ⟨value.kind, []⟩
  | .name name pos =>
    match scope.lookup name with
    | some kind => ⟨kind, []⟩
    | none => .refuse [] pos ("the name `" ++ name ++ "` does not exist in the current context")
  | .unary op operand pos => checkUnary op (check scope operand) pos
  | .binary op left right pos => checkBinary op (check scope left) (check scope right) pos
  | .call function args pos => checkCall function (checkAll scope args) pos

def checkAll (scope : Scope) : List Expr → List Checked
  | [] => []
  | arg :: args => check scope arg :: checkAll scope args

end

theorem checkAll_eq_map (scope : Scope) (args : List Expr) :
    checkAll scope args = args.map (check scope) := by
  induction args with
  | nil => simp [checkAll]
  | cons arg args inductionHypothesis => simp [checkAll, inductionHypothesis]

/-- The kind of a declared variable, given the kind of its initial value: an `int` may initialise a
`double`, otherwise a written kind has to be that of the value. -/
def declaredKind? : Option Kind → Kind → Option Kind
  | _, .void => some .void
  | none, kind => some kind
  | some written, kind =>
    if written = kind then some kind
    else if written = .double && kind = .int then some .double
    else none

def checkDeclaration (name : String) (kind? : Option Kind) (init : Checked) (pos : Position) :
    Checked :=
  match declaredKind? kind? init.kind with
  | some kind => ⟨kind, init.complaints⟩
  | none => .refuse init.complaints pos
      ("cannot assign `" ++ init.kind.name ++ "` to `" ++ (kind?.getD .void).name ++
        "` variable `" ++ name ++ "`")

end Colloquy.Calc

import Colloquy.Calc.Eval
import Colloquy.Calc.Parser
import Colloquy.Calc.Typing
import Colloquy.Host

/-!
Sessions of the language. A submission is compiled against the names of a session and then run in
it; what it declares stays in the session, up to the statement that faults if one does.
-/

set_option autoImplicit false

namespace Colloquy.Calc

structure Binding where
  name : String
  kind : Kind
  value : Value

/-- A session: the host's values, and the variables declared so far in order. A variable may be
declared again; the latest declaration of a name counts. -/
structure Session where
  host : Host
  globals : List (String × Value)
  bindings : List Binding
  /-- The number of submissions that ran. Each run counts one, so no session that can be carried out
  gets to the 2^64 of them at which a counter of 64 bits would overflow. -/
  submissions : Nat

/-- A declaration of a submission. -/
structure Symbol where
  name : String
  kind : Kind
  pos : Position

/-- A compiled submission. Each statement comes with the kind of the variable it declares, which is
`void` for an expression. -/
structure Compiled where
  statements : List (Statement × Kind)
  symbols : List Symbol
  warnings : List Diagnostic

def Expr.isLiteral : Expr → Bool
  | .literal _ => true
  | _ => false

/-- The outcome of checking statements: complaints, and what is compiled if there are none. -/
structure Compilation where
  complaints : List Diagnostic
  compiled : Compiled

/-- Checks statements in order, each one against the declarations before it. A literal that is not
the last statement and not ended by a semicolon is worth a warning. -/
def compileStatements (scope : Scope) : List Statement → Compilation
  | [] => ⟨[], [], [], []⟩
  | .declare name kind? init pos :: rest =>
    let checked := checkDeclaration name kind? (check scope init) pos
    let declares := checked.kind != .void
    let later := compileStatements (if declares then (name, checked.kind) :: scope else scope) rest
    { complaints := checked.complaints ++ later.complaints
      compiled :=
        { statements := (.declare name kind? init pos, checked.kind) :: later.compiled.statements
          symbols :=
            if declares then ⟨name, checked.kind, pos⟩ :: later.compiled.symbols
            else later.compiled.symbols
          warnings := later.compiled.warnings } }
  | .expr e terminated pos :: rest =>
    let checked := check scope e
    let later := compileStatements scope rest
    { complaints := checked.complaints ++ later.complaints
      compiled :=
        { statements := (.expr e terminated pos, .void) :: later.compiled.statements
          symbols := later.compiled.symbols
          warnings :=
            if !rest.isEmpty && !terminated && e.isLiteral then
              .warning pos "literal value is discarded" :: later.compiled.warnings
            else later.compiled.warnings } }

namespace Session

def ofHost (host : Host) : Session :=
  ⟨host, host.globals, [], 0⟩

/-- The value of a name: that of its latest declaration, or else that of the host. -/
def value? (session : Session) (name : String) : Option Value :=
  match session.bindings.reverse.find? fun binding => binding.name = name with
  | some binding => some binding.value
  | none => session.globals.lookup name

def scope (session : Session) : Scope :=
  session.bindings.reverse.map (fun binding => (binding.name, binding.kind)) ++
    session.globals.map fun (name, value) => (name, value.kind)

def environment (session : Session) : Environment :=
  ⟨session.value?, session.host.args⟩

def compile (session : Session) (source : String) : Except (List Diagnostic) Compiled := do
  let statements ← parse source
  let compilation := compileStatements session.scope statements
  if compilation.complaints.isEmpty then .ok compilation.compiled
  else .error compilation.complaints

/-- A variable of kind `double` holds its value as a double. -/
def coerce (kind : Kind) (value : Value) : Value :=
  match kind, value with
  | .double, .int n => .double n.toFloat
  | _, value => value

def bind (session : Session) (binding : Binding) : Session :=
  { session with bindings := session.bindings ++ [binding] }

/-- Runs statements in order. The outcome is the fault of the first one that faults, or else the
value of the last one: that of an expression without a semicolon, and `unit` for all others. -/
def runFrom (session : Session) (result : Value) :
    List (Statement × Kind) → Session × Except Fault Value
  | [] => (session, .ok result)
  | (.declare name _ init _, kind) :: rest =>
    match eval session.environment init with
    | .error fault => (session, .error fault)
    | .ok value => runFrom (session.bind ⟨name, kind, coerce kind value⟩) .unit rest
  | (.expr e terminated _, _) :: rest =>
    match eval session.environment e with
    | .error fault => (session, .error fault)
    | .ok value => runFrom session (if terminated then .unit else value) rest

def execute (session : Session) (compiled : Compiled) : Session × Except Fault Value :=
  runFrom { session with submissions := session.submissions + 1 } .unit compiled.statements

end Session

end Colloquy.Calc

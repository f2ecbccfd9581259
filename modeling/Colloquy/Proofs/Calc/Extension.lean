import Colloquy.Proofs.Calc.Execution
import Colloquy.Proofs.Calc.SessionSoundness
import Colloquy.Proofs.Entries

set_option autoImplicit false

/-!
Names that a text does not mention do not matter to it. An expression that is accepted mentions only
names that there are, so it is accepted alike, and has the same value, where there are more of them.
Hence texts that compile one after another in a session compile to the same in one that has more
values of the host, and leave the same variables there.
-/

namespace Colloquy.Calc

/-- Whatever a scope knows is known by the other one as well. -/
def Scope.Within (scope larger : Scope) : Prop :=
  ∀ name kind, scope.lookup name = some kind → larger.lookup name = some kind

structure Environment.Within (env larger : Environment) : Prop where
  args : larger.args = env.args
  value? : ∀ name value, env.value? name = some value → larger.value? name = some value

/-- Every name of a scope has a value. -/
def Scope.ValuedIn (scope : Scope) (env : Environment) : Prop :=
  ∀ name kind, scope.lookup name = some kind → ∃ value, env.value? name = some value

theorem Scope.Within.declare {scope larger : Scope} (within : scope.Within larger) (name : String)
    (kind : Kind) (declares : Bool) :
    Scope.Within (if declares then (name, kind) :: scope else scope)
      (if declares then (name, kind) :: larger else larger) := by
  cases declares with
  | false => exact within
  | true =>
    intro searched found isFound
    rw [if_pos rfl, lookup_cons_eq_ite] at isFound ⊢
    split at isFound
    case isTrue same => rwa [if_pos same]
    case isFalse differ =>
      rw [if_neg differ]
      exact within searched found isFound

/-- An expression that is accepted is checked alike among more names. -/
theorem check_within {scope larger : Scope} (within : scope.Within larger) {e : Expr}
    (accepted : (check scope e).complaints = []) : check larger e = check scope e := by
  induction e with
  | literal value => rw [check, check]
  | name text pos =>
    rw [check] at accepted
    rw [check, check]
    cases found : scope.lookup text with
    | none =>
      rw [found] at accepted
      exact (not_refused accepted).elim
    | some kind => rw [within text kind found]
  | unary op operand pos operandSame =>
    rw [check] at accepted
    rw [check, check, operandSame (checkUnary_accepted accepted).1]
  | binary op left right pos leftSame rightSame =>
    rw [check] at accepted
    obtain ⟨leftAccepted, rightAccepted, -⟩ := checkBinary_accepted accepted
    rw [check, check, leftSame leftAccepted, rightSame rightAccepted]
  | call function args pos argSame =>
    rw [check, checkAll_eq_map] at accepted
    have argsSame : args.map (check larger) = args.map (check scope) :=
      List.map_congr_left fun arg among =>
        argSame arg among ((checkCall_accepted accepted).1 _ (List.mem_map_of_mem among))
    rw [check, check, checkAll_eq_map, checkAll_eq_map, argsSame]

/-- An expression that is accepted among names with values has the same value where there are more of
them. -/
theorem eval_within {scope : Scope} {env larger : Environment} (valued : scope.ValuedIn env)
    (within : env.Within larger) {e : Expr} (accepted : (check scope e).complaints = []) :
    eval larger e = eval env e := by
  induction e with
  | literal value => rw [eval, eval]
  | name text pos =>
    rw [check] at accepted
    cases found : scope.lookup text with
    | none =>
      rw [found] at accepted
      exact (not_refused accepted).elim
    | some kind =>
      obtain ⟨value, isValue⟩ := valued text kind found
      rw [eval, eval, isValue, within.value? text value isValue]
  | unary op operand pos operandSame =>
    rw [check] at accepted
    rw [eval, eval, operandSame (checkUnary_accepted accepted).1]
  | binary op left right pos leftSame rightSame =>
    rw [check] at accepted
    obtain ⟨leftAccepted, rightAccepted, -⟩ := checkBinary_accepted accepted
    rw [eval, eval, leftSame leftAccepted, rightSame rightAccepted]
  | call function args pos argSame =>
    rw [check, checkAll_eq_map] at accepted
    have atSame (index : Value) : argumentAt larger index pos = argumentAt env index pos := by
      unfold argumentAt
      rw [within.args]
    cases args with
    | nil => simp only [eval, within.args, atSame]
    | cons index rest =>
      have indexSame := argSame index List.mem_cons_self
        ((checkCall_accepted accepted).1 _ (List.mem_map_of_mem List.mem_cons_self))
      simp only [eval, within.args, atSame, indexSame]

theorem compileStatements_within {scope larger : Scope} (within : scope.Within larger)
    {program : List Statement} (accepted : (compileStatements scope program).complaints = []) :
    compileStatements larger program = compileStatements scope program := by
  induction program generalizing scope larger with
  | nil => rw [compileStatements, compileStatements]
  | cons statement rest inductionHypothesis =>
    cases statement with
    | declare name kind? init pos =>
      simp only [compileStatements, List.append_eq_nil_iff] at accepted
      obtain ⟨declarationAccepted, restAccepted⟩ := accepted
      have initSame := check_within within (checkDeclaration_accepted declarationAccepted).1
      have restSame := inductionHypothesis (within.declare name _ _) restAccepted
      simp only [compileStatements, initSame, restSame]
    | expr e terminated pos =>
      simp only [compileStatements, List.append_eq_nil_iff] at accepted
      simp only [compileStatements, check_within within accepted.1,
        inductionHypothesis within accepted.2]

namespace Session

/-- The same variables, behind values of the host among which there may be more. -/
structure Within (session larger : Session) : Prop where
  bindings : larger.bindings = session.bindings
  args : larger.host.args = session.host.args
  globals : ∀ name value, session.globals.lookup name = some value →
    larger.globals.lookup name = some value

namespace Within

variable {session larger : Session} (within : session.Within larger)

include within

theorem environment : session.environment.Within larger.environment where
  args := within.args
  value? := by
    intro name value isValue
    change session.value? name = some value at isValue
    change larger.value? name = some value
    rw [value?_eq_or] at isValue ⊢
    rw [within.bindings]
    cases latest : latest? session.bindings name with
    | none =>
      rw [latest] at isValue
      exact within.globals name value isValue
    | some binding => rwa [latest] at isValue

theorem scope : session.scope.Within larger.scope := by
  intro name kind isKnown
  rw [Session.scope, List.lookup_append] at isKnown ⊢
  rw [within.bindings]
  cases declared : List.lookup name
      (session.bindings.reverse.map fun binding => (binding.name, binding.kind)) with
  | none =>
    rw [declared, Option.none_or, lookup_map_value] at isKnown
    obtain ⟨value, isValue, rfl⟩ := Option.map_eq_some_iff.mp isKnown
    rw [Option.none_or, lookup_map_value, within.globals name value isValue, Option.map_some]
  | some found => rwa [declared] at isKnown

theorem bind (binding : Binding) : (session.bind binding).Within (larger.bind binding) where
  bindings := congrArg (· ++ [binding]) within.bindings
  args := within.args
  globals := within.globals

end Within

theorem scope_valuedIn (session : Session) : session.scope.ValuedIn session.environment := by
  intro name kind isKnown
  change ∃ value, session.value? name = some value
  rw [scope, List.lookup_append, lookup_map_kind, lookup_map_value] at isKnown
  rw [value?]
  cases found : session.bindings.reverse.find? fun binding => binding.name = name with
  | none =>
    rw [found] at isKnown
    obtain ⟨value, isValue, -⟩ := Option.map_eq_some_iff.mp isKnown
    exact ⟨value, isValue⟩
  | some binding => exact ⟨binding.value, rfl⟩

theorem value?_bind (session : Session) (binding : Binding) (name : String) :
    (session.bind binding).value? name =
      if name = binding.name then some binding.value else session.value? name := by
  rw [value?_eq_or, value?_eq_or, bind, latest?_append]
  by_cases same : name = binding.name
  · rw [if_pos same]
    simp [latest?, same]
  · rw [if_neg same]
    simp [latest?, Ne.symm same]

/-- A variable has a value, whether or not the checker knows it. -/
theorem valuedIn_bind {session : Session} {scope : Scope}
    (valued : scope.ValuedIn session.environment) (binding : Binding) (kind : Kind)
    (declares : Bool) :
    Scope.ValuedIn (if declares then (binding.name, kind) :: scope else scope)
      (session.bind binding).environment := by
  intro name found isKnown
  change ∃ value, (session.bind binding).value? name = some value
  rw [value?_bind]
  by_cases same : name = binding.name
  · exact ⟨binding.value, if_pos same⟩
  · rw [if_neg same]
    apply valued name found
    cases declares with
    | false => exact isKnown
    | true => rwa [if_pos rfl, lookup_cons_eq_ite, if_neg same] at isKnown

/-- Statements that are compiled among names with values declare the same where there are more names. -/
theorem Within.runFrom {session larger : Session} (within : session.Within larger) {scope : Scope}
    (valued : scope.ValuedIn session.environment) {program : List Statement}
    (accepted : (compileStatements scope program).complaints = []) (result : Value) :
    let statements := (compileStatements scope program).compiled.statements
    (session.runFrom result statements).1.Within (larger.runFrom result statements).1 := by
  induction program generalizing session larger scope result with
  | nil => exact within
  | cons statement rest inductionHypothesis =>
    cases statement with
    | declare name kind? init pos =>
      simp only [compileStatements, List.append_eq_nil_iff] at accepted ⊢
      obtain ⟨declarationAccepted, restAccepted⟩ := accepted
      have initSame := eval_within valued within.environment
        (checkDeclaration_accepted declarationAccepted).1
      simp only [Session.runFrom, initSame]
      cases eval session.environment init with
      | error fault => exact within
      | ok value =>
        exact inductionHypothesis (within.bind ⟨name, _, _⟩) (valuedIn_bind valued ⟨name, _, _⟩ _ _)
          restAccepted .unit
    | expr e terminated pos =>
      simp only [compileStatements, List.append_eq_nil_iff] at accepted ⊢
      have same := eval_within valued within.environment accepted.1
      simp only [Session.runFrom, same]
      cases eval session.environment e with
      | error fault => exact within
      | ok value => exact inductionHypothesis within valued accepted.2 _

/-- A submission that compiles does so among more names, and declares the same. -/
theorem Within.submission {session larger : Session} (within : session.Within larger)
    {source : String} {compiled : Compiled} (compiles : session.compile source = .ok compiled) :
    larger.compile source = .ok compiled ∧
      (session.execute compiled).1.Within (larger.execute compiled).1 := by
  obtain ⟨program, parsed, accepted, rfl⟩ := compile_eq_ok_iff.mp compiles
  have same := compileStatements_within within.scope accepted
  constructor
  · apply compile_eq_ok_iff.mpr
    refine ⟨program, parsed, ?_, ?_⟩
    · rw [same, accepted]
    · rw [same]
  · have counted : Within { session with submissions := session.submissions + 1 }
        { larger with submissions := larger.submissions + 1 } :=
      ⟨within.bindings, within.args, within.globals⟩
    exact counted.runFrom session.scope_valuedIn accepted .unit

/-- Source texts that compile, each one in the session that those before it lead to. -/
inductive Submits : Session → List String → List Compiled → Prop
  | nil (session : Session) : Submits session [] []
  | cons {session : Session} {source : String} {compiled : Compiled} {sources : List String}
      {units : List Compiled} : session.compile source = .ok compiled →
      Submits (session.execute compiled).1 sources units →
      Submits session (source :: sources) (compiled :: units)

/-- The session after compiled submissions are run one after another, whether or not they fault. -/
def executeAll (session : Session) (units : List Compiled) : Session :=
  units.foldl (fun session compiled => (session.execute compiled).1) session

theorem Within.submits {session larger : Session} (within : session.Within larger)
    {sources : List String} {units : List Compiled} (submits : session.Submits sources units) :
    larger.Submits sources units ∧ (session.executeAll units).Within (larger.executeAll units) := by
  induction submits generalizing larger with
  | nil session => exact ⟨.nil larger, within⟩
  | cons compiles _ inductionHypothesis =>
    obtain ⟨compilesToo, executed⟩ := within.submission compiles
    obtain ⟨rest, ran⟩ := inductionHypothesis executed
    exact ⟨.cons compilesToo rest, ran⟩

end Session

end Colloquy.Calc

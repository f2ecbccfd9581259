import Colloquy.Engine.Backend
import Colloquy.Proofs.Calc.SessionSoundness
import Mathlib.Data.List.Basic

set_option autoImplicit false

/-!
The symbols of a submission against the variables that it leaves behind. Both are written down for
each declaration, the symbols where it is checked and the variables where it is run. A host may hand
out `unit` under a name, and a variable that is declared from such a name has no kind: it is left
out of the symbols, and of the scope of the statements behind it, but not of the session. This is the
only way in which symbols and variables come to differ.
-/

namespace Colloquy.Calc

def Symbol.toVariable (symbol : Symbol) : Variable :=
  ⟨symbol.name, symbol.kind.name⟩

theorem compileStatements_symbols (scope : Scope) (program : List Statement) :
    ((compileStatements scope program).compiled.symbols.map
        fun symbol => (symbol.name, symbol.kind)) =
      (declarations (compileStatements scope program).compiled.statements).filter
        fun declaration => declaration.2 ≠ .void := by
  induction program generalizing scope with
  | nil => rfl
  | cons statement rest inductionHypothesis =>
    cases statement with
    | declare name kind? init pos =>
      simp only [compileStatements, declarations]
      by_cases isVoid : (checkDeclaration name kind? (check scope init) pos).kind = .void
      · simp [isVoid, inductionHypothesis]
      · simp [isVoid, inductionHypothesis]
    | expr e terminated pos => exact inductionHypothesis scope

theorem declaredKind?_eq_void_iff {written : Option Kind} {kind declared : Kind}
    (declares : declaredKind? written kind = some declared) : declared = .void ↔ kind = .void := by
  constructor
  · intro isVoid
    apply Decidable.byContradiction
    intro known
    exact declaredKind?_ne_void declares known isVoid
  · rintro rfl
    exact (Option.some.inj declares).symm

theorem KindsKnown.left {first second : List (Statement × Kind)}
    (known : KindsKnown (first ++ second)) : KindsKnown first :=
  fun _ _ _ _ _ membership => known (List.mem_append_left _ membership)

/-- A declaration has the kind that its initial value, in the scope behind the statements before it,
gives to it. -/
theorem compileStatements_declared {scope : Scope} {program : List Statement}
    {before after : List (Statement × Kind)} {name : String} {kind? : Option Kind} {init : Expr}
    {pos : Position} {kind : Kind} (accepted : (compileStatements scope program).complaints = [])
    (cut : (compileStatements scope program).compiled.statements =
      before ++ (.declare name kind? init pos, kind) :: after) :
    declaredKind? kind? (check (scope.after before) init).kind = some kind := by
  obtain ⟨-, -, -, restIs, restAccepted⟩ := compileStatements_split accepted cut
  simp only [List.map_cons, compileStatements, List.append_eq_nil_iff] at restAccepted
  simp only [List.map_cons, compileStatements, List.cons.injEq, Prod.mk.injEq, true_and] at restIs
  rw [← restIs.1]
  exact (checkDeclaration_accepted restAccepted.1).2

namespace Session

/-- A submission leaves behind the variables that its symbols tell, and each one can be seen with
its kind, up to the next declaration of its name, by the statements behind it and by the next
submission. -/
structure SymbolsAgree (session : Session) (compiled : Compiled) (reached : Session) : Prop where
  bindings : reached.declared = session.declared ++ compiled.symbols.map Symbol.toVariable
  later : ∀ ⦃before : List (Statement × Kind)⦄ ⦃statement : Statement × Kind⦄
    ⦃after : List (Statement × Kind)⦄, compiled.statements = before ++ statement :: after →
    ∀ ⦃name : String⦄ ⦃kind : Kind⦄, (declarations before).reverse.lookup name = some kind →
      (session.scope.after before).lookup name = some kind
  next : ∀ ⦃name : String⦄ ⦃kind : Kind⦄,
    (declarations compiled.statements).reverse.lookup name = some kind →
      reached.scope.lookup name = some kind

/-- The initial value of a declaration uses a name that stands for nothing where it is checked. -/
def DeclaresVoid (session : Session) (compiled : Compiled) : Prop :=
  ∃ before name kind? init pos kind after,
    compiled.statements = before ++ (.declare name kind? init pos, kind) :: after ∧
      init.UsesVoid (session.scope.after before)

section

variable {session reached : Session} {source : String} {compiled : Compiled} {value : Value}

theorem declared_of_execute (ran : session.execute compiled = (reached, .ok value)) :
    reached.declared = session.declared ++
      (declarations compiled.statements).map
        fun declaration => ⟨declaration.1, declaration.2.name⟩ := by
  obtain ⟨new, rfl, isNew⟩ := runFrom_declares ran
  simp [declared, ← isNew]

variable (compiles : session.compile source = .ok compiled)
include compiles

theorem symbols_of_compile :
    compiled.symbols.map Symbol.toVariable =
      ((declarations compiled.statements).filter fun declaration => declaration.2 ≠ .void).map
        fun declaration => ⟨declaration.1, declaration.2.name⟩ := by
  obtain ⟨program, -, -, rfl⟩ := compile_eq_ok_iff.mp compiles
  rw [← compileStatements_symbols, List.map_map]
  rfl

theorem kindsKnown_iff_not_declaresVoid :
    KindsKnown compiled.statements ↔ ¬session.DeclaresVoid compiled := by
  obtain ⟨program, parsed, accepted, rfl⟩ := compile_eq_ok_iff.mp compiles
  have void_iff {before after : List (Statement × Kind)} {name : String} {kind? : Option Kind}
      {init : Expr} {pos : Position} {kind : Kind}
      (cut : (compileStatements session.scope program).compiled.statements =
        before ++ (.declare name kind? init pos, kind) :: after) :
      kind = .void ↔ init.UsesVoid (session.scope.after before) := by
    obtain ⟨programIs, -, -, initAccepted⟩ := compileStatements_cut accepted cut
    have proper : (Statement.declare name kind? init pos).body.Proper :=
      proper_of_parse parsed (by rw [programIs]; simp)
    rw [declaredKind?_eq_void_iff (compileStatements_declared accepted cut)]
    exact check_kind_eq_void_iff proper initAccepted
  constructor
  · rintro known ⟨before, name, kind?, init, pos, kind, after, cut, usesVoid⟩
    have membership : (.declare name kind? init pos, kind) ∈
        (compileStatements session.scope program).compiled.statements := by
      rw [cut]
      exact List.mem_append_right _ List.mem_cons_self
    exact known membership ((void_iff cut).mpr usesVoid)
  · rintro noVoid name kind? init pos kind membership isVoid
    obtain ⟨before, after, cut⟩ := List.append_of_mem membership
    exact noVoid ⟨before, name, kind?, init, pos, kind, after, cut, (void_iff cut).mp isVoid⟩

variable (ran : session.execute compiled = (reached, .ok value))
include ran

/-- Symbols and variables can be told apart only by a variable without a kind. -/
theorem symbolsAgree_iff_known :
    SymbolsAgree session compiled reached ↔ KindsKnown compiled.statements := by
  constructor
  · intro agree
    have same := agree.bindings
    rw [declared_of_execute ran, symbols_of_compile compiles] at same
    -- The symbols are the declarations that have a kind: lists as long as each other leave none out.
    have lengths := congrArg List.length (List.append_cancel_left same)
    rw [List.length_map, List.length_map] at lengths
    rw [kindsKnown_iff]
    intro declaration membership
    have kept := List.length_filter_eq_length_iff.mp lengths.symm declaration membership
    exact of_decide_eq_true kept
  · intro known
    have noneLeftOut : ((declarations compiled.statements).filter
        fun declaration => declaration.2 ≠ .void) = declarations compiled.statements :=
      List.filter_eq_self.mpr fun declaration membership =>
        decide_eq_true (kindsKnown_iff.mp known declaration membership)
    refine ⟨?_, ?_, ?_⟩
    · rw [declared_of_execute ran, symbols_of_compile compiles, noneLeftOut]
    · intro before statement after cut name kind isLatest
      rw [cut] at known
      rw [Scope.after_of_known _ known.left, List.lookup_append, isLatest]
      rfl
    · intro name kind isLatest
      rw [scope_of_execute known ran, Scope.after_of_known _ known, List.lookup_append, isLatest]
      rfl

end

/-- The symbols of a submission that runs to its end are the variables that it leaves behind, and
these can be seen, if and only if no declaration uses a name that stands for nothing. There is no
such name where the host does not hand out `unit`. -/
theorem symbolsAgree_iff_not_declaresVoid {host : Host} {session reached : Session}
    {source : String} {compiled : Compiled} {value : Value} (reachable : Reachable host session)
    (compiles : session.compile source = .ok compiled)
    (ran : session.execute compiled = (reached, .ok value)) :
    (SymbolsAgree session compiled reached ↔ ¬session.DeclaresVoid compiled) ∧
      ((∀ global ∈ host.globals, global.2 ≠ .unit) → SymbolsAgree session compiled reached) := by
  have agree_iff := symbolsAgree_iff_known compiles ran
  refine ⟨agree_iff.trans (kindsKnown_iff_not_declaresVoid compiles), fun supplied => ?_⟩
  obtain ⟨program, parsed, accepted, rfl⟩ := compile_eq_ok_iff.mp compiles
  have names := (reachable.sound supplied).names
  have proper : ∀ statement ∈ program, statement.body.Proper := fun _ => proper_of_parse parsed
  exact agree_iff.mpr (compileStatements_known names proper accepted).1

/-- What can be read off a submission that is compiled and runs to its end. -/
theorem exists_of_ends {α : Type} {session : Session} {source : String}
    (read : Compiled → Session → α) {result : α}
    (ends : ((session.compile source).toOption.map fun compiled =>
      ((session.execute compiled).2.isOk, read compiled (session.execute compiled).1)) =
        some (true, result)) :
    ∃ compiled reached value, session.compile source = .ok compiled ∧
      session.execute compiled = (reached, .ok value) ∧ read compiled reached = result := by
  cases compiles : session.compile source with
  | error complaints => simp [compiles, Except.toOption] at ends
  | ok compiled =>
    rcases ran : session.execute compiled with ⟨reached, fault | value⟩
    · simp [compiles, ran, Except.toOption, Except.isOk, Except.toBool] at ends
    · simp only [compiles, ran, Except.toOption, Option.map_some, Option.some.injEq,
        Prod.mk.injEq] at ends
      exact ⟨compiled, reached, value, rfl, ran, ends.2⟩

/-- A session whose host hands out `unit`. -/
def handedUnit : Session :=
  ofHost ⟨[], [⟨"pack", [("nothing", .unit), ("rate", .int 3)]⟩]⟩

theorem shadowed_variables_agree :
    ∃ compiled reached value,
      handedUnit.compile "var x = rate; nothing; double y = x; var x = \"a\"" = .ok compiled ∧
      handedUnit.execute compiled = (reached, .ok value) ∧
      reached.declared = [⟨"x", "int"⟩, ⟨"y", "double"⟩, ⟨"x", "string"⟩] ∧
      SymbolsAgree handedUnit compiled reached := by
  obtain ⟨compiled, reached, value, compiles, ran, declaresAll⟩ :
      ∃ compiled reached value,
        handedUnit.compile "var x = rate; nothing; double y = x; var x = \"a\"" = .ok compiled ∧
        handedUnit.execute compiled = (reached, .ok value) ∧
        (declarations compiled.statements, reached.declared) =
          ([("x", .int), ("y", .double), ("x", .string)],
            [⟨"x", "int"⟩, ⟨"y", "double"⟩, ⟨"x", "string"⟩]) :=
    exists_of_ends (fun compiled reached => (declarations compiled.statements, reached.declared))
      (by decide +kernel)
  obtain ⟨areDeclared, areLeft⟩ := Prod.mk.inj declaresAll
  have known : KindsKnown compiled.statements := by
    rw [kindsKnown_iff, areDeclared]
    decide
  have noVoid := (kindsKnown_iff_not_declaresVoid compiles).mp known
  exact ⟨compiled, reached, value, compiles, ran, areLeft,
    (symbolsAgree_iff_not_declaresVoid .start compiles ran).1.mpr noVoid⟩

/-- A variable that is declared from `unit` is left behind without a symbol, and the statements
behind it do not see it. -/
theorem unit_variable_without_symbol :
    ∃ compiled reached value, handedUnit.compile "var x = nothing" = .ok compiled ∧
      handedUnit.execute compiled = (reached, .ok value) ∧
      reached.declared = [⟨"x", "void"⟩] ∧ compiled.symbols.map Symbol.toVariable = [] ∧
      ¬SymbolsAgree handedUnit compiled reached ∧
      ((handedUnit.compile "var x = nothing; x").map fun _ => ()) =
        .error [.error ⟨1, 18⟩ "the name `x` does not exist in the current context"] := by
  obtain ⟨compiled, reached, value, compiles, ran, declaresNone⟩ :
      ∃ compiled reached value, handedUnit.compile "var x = nothing" = .ok compiled ∧
        handedUnit.execute compiled = (reached, .ok value) ∧
        (compiled.symbols.map Symbol.toVariable, reached.declared) = ([], [⟨"x", "void"⟩]) :=
    exists_of_ends
      (fun compiled reached => (compiled.symbols.map Symbol.toVariable, reached.declared))
      (by decide +kernel)
  obtain ⟨noSymbol, isLeft⟩ := Prod.mk.inj declaresNone
  refine ⟨compiled, reached, value, compiles, ran, isLeft, noSymbol, ?_, by decide +kernel⟩
  intro agree
  have same := agree.bindings
  rw [isLeft, noSymbol] at same
  cases same

end Session

end Colloquy.Calc

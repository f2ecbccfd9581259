import Colloquy.Proofs.Calc.Compilation

set_option autoImplicit false

/-!
What a run leaves behind. A compiled submission may be run in any session, also in one that it was not
compiled in. The statements before the first one that faults add their variables to the session, one
after the other, and each one sees those added before it in front of everything else. Nothing that was
there is changed, but for the number of submissions.
-/

namespace Colloquy.Calc.Session

/-- The value of the latest of some bindings that has a name. -/
def latest? (bindings : List Binding) (name : String) : Option Value :=
  (bindings.reverse.find? fun binding => binding.name = name).map Binding.value

/-- What names stand for behind new bindings: these shadow the older ones, and all of them the values
of the host. -/
def shadowed (session : Session) (added : List Binding) : Environment :=
  ⟨fun name => ((latest? added name).or (latest? session.bindings name)).or
    (session.globals.lookup name), session.host.args⟩

/-- The bindings that statements add if none of them faults, each one with the kind that it was
compiled with. -/
inductive Adds (session : Session) : List (Statement × Kind) → List Binding → Prop
  | nil : Adds session [] []
  | declare {before : List (Statement × Kind)} {added : List Binding} {init : Expr} {value : Value}
      (name : String) (kind? : Option Kind) (pos : Position) (kind : Kind) :
      Adds session before added → eval (session.shadowed added) init = .ok value →
      Adds session (before ++ [(.declare name kind? init pos, kind)])
        (added ++ [⟨name, kind, coerce kind value⟩])
  | expr {before : List (Statement × Kind)} {added : List Binding} {e : Expr} {value : Value}
      (terminated : Bool) (pos : Position) (kind : Kind) :
      Adds session before added → eval (session.shadowed added) e = .ok value →
      Adds session (before ++ [(.expr e terminated pos, kind)]) added

/-- The outcome of a run, given the statements that ran, what they added, and the statements left. -/
inductive Concludes (session : Session) (ran : List (Statement × Kind)) (added : List Binding) :
    List (Statement × Kind) → Except Fault Value → Prop
  | fault {statement : Statement} {fault : Fault} (kind : Kind) (later : List (Statement × Kind)) :
      eval (session.shadowed added) statement.body = .error fault →
      Concludes session ran added ((statement, kind) :: later) (.error fault)
  | value {before : List (Statement × Kind)} {e : Expr} {pos : Position} {kind : Kind}
      {value : Value} : ran = before ++ [(.expr e false pos, kind)] →
      eval (session.shadowed added) e = .ok value → Concludes session ran added [] (.ok value)
  | unit : (∀ before e pos kind, ran ≠ before ++ [(.expr e false pos, kind)]) →
      Concludes session ran added [] (.ok .unit)

theorem latest?_append (old new : List Binding) (name : String) :
    latest? (old ++ new) name = (latest? new name).or (latest? old name) := by
  simp only [latest?, List.reverse_append, List.find?_append, Option.map_or]

theorem value?_eq_or (session : Session) (name : String) :
    session.value? name = (latest? session.bindings name).or (session.globals.lookup name) := by
  rw [value?, latest?]
  cases session.bindings.reverse.find? fun binding => binding.name = name <;> rfl

/-- Statements of a run are evaluated behind the bindings added so far. -/
theorem environment_append (session : Session) (added : List Binding) (count : Nat) :
    environment { session with bindings := session.bindings ++ added, submissions := count } =
      session.shadowed added := by
  rw [environment, shadowed, Environment.mk.injEq]
  refine ⟨?_, rfl⟩
  funext name
  rw [value?_eq_or, latest?_append]

theorem declarations_append (first second : List (Statement × Kind)) :
    declarations (first ++ second) = declarations first ++ declarations second := by
  induction first with
  | nil => rfl
  | cons compiled rest inductionHypothesis =>
    obtain ⟨statement, kind⟩ := compiled
    cases statement with
    | declare name kind? init pos =>
      rw [List.cons_append, declarations, declarations, inductionHypothesis, List.cons_append]
    | expr e terminated pos => exact inductionHypothesis

theorem Adds.declared {session : Session} {ran : List (Statement × Kind)} {added : List Binding}
    (adds : session.Adds ran added) :
    (added.map fun binding => (binding.name, binding.kind)) = declarations ran := by
  induction adds with
  | nil => rfl
  | declare name kind? pos kind _ _ inductionHypothesis =>
    rw [declarations_append, List.map_append, inductionHypothesis]
    rfl
  | expr terminated pos kind _ _ inductionHypothesis =>
    rw [declarations_append, inductionHypothesis]
    exact (List.append_nil _).symm

section

variable {session : Session} {ran : List (Statement × Kind)} {added : List Binding}
  (count : Nat) (result : Value) {statement : Statement} (kind : Kind)

theorem runFrom_fault {fault : Fault}
    (faults : eval (session.shadowed added) statement.body = .error fault)
    (rest : List (Statement × Kind)) :
    runFrom { session with bindings := session.bindings ++ added, submissions := count } result
        ((statement, kind) :: rest) =
      ({ session with bindings := session.bindings ++ added, submissions := count },
        .error fault) := by
  rw [← environment_append session added count] at faults
  cases statement with
  | declare name kind? init pos =>
    have initFaults : eval _ init = _ := faults
    rw [runFrom, initFaults]
  | expr e terminated pos =>
    have exprFaults : eval _ e = _ := faults
    rw [runFrom, exprFaults]

/-- A statement that does not fault leads on to the next one. -/
theorem runFrom_step (adds : session.Adds ran added) {value : Value}
    (evaluates : eval (session.shadowed added) statement.body = .ok value) :
    ∃ all next, session.Adds (ran ++ [(statement, kind)]) all ∧
      session.Concludes (ran ++ [(statement, kind)]) all [] (.ok next) ∧
      ∀ rest, runFrom { session with bindings := session.bindings ++ added, submissions := count }
          result ((statement, kind) :: rest) =
        runFrom { session with bindings := session.bindings ++ all, submissions := count } next
          rest := by
  cases statement with
  | declare name kind? init pos =>
    have initValue : eval (session.shadowed added) init = .ok value := evaluates
    refine ⟨added ++ [⟨name, kind, coerce kind value⟩], .unit,
      .declare name kind? pos kind adds initValue, .unit (by simp), fun rest => ?_⟩
    rw [← environment_append session added count] at initValue
    rw [runFrom, initValue, ← List.append_assoc]
    rfl
  | expr e terminated pos =>
    have exprValue : eval (session.shadowed added) e = .ok value := evaluates
    refine ⟨added, if terminated then .unit else value, .expr terminated pos kind adds exprValue, ?_,
      fun rest => ?_⟩
    · cases terminated with
      | true => exact .unit (by simp)
      | false => exact .value rfl exprValue
    · rw [← environment_append session added count] at exprValue
      rw [runFrom, exprValue]

end

/-- The statements left of a run that got to a certain point: some more of them run, and then the rest
is empty or starts with one that faults. -/
theorem runFrom_adds {session : Session} {ran : List (Statement × Kind)} {added : List Binding}
    {result : Value} (adds : session.Adds ran added)
    (concludes : session.Concludes ran added [] (.ok result)) (count : Nat)
    (statements : List (Statement × Kind)) :
    ∃ more rest all outcome, statements = more ++ rest ∧ session.Adds (ran ++ more) all ∧
      session.Concludes (ran ++ more) all rest outcome ∧
      runFrom { session with bindings := session.bindings ++ added, submissions := count } result
          statements =
        ({ session with bindings := session.bindings ++ all, submissions := count }, outcome) := by
  induction statements generalizing ran added result with
  | nil =>
    refine ⟨[], [], added, .ok result, rfl, ?_, ?_, rfl⟩
    · rwa [List.append_nil]
    · rwa [List.append_nil]
  | cons compiled statements inductionHypothesis =>
    obtain ⟨statement, kind⟩ := compiled
    cases evaluates : eval (session.shadowed added) statement.body with
    | error fault =>
      refine ⟨[], (statement, kind) :: statements, added, .error fault, rfl, ?_, ?_,
        runFrom_fault count result kind evaluates statements⟩
      · rwa [List.append_nil]
      · exact .fault kind statements evaluates
    | ok value =>
      obtain ⟨next, value, nextAdds, nextConcludes, leadsOn⟩ :=
        runFrom_step count result kind adds evaluates
      obtain ⟨more, rest, all, outcome, split, allAdds, allConcludes, isRun⟩ :=
        inductionHypothesis nextAdds nextConcludes
      rw [List.append_assoc, List.singleton_append] at allAdds allConcludes
      refine ⟨(statement, kind) :: more, rest, all, outcome, ?_, allAdds, allConcludes, ?_⟩
      · rw [split, List.cons_append]
      · rw [leadsOn, isRun]

theorem execute_adds (session : Session) (compiled : Compiled) :
    ∃ ran rest added outcome, compiled.statements = ran ++ rest ∧ session.Adds ran added ∧
      session.Concludes ran added rest outcome ∧
      session.execute compiled =
        ({ session with
          bindings := session.bindings ++ added
          submissions := session.submissions + 1 }, outcome) := by
  have start : session.Concludes [] [] [] (.ok .unit) := .unit (by simp)
  obtain ⟨ran, rest, added, outcome, split, adds, concludes, isRun⟩ :=
    runFrom_adds .nil start (session.submissions + 1) compiled.statements
  rw [List.append_nil] at isRun
  exact ⟨ran, rest, added, outcome, split, adds, concludes, isRun⟩

/-- What was declared before a run stays in front of what the run declares. -/
theorem bindings_prefix_execute (session : Session) (compiled : Compiled) :
    session.bindings <+: (session.execute compiled).1.bindings := by
  obtain ⟨ran, rest, added, outcome, -, -, -, isRun⟩ := session.execute_adds compiled
  rw [isRun]
  exact List.prefix_append session.bindings added

/-- A run adds the variables of the statements before the first one that faults, and changes nothing
else but the number of submissions. Its outcome is the fault, or the value of the last statement if that
is an expression without a semicolon. -/
theorem execute_adds_until_fault (session : Session) (compiled : Compiled) :
    ∃ ran rest added, compiled.statements = ran ++ rest ∧ session.Adds ran added ∧
      (added.map fun binding => (binding.name, binding.kind)) = declarations ran ∧
      (session.execute compiled).1 =
        { session with
          bindings := session.bindings ++ added
          submissions := session.submissions + 1 } ∧
      session.Concludes ran added rest (session.execute compiled).2 := by
  obtain ⟨ran, rest, added, outcome, split, adds, concludes, isRun⟩ := session.execute_adds compiled
  refine ⟨ran, rest, added, split, adds, adds.declared, ?_, ?_⟩
  · rw [isRun]
  · rw [isRun]
    exact concludes

end Colloquy.Calc.Session

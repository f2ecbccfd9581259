import Colloquy.Proofs.Calc.Soundness

set_option autoImplicit false

/-!
Statements in order. Compiling and running are both done statement by statement, so a list of
statements can be cut anywhere: the second part is compiled in the scope that the first part leaves
behind, and run in the session that the first part leaves behind. Where no kind is `void`, the scope
that is handed on while compiling is the scope of the session after running.
-/

namespace Colloquy.Calc

/-- The scope behind compiled statements. -/
def Scope.after (scope : Scope) : List (Statement × Kind) → Scope
  | [] => scope
  | (.declare name _ _ _, kind) :: rest =>
    Scope.after (if kind != .void then (name, kind) :: scope else scope) rest
  | (.expr .., _) :: rest => Scope.after scope rest

/-- Every declaration has a kind. -/
def KindsKnown (statements : List (Statement × Kind)) : Prop :=
  ∀ ⦃name : String⦄ ⦃kind? : Option Kind⦄ ⦃init : Expr⦄ ⦃pos : Position⦄ ⦃kind : Kind⦄,
    (.declare name kind? init pos, kind) ∈ statements → kind ≠ .void

/-- The variables that compiled statements declare, in their order. -/
def declarations : List (Statement × Kind) → List (String × Kind)
  | [] => []
  | (.declare name _ _ _, kind) :: rest => (name, kind) :: declarations rest
  | (.expr .., _) :: rest => declarations rest

theorem kindsKnown_iff {statements : List (Statement × Kind)} :
    KindsKnown statements ↔ ∀ declaration ∈ declarations statements, declaration.2 ≠ .void := by
  induction statements with
  | nil => simp [KindsKnown, declarations]
  | cons compiled rest inductionHypothesis =>
    obtain ⟨statement, kind⟩ := compiled
    cases statement with
    | declare name kind? init pos =>
      rw [declarations, List.forall_mem_cons, ← inductionHypothesis]
      constructor
      · exact fun known => ⟨known List.mem_cons_self, fun _ _ _ _ _ later =>
          known (List.mem_cons_of_mem _ later)⟩
      · rintro ⟨known, restKnown⟩ _ _ _ _ _ membership
        rcases List.mem_cons.mp membership with here | later
        · cases here
          exact known
        · exact restKnown later
    | expr e terminated pos =>
      rw [declarations, ← inductionHypothesis]
      constructor
      · exact fun known _ _ _ _ _ later => known (List.mem_cons_of_mem _ later)
      · intro known _ _ _ _ _ membership
        rcases List.mem_cons.mp membership with here | later
        · cases here
        · exact known later

/-- Behind statements there is what they declared in front of what there was, but for variables that
have no kind. -/
theorem Scope.after_eq (scope : Scope) (statements : List (Statement × Kind)) :
    scope.after statements =
      ((declarations statements).filter fun declaration => declaration.2 ≠ .void).reverse ++ scope := by
  induction statements generalizing scope with
  | nil => rfl
  | cons compiled rest inductionHypothesis =>
    obtain ⟨statement, kind⟩ := compiled
    cases statement with
    | declare name kind? init pos =>
      rw [Scope.after, inductionHypothesis, declarations]
      by_cases isVoid : kind = .void
      · simp [isVoid]
      · simp [isVoid]
    | expr e terminated pos => exact inductionHypothesis scope

theorem Scope.after_of_known (scope : Scope) {statements : List (Statement × Kind)}
    (known : KindsKnown statements) :
    scope.after statements = (declarations statements).reverse ++ scope := by
  rw [Scope.after_eq, List.filter_eq_self.mpr]
  intro declaration membership
  exact decide_eq_true (kindsKnown_iff.mp known declaration membership)

theorem compileStatements_program (scope : Scope) (program : List Statement) :
    (compileStatements scope program).compiled.statements.map Prod.fst = program := by
  induction program generalizing scope with
  | nil => rfl
  | cons statement rest inductionHypothesis =>
    cases statement with
    | declare name kind? init pos => simp [compileStatements, inductionHypothesis]
    | expr e terminated pos => simp [compileStatements, inductionHypothesis]

/-- What stands behind other statements is checked in the scope that they leave. -/
theorem compileStatements_append (scope : Scope) (first second : List Statement) :
    (compileStatements scope (first ++ second)).complaints =
        (compileStatements scope first).complaints ++
          (compileStatements (scope.after (compileStatements scope first).compiled.statements)
            second).complaints ∧
      (compileStatements scope (first ++ second)).compiled.statements =
        (compileStatements scope first).compiled.statements ++
          (compileStatements (scope.after (compileStatements scope first).compiled.statements)
            second).compiled.statements := by
  induction first generalizing scope with
  | nil => exact ⟨rfl, rfl⟩
  | cons statement rest inductionHypothesis =>
    cases statement with
    | declare name kind? init pos =>
      simp only [List.cons_append, compileStatements, Scope.after, List.append_assoc]
      rw [(inductionHypothesis _).1, (inductionHypothesis _).2]
      exact ⟨rfl, rfl⟩
    | expr e terminated pos =>
      simp only [List.cons_append, compileStatements, Scope.after, List.append_assoc]
      rw [(inductionHypothesis _).1, (inductionHypothesis _).2]
      exact ⟨rfl, rfl⟩

theorem checkDeclaration_accepted {name : String} {kind? : Option Kind} {init : Checked}
    {pos : Position} (accepted : (checkDeclaration name kind? init pos).complaints = []) :
    init.complaints = [] ∧
      declaredKind? kind? init.kind = some (checkDeclaration name kind? init pos).kind := by
  unfold checkDeclaration at accepted ⊢
  split at accepted
  case h_1 kind declared =>
    simp only [declared]
    exact ⟨accepted, trivial⟩
  case h_2 => exact (not_refused accepted).elim

/-- The statements behind a cut are compiled in the scope behind those before it. -/
theorem compileStatements_split {scope : Scope} {program : List Statement}
    {before after : List (Statement × Kind)}
    (accepted : (compileStatements scope program).complaints = [])
    (cut : (compileStatements scope program).compiled.statements = before ++ after) :
    program = before.map Prod.fst ++ after.map Prod.fst ∧
      (compileStatements scope (before.map Prod.fst)).compiled.statements = before ∧
      (compileStatements scope (before.map Prod.fst)).complaints = [] ∧
      (compileStatements (scope.after before) (after.map Prod.fst)).compiled.statements = after ∧
      (compileStatements (scope.after before) (after.map Prod.fst)).complaints = [] := by
  have programIs : program = before.map Prod.fst ++ after.map Prod.fst := by
    rw [← compileStatements_program scope program, cut, List.map_append]
  obtain ⟨complaints, statements⟩ :=
    compileStatements_append scope (before.map Prod.fst) (after.map Prod.fst)
  rw [← programIs, accepted] at complaints
  rw [← programIs, cut] at statements
  obtain ⟨beforeAccepted, restAccepted⟩ := List.append_eq_nil_iff.mp complaints.symm
  have sameLength : before.length =
      (compileStatements scope (before.map Prod.fst)).compiled.statements.length := by
    rw [← List.length_map Prod.fst, ← List.length_map Prod.fst, compileStatements_program]
  obtain ⟨beforeIs, afterIs⟩ := List.append_inj statements sameLength
  rw [← beforeIs] at restAccepted afterIs
  exact ⟨programIs, beforeIs.symm, beforeAccepted, afterIs.symm, restAccepted⟩

/-- A statement of a compiled program is checked in the scope behind those before it. -/
theorem compileStatements_cut {scope : Scope} {program : List Statement}
    {before after : List (Statement × Kind)} {statement : Statement} {kind : Kind}
    (accepted : (compileStatements scope program).complaints = [])
    (cut : (compileStatements scope program).compiled.statements =
      before ++ (statement, kind) :: after) :
    program = before.map Prod.fst ++ statement :: after.map Prod.fst ∧
      (compileStatements scope (before.map Prod.fst)).compiled.statements = before ∧
      (compileStatements scope (before.map Prod.fst)).complaints = [] ∧
      (check (scope.after before) statement.body).complaints = [] := by
  obtain ⟨programIs, beforeIs, beforeAccepted, -, restAccepted⟩ :=
    compileStatements_split accepted cut
  refine ⟨programIs, beforeIs, beforeAccepted, ?_⟩
  rw [List.map_cons] at restAccepted
  cases statement with
  | declare name kind? init pos =>
    simp only [compileStatements, List.append_eq_nil_iff] at restAccepted
    exact (checkDeclaration_accepted restAccepted.1).1
  | expr e terminated pos =>
    simp only [compileStatements, List.append_eq_nil_iff] at restAccepted
    exact restAccepted.1

theorem declaredKind?_ne_void {written : Option Kind} {kind declared : Kind}
    (declares : declaredKind? written kind = some declared) (known : kind ≠ .void) :
    declared ≠ .void := by
  unfold declaredKind? at declares
  split at declares
  case h_1 => exact absurd rfl known
  case h_2 =>
    cases declares
    exact known
  case h_3 =>
    split at declares
    · cases declares
      exact known
    · split at declares <;> cases declares
      decide

/-- A variable holds a value of its own kind. -/
theorem coerce_kind {written : Option Kind} {value : Value} {declared : Kind}
    (declares : declaredKind? written value.kind = some declared) :
    (Session.coerce declared value).kind = declared := by
  unfold declaredKind? at declares
  split at declares
  case h_1 isVoid =>
    cases declares
    exact isVoid
  case h_2 =>
    cases declares
    cases value <;> rfl
  case h_3 =>
    split at declares
    · cases declares
      cases value <;> rfl
    · split at declares
      case isTrue widened =>
        cases declares
        have isInt : value.kind = .int := by
          rw [Bool.and_eq_true, decide_eq_true_iff, decide_eq_true_iff] at widened
          exact widened.2
        cases value <;> cases isInt
        rfl
      case isFalse => cases declares

theorem Scope.Proper.declare {scope : Scope} (names : scope.Proper) (name : String) {kind : Kind}
    (known : kind ≠ .void) : Scope.Proper ((name, kind) :: scope) := by
  intro searched
  rw [List.lookup_cons]
  split
  · intro isVoid
    cases isVoid
    exact known rfl
  · exact names searched

/-- Among names that all have a kind, accepted declarations have one too. -/
theorem compileStatements_known {scope : Scope} (names : scope.Proper) {program : List Statement}
    (proper : ∀ statement ∈ program, statement.body.Proper)
    (accepted : (compileStatements scope program).complaints = []) :
    KindsKnown (compileStatements scope program).compiled.statements ∧
      (scope.after (compileStatements scope program).compiled.statements).Proper := by
  induction program generalizing scope with
  | nil => exact ⟨by simp [KindsKnown, compileStatements], names⟩
  | cons statement rest inductionHypothesis =>
    have restProper : ∀ later ∈ rest, later.body.Proper :=
      fun later membership => proper later (by simp [membership])
    cases statement with
    | declare name kind? init pos =>
      simp only [compileStatements, List.append_eq_nil_iff, Scope.after] at accepted ⊢
      obtain ⟨declarationAccepted, restAccepted⟩ := accepted
      obtain ⟨initAccepted, declares⟩ := checkDeclaration_accepted declarationAccepted
      have known := declaredKind?_ne_void declares
        (check_kind_ne_void names (proper _ List.mem_cons_self) initAccepted)
      simp only [bne_iff_ne, ne_eq, known, not_false_eq_true, if_true] at restAccepted ⊢
      obtain ⟨restKnown, restNames⟩ :=
        inductionHypothesis (names.declare name known) restProper restAccepted
      refine ⟨?_, restNames⟩
      intro _ _ _ _ kind membership
      rcases List.mem_cons.mp membership with here | later
      · cases here
        exact known
      · exact restKnown later
    | expr e terminated pos =>
      simp only [compileStatements, List.append_eq_nil_iff, Scope.after] at accepted ⊢
      obtain ⟨restKnown, restNames⟩ := inductionHypothesis names restProper accepted.2
      refine ⟨?_, restNames⟩
      intro _ _ _ _ kind membership
      rcases List.mem_cons.mp membership with here | later
      · cases here
      · exact restKnown later

namespace Session

theorem compile_eq_ok_iff {session : Session} {source : String} {compiled : Compiled} :
    session.compile source = .ok compiled ↔
      ∃ program, parse source = .ok program ∧
        (compileStatements session.scope program).complaints = [] ∧
        compiled = (compileStatements session.scope program).compiled := by
  unfold compile
  cases parsed : parse source with
  | error complaints =>
    constructor
    · intro success
      cases success
    · rintro ⟨_, ⟨⟩, _⟩
  | ok program =>
    change (if _ then _ else _) = _ ↔ _
    constructor
    · intro success
      split at success
      case isTrue accepted =>
        cases success
        exact ⟨program, rfl, List.isEmpty_iff.mp accepted, rfl⟩
      case isFalse => cases success
    · rintro ⟨_, ⟨⟩, accepted, rfl⟩
      rw [if_pos (List.isEmpty_iff.mpr accepted)]

theorem scope_bind (session : Session) (binding : Binding) :
    (session.bind binding).scope = (binding.name, binding.kind) :: session.scope := by
  simp [scope, bind]

/-- What stands behind other statements is run in the session that they leave, if none faults. -/
theorem runFrom_append (session : Session) (result : Value) (first second : List (Statement × Kind)) :
    runFrom session result (first ++ second) =
      match runFrom session result first with
      | (reached, .ok value) => runFrom reached value second
      | (reached, .error fault) => (reached, .error fault) := by
  induction first generalizing session result with
  | nil => rfl
  | cons compiled rest inductionHypothesis =>
    obtain ⟨statement, kind⟩ := compiled
    cases statement with
    | declare name kind? init pos =>
      simp only [List.cons_append, runFrom]
      cases eval session.environment init with
      | error fault => rfl
      | ok value => exact inductionHypothesis _ _
    | expr e terminated pos =>
      simp only [List.cons_append, runFrom]
      cases eval session.environment e with
      | error fault => rfl
      | ok value => exact inductionHypothesis _ _

/-- Running to the end declares what compiling did, and changes nothing else. -/
theorem runFrom_declares {session reached : Session} {result value : Value}
    {statements : List (Statement × Kind)}
    (ran : runFrom session result statements = (reached, .ok value)) :
    ∃ new : List Binding, reached = { session with bindings := session.bindings ++ new } ∧
      (new.map fun binding => (binding.name, binding.kind)) = declarations statements := by
  induction statements generalizing session result with
  | nil =>
    cases ran
    exact ⟨[], by rw [List.append_nil], rfl⟩
  | cons compiled rest inductionHypothesis =>
    obtain ⟨statement, kind⟩ := compiled
    cases statement with
    | declare name kind? init pos =>
      simp only [runFrom] at ran
      split at ran
      case h_1 => cases ran
      case h_2 value _ =>
        obtain ⟨new, rfl, declared⟩ := inductionHypothesis ran
        refine ⟨⟨name, kind, coerce kind value⟩ :: new, ?_, ?_⟩
        · simp [bind]
        · rw [List.map_cons, declared, declarations]
    | expr e terminated pos =>
      simp only [runFrom] at ran
      split at ran
      case h_1 => cases ran
      case h_2 => exact inductionHypothesis ran

theorem scope_of_runFrom {session reached : Session} {result value : Value}
    {statements : List (Statement × Kind)}
    (ran : runFrom session result statements = (reached, .ok value)) :
    reached.scope = (declarations statements).reverse ++ session.scope := by
  obtain ⟨new, rfl, declared⟩ := runFrom_declares ran
  simp [scope, ← declared]

theorem scope_of_execute {session reached : Session} {compiled : Compiled} {value : Value}
    (known : KindsKnown compiled.statements)
    (ran : session.execute compiled = (reached, .ok value)) :
    reached.scope = session.scope.after compiled.statements := by
  have scopes := scope_of_runFrom ran
  rw [Scope.after_of_known _ known]
  exact scopes

end Session

end Colloquy.Calc

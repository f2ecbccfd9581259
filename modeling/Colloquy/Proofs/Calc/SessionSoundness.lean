import Colloquy.Proofs.Calc.Compilation

set_option autoImplicit false

/-!
Sessions that are only ever given submissions compiled in them. The invariant is that every variable
holds a value of its kind and that no name stands for nothing; it makes the names of the checker and
those of evaluation the same, and every statement that runs keeps it, whether or not a later one
faults.
-/

namespace Colloquy

theorem Value.kind_ne_void {value : Value} (something : value ≠ .unit) : value.kind ≠ .void := by
  cases value <;> simp_all [Value.kind]

namespace Calc

theorem Scope.proper_of_entries {scope : Scope} (known : ∀ entry ∈ scope, entry.2 ≠ .void) :
    scope.Proper := by
  induction scope with
  | nil => simp [Scope.Proper]
  | cons entry scope inductionHypothesis =>
    exact (inductionHypothesis fun other membership => known other (by simp [membership])).declare
      entry.1 (known entry (by simp))

/-- A lookup among kinds finds what a search among bindings finds. -/
theorem lookup_map_kind (bindings : List Binding) (name : String) :
    (bindings.map fun binding => (binding.name, binding.kind)).lookup name =
      (bindings.find? fun binding => binding.name = name).map Binding.kind := by
  induction bindings with
  | nil => rfl
  | cons binding bindings inductionHypothesis =>
    rw [List.map_cons, List.lookup_cons, inductionHypothesis]
    by_cases same : binding.name = name
    · simp [same]
    · have different : (name == binding.name) = false := beq_eq_false_iff_ne.mpr (Ne.symm same)
      simp [same, different]

theorem lookup_map_value (globals : List (String × Value)) (name : String) :
    (globals.map fun (name, value) => (name, value.kind)).lookup name =
      (globals.lookup name).map Value.kind := by
  induction globals with
  | nil => rfl
  | cons global globals inductionHypothesis =>
    rw [List.map_cons, List.lookup_cons, List.lookup_cons, inductionHypothesis]
    split <;> rfl

namespace Session

/-- Every variable holds a value of its kind, and no name stands for nothing. -/
structure Sound (session : Session) : Prop where
  bindings : ∀ binding ∈ session.bindings,
    binding.value.kind = binding.kind ∧ binding.kind ≠ .void
  globals : ∀ global ∈ session.globals, global.2 ≠ .unit

/-- The sessions of a host that submissions lead to, each one compiled in the session it is run
in. A submission that faults leads on as well. -/
inductive Reachable (host : Host) : Session → Prop
  | start : Reachable host (ofHost host)
  | submit {session : Session} {source : String} {compiled : Compiled} :
      Reachable host session → session.compile source = .ok compiled →
      Reachable host (session.execute compiled).1

/-- Compiles a source text and runs it; one that does not compile changes nothing. -/
def submit (session : Session) (source : String) : Session :=
  match session.compile source with
  | .ok compiled => (session.execute compiled).1
  | .error _ => session

theorem Reachable.submitted {host : Host} {session : Session} (reachable : Reachable host session)
    (source : String) : Reachable host (session.submit source) := by
  unfold Session.submit
  split
  case h_1 compiled success => exact reachable.submit success
  case h_2 => exact reachable

theorem scope_lookup {session : Session}
    (typed : ∀ binding ∈ session.bindings, binding.value.kind = binding.kind) (name : String) :
    session.scope.lookup name = (session.value? name).map Value.kind := by
  rw [scope, List.lookup_append, lookup_map_kind, lookup_map_value, value?]
  cases found : session.bindings.reverse.find? fun binding => binding.name = name with
  | none => rfl
  | some binding =>
    have membership := List.mem_reverse.mp (List.mem_of_find?_eq_some found)
    exact congrArg some (typed binding membership).symm

theorem scope_proper {session : Session}
    (bindings : ∀ binding ∈ session.bindings, binding.kind ≠ .void)
    (globals : ∀ global ∈ session.globals, global.2.kind ≠ .void) : session.scope.Proper := by
  apply Scope.proper_of_entries
  intro entry membership
  rcases List.mem_append.mp membership with declared | supplied
  · obtain ⟨binding, among, rfl⟩ := List.mem_map.mp declared
    exact bindings binding (List.mem_reverse.mp among)
  · obtain ⟨global, among, rfl⟩ := List.mem_map.mp supplied
    exact globals global among

namespace Sound

variable {session : Session}

theorem agree (sound : session.Sound) : Agree session.scope session.environment :=
  scope_lookup fun binding membership => (sound.bindings binding membership).1

theorem names (sound : session.Sound) : session.scope.Proper :=
  scope_proper (fun binding membership => (sound.bindings binding membership).2)
    fun global membership => Value.kind_ne_void (sound.globals global membership)

theorem bind (sound : session.Sound) (binding : Binding)
    (typed : binding.value.kind = binding.kind) (known : binding.kind ≠ .void) :
    (session.bind binding).Sound where
  bindings := by
    intro found membership
    rcases List.mem_append.mp membership with old | new
    · exact sound.bindings found old
    · obtain rfl := List.mem_singleton.mp new
      exact ⟨typed, known⟩
  globals := sound.globals

/-- Running compiled statements keeps the invariant, however far they get. -/
theorem runFrom (sound : session.Sound) {program : List Statement}
    (proper : ∀ statement ∈ program, statement.body.Proper)
    (accepted : (compileStatements session.scope program).complaints = []) (result : Value) :
    (session.runFrom result
      (compileStatements session.scope program).compiled.statements).1.Sound := by
  induction program generalizing session result with
  | nil => exact sound
  | cons statement rest inductionHypothesis =>
    have here := proper statement List.mem_cons_self
    have later : ∀ statement ∈ rest, statement.body.Proper :=
      fun statement membership => proper statement (List.mem_cons_of_mem _ membership)
    cases statement with
    | declare name kind? init pos =>
      simp only [compileStatements, List.append_eq_nil_iff] at accepted ⊢
      obtain ⟨declarationAccepted, restAccepted⟩ := accepted
      obtain ⟨initAccepted, declares⟩ := checkDeclaration_accepted declarationAccepted
      have known := declaredKind?_ne_void declares
        (check_kind_ne_void sound.names here initAccepted)
      simp only [bne_iff_ne, ne_eq, known, not_false_eq_true, if_true] at restAccepted ⊢
      rw [Session.runFrom]
      obtain ⟨fault, faults⟩ | ⟨value, evaluates, same⟩ :=
        (eval_sound sound.names sound.agree here initAccepted).2
      · simp only [Statement.body] at faults
        simp only [faults]
        exact sound
      · simp only [Statement.body] at evaluates same
        simp only [evaluates]
        rw [← same] at declares
        have boundSound := sound.bind ⟨name, _, _⟩ (coerce_kind declares) known
        have ran := inductionHypothesis boundSound later (by rwa [scope_bind]) .unit
        rwa [scope_bind] at ran
    | expr e terminated pos =>
      simp only [compileStatements, List.append_eq_nil_iff] at accepted ⊢
      rw [Session.runFrom]
      split
      · exact sound
      · exact inductionHypothesis sound later accepted.2 _

theorem execute (sound : session.Sound) {program : List Statement}
    (proper : ∀ statement ∈ program, statement.body.Proper)
    (accepted : (compileStatements session.scope program).complaints = []) (compiled : Compiled)
    (same : compiled.statements = (compileStatements session.scope program).compiled.statements) :
    (session.execute compiled).1.Sound := by
  have counted : Sound { session with submissions := session.submissions + 1 } :=
    ⟨sound.bindings, sound.globals⟩
  unfold Session.execute
  rw [same]
  exact counted.runFrom proper accepted .unit

end Sound

theorem Reachable.sound {host : Host} (supplied : ∀ global ∈ host.globals, global.2 ≠ .unit)
    {session : Session} (reachable : Reachable host session) : session.Sound := by
  induction reachable with
  | start => exact ⟨by simp [ofHost], supplied⟩
  | @submit session source compiled _ success sound =>
    obtain ⟨program, parsed, accepted, rfl⟩ := compile_eq_ok_iff.mp success
    exact sound.execute (fun _ => proper_of_parse parsed) accepted _ rfl

/-- In a session that submissions compiled in it have led to, every variable holds a value of its
kind, the checker and evaluation know the same names by the same kinds, and every expression of a
further submission that compiles is evaluated, where the run gets to it, without a stand-in, to a
fault or a value of the kind computed for it. -/
theorem reachable_sound {host : Host} (supplied : ∀ global ∈ host.globals, global.2 ≠ .unit)
    {session : Session} (reachable : Reachable host session) :
    (∀ binding ∈ session.bindings,
      binding.value.kind = binding.kind ∧ binding.kind ≠ .void) ∧
    (∀ name, session.scope.lookup name = (session.value? name).map Value.kind) ∧
    ∀ (source : String) (compiled : Compiled), session.compile source = .ok compiled →
      ∀ (before after : List (Statement × Kind)) (statement : Statement) (kind : Kind),
        compiled.statements = before ++ (statement, kind) :: after →
        ∀ (reached : Session) (value : Value),
          session.execute { compiled with statements := before } = (reached, .ok value) →
          fallbacks reached.environment statement.body = [] ∧
            Yields (check (session.scope.after before) statement.body).kind
              (eval reached.environment statement.body) := by
  have sound := reachable.sound supplied
  refine ⟨sound.bindings, sound.agree, ?_⟩
  intro source compiled success before after statement kind cut reached value ran
  obtain ⟨program, parsed, accepted, rfl⟩ := compile_eq_ok_iff.mp success
  obtain ⟨programIs, beforeIs, beforeAccepted, bodyAccepted⟩ :=
    compileStatements_cut accepted cut
  have proper : ∀ statement ∈ program, statement.body.Proper :=
    fun _ => proper_of_parse parsed
  have beforeProper : ∀ statement ∈ before.map Prod.fst, statement.body.Proper :=
    fun statement membership => proper statement (by simp [programIs, membership])
  have known := (compileStatements_known sound.names beforeProper beforeAccepted).1
  have reachedSound := sound.execute beforeProper beforeAccepted
    { (compileStatements session.scope program).compiled with statements := before } beforeIs.symm
  rw [ran] at reachedSound
  rw [beforeIs] at known
  have scopes : reached.scope = session.scope.after before := scope_of_execute known ran
  rw [← scopes] at bodyAccepted ⊢
  exact eval_sound reachedSound.names reachedSound.agree (proper statement (by simp [programIs]))
    bodyAccepted

/-- A session whose only submission so far faulted at the second of its three statements. -/
def faulted : Session :=
  (ofHost ⟨["a"], [⟨"rates", [("rate", .int 3)]⟩]⟩).submit
    "double d = rate; 1 / 0; var x = 2"

theorem faulted_goes_on_sound :
    (faulted.bindings.map fun binding => (binding.name, binding.kind)) = [("d", .double)] ∧
    ∃ compiled statement kind reached value,
      faulted.compile "arg(0) + d * rate" = .ok compiled ∧
      compiled.statements = [] ++ [(statement, kind)] ∧
      faulted.execute { compiled with statements := [] } = (reached, .ok value) ∧
      fallbacks reached.environment statement.body = [] ∧
      Yields .string (eval reached.environment statement.body) := by
  have reachable : Reachable ⟨["a"], [⟨"rates", [("rate", .int 3)]⟩]⟩ faulted :=
    Reachable.start.submitted _
  refine ⟨by decide +kernel, ?_⟩
  have kinds : ((faulted.compile "arg(0) + d * rate").toOption.map fun compiled =>
      compiled.statements.map fun entry => (check faulted.scope entry.1.body).kind) =
        some [.string] := by
    decide +kernel
  cases success : faulted.compile "arg(0) + d * rate" with
  | error complaints => simp [success, Except.toOption] at kinds
  | ok compiled =>
    simp only [success, Except.toOption, Option.map_some, Option.some.injEq] at kinds
    obtain ⟨⟨statement, kind⟩, single, isString⟩ := List.map_eq_singleton_iff.mp kinds
    obtain ⟨noFallback, yields⟩ :=
      (reachable_sound (by simp [Host.globals, firstOfKey]) reachable).2.2 _ compiled success
        [] [] statement kind single _ .unit rfl
    refine ⟨compiled, statement, kind, _, _, rfl, single, rfl, noFallback, ?_⟩
    rwa [Scope.after, isString] at yields

end Session

end Calc

end Colloquy

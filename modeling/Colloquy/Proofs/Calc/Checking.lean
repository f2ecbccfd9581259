import Colloquy.Proofs.Calc.Soundness

set_option autoImplicit false

/-!
What the checker says about an expression. The rules of typing stand here by themselves, next to the
checker: which kinds an operator takes and gives, and which expressions have a kind. A node of an
expression is worth a complaint if a rule is missing for it while all of its parts have a kind, or if
it names something that there is not. The checker complains about exactly these nodes, in the order in
which evaluation leaves them, and gives every other expression the kind that the rules give it.
-/

namespace Colloquy.Calc

/-! The rules. -/

inductive UnaryOp.Gives : UnaryOp → Kind → Kind → Prop
  | negInt : Gives .neg .int .int
  | negDouble : Gives .neg .double .double
  | notBool : Gives .not .bool .bool

/-- The operators on numbers. -/
def BinaryOp.IsArithmetic (op : BinaryOp) : Prop :=
  op.tier = .sum ∨ op.tier = .product

inductive BinaryOp.Gives : BinaryOp → Kind → Kind → Kind → Prop
  | ints {op : BinaryOp} : op.IsArithmetic → Gives op .int .int .int
  | doubles {op : BinaryOp} {left right : Kind} : op.IsArithmetic → left.isNumeric →
      right.isNumeric → left = .double ∨ right = .double → Gives op left right .double
  /-- Whatever is added to a string is appended to it, or the string to that. -/
  | texts {left right : Kind} : left = .string ∨ right = .string → Gives .add left right .string
  | equalNumbers {op : BinaryOp} {left right : Kind} : op.tier = .equality → left.isNumeric →
      right.isNumeric → Gives op left right .bool
  | equalKinds {op : BinaryOp} (kind : Kind) : op.tier = .equality → Gives op kind kind .bool
  | orderedNumbers {op : BinaryOp} {left right : Kind} : op.tier = .comparison → left.isNumeric →
      right.isNumeric → Gives op left right .bool
  | orderedTexts {op : BinaryOp} : op.tier = .comparison → Gives op .string .string .bool

inductive HasKind (scope : Scope) : Expr → Kind → Prop
  | literal (value : Value) : HasKind scope (.literal value) value.kind
  | name {name : String} {kind : Kind} (pos : Position) :
      scope.lookup name = some kind → HasKind scope (.name name pos) kind
  | unary {op : UnaryOp} {operand : Expr} {kind result : Kind} (pos : Position) :
      HasKind scope operand kind → op.Gives kind result →
      HasKind scope (.unary op operand pos) result
  | binary {op : BinaryOp} {left right : Expr} {leftKind rightKind result : Kind}
      (pos : Position) : HasKind scope left leftKind → HasKind scope right rightKind →
      op.Gives leftKind rightKind result → HasKind scope (.binary op left right pos) result
  | argc (pos : Position) : HasKind scope (.call "argc" [] pos) .int
  | arg {index : Expr} (pos : Position) :
      HasKind scope index .int → HasKind scope (.call "arg" [index] pos) .string

/-- The complaint that a node is worth. An operation on parts without a kind is worth none. -/
inductive Faults (scope : Scope) : Expr → Diagnostic → Prop
  | unknownName {name : String} (pos : Position) : scope.lookup name = none →
      Faults scope (.name name pos)
        (.error pos ("the name `" ++ name ++ "` does not exist in the current context"))
  | unary {op : UnaryOp} {operand : Expr} {kind : Kind} (pos : Position) :
      HasKind scope operand kind → (∀ result, ¬op.Gives kind result) →
      Faults scope (.unary op operand pos)
        (.error pos ("operator `" ++ op.symbol ++ "` cannot be applied to `" ++ kind.name ++ "`"))
  | binary {op : BinaryOp} {left right : Expr} {leftKind rightKind : Kind} (pos : Position) :
      HasKind scope left leftKind → HasKind scope right rightKind →
      (∀ result, ¬op.Gives leftKind rightKind result) →
      Faults scope (.binary op left right pos)
        (.error pos ("operator `" ++ op.symbol ++ "` cannot be applied to `" ++ leftKind.name ++
          "` and `" ++ rightKind.name ++ "`"))
  | unknownFunction {function : String} (args : List Expr) (pos : Position) :
      function ≠ "argc" → function ≠ "arg" →
      Faults scope (.call function args pos)
        (.error pos ("unknown function `" ++ function ++ "`"))
  | argcArguments {args : List Expr} (pos : Position) : args ≠ [] →
      Faults scope (.call "argc" args pos) (.error pos "wrong arguments for `argc`")
  | argArguments {args : List Expr} (pos : Position) : args.length ≠ 1 →
      Faults scope (.call "arg" args pos) (.error pos "wrong arguments for `arg`")
  | argIndex {index : Expr} {kind : Kind} (pos : Position) :
      HasKind scope index kind → kind ≠ .int →
      Faults scope (.call "arg" [index] pos) (.error pos "wrong arguments for `arg`")

mutual

/-- The nodes of an expression from left to right, each one behind its parts. -/
def Expr.nodes : Expr → List Expr
  | .literal value => [.literal value]
  | .name text pos => [.name text pos]
  | .unary op operand pos => operand.nodes ++ [.unary op operand pos]
  | .binary op left right pos => left.nodes ++ right.nodes ++ [.binary op left right pos]
  | .call function args pos => Expr.nodesAll args ++ [.call function args pos]

def Expr.nodesAll : List Expr → List Expr
  | [] => []
  | arg :: args => arg.nodes ++ Expr.nodesAll args

end

/-- The complaints about nodes in their order: one for each node that is worth one. -/
inductive Reported (scope : Scope) : List Expr → List Diagnostic → Prop
  | nil : Reported scope [] []
  | faulty {node : Expr} {d : Diagnostic} {nodes : List Expr} {complaints : List Diagnostic} :
      Faults scope node d → Reported scope nodes complaints →
      Reported scope (node :: nodes) (d :: complaints)
  | fine {node : Expr} {nodes : List Expr} {complaints : List Diagnostic} :
      (∀ d, ¬Faults scope node d) → Reported scope nodes complaints →
      Reported scope (node :: nodes) complaints

namespace Reported

variable {scope : Scope} {nodes others : List Expr} {complaints more : List Diagnostic}

theorem append (reported : Reported scope nodes complaints)
    (othersReported : Reported scope others more) :
    Reported scope (nodes ++ others) (complaints ++ more) := by
  induction reported with
  | nil => exact othersReported
  | faulty faults _ inductionHypothesis => exact .faulty faults inductionHypothesis
  | fine noFault _ inductionHypothesis => exact .fine noFault inductionHypothesis

/-- A node without a complaint behind others. -/
theorem thenFine (reported : Reported scope nodes complaints) {node : Expr}
    (noFault : ∀ d, ¬Faults scope node d) : Reported scope (nodes ++ [node]) complaints := by
  rw [← List.append_nil complaints]
  exact reported.append (.fine noFault .nil)

theorem thenFaulty (reported : Reported scope nodes complaints) {node : Expr} {d : Diagnostic}
    (faults : Faults scope node d) : Reported scope (nodes ++ [node]) (complaints ++ [d]) :=
  reported.append (.faulty faults .nil)

end Reported

/-! The operators of the checker are those of the rules. -/

theorem UnaryOp.gives_iff {op : UnaryOp} {kind result : Kind} :
    op.Gives kind result ↔ op.kind? kind = some result := by
  constructor
  · rintro (_ | _ | _) <;> rfl
  · intro applies
    cases op <;> cases kind <;> cases applies
    · exact .negInt
    · exact .negDouble
    · exact .notBool

theorem arithmetic?_ints_or_doubles {op : BinaryOp} (isArithmetic : op.IsArithmetic)
    {left right result : Kind} (applies : arithmetic? left right = some result) :
    op.Gives left right result := by
  cases left <;> cases right <;> cases applies
  case int.int => exact .ints isArithmetic
  all_goals exact .doubles isArithmetic rfl rfl (by simp)

theorem BinaryOp.gives_of_kind? {op : BinaryOp} {left right result : Kind}
    (applies : op.kind? left right = some result) : op.Gives left right result := by
  cases op
  case add =>
    simp only [BinaryOp.kind?] at applies
    split at applies
    case isTrue texts =>
      cases applies
      exact .texts (by simpa using texts)
    case isFalse => exact arithmetic?_ints_or_doubles (.inl rfl) applies
  case sub => exact arithmetic?_ints_or_doubles (.inl rfl) applies
  case mul | div | rem => exact arithmetic?_ints_or_doubles (.inr rfl) applies
  case eq | ne =>
    simp only [BinaryOp.kind?] at applies
    split at applies <;> cases applies
    case isTrue equal =>
      simp only [Bool.or_eq_true, decide_eq_true_eq, Bool.and_eq_true] at equal
      obtain rfl | ⟨leftNumeric, rightNumeric⟩ := equal
      · exact .equalKinds left rfl
      · exact .equalNumbers rfl leftNumeric rightNumeric
  case lt | le | gt | ge =>
    simp only [BinaryOp.kind?] at applies
    split at applies <;> cases applies
    case isTrue ordered =>
      simp only [Bool.or_eq_true, decide_eq_true_eq, Bool.and_eq_true] at ordered
      obtain ⟨leftNumeric, rightNumeric⟩ | ⟨rfl, rfl⟩ := ordered
      · exact .orderedNumbers rfl leftNumeric rightNumeric
      · exact .orderedTexts rfl

theorem BinaryOp.IsArithmetic.kind?_eq {op : BinaryOp} (isArithmetic : op.IsArithmetic)
    {left right : Kind} (leftNumeric : left.isNumeric) (rightNumeric : right.isNumeric) :
    op.kind? left right = arithmetic? left right := by
  cases op
  case add =>
    have noText : ¬(left = .string || right = .string) := by
      rintro isText
      obtain rfl | rfl : left = .string ∨ right = .string := by simpa using isText
      · cases leftNumeric
      · cases rightNumeric
    rw [BinaryOp.kind?, if_neg noText]
  case sub | mul | div | rem => rfl
  all_goals simp [IsArithmetic, BinaryOp.tier] at isArithmetic

theorem BinaryOp.kind?_of_gives {op : BinaryOp} {left right result : Kind}
    (gives : op.Gives left right result) : op.kind? left right = some result := by
  cases gives with
  | ints isArithmetic => exact isArithmetic.kind?_eq rfl rfl
  | doubles isArithmetic leftNumeric rightNumeric isDouble =>
    rw [isArithmetic.kind?_eq leftNumeric rightNumeric]
    obtain rfl | rfl := isDouble
    · cases right <;> first | rfl | cases rightNumeric
    · cases left <;> first | rfl | cases leftNumeric
  | texts isText => simp [BinaryOp.kind?, isText]
  | equalNumbers isEquality leftNumeric rightNumeric | equalKinds kind isEquality =>
    cases op <;> simp_all [BinaryOp.kind?, BinaryOp.tier]
  | orderedNumbers isComparison leftNumeric rightNumeric | orderedTexts isComparison =>
    cases op <;> simp_all [BinaryOp.kind?, BinaryOp.tier]

theorem BinaryOp.gives_iff {op : BinaryOp} {left right result : Kind} :
    op.Gives left right result ↔ op.kind? left right = some result :=
  ⟨kind?_of_gives, gives_of_kind?⟩

/-! The checker, one kind of node after the other. -/

/-- What the checker should make of an expression: it has a kind and nothing is wrong with it, or it
has none and there are complaints about its nodes. -/
inductive Judged (scope : Scope) (e : Expr) : Checked → Prop
  | typed {kind : Kind} : kind ≠ .void → (∀ other, HasKind scope e other ↔ other = kind) →
      Reported scope e.nodes [] → Judged scope e ⟨kind, []⟩
  | refused {complaints : List Diagnostic} : complaints ≠ [] →
      (∀ kind, ¬HasKind scope e kind) → Reported scope e.nodes complaints →
      Judged scope e ⟨.void, complaints⟩

namespace Judged

variable {scope : Scope}

section

variable {e : Expr} {checked : Checked} (judged : Judged scope e checked)
include judged

theorem reported : Reported scope e.nodes checked.complaints := by
  cases judged with
  | typed _ _ reported | refused _ _ reported => exact reported

theorem complaints_eq_nil (known : checked.kind ≠ .void) : checked.complaints = [] := by
  cases judged with
  | typed => rfl
  | refused => exact (known rfl).elim

theorem complaints_ne_nil (unknown : checked.kind = .void) : checked.complaints ≠ [] := by
  cases judged with
  | typed known => exact (known unknown).elim
  | refused some => exact some

theorem hasKind_iff {kind : Kind} :
    HasKind scope e kind ↔ checked.kind ≠ .void ∧ kind = checked.kind := by
  cases judged with
  | typed known hasKind => rw [hasKind, and_iff_right known]
  | refused _ noKind => exact iff_of_false (noKind kind) fun known => known.1 rfl

end

section

variable {operand : Expr} {checked : Checked} (judged : Judged scope operand checked) {op : UnaryOp}
  {pos : Position}
include judged

theorem hasKind_unary_iff {result : Kind} :
    HasKind scope (.unary op operand pos) result ↔
      checked.kind ≠ .void ∧ op.kind? checked.kind = some result := by
  constructor
  · rintro (_ | _ | ⟨_, hasKind, gives⟩)
    obtain ⟨known, rfl⟩ := judged.hasKind_iff.mp hasKind
    exact ⟨known, UnaryOp.gives_iff.mp gives⟩
  · rintro ⟨known, applies⟩
    exact .unary pos (judged.hasKind_iff.mpr ⟨known, rfl⟩) (UnaryOp.gives_iff.mpr applies)

/-- A unary operation is worth a complaint where the operator does not apply to a kind. -/
theorem not_applies_of_faults {d : Diagnostic} (faults : Faults scope (.unary op operand pos) d) :
    checked.kind ≠ .void ∧ op.kind? checked.kind = none := by
  obtain _ | ⟨_, hasKind, noResult⟩ := faults
  obtain ⟨known, rfl⟩ := judged.hasKind_iff.mp hasKind
  refine ⟨known, Option.eq_none_iff_forall_ne_some.mpr fun result applies => ?_⟩
  exact noResult result (UnaryOp.gives_iff.mpr applies)

theorem unary (op : UnaryOp) (pos : Position) :
    Judged scope (.unary op operand pos) (checkUnary op checked pos) := by
  by_cases unknown : checked.kind = .void
  · rw [checkUnary, if_pos unknown]
    refine .refused (judged.complaints_ne_nil unknown) (fun result hasKind => ?_)
      (judged.reported.thenFine fun d faults => ?_)
    · exact (judged.hasKind_unary_iff.mp hasKind).1 unknown
    · exact (judged.not_applies_of_faults faults).1 unknown
  · have reported := judged.reported
    rw [judged.complaints_eq_nil unknown] at reported
    rw [checkUnary, if_neg unknown, judged.complaints_eq_nil unknown]
    cases applies : op.kind? checked.kind with
    | some result =>
      refine .typed (UnaryOp.kind?_ne_void applies) (fun other => ?_)
        (reported.thenFine fun d faults => ?_)
      · rw [judged.hasKind_unary_iff, applies, and_iff_right unknown, Option.some_inj, eq_comm]
      · cases applies.symm.trans (judged.not_applies_of_faults faults).2
    | none =>
      have noResult (result : Kind) : ¬op.Gives checked.kind result := by
        simp [UnaryOp.gives_iff, applies]
      refine .refused (by simp) (fun result hasKind => ?_) (reported.thenFaulty ?_)
      · cases applies.symm.trans (judged.hasKind_unary_iff.mp hasKind).2
      · exact .unary pos (judged.hasKind_iff.mpr ⟨unknown, rfl⟩) noResult

end

section

variable {left right : Expr} {leftChecked rightChecked : Checked}
  (leftJudged : Judged scope left leftChecked) (rightJudged : Judged scope right rightChecked)
  {op : BinaryOp} {pos : Position}
include leftJudged rightJudged

theorem hasKind_binary_iff {result : Kind} :
    HasKind scope (.binary op left right pos) result ↔
      ¬(leftChecked.kind = .void ∨ rightChecked.kind = .void) ∧
        op.kind? leftChecked.kind rightChecked.kind = some result := by
  constructor
  · rintro (_ | _ | _ | ⟨_, leftHas, rightHas, gives⟩)
    obtain ⟨leftKnown, rfl⟩ := leftJudged.hasKind_iff.mp leftHas
    obtain ⟨rightKnown, rfl⟩ := rightJudged.hasKind_iff.mp rightHas
    exact ⟨not_or.mpr ⟨leftKnown, rightKnown⟩, BinaryOp.gives_iff.mp gives⟩
  · rintro ⟨known, applies⟩
    obtain ⟨leftKnown, rightKnown⟩ := not_or.mp known
    exact .binary pos (leftJudged.hasKind_iff.mpr ⟨leftKnown, rfl⟩)
      (rightJudged.hasKind_iff.mpr ⟨rightKnown, rfl⟩) (BinaryOp.gives_iff.mpr applies)

theorem not_applies_of_binary_faults {d : Diagnostic}
    (faults : Faults scope (.binary op left right pos) d) :
    ¬(leftChecked.kind = .void ∨ rightChecked.kind = .void) ∧
      op.kind? leftChecked.kind rightChecked.kind = none := by
  obtain _ | _ | ⟨_, leftHas, rightHas, noResult⟩ := faults
  obtain ⟨leftKnown, rfl⟩ := leftJudged.hasKind_iff.mp leftHas
  obtain ⟨rightKnown, rfl⟩ := rightJudged.hasKind_iff.mp rightHas
  refine ⟨not_or.mpr ⟨leftKnown, rightKnown⟩, ?_⟩
  refine Option.eq_none_iff_forall_ne_some.mpr fun result applies => ?_
  exact noResult result (BinaryOp.gives_iff.mpr applies)

theorem binary (op : BinaryOp) (pos : Position) :
    Judged scope (.binary op left right pos) (checkBinary op leftChecked rightChecked pos) := by
  have reported := leftJudged.reported.append rightJudged.reported
  have hasKind_iff {result : Kind} : HasKind scope (.binary op left right pos) result ↔ _ :=
    leftJudged.hasKind_binary_iff rightJudged
  have notApplies {d : Diagnostic} (faults : Faults scope (.binary op left right pos) d) :=
    leftJudged.not_applies_of_binary_faults rightJudged faults
  by_cases unknown : leftChecked.kind = .void ∨ rightChecked.kind = .void
  · rw [checkBinary, if_pos (by simpa using unknown)]
    refine .refused ?_ (fun result hasKind => ?_) (reported.thenFine fun d faults => ?_)
    · rintro none
      obtain ⟨leftNone, rightNone⟩ := List.append_eq_nil_iff.mp none
      obtain isVoid | isVoid := unknown
      · exact leftJudged.complaints_ne_nil isVoid leftNone
      · exact rightJudged.complaints_ne_nil isVoid rightNone
    · exact (hasKind_iff.mp hasKind).1 unknown
    · exact (notApplies faults).1 unknown
  · obtain ⟨leftKnown, rightKnown⟩ := not_or.mp unknown
    rw [checkBinary, if_neg (by simpa using unknown)]
    rw [leftJudged.complaints_eq_nil leftKnown, rightJudged.complaints_eq_nil rightKnown]
      at reported ⊢
    cases applies : op.kind? leftChecked.kind rightChecked.kind with
    | some result =>
      refine .typed (BinaryOp.kind?_ne_void applies) (fun other => ?_)
        (reported.thenFine fun d faults => ?_)
      · rw [hasKind_iff, applies, and_iff_right unknown, Option.some_inj, eq_comm]
      · cases applies.symm.trans (notApplies faults).2
    | none =>
      have noResult (result : Kind) : ¬op.Gives leftChecked.kind rightChecked.kind result := by
        simp [BinaryOp.gives_iff, applies]
      refine .refused (by simp) (fun result hasKind => ?_) (reported.thenFaulty ?_)
      · cases applies.symm.trans (hasKind_iff.mp hasKind).2
      · exact .binary pos (leftJudged.hasKind_iff.mpr ⟨leftKnown, rfl⟩)
          (rightJudged.hasKind_iff.mpr ⟨rightKnown, rfl⟩) noResult

end

theorem reported_all {args : List Expr}
    (judged : ∀ arg ∈ args, Judged scope arg (check scope arg)) :
    Reported scope (Expr.nodesAll args) ((args.map (check scope)).flatMap Checked.complaints) := by
  induction args with
  | nil => exact .nil
  | cons arg args inductionHypothesis =>
    obtain ⟨first, others⟩ := List.forall_mem_cons.mp judged
    exact first.reported.append (inductionHypothesis others)

/-- A call with a kind is one of the two functions of the host with its arguments. -/
theorem hasKind_call {function : String} {args : List Expr} {pos : Position} {kind : Kind}
    (hasKind : HasKind scope (.call function args pos) kind) :
    (function = "argc" ∧ args = [] ∧ kind = .int) ∨
      (function = "arg" ∧ kind = .string ∧ ∃ index, args = [index] ∧ HasKind scope index .int) := by
  cases hasKind with
  | argc => exact .inl ⟨rfl, rfl, rfl⟩
  | arg _ index => exact .inr ⟨rfl, rfl, _, rfl, index⟩

theorem not_faults_argc {pos : Position} {d : Diagnostic} :
    ¬Faults scope (.call "argc" [] pos) d := by
  generalize isFunction : "argc" = function
  rintro ⟨⟩
  case unknownFunction notArgc notArg => exact notArgc isFunction.symm
  case argcArguments some => exact some rfl
  case argArguments => simp at isFunction

/-- A call of `arg` with one argument is only worth a complaint if the argument has a kind, which is
not that of an index. -/
theorem faults_arg {index : Expr} {pos : Position} {d : Diagnostic}
    (faults : Faults scope (.call "arg" [index] pos) d) :
    ∃ kind, HasKind scope index kind ∧ kind ≠ .int := by
  generalize isFunction : "arg" = function at faults
  cases faults with
  | unknownFunction _ _ _ notArg => exact (notArg isFunction.symm).elim
  | argcArguments => simp at isFunction
  | argArguments _ count => exact (count rfl).elim
  | argIndex _ hasKind notIndex => exact ⟨_, hasKind, notIndex⟩

theorem call {args : List Expr} (judged : ∀ arg ∈ args, Judged scope arg (check scope arg))
    (function : String) (pos : Position) :
    Judged scope (.call function args pos)
      (checkCall function (args.map (check scope)) pos) := by
  have reported := reported_all judged
  unfold checkCall
  dsimp only
  split
  case h_1 kinds =>
    obtain rfl : args = [] := by simpa using kinds
    refine .typed (by decide) (fun other => ⟨fun hasKind => ?_, ?_⟩)
      (reported.thenFine fun _ => not_faults_argc)
    · obtain ⟨-, -, isInt⟩ | ⟨-, -, index, noArgument, -⟩ := hasKind_call hasKind
      · exact isInt
      · cases noArgument
    · rintro rfl
      exact .argc pos
  case h_2 kinds =>
    obtain ⟨index, rfl, isIndex⟩ : ∃ index, args = [index] ∧ (check scope index).kind = .int := by
      simpa [List.map_eq_singleton_iff] using kinds
    have indexJudged := judged index List.mem_cons_self
    have known : (check scope index).kind ≠ .void := by simp [isIndex]
    have none : ([index].map (check scope)).flatMap Checked.complaints = [] := by
      simp [indexJudged.complaints_eq_nil known]
    rw [none] at reported ⊢
    refine .typed (by decide) (fun other => ⟨fun hasKind => ?_, ?_⟩)
      (reported.thenFine fun d faults => ?_)
    · obtain ⟨isArgc, -⟩ | ⟨-, isString, -⟩ := hasKind_call hasKind
      · simp at isArgc
      · exact isString
    · rintro rfl
      exact .arg pos (indexJudged.hasKind_iff.mpr ⟨known, isIndex.symm⟩)
    · obtain ⟨kind, hasKind, notIndex⟩ := faults_arg faults
      exact notIndex ((indexJudged.hasKind_iff.mp hasKind).2.trans isIndex)
  case h_3 kinds =>
    obtain ⟨index, rfl, unknown⟩ : ∃ index, args = [index] ∧ (check scope index).kind = .void := by
      simpa [List.map_eq_singleton_iff] using kinds
    have indexJudged := judged index List.mem_cons_self
    have noKind (kind : Kind) : ¬HasKind scope index kind :=
      fun hasKind => (indexJudged.hasKind_iff.mp hasKind).1 unknown
    refine .refused ?_ (fun kind hasKind => ?_) (reported.thenFine fun d faults => ?_)
    · simpa using indexJudged.complaints_ne_nil unknown
    · obtain ⟨isArgc, -⟩ | ⟨-, -, _, ⟨⟩, hasIndex⟩ := hasKind_call hasKind
      · simp at isArgc
      · exact noKind _ hasIndex
    · obtain ⟨kind, hasKind, -⟩ := faults_arg faults
      exact noKind kind hasKind
  case h_4 function _ _ noArgc notIndex notVoid =>
    -- What is left of the two functions has the wrong number or kind of arguments.
    have noKind (kind : Kind) : ¬HasKind scope (.call function args pos) kind := by
      intro hasKind
      obtain ⟨rfl, rfl, -⟩ | ⟨rfl, -, index, rfl, hasIndex⟩ := hasKind_call hasKind
      · exact noArgc rfl rfl
      · have isIndex := ((judged index List.mem_cons_self).hasKind_iff.mp hasIndex).2
        exact notIndex rfl (by simp [← isIndex])
    split
    case isTrue isHost =>
      refine .refused (by simp) noKind (reported.thenFaulty ?_)
      obtain rfl | rfl : function = "argc" ∨ function = "arg" := by simpa using isHost
      · exact .argcArguments pos fun none => noArgc rfl (by simp [none])
      · by_cases single : args.length = 1
        · obtain ⟨index, rfl⟩ := List.length_eq_one_iff.mp single
          have indexJudged := judged index List.mem_cons_self
          have known : (check scope index).kind ≠ .void :=
            fun unknown => notVoid rfl (by simp [unknown])
          refine .argIndex pos (indexJudged.hasKind_iff.mpr ⟨known, rfl⟩) fun isIndex => ?_
          exact notIndex rfl (by simp [isIndex])
        · exact .argArguments pos single
    case isFalse notHost =>
      obtain ⟨notArgc, notArg⟩ : function ≠ "argc" ∧ function ≠ "arg" := by simpa using notHost
      exact .refused (by simp) noKind
        (reported.thenFaulty (.unknownFunction args pos notArgc notArg))

end Judged

theorem check_judged {scope : Scope} (names : scope.Proper) {e : Expr} (proper : e.Proper) :
    Judged scope e (check scope e) := by
  induction proper with
  | @literal value notUnit =>
    have known : value.kind ≠ .void := by cases value <;> simp_all [Value.kind]
    refine .typed known (fun other => ⟨?_, ?_⟩) (.fine ?_ .nil)
    · rintro ⟨⟩
      rfl
    · rintro rfl
      exact .literal value
    · rintro d ⟨⟩
  | name text pos =>
    rw [check]
    cases found : scope.lookup text with
    | some kind =>
      refine .typed (fun isVoid => names text (isVoid ▸ found)) (fun other => ⟨?_, ?_⟩)
        (.fine ?_ .nil)
      · rintro (_ | ⟨_, otherFound⟩)
        exact Option.some.inj (otherFound.symm.trans found)
      · rintro rfl
        exact .name pos found
      · rintro d ⟨_, missing⟩
        cases found.symm.trans missing
    | none =>
      refine .refused (by simp) (fun kind => ?_) (.faulty (.unknownName pos found) .nil)
      rintro (_ | ⟨_, isThere⟩)
      cases found.symm.trans isThere
  | unary op pos _ operandJudged => exact operandJudged.unary op pos
  | binary op pos _ _ leftJudged rightJudged => exact leftJudged.binary rightJudged op pos
  | call function pos _ argsJudged =>
    rw [check, checkAll_eq_map]
    exact Judged.call argsJudged function pos

/-- Among names that all have a kind, the checker complains about each node that is worth it and about
no other one, from left to right and parts first. It gives no kind if and only if it complains, and
else the one that the rules give. -/
theorem check_exact {scope : Scope} (names : scope.Proper) {e : Expr} (proper : e.Proper) :
    Reported scope e.nodes (check scope e).complaints ∧
    ((check scope e).kind = .void ↔ (check scope e).complaints ≠ []) ∧
    ∀ kind, HasKind scope e kind ↔ (check scope e).complaints = [] ∧ kind = (check scope e).kind := by
  have judged := check_judged names proper
  have void_iff : (check scope e).kind = .void ↔ (check scope e).complaints ≠ [] :=
    ⟨judged.complaints_ne_nil, fun some =>
      Decidable.byContradiction fun known => some (judged.complaints_eq_nil known)⟩
  refine ⟨judged.reported, void_iff, fun kind => ?_⟩
  rw [judged.hasKind_iff, Ne, void_iff, Ne, Decidable.not_not]

/-- The sum of a sign before a text and of an argument whose index is no name. -/
def twoFaults : Expr :=
  .binary .add (.unary .neg (.literal (.string "a")) ⟨1, 1⟩)
    (.call "arg" [.name "y" ⟨1, 12⟩] ⟨1, 8⟩) ⟨1, 6⟩

theorem twoFaults_reported :
    Scope.Proper [("x", .int)] ∧ twoFaults.Proper ∧
    (check [("x", .int)] twoFaults).complaints.map Diagnostic.position = [⟨1, 1⟩, ⟨1, 12⟩] ∧
    Reported [("x", .int)] twoFaults.nodes (check [("x", .int)] twoFaults).complaints ∧
    ∀ kind, ¬HasKind [("x", .int)] twoFaults kind := by
  have names : Scope.Proper [("x", .int)] := by
    intro name
    rw [List.lookup_cons]
    split <;> simp
  have proper : twoFaults.Proper := by
    refine .binary _ _ (.unary _ _ (.literal (by simp))) (.call _ _ ?_)
    rintro arg membership
    obtain rfl := List.mem_singleton.mp membership
    exact .name _ _
  have positions : (check [("x", .int)] twoFaults).complaints.map Diagnostic.position =
      [⟨1, 1⟩, ⟨1, 12⟩] := by decide +kernel
  obtain ⟨reported, -, hasKind⟩ := check_exact names proper
  refine ⟨names, proper, positions, reported, fun kind typed => ?_⟩
  rw [((hasKind kind).mp typed).1] at positions
  cases positions

end Colloquy.Calc

import Colloquy.Calc.Image
import Colloquy.Proofs.Calc.Expr
import Colloquy.Proofs.Json.Writing
import Colloquy.Proofs.Text.Utf8

set_option autoImplicit false

/-!
What the documents of a compiled submission tell about it. Each part of a program is found again in
its image, and each part of a symbol in the table of symbols; so from what an emission writes, the
program and the symbols are known, as long as the program holds no double.
-/

namespace Colloquy

/-! Documents of the parts. -/

theorem Position.toJson_inj {pos other : Position} (same : pos.toJson = other.toJson) :
    pos = other := by
  obtain ⟨line, column⟩ := pos
  obtain ⟨otherLine, otherColumn⟩ := other
  simpa [toJson, Int.ofNat_inj] using same

theorem Kind.name_inj {kind other : Kind} (same : kind.name = other.name) : kind = other := by
  cases kind <;> cases other <;> simp [name] at same ⊢

theorem Value.toJson_inj {value other : Value} (same : value.toJson = other.toJson) :
    value = other := by
  cases value <;> cases other <;> simp_all [toJson, tag, Int64.toInt_inj]

namespace Calc

theorem UnaryOp.tag_inj {op other : UnaryOp} (same : op.tag = other.tag) : op = other := by
  cases op <;> cases other <;> simp [tag] at same ⊢

theorem BinaryOp.tag_inj {op other : BinaryOp} (same : op.tag = other.tag) : op = other := by
  cases op <;> cases other <;> simp [tag] at same ⊢

theorem Expr.listToJson_eq_map (args : List Expr) :
    Expr.listToJson args = args.map Expr.toJson := by
  induction args with
  | nil => rfl
  | cons arg args inductionHypothesis => rw [listToJson, inductionHypothesis, List.map_cons]

theorem map_inj_of_mem {α β : Type} {f : α → β} {items others : List α}
    (inj : ∀ item ∈ items, ∀ ⦃other⦄, f item = f other → item = other)
    (same : items.map f = others.map f) : items = others := by
  induction items generalizing others with
  | nil => exact (List.map_eq_nil_iff.mp same.symm).symm
  | cons item items inductionHypothesis =>
    obtain ⟨other, others, rfl, sameItem, sameItems⟩ := List.map_eq_cons_iff.mp same.symm
    rw [List.forall_mem_cons] at inj
    rw [inj.1 sameItem.symm, inductionHypothesis inj.2 sameItems.symm]

theorem Expr.toJson_inj {e other : Expr} (same : e.toJson = other.toJson) : e = other := by
  induction e generalizing other with
  | literal value =>
    cases other with
    | literal otherValue =>
      simp only [toJson, Json.object.injEq, List.cons.injEq, Prod.mk.injEq, true_and,
        and_true] at same
      rw [Value.toJson_inj same]
    | _ => simp [toJson] at same
  | name text pos =>
    cases other with
    | name otherText otherPos =>
      simp only [toJson, Json.object.injEq, List.cons.injEq, Prod.mk.injEq, Json.string.injEq,
        true_and, and_true] at same
      rw [same.1, Position.toJson_inj same.2]
    | _ => simp [toJson] at same
  | unary op operand pos operandInj =>
    cases other with
    | unary otherOp otherOperand otherPos =>
      simp only [toJson, Json.object.injEq, List.cons.injEq, Prod.mk.injEq, Json.string.injEq,
        true_and, and_true] at same
      rw [UnaryOp.tag_inj same.1, operandInj same.2.1, Position.toJson_inj same.2.2]
    | _ => simp [toJson] at same
  | binary op left right pos leftInj rightInj =>
    cases other with
    | binary otherOp otherLeft otherRight otherPos =>
      simp only [toJson, Json.object.injEq, List.cons.injEq, Prod.mk.injEq, Json.string.injEq,
        true_and, and_true] at same
      rw [BinaryOp.tag_inj same.1, leftInj same.2.1, rightInj same.2.2.1,
        Position.toJson_inj same.2.2.2]
    | _ => simp [toJson] at same
  | call function args pos argsInj =>
    cases other with
    | call otherFunction otherArgs otherPos =>
      simp only [toJson, listToJson_eq_map, Json.object.injEq, List.cons.injEq, Prod.mk.injEq,
        Json.string.injEq, Json.list.injEq, true_and, and_true] at same
      rw [same.1, map_inj_of_mem argsInj same.2.1, Position.toJson_inj same.2.2]
    | _ => simp [toJson] at same

theorem Statement.toJson_inj {statement other : Statement}
    (same : statement.toJson = other.toJson) : statement = other := by
  cases statement with
  | declare name kind? init pos =>
    cases other with
    | declare otherName otherKind? otherInit otherPos =>
      simp only [toJson, Json.object.injEq, List.cons.injEq, Prod.mk.injEq, Json.string.injEq,
        true_and, and_true] at same
      obtain ⟨sameName, sameKind, sameInit, samePos⟩ := same
      have kinds : kind? = otherKind? := by
        cases kind? <;> cases otherKind? <;> simp at sameKind ⊢
        exact Kind.name_inj sameKind
      rw [sameName, kinds, Expr.toJson_inj sameInit, Position.toJson_inj samePos]
    | expr => simp [toJson] at same
  | expr e terminated pos =>
    cases other with
    | declare => simp [toJson] at same
    | expr otherExpr otherTerminated otherPos =>
      simp only [toJson, Json.object.injEq, List.cons.injEq, Prod.mk.injEq, Json.bool.injEq,
        true_and, and_true] at same
      rw [Expr.toJson_inj same.1, same.2.1, Position.toJson_inj same.2.2]

theorem Symbol.toJson_inj {symbol other : Symbol} (same : symbol.toJson = other.toJson) :
    symbol = other := by
  obtain ⟨name, kind, line, column⟩ := symbol
  obtain ⟨otherName, otherKind, otherLine, otherColumn⟩ := other
  simp only [toJson, Json.object.injEq, List.cons.injEq, Prod.mk.injEq, Json.string.injEq,
    Json.int.injEq, Int.ofNat_inj, true_and, and_true] at same
  obtain ⟨rfl, sameKind, rfl, rfl⟩ := same
  rw [Kind.name_inj sameKind]

/-! Programs without doubles. -/

/-- No literal of the expression is a double. -/
inductive Expr.WithoutDouble : Expr → Prop
  | literal {value : Value} : value.kind ≠ .double → Expr.WithoutDouble (.literal value)
  | name (text : String) (pos : Position) : Expr.WithoutDouble (.name text pos)
  | unary {operand : Expr} (op : UnaryOp) (pos : Position) :
      operand.WithoutDouble → Expr.WithoutDouble (.unary op operand pos)
  | binary {left right : Expr} (op : BinaryOp) (pos : Position) :
      left.WithoutDouble → right.WithoutDouble → Expr.WithoutDouble (.binary op left right pos)
  | call {args : List Expr} (function : String) (pos : Position) :
      (∀ arg ∈ args, arg.WithoutDouble) → Expr.WithoutDouble (.call function args pos)

end Calc

@[simp] theorem Position.toJson_withoutDouble (pos : Position) : pos.toJson.WithoutDouble := by
  simp [toJson]

theorem Value.toJson_withoutDouble {value : Value} (notDouble : value.kind ≠ .double) :
    value.toJson.WithoutDouble := by
  cases value with
  | double x => exact (notDouble rfl).elim
  | _ => simp [toJson]

namespace Calc

theorem Expr.WithoutDouble.toJson {e : Expr} (exact : e.WithoutDouble) :
    e.toJson.WithoutDouble := by
  induction exact with
  | literal notDouble => simp [Expr.toJson, Value.toJson_withoutDouble notDouble]
  | name text pos => simp [Expr.toJson]
  | unary op pos _ operand => simp [Expr.toJson, operand]
  | binary op pos _ _ left right => simp [Expr.toJson, left, right]
  | call function pos _ args => simpa [Expr.toJson, listToJson_eq_map] using args

theorem Statement.toJson_withoutDouble {statement : Statement}
    (exact : statement.body.WithoutDouble) : statement.toJson.WithoutDouble := by
  cases statement with
  | declare name kind? init pos =>
    have initExact : init.toJson.WithoutDouble := Expr.WithoutDouble.toJson exact
    cases kind? <;> simp [toJson, initExact]
  | expr e terminated pos =>
    have exprExact : e.toJson.WithoutDouble := Expr.WithoutDouble.toJson exact
    simp [toJson, exprExact]

theorem Symbol.toJson_withoutDouble (symbol : Symbol) : symbol.toJson.WithoutDouble := by
  simp [toJson]

/-- A format and a list under it, as both documents have them. -/
theorem list_inj_of_pretty {format name : String} {items others : List Json}
    (exact : ∀ item ∈ items, item.WithoutDouble)
    (otherExact : ∀ other ∈ others, other.WithoutDouble)
    (same : (Json.object [("format", .string format), (name, .list items)]).pretty =
      (Json.object [("format", .string format), (name, .list others)]).pretty) :
    items = others := by
  have withoutDouble {list : List Json} (all : ∀ item ∈ list, item.WithoutDouble) :
      (Json.object [("format", .string format), (name, .list list)]).WithoutDouble := by
    simpa using all
  have documents := Json.pretty_inj (withoutDouble exact) (withoutDouble otherExact) same
  simpa using documents

namespace Compiled

variable {first second : Compiled}

theorem program_eq_of_image (exact : ∀ statement ∈ first.program, statement.body.WithoutDouble)
    (otherExact : ∀ statement ∈ second.program, statement.body.WithoutDouble)
    (same : first.image = second.image) : first.program = second.program := by
  refine map_inj_of_mem (fun _ _ _ => Statement.toJson_inj) (list_inj_of_pretty ?_ ?_ same)
  · exact List.forall_mem_map.mpr fun statement membership =>
      Statement.toJson_withoutDouble (exact statement membership)
  · exact List.forall_mem_map.mpr fun statement membership =>
      Statement.toJson_withoutDouble (otherExact statement membership)

theorem symbols_eq_of_symbolTable (same : first.symbolTable = second.symbolTable) :
    first.symbols = second.symbols := by
  refine map_inj_of_mem (fun _ _ _ => Symbol.toJson_inj) (list_inj_of_pretty ?_ ?_ same)
  · exact List.forall_mem_map.mpr fun symbol _ => symbol.toJson_withoutDouble
  · exact List.forall_mem_map.mpr fun symbol _ => symbol.toJson_withoutDouble

end Compiled

end Calc

/-! Streams. -/

theorem Sink.content_write {sink : Sink} {bytes : List UInt8}
    (written : (sink.write bytes).2 = .ok ()) :
    (sink.write bytes).1.content = sink.content ++ bytes := by
  cases limited : sink.limit? with
  | none => simp [write, limited]
  | some limit =>
    by_cases fits : (sink.content ++ bytes).length ≤ limit
    · simp only [write, limited, if_pos fits]
    · simp only [write, limited, if_neg fits] at written
      cases written

namespace Calc.Compiled

theorem emit_content {compiled : Compiled} {code symbols : Sink}
    (emitted : (compiled.emit code symbols).2.2 = .ok ()) :
    (compiled.emit code symbols).1.content =
        code.content ++ Text.Utf8.encode compiled.image ∧
      (compiled.emit code symbols).2.1.content =
        symbols.content ++ Text.Utf8.encode compiled.symbolTable := by
  have codeIs := @Sink.content_write code (Text.Utf8.encode compiled.image)
  have symbolsAre := @Sink.content_write symbols (Text.Utf8.encode compiled.symbolTable)
  unfold emit at emitted ⊢
  generalize code.write (Text.Utf8.encode compiled.image) = codeWritten at codeIs emitted ⊢
  generalize symbols.write (Text.Utf8.encode compiled.symbolTable) = symbolsWritten
    at symbolsAre emitted ⊢
  rcases codeWritten with ⟨codeAfter, _ | _⟩
  · cases emitted
  · rcases symbolsWritten with ⟨symbolsAfter, _ | _⟩
    · cases emitted
    · exact ⟨codeIs rfl, symbolsAre rfl⟩

/-- What two emissions write to two streams each: the same image is that of the same program, and
the same table is that of the same symbols. -/
theorem emissions_determine {first second : Compiled} {code symbols otherCode otherSymbols : Sink}
    (emitted : (first.emit code symbols).2.2 = .ok ())
    (otherEmitted : (second.emit otherCode otherSymbols).2.2 = .ok ()) :
    (∀ written : List UInt8,
      (∀ statement ∈ first.program, statement.body.WithoutDouble) →
      (∀ statement ∈ second.program, statement.body.WithoutDouble) →
      (first.emit code symbols).1.content = code.content ++ written →
      (second.emit otherCode otherSymbols).1.content = otherCode.content ++ written →
      first.program = second.program) ∧
    ∀ written : List UInt8,
      (first.emit code symbols).2.1.content = symbols.content ++ written →
      (second.emit otherCode otherSymbols).2.1.content = otherSymbols.content ++ written →
      first.symbols = second.symbols := by
  obtain ⟨codeIs, symbolsAre⟩ := emit_content emitted
  obtain ⟨otherCodeIs, otherSymbolsAre⟩ := emit_content otherEmitted
  constructor
  · intro written exact otherExact codeWritten otherCodeWritten
    refine program_eq_of_image exact otherExact (Text.Utf8.encode_inj ?_)
    rw [List.append_cancel_left (codeIs.symm.trans codeWritten),
      List.append_cancel_left (otherCodeIs.symm.trans otherCodeWritten)]
  · intro written symbolsWritten otherSymbolsWritten
    refine symbols_eq_of_symbolTable (Text.Utf8.encode_inj ?_)
    rw [List.append_cancel_left (symbolsAre.symm.trans symbolsWritten),
      List.append_cancel_left (otherSymbolsAre.symm.trans otherSymbolsWritten)]

/-- A literal and, on the next line, the declaration of a negative number. -/
def literalDiscarded : Compiled where
  statements := [(.expr (.literal (.int 1)) false ⟨1, 1⟩, .void),
    (.declare "x" none (.unary .neg (.literal (.int 2)) ⟨2, 9⟩) ⟨2, 5⟩, .int)]
  symbols := [⟨"x", .int, ⟨2, 5⟩⟩]
  warnings := [.warning ⟨1, 1⟩ "literal value is discarded"]

theorem literalDiscarded_emitted_alike :
    (literalDiscarded.emit .unlimited .unlimited).2.2 = .ok () ∧
      (∀ statement ∈ literalDiscarded.program, statement.body.WithoutDouble) ∧
      (literalDiscarded.emit .unlimited .unlimited).1.content =
        ({ literalDiscarded with warnings := [] }.emit .unlimited .unlimited).1.content ∧
      literalDiscarded.program = { literalDiscarded with warnings := [] }.program ∧
      literalDiscarded.symbols = { literalDiscarded with warnings := [] }.symbols := by
  have emitted : (literalDiscarded.emit .unlimited .unlimited).2.2 = .ok () := rfl
  have withoutDouble : ∀ statement ∈ literalDiscarded.program, statement.body.WithoutDouble := by
    simp only [program, literalDiscarded, List.map_cons, List.forall_mem_cons, List.map_nil]
    exact ⟨.literal (by decide), .unary .neg _ (.literal (by decide)), nofun⟩
  have otherEmitted :
      ({ literalDiscarded with warnings := [] }.emit .unlimited .unlimited).2.2 = .ok () := rfl
  obtain ⟨programs, symbols⟩ := emissions_determine emitted otherEmitted
  obtain ⟨codeIs, symbolsAre⟩ := emit_content emitted
  obtain ⟨otherCodeIs, otherSymbolsAre⟩ := emit_content otherEmitted
  exact ⟨emitted, withoutDouble, codeIs.trans otherCodeIs.symm,
    programs _ withoutDouble withoutDouble codeIs otherCodeIs,
    symbols _ symbolsAre otherSymbolsAre⟩

end Calc.Compiled

end Colloquy

import Colloquy.Proofs.Calc.Program

set_option autoImplicit false

/-!
Complaints about a text that is put together line by line. A complaint about a statement stands at
one of its lexemes or at the one that ends it, and names the token found there. So the complaints
about two parts with a line break between them are those about each part, except that the first part
does not end with the text any more: where its last statement wanted to go on, it is the end of the
line that is found.
-/

namespace Colloquy

/-- A complaint that found the end of the text, as it reads where another line follows. -/
def Diagnostic.atLineEnd (d : Diagnostic) : Diagnostic :=
  if "end of input".toList <:+ d.message.toList then
    { d with
      message := String.ofList (d.message.toList.take (d.message.length - "end of input".length)) ++
        "end of line" }
  else d

namespace Calc

/-! The readers. -/

namespace Parser

variable {stop : Lexeme} {lexemes : List Lexeme}

/-- The complaints about lexemes and what ends them: each is about what was left to read. -/
inductive Blames (stop : Lexeme) (lexemes : List Lexeme) : Diagnostic → Prop
  | expected (what : String) {rest : List Lexeme} :
      rest <:+ lexemes → Blames stop lexemes (expected what stop rest)
  | tooDeep {rest : List Lexeme} : rest <:+ lexemes → Blames stop lexemes (tooDeep stop rest)

theorem Blames.mono {rest : List Lexeme} {d : Diagnostic} (blames : Blames stop rest d)
    (remains : rest <:+ lexemes) : Blames stop lexemes d := by
  cases blames with
  | expected what left => exact .expected what (left.trans remains)
  | tooDeep left => exact .tooDeep (left.trans remains)

/-- A result that leaves some of the lexemes, or blames one. -/
inductive Within {α : Type} (stop : Lexeme) (lexemes : List Lexeme) :
    Except Diagnostic (α × List Lexeme) → Prop
  | ok {value : α} {rest : List Lexeme} : rest <:+ lexemes → Within stop lexemes (.ok (value, rest))
  | error {d : Diagnostic} : Blames stop lexemes d → Within stop lexemes (.error d)

theorem Within.mono {α : Type} {rest : List Lexeme} {result : Except Diagnostic (α × List Lexeme)}
    (within : Within stop rest result) (remains : rest <:+ lexemes) :
    Within stop lexemes result := by
  cases within with
  | ok left => exact .ok (left.trans remains)
  | error blames => exact .error (blames.mono remains)

/-- What is read next is read from what is left. -/
theorem Within.bind {α β : Type} {first : Except Diagnostic (α × List Lexeme)}
    {second : α × List Lexeme → Except Diagnostic (β × List Lexeme)}
    (firstWithin : Within stop lexemes first)
    (secondWithin : ∀ value rest, Within stop rest (second (value, rest))) :
    Within stop lexemes (first >>= second) := by
  cases firstWithin with
  | ok left => exact (secondWithin _ _).mono left
  | error blames => exact .error blames

def ReadsWithin {α : Type} (stop : Lexeme)
    (read : List Lexeme → Except Diagnostic (α × List Lexeme)) : Prop :=
  ∀ lexemes, Within stop lexemes (read lexemes)

theorem opening?_suffix {start : Opening} {rest : List Lexeme}
    (opens : opening? lexemes = some (start, rest)) : rest <:+ lexemes := by
  unfold opening? at opens
  split at opens
  case h_11 => cases opens
  case h_8 =>
    cases opens
    exact (List.suffix_cons _ _).trans (List.suffix_cons _ _)
  all_goals
    cases opens
    exact List.suffix_cons _ _

section

variable {operand read : List Lexeme → Except Diagnostic (Expr × List Lexeme)}
  {chain : Tier → Expr → List Lexeme → Except Diagnostic (Expr × List Lexeme)}

theorem climb_within (operands : ReadsWithin stop operand)
    (chains : ∀ tier left, ReadsWithin stop (chain tier left)) (tiers : List Tier) :
    ReadsWithin stop (climb operand chain tiers) := by
  intro lexemes
  have start := operands lexemes
  unfold climb
  generalize operand lexemes = first at start ⊢
  induction tiers generalizing first with
  | nil => exact start
  | cons tier tiers inductionHypothesis =>
    exact inductionHypothesis _ (start.bind fun left => chains tier left)

theorem arguments_within (reads : ReadsWithin stop read) (bound : Nat) :
    ReadsWithin stop (arguments read stop bound) := by
  induction bound with
  | zero => exact fun lexemes => .error (.expected _ lexemes.suffix_refl)
  | succ bound inductionHypothesis =>
    intro lexemes
    refine (reads lexemes).bind fun arg rest => ?_
    dsimp only
    split
    · refine ((inductionHypothesis _).bind fun args left => ?_).mono (List.suffix_cons _ _)
      exact .ok left.suffix_refl
    · exact .ok (List.suffix_cons _ _)
    · exact .error (.expected _ (List.suffix_refl _))

theorem callArguments_within (reads : ReadsWithin stop read) :
    ReadsWithin stop (callArguments read stop) := by
  intro lexemes
  unfold callArguments
  split
  · exact .ok (List.suffix_cons _ _)
  · exact arguments_within reads _ _

theorem closing_within (inner : Expr) : ReadsWithin stop (closing stop inner) := by
  intro lexemes
  unfold closing
  split
  · exact .ok (List.suffix_cons _ _)
  · exact .error (.expected _ (List.suffix_refl _))

end

/-- The two readers that call each other, by induction on the room that both use up. -/
theorem readers_within (stop : Lexeme) (room : Nat) :
    ReadsWithin stop (unary stop room) ∧
      ∀ tier left, ReadsWithin stop (chain stop room tier left) := by
  induction room with
  | zero =>
    constructor
    · intro lexemes
      unfold unary
      cases opens : opening? lexemes with
      | none => exact .error (.expected _ lexemes.suffix_refl)
      | some opened =>
        obtain ⟨start, rest⟩ := opened
        have left := opening?_suffix opens
        cases start with
        | literal value => exact .ok left
        | name text pos => exact .ok left
        | sign | call | group => exact .error (.tooDeep left)
    · intro tier left lexemes
      unfold chain
      split
      · split
        · exact .error (.tooDeep (List.suffix_cons _ _))
        · exact .ok (List.suffix_refl _)
      · exact .ok (List.suffix_refl _)
  | succ room inductionHypothesis =>
    obtain ⟨operands, chains⟩ := inductionHypothesis
    have expressions := climb_within operands chains [.product, .sum, .comparison, .equality]
    constructor
    · intro lexemes
      unfold unary
      cases opens : opening? lexemes with
      | none => exact .error (.expected _ lexemes.suffix_refl)
      | some opened =>
        obtain ⟨start, rest⟩ := opened
        have left := opening?_suffix opens
        cases start with
        | literal value => exact .ok left
        | name text pos => exact .ok left
        | sign op pos =>
          refine ((operands rest).bind fun operand behind => ?_).mono left
          exact .ok behind.suffix_refl
        | call function pos =>
          refine ((callArguments_within expressions rest).bind fun args behind => ?_).mono left
          exact .ok behind.suffix_refl
        | group =>
          refine ((expressions rest).bind fun inner behind => ?_).mono left
          exact closing_within inner behind
    · intro tier left lexemes
      unfold chain
      split
      · split
        · refine ((climb_within operands chains tier.tighter _).bind fun right behind => ?_).mono
            (List.suffix_cons _ _)
          exact chains tier (.binary _ left right _) behind
        · exact .ok (List.suffix_refl _)
      · exact .ok (List.suffix_refl _)

theorem expression_within (stop : Lexeme) (room : Nat) : ReadsWithin stop (expression stop room) :=
  climb_within (readers_within stop room).1 (readers_within stop room).2 _

theorem expressionStatement_within (stop : Lexeme) :
    ReadsWithin stop (expressionStatement stop) := by
  intro lexemes
  refine (expression_within stop nestingLimit lexemes).bind fun e behind => ?_
  exact .ok behind.suffix_refl

theorem statement_within (stop : Lexeme) : ReadsWithin stop (statement stop) := by
  intro lexemes
  unfold statement
  split
  · split
    · refine ((expression_within stop nestingLimit _).bind fun init behind => ?_).mono ?_
      · exact .ok behind.suffix_refl
      · exact ⟨[_, _, _], rfl⟩
    · exact expressionStatement_within stop _
  · exact expressionStatement_within stop _

end Parser

/-- A complaint about a segment blames one of its lexemes or its stop. -/
theorem Segment.blames_of_parse {segment : Segment} {d : Diagnostic}
    (fails : segment.parse = .error d) : Parser.Blames segment.stop segment.body d := by
  have within := Parser.statement_within segment.stop segment.body
  rw [parse] at fails
  cases reads : Parser.statement segment.stop segment.body with
  | error d =>
    rw [reads] at fails within
    cases fails
    cases within with
    | error blames => exact blames
  | ok taken =>
    rw [reads] at fails within
    obtain ⟨statement, rest⟩ := taken
    cases within with
    | ok left =>
      simp only [bind, Except.bind] at fails
      split at fails
      · cases fails
      · cases fails
        exact .expected _ left

/-! Messages. Only the end of the text is described by a text that ends in its words. -/

theorem t_not_mem_natDigits (n : Nat) : 't' ∉ Decimal.natDigits n := by
  intro membership
  have isDigit := Nat.isDigit_of_mem_toDigits (by decide) (by decide) membership
  revert isDigit
  decide

theorem t_not_mem_showInt (n : Int64) : 't' ∉ (Value.showInt n).toList := by
  rw [Value.showInt, String.toList_ofList]
  unfold Decimal.intDigits
  split
  · exact t_not_mem_natDigits _
  · simpa using t_not_mem_natDigits _

theorem t_not_mem_positionalDigits (s : Decimal.Scientific) :
    't' ∉ Decimal.positionalDigits false s := by
  have digits := t_not_mem_natDigits s.digits
  intro membership
  simp only [Decimal.positionalDigits] at membership
  split at membership
  · simp [digits] at membership
  · split at membership
    · simp [digits] at membership
    · simp only [List.mem_append, List.mem_singleton] at membership
      rcases membership with (before | point) | behind
      · exact digits (List.mem_of_mem_take before)
      · cases point
      · exact digits (List.mem_of_mem_drop behind)

theorem t_not_mem_showDouble (x : Float) : 't' ∉ (Value.showDouble x).toList := by
  rw [Value.showDouble, Decimal.Format.render]
  split
  · decide
  · rename_i negative _
    cases negative <;> decide
  · simp only [String.toList_ofList, List.mem_append, Decimal.Format.digits, Value.numberFormat,
      if_true]
    rintro (sign | shown)
    · split at sign <;> simp at sign
    · split at shown
      · simp at shown
      · exact t_not_mem_positionalDigits _ shown

theorem Token.describe_getLast? {token : Token} (notEnd : token ≠ .eof) :
    token.describe.toList.getLast? ≠ some 't' := by
  have marked (text : String) : ("`" ++ text ++ "`").toList.getLast? ≠ some 't' := by
    rw [String.toList_append, List.getLast?_append]
    simp
  cases token with
  | eof => exact (notEnd rfl).elim
  | int n => exact fun last => t_not_mem_showInt n (List.mem_of_getLast? last)
  | double x => exact fun last => t_not_mem_showDouble x (List.mem_of_getLast? last)
  | name text => exact marked text
  | operator op => exact marked op.symbol
  | _ => simp [describe]

theorem atLineEnd_of_getLast? {d : Diagnostic} (last : d.message.toList.getLast? ≠ some 't') :
    d.atLineEnd = d := by
  rw [Diagnostic.atLineEnd, if_neg]
  rintro ⟨before, same⟩
  refine last ?_
  rw [← same, List.getLast?_append]
  rfl

theorem atLineEnd_expected {lexeme : Lexeme} (notEnd : lexeme.token ≠ .eof) (what : String) :
    (Parser.expected what lexeme []).atLineEnd = Parser.expected what lexeme [] := by
  refine atLineEnd_of_getLast? ?_
  have last := lexeme.token.describe_getLast? notEnd
  change ("expected " ++ what ++ ", found " ++ lexeme.token.describe).toList.getLast? ≠ some 't'
  rw [String.toList_append, List.getLast?_append]
  cases described : lexeme.token.describe.toList.getLast? with
  | none =>
    rw [Option.none_or, String.toList_append, List.getLast?_append]
    simp
  | some c => simpa [described] using last

/-- Where the text ended, the line ends. -/
theorem atLineEnd_expected_eof (what : String) (pos : Position) :
    (Parser.expected what ⟨.eof, pos⟩ []).atLineEnd = Parser.expected what ⟨.newline, pos⟩ [] := by
  change Diagnostic.atLineEnd (.error pos ("expected " ++ what ++ ", found " ++ "end of input")) =
    .error pos ("expected " ++ what ++ ", found " ++ "end of line")
  generalize "expected " ++ what ++ ", found " = before
  have ends : "end of input".toList <:+ (before ++ "end of input").toList := by
    rw [String.toList_append]
    exact List.suffix_append _ _
  have start : (before ++ "end of input").toList.take
      ((before ++ "end of input").length - "end of input".length) = before.toList := by
    rw [String.length_append, Nat.add_sub_cancel, String.toList_append, ← String.length_toList]
    exact List.take_left
  rw [Diagnostic.atLineEnd]
  simp only [Diagnostic.error, if_pos ends, start, String.ofList_toList]

theorem atLineEnd_tooDeep (lexeme : Lexeme) :
    (Parser.tooDeep lexeme []).atLineEnd = Parser.tooDeep lexeme [] := by
  refine atLineEnd_of_getLast? ?_
  change ("expression is nested too deeply (limit " ++ showNat nestingLimit ++
    ")").toList.getLast? ≠ some 't'
  rw [String.toList_append, List.getLast?_append]
  simp

/-- Where nothing found is the end of the text, no complaint speaks of it. -/
theorem Parser.Blames.atLineEnd_eq {stop : Lexeme} {lexemes : List Lexeme} {d : Diagnostic}
    (blames : Blames stop lexemes d) (stopNotEnd : stop.token ≠ .eof)
    (noEnd : ∀ lexeme ∈ lexemes, lexeme.token ≠ .eof) : d.atLineEnd = d := by
  have frontNotEnd {rest : List Lexeme} (left : rest <:+ lexemes) :
      (front stop rest).token ≠ .eof := by
    rcases rest with _ | ⟨lexeme, rest⟩
    · exact stopNotEnd
    · exact noEnd lexeme (left.mem (by simp))
  cases blames with
  | expected what left => exact atLineEnd_expected (frontNotEnd left) what
  | @tooDeep rest left => exact atLineEnd_tooDeep (front stop rest)

/-! Results of segments. -/

/-- A statement further down, or a complaint further down. -/
def shiftResult (lines : Nat) : Except Diagnostic Statement → Except Diagnostic Statement
  | .ok statement => .ok (statement.shift lines)
  | .error d => .error (d.shift lines)

/-- A segment that is not the last one of its text gives the same. -/
theorem Segment.mapError_parse {segment : Segment} (stopNotEnd : segment.stop.token ≠ .eof)
    (noEnd : ∀ lexeme ∈ segment.body, lexeme.token ≠ .eof) :
    segment.parse.mapError Diagnostic.atLineEnd = segment.parse := by
  cases parsed : segment.parse with
  | ok statement => rfl
  | error d =>
    rw [Except.mapError, (blames_of_parse parsed).atLineEnd_eq stopNotEnd noEnd]

theorem Segment.parse_shift (lines : Nat) (stop first : Lexeme) (rest : List Lexeme) :
    ((Segment.mk (first :: rest) stop).shift lines).parse =
      shiftResult lines (Segment.mk (first :: rest) stop).parse := by
  have moves := Segment.parse_moves lines stop (stop.shift lines) Iff.rfl first rest
  change (Segment.mk ((first :: rest).map (Lexeme.shift lines)) (stop.shift lines)).parse = _
  generalize (Segment.mk (first :: rest) stop).parse = result at moves ⊢
  generalize (Segment.mk _ _).parse = moved at moves ⊢
  cases moves with
  | ok statement => rfl
  | error complains =>
    cases complains with
    | expected what lexemes => cases lexemes <;> rfl
    | tooDeep lexemes => cases lexemes <;> rfl

/-- The last segment of a text that goes on with another line. -/
theorem Segment.parse_newline (first : Lexeme) (rest : List Lexeme) (pos : Position)
    (noEnd : ∀ lexeme ∈ first :: rest, lexeme.token ≠ .eof) :
    (Segment.mk (first :: rest) ⟨.newline, pos⟩).parse =
      (Segment.mk (first :: rest) ⟨.eof, pos⟩).parse.mapError Diagnostic.atLineEnd := by
  have moves := Segment.parse_moves 0 ⟨.eof, pos⟩ ⟨.newline, pos⟩ (by simp) first rest
  rw [Lexeme.map_shift_zero] at moves
  -- Only the stop differs, so a complaint is either about it or the same one in both.
  have unblamed := @mapError_parse ⟨first :: rest, ⟨.newline, pos⟩⟩ (by nofun) noEnd
  generalize (Segment.mk (first :: rest) ⟨.eof, pos⟩).parse = result at moves ⊢
  generalize (Segment.mk (first :: rest) ⟨.newline, pos⟩).parse = moved at moves unblamed ⊢
  cases moves with
  | ok statement => rw [Statement.shift_zero]; rfl
  | error complains =>
    cases complains with
    | expected what lexemes =>
      rcases lexemes with _ | ⟨lexeme, lexemes⟩
      · exact congrArg Except.error (atLineEnd_expected_eof what pos).symm
      · exact unblamed.symm
    | tooDeep lexemes => cases lexemes <;> exact unblamed.symm

theorem parseSegments_shift_eq (lines : Nat) (lexemes : List Lexeme) :
    parseSegments (lexemes.map (Lexeme.shift lines)) =
      (parseSegments lexemes).map (shiftResult lines) := by
  simp only [parseSegments, Segment.divide_shift]
  induction Segment.divide lexemes with
  | nil => rfl
  | cons segment segments inductionHypothesis =>
    obtain ⟨body, stop⟩ := segment
    rcases body with _ | ⟨first, rest⟩
    · exact inductionHypothesis
    · exact congrArg₂ List.cons (Segment.parse_shift lines stop first rest) inductionHypothesis

/-- Segments are made of the lexemes that are divided. -/
theorem Segment.subset_of_mem_divide {lexemes : List Lexeme} {segment : Segment}
    (membership : segment ∈ divide lexemes) :
    segment.stop ∈ lexemes ∧ segment.body ⊆ lexemes := by
  induction lexemes generalizing segment with
  | nil => cases membership
  | cons lexeme lexemes inductionHypothesis =>
    have later {other : Segment} (among : other ∈ divide lexemes) :
        other.stop ∈ lexeme :: lexemes ∧ other.body ⊆ lexeme :: lexemes :=
      ⟨.tail _ (inductionHypothesis among).1, fun _ inBody =>
        .tail _ ((inductionHypothesis among).2 inBody)⟩
    rw [divide] at membership
    split at membership
    · rcases List.mem_cons.mp membership with rfl | among
      · exact ⟨.head _, List.nil_subset _⟩
      · exact later among
    · split at membership
      · cases membership
      · rename_i front segments divided
        rcases List.mem_cons.mp membership with rfl | among
        · obtain ⟨stopAmong, bodyAmong⟩ := later (divided ▸ List.mem_cons_self)
          exact ⟨stopAmong, List.cons_subset.mpr ⟨.head _, bodyAmong⟩⟩
        · exact later (divided ▸ List.mem_cons_of_mem _ among)

/-- Ended by a line break instead of the end of the text, the same statements are read, and the same
complaints are made but for what is found there. -/
theorem parseSegments_atLineEnd {lexemes : List Lexeme}
    (noEnd : ∀ lexeme ∈ lexemes, lexeme.token ≠ .eof) (pos : Position) :
    parseSegments (lexemes ++ [⟨.newline, pos⟩]) =
      (parseSegments (lexemes ++ [⟨.eof, pos⟩])).map (Except.mapError Diagnostic.atLineEnd) := by
  obtain ⟨segments, body, divides⟩ := Segment.divide_last lexemes
  -- With a line break as the last stop, no segment has the end of the text in it.
  have inside : ∀ segment ∈ segments ++ [⟨body, ⟨.newline, pos⟩⟩],
      segment.stop.token ≠ .eof ∧ ∀ lexeme ∈ segment.body, lexeme.token ≠ .eof := by
    have noEndThere : ∀ lexeme ∈ lexemes ++ [⟨.newline, pos⟩], lexeme.token ≠ .eof := by
      intro lexeme membership
      rcases List.mem_append.mp membership with before | isBreak
      · exact noEnd lexeme before
      · rw [List.mem_singleton.mp isBreak]
        nofun
    intro segment membership
    rw [← divides ⟨.newline, pos⟩ rfl] at membership
    obtain ⟨stopAmong, bodyAmong⟩ := Segment.subset_of_mem_divide membership
    exact ⟨noEndThere _ stopAmong, fun lexeme inBody => noEndThere _ (bodyAmong inBody)⟩
  simp only [parseSegments, divides ⟨.eof, pos⟩ rfl, divides ⟨.newline, pos⟩ rfl,
    List.filter_append, List.map_append, List.map_map]
  congr 1
  · refine List.map_congr_left fun segment membership => ?_
    obtain ⟨stopNotEnd, bodyNoEnd⟩ :=
      inside segment (List.mem_append_left _ (List.mem_filter.mp membership).1)
    exact (Segment.mapError_parse stopNotEnd bodyNoEnd).symm
  · rcases body with _ | ⟨first, rest⟩
    · rfl
    · obtain ⟨_, bodyNoEnd⟩ := inside ⟨first :: rest, ⟨.newline, pos⟩⟩ (by simp)
      exact congrArg (fun result => [result]) (Segment.parse_newline first rest pos bodyNoEnd)

/-- Complaints change with the results that they are. -/
theorem filterMap_failure?_map {change : Except Diagnostic Statement → Except Diagnostic Statement}
    {retell : Diagnostic → Diagnostic}
    (changes : ∀ result, failure? (change result) = (failure? result).map retell)
    (results : List (Except Diagnostic Statement)) :
    (results.map change).filterMap failure? = (results.filterMap failure?).map retell := by
  rw [List.filterMap_map, List.map_filterMap]
  congr 1
  funext result
  exact changes result

/-! Texts. -/

/-- The complaints about the statements of a text, as far as its characters can be read. -/
def syntaxComplaints (source : String) : List Diagnostic :=
  (parseSegments (lex source).1).filterMap failure?

theorem parse_eq_error_iff {source : String} {complaints : List Diagnostic} :
    parse source = .error complaints ↔
      complaints = (lex source).2 ++ syntaxComplaints source ∧ complaints ≠ [] := by
  rw [syntaxComplaints]
  unfold parse
  dsimp only
  constructor
  · intro refused
    split at refused
    case h_1 => cases refused
    case h_2 some =>
      cases refused
      exact ⟨rfl, some⟩
  · rintro ⟨rfl, some⟩
    split
    case h_1 nothing => exact (some nothing).elim
    case h_2 => rfl

namespace Lexer

/-- Only a backslash waits for a character. -/
theorem eq_backslash_of_step {s : State} {c : Char} (waits : (step s c).1.mode.isEscape = true) :
    c = '\\' := by
  have neither {p : Prop} [Decidable p] {first second : State × List Item}
      (firstNot : first.1.mode.isEscape = false) (secondNot : second.1.mode.isEscape = false) :
      (if p then first else second).1.mode.isEscape = false := by
    split <;> assumption
  have readyNever (s : State) : (ready s c).1.mode.isEscape = false := by
    unfold ready
    iterate 10 refine neither rfl ?_
    split <;> rfl
  have interrupted : (interrupt s c).1.mode.isEscape = false := readyNever _
  obtain ⟨mode, pos, depth⟩ := s
  by_contra notBackslash
  refine Bool.eq_false_iff.mp ?_ waits
  cases mode with
  | ready => exact readyNever _
  | escape => rfl
  | operator start first =>
    simp only [step]
    repeat' split
    all_goals first
      | exact interrupted
      | rfl
  | _ =>
    simp only [step, notBackslash, if_false]
    repeat' split
    all_goals first
      | exact interrupted
      | rfl

theorem after_mode_isEscape {text : List Char} (unescaped : text.getLast? ≠ some '\\') :
    (after .initial text).mode.isEscape = false := by
  rcases List.eq_nil_or_concat text with rfl | ⟨before, c, rfl⟩
  · rfl
  · rw [List.concat_eq_append] at unescaped ⊢
    rw [after_append, Bool.eq_false_iff]
    intro waits
    exact unescaped (by simp [eq_backslash_of_step waits])

end Lexer

open Lexer

theorem syntaxComplaints_append_line {first : String}
    (closed : (after .initial first.toList).depth = 0)
    (ends : (after .initial first.toList).mode.isEscape = false) (second : String) :
    syntaxComplaints (first ++ "\n" ++ second) =
      (syntaxComplaints first).map Diagnostic.atLineEnd ++
        (syntaxComplaints second).map (Diagnostic.shift (linesBehind first.toList)) := by
  obtain ⟨lexemes, pos, firstLexemes, bothLexemes, _⟩ := lex_append_line closed ends second
  obtain ⟨inner, finish, split, noEnd⟩ := lex_eq_append_eof first
  obtain ⟨rfl, _⟩ := List.append_inj' (firstLexemes.symm.trans split) rfl
  have newlineStops : (Lexeme.mk .newline pos).token.isStop = true := rfl
  rw [syntaxComplaints, bothLexemes, parseSegments_append_stop lexemes _ newlineStops,
    parseSegments_atLineEnd noEnd, parseSegments_shift_eq, List.filterMap_append, ← firstLexemes]
  refine congrArg₂ List.append (filterMap_failure?_map ?_ _) (filterMap_failure?_map ?_ _)
  · rintro (d | statement) <;> rfl
  · rintro (d | statement) <;> rfl

/-- Two texts with a line break between them, where no parenthesis is open and no backslash stands
before it: they are read if and only if each one is, as the first program and then the second one
further down. Otherwise the complaints are those about the characters of both, then those about the
statements of both. -/
theorem parse_line_break {first : String} (unescaped : first.toList.getLast? ≠ some '\\')
    (closed : (after .initial first.toList).depth = 0) (second : String) :
    parse (first ++ "\n" ++ second) =
      match parse first, parse second with
      | .ok front, .ok back =>
        .ok (front ++ back.map (Statement.shift (linesBehind first.toList)))
      | _, _ =>
        .error ((lex first).2 ++ (lex second).2.map (Diagnostic.shift (linesBehind first.toList)) ++
          ((syntaxComplaints first).map Diagnostic.atLineEnd ++
            (syntaxComplaints second).map (Diagnostic.shift (linesBehind first.toList)))) := by
  have ends := after_mode_isEscape unescaped
  obtain ⟨_, _, _, _, characters⟩ := lex_append_line closed ends second
  have statements := syntaxComplaints_append_line closed ends second
  -- A text that is not read has a complaint, which is still one in the whole text.
  have fails {part : String} {complaints : List Diagnostic}
      (partFails : parse part = .error complaints) (isPart : part = first ∨ part = second) :
      parse (first ++ "\n" ++ second) =
        .error ((lex (first ++ "\n" ++ second)).2 ++
          syntaxComplaints (first ++ "\n" ++ second)) := by
    refine parse_eq_error_iff.mpr ⟨rfl, ?_⟩
    obtain ⟨rfl, complained⟩ := parse_eq_error_iff.mp partFails
    intro nothing
    rw [characters, statements] at nothing
    simp only [List.append_eq_nil_iff, List.map_eq_nil_iff] at nothing
    obtain ⟨⟨firstCharacters, secondCharacters⟩, firstStatements, secondStatements⟩ := nothing
    rcases isPart with rfl | rfl
    · exact complained (by rw [firstCharacters, firstStatements]; rfl)
    · exact complained (by rw [secondCharacters, secondStatements]; rfl)
  rw [← characters, ← statements]
  cases frontParsed : parse first with
  | error complaints => exact fails frontParsed (.inl rfl)
  | ok front =>
    cases backParsed : parse second with
    | error complaints => exact fails backParsed (.inr rfl)
    | ok back =>
      exact (parse_append_line closed ends second _).mpr ⟨front, back, frontParsed, backParsed, rfl⟩

theorem unfinished_sum_before_line :
    "1 + // (".toList.getLast? ≠ some '\\' ∧
      (after .initial "1 + // (".toList).depth = 0 ∧
      parse "1 + // (" = .error [.error ⟨1, 5⟩ "expected expression, found end of input"] ∧
      parse ("1 + // (" ++ "\n" ++ "$ )") =
        .error [.error ⟨2, 1⟩ "unexpected character `$`",
          .error ⟨1, 5⟩ "expected expression, found end of line",
          .error ⟨2, 3⟩ "expected expression, found `)`"] := by
  have unescaped : "1 + // (".toList.getLast? ≠ some '\\' := by
    decide +kernel
  have closed : (after .initial "1 + // (".toList).depth = 0 := by
    decide +kernel
  have fails : parse "1 + // (" =
      .error [.error ⟨1, 5⟩ "expected expression, found end of input"] :=
    parse_eq_error_iff.mpr ⟨by decide +kernel, by nofun⟩
  refine ⟨unescaped, closed, fails, ?_⟩
  rw [parse_line_break unescaped closed "$ )", fails]
  refine congrArg Except.error ?_
  decide +kernel

end Calc

end Colloquy

import Colloquy.Proofs.Calc.Lines
import Colloquy.Proofs.Calc.Printing

set_option autoImplicit false

/-!
Tokens as texts. A token is read back from its spelling wherever that stands between two tokens, and
with blanks between them tokens are read back one by one: none of them goes on in the next one.
-/

namespace Colloquy

namespace Text

/-! No character is of two of the classes that tell how a token starts. -/

/-- Whether no code point is in ranges of both lists. -/
def Ranges.areApart (first second : Ranges) : Bool :=
  first.all fun range => second.all fun other => range.2 < other.1 || other.2 < range.1

theorem Ranges.contains_of_areApart {first second : Ranges} (apart : first.areApart second = true)
    {c : Char} (among : first.contains c = true) : second.contains c = false := by
  obtain ⟨range, rangeAmong, low, high⟩ :
      ∃ range ∈ first, range.1 ≤ c.toNat ∧ c.toNat ≤ range.2 := by
    simpa [contains] using among
  have separate : ∀ other ∈ second, range.2 < other.1 ∨ other.2 < range.1 := by
    simpa [areApart] using List.all_eq_true.mp apart range rangeAmong
  apply List.any_eq_false.mpr
  intro other otherAmong inside
  simp only [Bool.and_eq_true, decide_eq_true_eq] at inside
  have := separate other otherAmong
  omega

def digitRanges : Ranges := [(0x30, 0x39)]

def nameStartRanges : Ranges :=
  (0x41, 0x5A) :: (0x5F, 0x5F) :: (0x61, 0x7A) :: letterRanges

theorem contains_of_isDigit {c : Char} (isDigit : c.isDigit = true) :
    digitRanges.contains c = true := by
  simp only [Char.isDigit, Bool.and_eq_true, decide_eq_true_eq, ge_iff_le,
    UInt32.le_iff_toNat_le] at isDigit
  simpa [digitRanges, Ranges.contains] using isDigit

theorem contains_of_isNameStart {c : Char} (starts : isNameStart c = true) :
    nameStartRanges.contains c = true := by
  have isAlpha : c.isAlpha =
      (decide ('A'.val ≤ c.val ∧ c.val ≤ 'Z'.val) || 'a'.val ≤ c.val && c.val ≤ 'z'.val) := rfl
  simp only [isNameStart, isLetter, isAlpha, Bool.or_eq_true, Bool.and_eq_true, decide_eq_true_eq,
    beq_iff_eq, UInt32.le_iff_toNat_le] at starts
  simp only [Ranges.contains, nameStartRanges, List.any_cons, Bool.or_eq_true, Bool.and_eq_true,
    decide_eq_true_eq]
  rcases starts with ((upper | lower) | letter) | rfl
  · exact .inl upper
  · exact .inr (.inr (.inl lower))
  · exact .inr (.inr (.inr letter))
  · exact .inr (.inl ⟨by decide, by decide⟩)

theorem isBlank_of_isDigit {c : Char} (isDigit : c.isDigit = true) : isBlank c = false :=
  Ranges.contains_of_areApart (by decide) (contains_of_isDigit isDigit)

theorem isBlank_of_isNameStart {c : Char} (starts : isNameStart c = true) : isBlank c = false :=
  Ranges.contains_of_areApart (by decide +kernel) (contains_of_isNameStart starts)

theorem isDigit_of_isNameStart {c : Char} (starts : isNameStart c = true) : c.isDigit = false := by
  have outside : digitRanges.contains c = false :=
    Ranges.contains_of_areApart (by decide +kernel) (contains_of_isNameStart starts)
  apply Bool.eq_false_iff.mpr
  intro isDigit
  rw [contains_of_isDigit isDigit] at outside
  cases outside

theorem ne_newline_of_isBlank {c : Char} (notBlank : isBlank c = false) : c ≠ '\n' := by
  rintro rfl
  exact absurd notBlank (by decide)

end Text

namespace Calc

/-- A character of a string as it is written between quotation marks. -/
def escaped : Char → List Char
  | '\\' => ['\\', '\\']
  | '"' => ['\\', '"']
  | '\n' => ['\\', 'n']
  | c => [c]

def Token.spelling : Token → List Char
  | .int n => (Value.showInt n).toList
  | .double x => (Value.showDouble x).toList
  | .string text => '"' :: text.toList.flatMap escaped ++ ['"']
  | .name text => text.toList
  | .operator op => op.symbol.toList
  | .bang => ['!']
  | .assign => ['=']
  | .leftParen => ['(']
  | .rightParen => [')']
  | .comma => [',']
  | .semicolon => [';']
  | .newline => ['\n']
  | .eof => []

/-- Tokens with a blank between each two. -/
def spaced (tokens : List Token) : List Char :=
  [' '].intercalate (tokens.map Token.spelling)

/-- Whether a token stands inside a statement and is read back from its spelling. -/
def Token.isLegible : Token → Bool
  | .int n => 0 ≤ n.toInt
  | .name text => isWord text
  | .double _ => false
  | token => !token.isStop

namespace Lexer

section

variable {depth : Nat} {pos : Position}

/-! How a token goes on. -/

/-- A part of a token that gives nothing out. -/
def Extends (mode longer : Mode) (depth : Nat) (text : List Char) : Prop :=
  ∀ pos, ∃ next, given ⟨mode, pos, depth⟩ text = [] ∧
    after ⟨mode, pos, depth⟩ text = ⟨longer, next, depth⟩

theorem Extends.single {mode longer : Mode} {c : Char}
    (goesOn : ∀ pos, step ⟨mode, pos, depth⟩ c = (⟨longer, right pos, depth⟩, [])) :
    Extends mode longer depth [c] := by
  intro pos
  refine ⟨right pos, ?_, ?_⟩
  · rw [given, goesOn, given, List.append_nil]
  · rw [after, goesOn, after]

theorem Extends.append {mode longer longest : Mode} {first second : List Char}
    (firstExtends : Extends mode longer depth first)
    (secondExtends : Extends longer longest depth second) :
    Extends mode longest depth (first ++ second) := by
  intro pos
  obtain ⟨middle, firstGiven, firstAfter⟩ := firstExtends pos
  obtain ⟨next, secondGiven, secondAfter⟩ := secondExtends middle
  refine ⟨next, ?_, ?_⟩
  · rw [given_append, firstGiven, firstAfter, secondGiven, List.append_nil]
  · rw [after_append, firstAfter, secondAfter]

/-- The characters of a token, each in its own spelling, are collected in reverse. -/
theorem Extends.flatMap {mode : List Char → Mode} {write : Char → List Char} {text : List Char}
    (collects : ∀ c ∈ text, ∀ read, Extends (mode read) (mode (c :: read)) depth (write c))
    (read : List Char) :
    Extends (mode read) (mode (text.reverse ++ read)) depth (text.flatMap write) := by
  induction text generalizing read with
  | nil => exact fun pos => ⟨pos, rfl, rfl⟩
  | cons c text inductionHypothesis =>
    obtain ⟨first, others⟩ := List.forall_mem_cons.mp collects
    have both := (first read).append (inductionHypothesis others (c :: read))
    rwa [List.reverse_cons, List.append_assoc, List.singleton_append, List.flatMap_cons]

theorem word_extends (start : Position) {text : List Char}
    (names : ∀ c ∈ text, Text.isNameChar c = true) (read : List Char) :
    Extends (.word start read) (.word start (text.reverse ++ read)) depth text := by
  have collected : Extends _ (.word start (text.reverse ++ read)) depth (text.flatMap fun c => [c]) :=
    .flatMap (fun c membership read => .single fun pos => by
      simp [step, names c membership]) read
  rwa [List.flatMap_singleton'] at collected

theorem digits_extend (start : Position) {text : List Char}
    (digits : ∀ c ∈ text, c.isDigit = true) (read : List Char) :
    Extends (.digits start read) (.digits start (text.reverse ++ read)) depth text := by
  have collected :
      Extends _ (.digits start (text.reverse ++ read)) depth (text.flatMap fun c => [c]) :=
    .flatMap (fun c membership read => .single fun pos => by
      simp [step, digits c membership]) read
  rwa [List.flatMap_singleton'] at collected

theorem escaped_extends (start : Position) (c : Char) (read : List Char) :
    Extends (.string start read) (.string start (c :: read)) depth (escaped c) := by
  have escape (written : Char) (notNewline : written ≠ '\n') :
      Extends (.string start read) (.string start (unescape written :: read)) depth
        ['\\', written] := by
    have waits : Extends (.string start read) (.escape start read) depth ['\\'] :=
      .single fun pos => rfl
    have taken : Extends (.escape start read) (.string start (unescape written :: read)) depth
        [written] :=
      .single fun pos => by simp [step, notNewline]
    exact waits.append taken
  unfold escaped
  split
  · exact escape '\\' (by decide)
  · exact escape '"' (by decide)
  · exact escape 'n' (by decide)
  case h_4 notBackslash notQuote notNewline =>
    apply Extends.single
    intro pos
    simp only [step]
    rw [if_neg notNewline, if_neg notQuote, if_neg notBackslash]

theorem string_extends (start : Position) (text read : List Char) :
    Extends (.string start read) (.string start (text.reverse ++ read)) depth
      (text.flatMap escaped) :=
  .flatMap (fun c _ read => escaped_extends start c read) read

/-! How a token starts. -/

theorem ready_digit {c : Char} (isDigit : c.isDigit = true) :
    step ⟨.ready, pos, depth⟩ c = (⟨.digits pos [c], right pos, depth⟩, []) := by
  have notBlank := Text.isBlank_of_isDigit isDigit
  have notNewline := Text.ne_newline_of_isBlank notBlank
  simp [step, ready, isDigit, notBlank, notNewline]

theorem ready_word {c : Char} (starts : Text.isNameStart c = true) :
    step ⟨.ready, pos, depth⟩ c = (⟨.word pos [c], right pos, depth⟩, []) := by
  have notBlank := Text.isBlank_of_isNameStart starts
  have notNewline := Text.ne_newline_of_isBlank notBlank
  have notDigit := Text.isDigit_of_isNameStart starts
  simp [step, ready, starts, notDigit, notBlank, notNewline]

end

/-! How a token ends. -/

/-- Whether a token that is being read ends where a blank follows it. -/
def Mode.endsAtBlank : Mode → Bool
  | .comment | .string .. | .escape .. => false
  | _ => true

theorem step_eq_interrupt {s : State} (ends : s.mode.endsAtBlank = true) {c : Char}
    (isBreak : c ∈ [' ', ';', '\n']) : step s c = interrupt s c := by
  have notName : Text.isNameChar c = false := by
    have none : [' ', ';', '\n'].all (!Text.isNameChar ·) = true := by
      decide +kernel
    simpa using List.all_eq_true.mp none c isBreak
  simp only [List.mem_cons, List.not_mem_nil, or_false] at isBreak
  obtain ⟨mode, pos, depth⟩ := s
  cases mode with
  | comment | string | escape => cases ends
  | ready => rfl
  | word => simp [step, notName]
  | digits | point | decimals => rcases isBreak with rfl | rfl | rfl <;> rfl
  | operator => rcases isBreak with rfl | rfl | rfl <;> simp [step]

theorem step_blank {s : State} (ends : s.mode.endsAtBlank = true) :
    step s ' ' = (⟨.ready, right s.pos, s.depth⟩, s.mode.finish) := by
  have blank : ready ⟨.ready, s.pos, s.depth⟩ ' ' = (⟨.ready, right s.pos, s.depth⟩, []) := rfl
  rw [step_eq_interrupt ends (by simp), interrupt, blank, List.append_nil]

theorem step_semicolon {s : State} (ends : s.mode.endsAtBlank = true) :
    step s ';' =
      (⟨.ready, right s.pos, s.depth⟩, s.mode.finish ++ [found .semicolon s.pos]) := by
  have semicolon : ready ⟨.ready, s.pos, s.depth⟩ ';' =
      (⟨.ready, right s.pos, s.depth⟩, [found .semicolon s.pos]) := by
    rw [ready, isNameStart_mark (by simp)]
    rfl
  rw [step_eq_interrupt ends (by simp), interrupt, semicolon]

/-! Texts that are read as tokens, the last of which may still go on. -/

/-- How many parentheses are open behind a token. -/
def depthBehind (depth : Nat) : Token → Nat
  | .leftParen => depth + 1
  | .rightParen => depth - 1
  | _ => depth

/-- Read anywhere between two tokens, the text is the given tokens. -/
def Reads (text : List Char) (tokens : List Token) : Prop :=
  ∀ (pos : Position) (depth : Nat), ∃ (lexemes : List Lexeme) (s : State),
    after ⟨.ready, pos, depth⟩ text = s ∧ s.mode.endsAtBlank = true ∧
      given ⟨.ready, pos, depth⟩ text ++ s.mode.finish = lexemes.map .ok ∧
      lexemes.map Lexeme.token = tokens ∧ s.depth = tokens.foldl depthBehind depth

theorem Reads.nil : Reads [] [] :=
  fun _ _ => ⟨[], _, rfl, rfl, rfl, rfl, rfl⟩

theorem Reads.blank {first second : List Char} {firstTokens secondTokens : List Token}
    (firstReads : Reads first firstTokens) (secondReads : Reads second secondTokens) :
    Reads (first ++ ' ' :: second) (firstTokens ++ secondTokens) := by
  intro pos depth
  obtain ⟨firstLexemes, middle, middleIs, ends, firstGiven, rfl, middleDepth⟩ :=
    firstReads pos depth
  obtain ⟨lexemes, s, stateIs, laterEnds, laterGiven, rfl, stateDepth⟩ :=
    secondReads (right middle.pos) middle.depth
  refine ⟨firstLexemes ++ lexemes, s, ?_, laterEnds, ?_, List.map_append, ?_⟩
  · rw [after_append, middleIs, after, step_blank ends, stateIs]
  · rw [given_append, middleIs, given, step_blank ends, ← List.append_assoc, firstGiven,
      List.append_assoc, laterGiven, List.map_append]
  · rw [stateDepth, middleDepth, List.foldl_append]

theorem Reads.blanks {text : List Char} {tokens : List Token} (reads : Reads text tokens)
    (count : Nat) : Reads (text ++ List.replicate count ' ') tokens := by
  induction count with
  | zero => rwa [List.replicate_zero, List.append_nil]
  | succ count inductionHypothesis =>
    have further := inductionHypothesis.blank .nil
    rwa [List.append_assoc, ← List.replicate_succ', List.append_nil] at further

/-- A token whose last character leaves open whether it goes on. -/
theorem Reads.ofMode {first : Char} {rest : List Char} {token : Token}
    {mode : Position → List Char → Mode}
    (starts : ∀ pos depth,
      step ⟨.ready, pos, depth⟩ first = (⟨mode pos [first], right pos, depth⟩, []))
    (goesOn : ∀ pos depth, Extends (mode pos [first]) (mode pos (first :: rest).reverse) depth rest)
    (ends : ∀ pos, (mode pos (first :: rest).reverse).endsAtBlank = true)
    (finishes : ∀ pos, (mode pos (first :: rest).reverse).finish = [found token pos])
    (level : ∀ depth, depthBehind depth token = depth) : Reads (first :: rest) [token] := by
  intro pos depth
  obtain ⟨next, givenIs, afterIs⟩ := goesOn pos depth (right pos)
  refine ⟨[⟨token, pos⟩], ⟨mode pos (first :: rest).reverse, next, depth⟩, ?_, ends pos, ?_, rfl,
    (level depth).symm⟩
  · rw [after, starts, afterIs]
  · rw [given, starts, givenIs, finishes]
    rfl

/-- A token that ends with the last character of its spelling. -/
theorem Reads.ofReady {text : List Char} {token : Token}
    (reads : ∀ pos depth, ∃ next, given ⟨.ready, pos, depth⟩ text = [found token pos] ∧
      after ⟨.ready, pos, depth⟩ text = ⟨.ready, next, depthBehind depth token⟩) :
    Reads text [token] := by
  intro pos depth
  obtain ⟨next, givenIs, afterIs⟩ := reads pos depth
  refine ⟨[⟨token, pos⟩], _, afterIs, rfl, ?_, rfl, rfl⟩
  rw [givenIs]
  rfl

theorem digitsValue_natDigits (n : Nat) : digitsValue (Decimal.natDigits n) = n :=
  Nat.ofDigitChars_ten_toDigits

theorem Reads.int {n : Int64} (natural : 0 ≤ n.toInt) : Reads (Token.int n).spelling [.int n] := by
  obtain ⟨size, sizeIs⟩ := Int.eq_ofNat_of_zero_le natural
  have spelling : (Token.int n).spelling = Decimal.natDigits size := by
    simp [Token.spelling, Value.showInt, sizeIs, Decimal.intDigits]
  have value (pos : Position) : integer pos (Decimal.natDigits size) = found (.int n) pos := by
    rw [integer, digitsValue_natDigits, ← sizeIs, Integer.ofInt?_toInt]
  have digits : ∀ c ∈ Decimal.natDigits size, c.isDigit = true :=
    fun c membership => Nat.isDigit_of_mem_toDigits (by decide) (by decide) membership
  have nonempty : Decimal.natDigits size ≠ [] := Nat.toDigits_ne_nil
  obtain ⟨first, rest, split⟩ := List.exists_cons_of_ne_nil nonempty
  rw [split] at value digits
  rw [spelling, split]
  obtain ⟨firstDigit, restDigits⟩ := List.forall_mem_cons.mp digits
  apply Reads.ofMode (fun _ _ => ready_digit firstDigit) ?_ (fun _ => rfl) ?_ (fun _ => rfl)
  · intro pos depth
    rw [List.reverse_cons]
    exact digits_extend pos restDigits [first]
  · intro pos
    rw [Mode.finish, List.reverse_reverse, value]

theorem Reads.name {text : String} (isWord : isWord text = true) :
    Reads (Token.name text).spelling [.name text] := by
  have whole : String.ofList text.toList = text := String.ofList_toList
  rw [Token.spelling]
  rw [Calc.isWord] at isWord
  split at isWord
  case h_1 => cases isWord
  case h_2 first rest split =>
    rw [split] at whole ⊢
    obtain ⟨starts, goesOn⟩ := Bool.and_eq_true_iff.mp isWord
    apply Reads.ofMode (fun _ _ => ready_word starts) ?_ (fun _ => rfl) ?_ (fun _ => rfl)
    · intro pos depth
      rw [List.reverse_cons]
      exact word_extends pos (List.all_eq_true.mp goesOn) [first]
    · intro pos
      rw [Mode.finish, List.reverse_reverse, whole]

theorem Reads.string (text : String) : Reads (Token.string text).spelling [.string text] := by
  apply Reads.ofReady
  intro pos depth
  obtain ⟨next, givenIs, afterIs⟩ := @string_extends depth pos text.toList [] (right pos)
  have opens : step ⟨.ready, pos, depth⟩ '"' = (⟨.string pos [], right pos, depth⟩, []) := by
    rw [step, ready, isNameStart_mark (by simp)]
    rfl
  have closes : step ⟨.string pos (text.toList.reverse ++ []), next, depth⟩ '"' =
      (⟨.ready, right next, depth⟩, [found (.string text) pos]) := by
    simp [step]
  refine ⟨right next, ?_, ?_⟩
  · rw [Token.spelling, List.cons_append, given, opens, given_append, givenIs, afterIs, given,
      closes]
    rfl
  · rw [Token.spelling, List.cons_append, after, opens, after_append, afterIs, after, closes]
    rfl

/-- A character that is a token, whatever follows it. -/
theorem Reads.mark (c : Char) {token : Token}
    (isToken : ∀ pos depth, step ⟨.ready, pos, depth⟩ c =
      (⟨.ready, right pos, depthBehind depth token⟩, [found token pos])) :
    Reads [c] [token] := by
  apply Reads.ofReady
  intro pos depth
  refine ⟨right pos, ?_, ?_⟩
  · rw [given, isToken]
    rfl
  · rw [after, isToken]
    rfl

theorem ready_single {c : Char} (isMark : c ∈ "+-*%".toList) {token : Token}
    (single : singleOperator? c = some token) (pos : Position) (depth : Nat) :
    step ⟨.ready, pos, depth⟩ c = (⟨.ready, right pos, depth⟩, [found token pos]) := by
  have cases : c = '+' ∨ c = '-' ∨ c = '*' ∨ c = '%' := by
    simpa using isMark
  rcases cases with rfl | rfl | rfl | rfl
  all_goals
    rw [step, ready, isNameStart_mark (by simp)]
    cases single
    rfl

theorem marks_cases {c : Char} (isMark : c ∈ "/=!<>".toList) :
    c = '/' ∨ c = '=' ∨ c = '!' ∨ c = '<' ∨ c = '>' := by
  simpa using isMark

theorem ready_operator {c : Char} (isMark : c ∈ "/=!<>".toList) (pos : Position) (depth : Nat) :
    step ⟨.ready, pos, depth⟩ c = (⟨.operator pos c, right pos, depth⟩, []) := by
  rcases marks_cases isMark with rfl | rfl | rfl | rfl | rfl
  all_goals
    rw [step, ready, isNameStart_mark (by simp)]
    rfl

/-- An operator that would be something else with a certain character behind it. -/
theorem Reads.shorter (c : Char) {token : Token} (isMark : c ∈ "/=!<>".toList)
    (single : singleOperator? c = some token) (level : ∀ depth, depthBehind depth token = depth) :
    Reads [c] [token] := by
  let mode (pos : Position) (_ : List Char) : Mode := .operator pos c
  have starts : ∀ pos depth, step ⟨.ready, pos, depth⟩ c = (⟨mode pos [c], right pos, depth⟩, []) :=
    ready_operator isMark
  refine Reads.ofMode starts (fun _ _ pos => ⟨pos, rfl, rfl⟩) (fun _ => rfl) ?_ level
  intro pos
  simp only [mode, Mode.finish, single]

theorem Reads.longer (c : Char) {token : Token} (isMark : c ∈ "/=!<>".toList)
    (doubled : doubledOperator? c = some token) (level : ∀ depth, depthBehind depth token = depth) :
    Reads [c, '='] [token] := by
  apply Reads.ofReady
  intro pos depth
  have completes : step ⟨.operator pos c, right pos, depth⟩ '=' =
      (⟨.ready, right (right pos), depth⟩, [found token pos]) := by
    simp [step, doubled]
  rw [level]
  refine ⟨right (right pos), ?_, ?_⟩
  · rw [given, ready_operator isMark, given, completes]
    rfl
  · rw [after, ready_operator isMark, after, completes]
    rfl

theorem Reads.operator (op : BinaryOp) : Reads (Token.operator op).spelling [.operator op] := by
  cases op with
  | add => exact .mark '+' (ready_single (by simp) rfl)
  | sub => exact .mark '-' (ready_single (by simp) rfl)
  | mul => exact .mark '*' (ready_single (by simp) rfl)
  | rem => exact .mark '%' (ready_single (by simp) rfl)
  | div => exact .shorter '/' (by simp) rfl fun _ => rfl
  | lt => exact .shorter '<' (by simp) rfl fun _ => rfl
  | gt => exact .shorter '>' (by simp) rfl fun _ => rfl
  | eq => exact .longer '=' (by simp) rfl fun _ => rfl
  | ne => exact .longer '!' (by simp) rfl fun _ => rfl
  | le => exact .longer '<' (by simp) rfl fun _ => rfl
  | ge => exact .longer '>' (by simp) rfl fun _ => rfl

theorem Reads.token {token : Token} (legible : token.isLegible = true) :
    Reads token.spelling [token] := by
  cases token with
  | int n => exact .int (of_decide_eq_true legible)
  | string text => exact .string text
  | name text => exact .name legible
  | operator op => exact .operator op
  | bang => exact .shorter '!' (by simp) rfl fun _ => rfl
  | assign => exact .shorter '=' (by simp) rfl fun _ => rfl
  | leftParen | rightParen | comma =>
    apply Reads.mark
    intro pos depth
    rw [step, ready, isNameStart_mark (by simp)]
    rfl
  | double | semicolon | newline | eof => cases legible

theorem Reads.spaced {tokens : List Token} (legible : ∀ token ∈ tokens, token.isLegible = true) :
    Reads (spaced tokens) tokens := by
  induction tokens with
  | nil => exact .nil
  | cons token tokens inductionHypothesis =>
    obtain ⟨first, others⟩ := List.forall_mem_cons.mp legible
    have read : Reads token.spelling [token] := .token first
    rcases tokens with _ | ⟨next, tokens⟩
    · rwa [Calc.spaced, List.map_cons, List.map_nil, List.intercalate_singleton]
    · have further := read.blank (inductionHypothesis others)
      rwa [Calc.spaced, List.map_cons, List.map_cons, List.intercalate_cons_cons, List.append_assoc]

/-! Texts of whole lines. -/

/-- Read between two lines, with no parenthesis open, the text is lines with the given tokens. -/
def ReadsLines (text : List Char) (tokens : List Token) : Prop :=
  ∀ pos : Position, ∃ (lexemes : List Lexeme) (next : Position),
    given ⟨.ready, pos, 0⟩ text = lexemes.map .ok ∧ after ⟨.ready, pos, 0⟩ text = ⟨.ready, next, 0⟩ ∧
      lexemes.map Lexeme.token = tokens

theorem ReadsLines.nil : ReadsLines [] [] :=
  fun pos => ⟨[], pos, rfl, rfl, rfl⟩

theorem ReadsLines.append {first second : List Char} {firstTokens secondTokens : List Token}
    (firstReads : ReadsLines first firstTokens) (secondReads : ReadsLines second secondTokens) :
    ReadsLines (first ++ second) (firstTokens ++ secondTokens) := by
  intro pos
  obtain ⟨firstLexemes, middle, firstGiven, firstAfter, rfl⟩ := firstReads pos
  obtain ⟨lexemes, next, givenIs, afterIs, rfl⟩ := secondReads middle
  refine ⟨firstLexemes ++ lexemes, next, ?_, ?_, List.map_append⟩
  · rw [given_append, firstGiven, firstAfter, givenIs, List.map_append]
  · rw [after_append, firstAfter, afterIs]

theorem isEscape_of_endsAtBlank {mode : Mode} (ends : mode.endsAtBlank = true) :
    mode.isEscape = false := by
  cases mode with
  | escape => cases ends
  | _ => rfl

theorem Reads.newline {text : List Char} {tokens : List Token} (reads : Reads text tokens)
    (balanced : tokens.foldl depthBehind 0 = 0) :
    ReadsLines (text ++ ['\n']) (tokens ++ [.newline]) := by
  intro pos
  obtain ⟨lexemes, s, stateIs, ends, givenIs, rfl, level⟩ := reads pos 0
  have breaks := step_newline (isEscape_of_endsAtBlank ends)
  rw [level, balanced, if_pos rfl] at breaks
  refine ⟨lexemes ++ [⟨.newline, s.pos⟩], down s.pos, ?_, ?_, List.map_append⟩
  · rw [given_append, stateIs, given, breaks, given, List.append_nil, ← List.append_assoc, givenIs,
      List.map_append]
    rfl
  · rw [after_append, stateIs, after, breaks, after]

/-- A semicolon ends the last token, so what stands before it is as good as a line. -/
theorem Reads.semicolon {text : List Char} {tokens : List Token} (reads : Reads text tokens) :
    Reads (text ++ [';']) (tokens ++ [.semicolon]) := by
  intro pos depth
  obtain ⟨lexemes, s, stateIs, ends, givenIs, rfl, level⟩ := reads pos depth
  refine ⟨lexemes ++ [⟨.semicolon, s.pos⟩], ⟨.ready, right s.pos, s.depth⟩, ?_, rfl, ?_,
    List.map_append, ?_⟩
  · rw [after_append, stateIs, after, step_semicolon ends, after]
  · rw [given_append, stateIs, given, step_semicolon ends, given, List.append_nil, Mode.finish,
      List.append_nil, ← List.append_assoc, givenIs, List.map_append]
    rfl
  · rw [List.foldl_append, ← level]
    rfl

/-- The lexemes of a text of whole lines. -/
theorem ReadsLines.lex {text : List Char} {tokens : List Token} (reads : ReadsLines text tokens) :
    ∃ lexemes finish, lexemes.map Lexeme.token = tokens ∧
      lex (String.ofList text) = (lexemes ++ [⟨.eof, finish⟩], []) := by
  obtain ⟨lexemes, next, givenIs, afterIs, spelled⟩ := reads ⟨1, 1⟩
  have whole : run .initial text = (lexemes ++ [Lexeme.mk .eof next]).map .ok := by
    rw [run_eq_given, State.initial, givenIs, afterIs, List.map_append]
    rfl
  refine ⟨lexemes, next, spelled, ?_⟩
  rw [Calc.lex, String.toList_ofList, whole]
  simp [List.filterMap_map, Function.comp_def, lexeme?, complaint?]

end Lexer

end Calc

end Colloquy

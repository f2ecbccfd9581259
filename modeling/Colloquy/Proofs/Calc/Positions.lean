import Colloquy.Proofs.Calc.Spelling

set_option autoImplicit false

/-!
Where the lexer finds what it gives out. A grammar divides a text from left to right into blanks,
comments, tokens and faults, and places each of them by the text in front of it: by its line breaks
and by the characters since the last one. The lexer moves a position along instead, and comes to the
same places.
-/

namespace Colloquy.Calc

/-- The tokens that are always spelled in one way. -/
def Token.isMark : Token → Bool
  | .operator _ | .bang | .assign | .leftParen | .rightParen | .comma | .semicolon => true
  | _ => false

namespace Lexer

/-- The position of what stands behind a text. -/
def positionAfter (text : List Char) : Position :=
  ⟨1 + text.count '\n', 1 + (text.reverse.takeWhile (· ≠ '\n')).length⟩

theorem positionAfter_append (front : List Char) {word : List Char} (level : '\n' ∉ word) :
    positionAfter (front ++ word) =
      ⟨(positionAfter front).line, (positionAfter front).column + word.length⟩ := by
  have inWord : ∀ c ∈ word.reverse, decide (c ≠ '\n') = true := by
    intro c among
    rw [decide_eq_true_eq]
    rintro rfl
    exact level (List.mem_reverse.mp among)
  simp only [positionAfter, List.count_append, List.count_eq_zero.mpr level, Nat.add_zero,
    List.reverse_append, List.takeWhile_append_of_pos inWord, List.length_append,
    List.length_reverse, Position.mk.injEq, true_and]
  omega

theorem positionAfter_right (front : List Char) {c : Char} (notNewline : c ≠ '\n') :
    positionAfter (front ++ [c]) = right (positionAfter front) :=
  positionAfter_append front (by simpa using notNewline.symm)

theorem positionAfter_down (front : List Char) :
    positionAfter (front ++ ['\n']) = down (positionAfter front) := by
  simp [positionAfter, down, Nat.add_assoc]

theorem positionAfter_snoc (front : List Char) (c : Char) :
    positionAfter (front ++ [c]) =
      if c = '\n' then down (positionAfter front) else right (positionAfter front) := by
  split
  case isTrue newline => rw [newline, positionAfter_down]
  case isFalse notNewline => exact positionAfter_right front notNewline

/-! The grammar. A token is as long as it can be, so its rules also look at the text behind it. -/

def IsDigits (text : List Char) : Prop :=
  text ≠ [] ∧ ∀ c ∈ text, c.isDigit = true

/-- Whether a number goes on behind its first digits. -/
def lengthensDigits : List Char → Bool
  | '.' :: c :: _ => c.isDigit
  | c :: _ => c.isDigit
  | [] => false

/-- Whether a mark and the character behind it are a longer mark, or start a comment. -/
def lengthensMark : Token → List Char → Bool
  | .operator .div, '/' :: _ => true
  | .operator .lt, '=' :: _ | .operator .gt, '=' :: _ => true
  | .bang, '=' :: _ | .assign, '=' :: _ => true
  | _, _ => false

/-- How a text may be written between quotation marks. Any character may stand behind a backslash,
also a line break. -/
inductive Quotes : List Char → List Char → Prop
  | nil : Quotes [] []
  | plain {written text c} : Quotes written text →
      c ≠ '\n' → c ≠ '"' → c ≠ '\\' → Quotes (written ++ [c]) (text ++ [c])
  | escaped {written text} (c : Char) : Quotes written text →
      Quotes (written ++ ['\\', c]) (text ++ [unescape c])

/-- What spells a token in front of the rest of a text. -/
inductive Spells (rest : List Char) : List Char → Token → Prop
  | int {digits} {n : Int64} : IsDigits digits → lengthensDigits rest = false →
      n.toInt = digitsValue digits → Spells rest digits (.int n)
  | double {whole places} : IsDigits whole → IsDigits places →
      rest.head?.any Char.isDigit = false →
      Spells rest (whole ++ '.' :: places)
        (.double (Decimal.nearest false (digitsValue (whole ++ places)) (-(places.length : Int))))
  | name {first text} : Text.isNameStart first = true →
      (∀ c ∈ text, Text.isNameChar c = true) → rest.head?.any Text.isNameChar = false →
      Spells rest (first :: text) (.name (String.ofList (first :: text)))
  | string {written text} : Quotes written text →
      Spells rest ('"' :: written ++ ['"']) (.string (String.ofList text))
  | mark {token} : token.isMark = true → lengthensMark token rest = false →
      Spells rest token.spelling token

/-- A character that nothing starts with. -/
structure IsStray (c : Char) : Prop where
  notNewline : c ≠ '\n'
  notBlank : Text.isBlank c = false
  notDigit : c.isDigit = false
  notName : Text.isNameStart c = false
  notQuote : c ≠ '"'
  notMark : ∀ token : Token, token.isMark = true → token.spelling.head? ≠ some c

/-- What is complained about in front of the rest of a text. -/
inductive Faults (rest : List Char) : List Char → String → Prop
  | range {digits} : IsDigits digits → lengthensDigits rest = false →
      (∀ n : Int64, n.toInt ≠ digitsValue digits) →
      Faults rest digits ("numeric literal `" ++ String.ofList digits ++ "` is out of range")
  | string {written text} : Quotes written text → rest.head?.all (· = '\n') = true →
      Faults rest ('"' :: written) "unterminated string literal"
  | escape {written text} : Quotes written text → rest = [] →
      Faults rest ('"' :: written ++ ['\\']) "unterminated string literal"
  | character {c} : IsStray c →
      Faults rest [c] ("unexpected character `" ++ String.singleton c ++ "`")

/-- What may stand between the last token of a line and the line break. -/
def IsComment (text : List Char) : Prop :=
  text = [] ∨ ∃ words, '\n' ∉ words ∧ text = '/' :: '/' :: words

/-- The items of a text that stands behind another one, inside so many open parentheses. Each item is
at the position that all of the text before it leads to. The end of a line is where its comment
starts, if it has one, and a line break in parentheses is no item. -/
inductive Scans : Nat → List Char → List Char → List Item → Prop
  | eof {depth front comment} : IsComment comment →
      Scans depth front comment [found .eof (positionAfter front)]
  | newline {depth front comment rest items} :
      IsComment comment → Scans depth (front ++ comment ++ ['\n']) rest items →
      Scans depth front (comment ++ '\n' :: rest)
        ((if depth = 0 then [found .newline (positionAfter front)] else []) ++ items)
  | blank {depth front rest c items} :
      Text.isBlank c = true → c ≠ '\n' → Scans depth (front ++ [c]) rest items →
      Scans depth front (c :: rest) items
  | token {depth front text rest token items} :
      Spells rest text token → Scans (depthBehind depth token) (front ++ text) rest items →
      Scans depth front (text ++ rest) (found token (positionAfter front) :: items)
  | fault {depth front text rest message items} :
      Faults rest text message → Scans depth (front ++ text) rest items →
      Scans depth front (text ++ rest) (.error (.error (positionAfter front) message) :: items)

/-! What the lexer remembers of the current token is the text of it that it has read. -/

inductive Mode.Holds (start : Position) : List Char → Mode → Prop
  | ready : Mode.Holds start [] .ready
  | digits {text} : IsDigits text →
      Mode.Holds start text (.digits start text.reverse)
  | point {text} : IsDigits text →
      Mode.Holds start (text ++ ['.']) (.point start text.reverse)
  | decimals {whole places} : IsDigits whole → IsDigits places →
      Mode.Holds start (whole ++ '.' :: places) (.decimals start whole.reverse places.reverse)
  | word {first text} : Text.isNameStart first = true →
      (∀ c ∈ text, Text.isNameChar c = true) →
      Mode.Holds start (first :: text) (.word start (first :: text).reverse)
  | string {written text} : Quotes written text →
      Mode.Holds start ('"' :: written) (.string start text.reverse)
  | escape {written text} : Quotes written text →
      Mode.Holds start ('"' :: written ++ ['\\']) (.escape start text.reverse)
  | operator {first} : first ∈ "/=!<>".toList →
      Mode.Holds start [first] (.operator start first)

/-- A state behind two texts, the second of which is what it has read of the current token. The
position of a comment stays where it starts. -/
inductive State.Holds (front : List Char) : List Char → State → Prop
  | token {part mode} (depth : Nat) : mode.Holds (positionAfter front) part →
      State.Holds front part ⟨mode, positionAfter (front ++ part), depth⟩
  | comment {words} (depth : Nat) : '\n' ∉ words →
      State.Holds front ('/' :: '/' :: words) ⟨.comment, positionAfter front, depth⟩

theorem IsDigits.single {c : Char} (isDigit : c.isDigit = true) : IsDigits [c] :=
  ⟨List.cons_ne_nil c [], by simpa using isDigit⟩

theorem IsDigits.snoc {text : List Char} (digits : IsDigits text) {c : Char}
    (isDigit : c.isDigit = true) : IsDigits (text ++ [c]) :=
  ⟨by simp, by simpa [or_imp, forall_and, isDigit] using digits.2⟩

theorem ne_newline_of_isDigit {c : Char} (isDigit : c.isDigit = true) : c ≠ '\n' :=
  Text.ne_newline_of_isBlank (Text.isBlank_of_isDigit isDigit)

theorem IsDigits.newline_notMem {text : List Char} (digits : IsDigits text) : '\n' ∉ text :=
  fun among => ne_newline_of_isDigit (digits.2 _ among) rfl

theorem ne_newline_of_isNameChar {c : Char} (isNameChar : Text.isNameChar c = true) :
    c ≠ '\n' := by
  rintro rfl
  rw [isNameChar_newline] at isNameChar
  cases isNameChar

theorem isStray_of_not_operator {c : Char} (notNewline : c ≠ '\n')
    (notBlank : Text.isBlank c = false) (notDigit : c.isDigit = false)
    (notName : Text.isNameStart c = false) (notPlain : c ∉ "\"(),;".toList)
    (notOperator : singleOperator? c = none) : IsStray c where
  notNewline := notNewline
  notBlank := notBlank
  notDigit := notDigit
  notName := notName
  notQuote := by
    rintro rfl
    exact notPlain (by simp)
  notMark token isMark starts := by
    cases token with
    | operator op =>
      cases op
      all_goals
        obtain rfl := Option.some.inj starts
        cases notOperator
    | bang | assign =>
      obtain rfl := Option.some.inj starts
      cases notOperator
    | leftParen | rightParen | comma | semicolon =>
      obtain rfl := Option.some.inj starts
      exact notPlain (by simp)
    | _ => cases isMark

theorem isStray_point : IsStray '.' :=
  isStray_of_not_operator (by decide) (by decide +kernel) (by decide) (by decide +kernel)
    (by simp) rfl

theorem mem_marks_of_doubled {c : Char}
    (goesOn : (c = '/' || (doubledOperator? c).isSome) = true) : c ∈ "/=!<>".toList := by
  unfold doubledOperator? at goesOn
  split at goesOn
  all_goals simp_all

theorem single_cases {c : Char} {token : Token} (single : singleOperator? c = some token)
    (alone : ¬(c = '/' || (doubledOperator? c).isSome) = true) :
    c = '+' ∨ c = '-' ∨ c = '*' ∨ c = '%' := by
  unfold singleOperator? at single
  split at single
  all_goals simp_all [doubledOperator?]

section

variable {front part rest : List Char} {items : List Item} {depth : Nat} {c : Char}

theorem lengthensDigits_point (ends : rest.head?.any Char.isDigit = false) :
    lengthensDigits ('.' :: rest) = false := by
  rcases rest with _ | ⟨c, rest⟩
  · rfl
  · simpa [lengthensDigits] using ends

theorem lengthensDigits_cons (notDigit : c.isDigit = false) (notPoint : c ≠ '.') :
    lengthensDigits (c :: rest) = false := by
  unfold lengthensDigits
  split
  · simp_all
  · simp_all
  · rfl

theorem integer_scans {digits : List Char} (isDigits : IsDigits digits)
    (ends : lengthensDigits rest = false) (scans : Scans depth (front ++ digits) rest items) :
    Scans depth front (digits ++ rest) (integer (positionAfter front) digits :: items) := by
  cases value : Integer.ofInt? (digitsValue digits) with
  | some n =>
    have exact : n.toInt = digitsValue digits := Integer.toInt_of_ofInt?_eq_some value
    simp only [integer, value]
    exact .token (.int isDigits ends exact) scans
  | none =>
    simp only [integer, value]
    refine .fault (.range isDigits ends fun n exact => ?_) scans
    rw [← exact, Integer.ofInt?_toInt] at value
    cases value

theorem unexpectedCharacter_scans (stray : IsStray c)
    (scans : Scans depth (front ++ [c]) rest items) :
    Scans depth front (c :: rest) (unexpectedCharacter c (positionAfter front) :: items) :=
  .fault (.character stray) scans

theorem mark_scans (token : Token) (text : List Char) (isMark : token.isMark = true)
    (spells : token.spelling = text) (alone : lengthensMark token rest = false)
    (scans : Scans (depthBehind depth token) (front ++ text) rest items) :
    Scans depth front (text ++ rest) (found token (positionAfter front) :: items) := by
  subst spells
  exact .token (.mark isMark alone) scans

/-- Whether the rest of a text belongs to the token that is being read. -/
def Mode.goesOn : Mode → List Char → Bool
  | .ready, _ | .comment, _ => false
  | .digits .., rest => lengthensDigits rest
  | .point .., rest | .decimals .., rest => rest.head?.any Char.isDigit
  | .word .., rest => rest.head?.any Text.isNameChar
  | .string .., rest => rest.head?.any (· ≠ '\n')
  | .escape .., rest => !rest.isEmpty
  | .operator _ first, rest => rest.head?.any (· = if first = '/' then '/' else '=')

/-- What is given out for a token that ends is the token. -/
theorem finish_scans {mode : Mode} (holds : mode.Holds (positionAfter front) part)
    (ends : mode.goesOn rest = false) (scans : Scans depth (front ++ part) rest items) :
    Scans depth front (part ++ rest) (mode.finish ++ items) := by
  cases holds with
  | ready => simpa [Mode.finish] using scans
  | digits digits =>
    rw [Mode.finish, List.reverse_reverse]
    exact integer_scans digits ends scans
  | @point text digits =>
    -- The point is no part of the number, so it is the next thing in the text.
    have place : positionAfter (front ++ text) = ⟨(positionAfter front).line,
        (positionAfter front).column + text.reverse.length⟩ := by
      rw [positionAfter_append front digits.newline_notMem, List.length_reverse]
    rw [Mode.finish, List.reverse_reverse, ← place, List.append_assoc]
    rw [← List.append_assoc] at scans
    exact integer_scans digits (lengthensDigits_point ends)
      (unexpectedCharacter_scans isStray_point scans)
  | decimals wholeDigits placesDigits =>
    simp only [Mode.finish, decimal, List.reverse_reverse]
    exact .token (.double wholeDigits placesDigits ends) scans
  | word starts letters =>
    rw [Mode.finish, List.reverse_reverse]
    exact .token (.name starts letters ends) scans
  | string quotes =>
    refine .fault (.string quotes ?_) scans
    rcases rest with _ | ⟨c, rest⟩
    · rfl
    · simpa [Mode.goesOn] using ends
  | escape quotes =>
    exact .fault (.escape quotes (by simpa [Mode.goesOn] using ends)) scans
  | operator isMark =>
    rcases marks_cases isMark with rfl | rfl | rfl | rfl | rfl
    all_goals
      refine mark_scans _ _ rfl rfl ?_ scans
      rcases rest with _ | ⟨c, rest⟩
      · rfl
      · simp only [Mode.goesOn, List.head?_cons, Option.any_some, decide_eq_false_iff_not] at ends
        simp_all [lengthensMark]

/-- Whatever was read before it, the text is divided as the lexer reads it. -/
def IsFollowed (rest : List Char) : Prop :=
  ∀ (s : State) (front part : List Char), s.Holds front part →
    Scans s.depth front (part ++ rest) (run s rest)

namespace IsFollowed

variable (followed : IsFollowed rest)

include followed

/-- A character that the current token goes on with. -/
theorem goOn {mode : Mode} (holds : mode.Holds (positionAfter front) (part ++ [c]))
    (notNewline : c ≠ '\n') (depth : Nat) :
    Scans depth front (part ++ c :: rest)
      (run ⟨mode, right (positionAfter (front ++ part)), depth⟩ rest) := by
  have scans := followed _ front _ (.token depth holds)
  rwa [← List.append_assoc, positionAfter_right _ notNewline, List.append_assoc] at scans

theorem start {mode : Mode} (holds : mode.Holds (positionAfter front) [c])
    (notNewline : c ≠ '\n') (depth : Nat) :
    Scans depth front (c :: rest) (run ⟨mode, right (positionAfter front), depth⟩ rest) := by
  have scans := followed _ front _ (.token depth holds)
  rwa [positionAfter_right _ notNewline] at scans

/-- What comes behind the last character of a token. -/
theorem resume (front : List Char) (depth : Nat) :
    Scans depth front rest (run ⟨.ready, positionAfter front, depth⟩ rest) := by
  have scans := followed ⟨.ready, positionAfter (front ++ []), depth⟩ front [] (.token depth .ready)
  rwa [List.append_nil] at scans

theorem resume_right (front : List Char) (depth : Nat) (notNewline : c ≠ '\n') :
    Scans depth (front ++ [c]) rest
      (run ⟨.ready, right (positionAfter front), depth⟩ rest) := by
  rw [← positionAfter_right front notNewline]
  exact followed.resume _ depth

theorem resume_down (front : List Char) (depth : Nat) :
    Scans depth (front ++ ['\n']) rest
      (run ⟨.ready, down (positionAfter front), depth⟩ rest) := by
  rw [← positionAfter_down]
  exact followed.resume _ depth

/-- What starts with a character, after the character is read. -/
theorem scans_ready (front : List Char) (depth : Nat) (c : Char) : Scans depth front (c :: rest)
    ((ready ⟨.ready, positionAfter front, depth⟩ c).2 ++
      run (ready ⟨.ready, positionAfter front, depth⟩ c).1 rest) := by
  by_cases newline : c = '\n'
  · subst newline
    refine Scans.newline (.inl rfl) ?_
    rw [List.append_nil]
    exact followed.resume_down front depth
  have moved (depth : Nat) := followed.resume_right front depth newline
  by_cases blank : Text.isBlank c = true
  · simp only [ready, newline, blank, if_true, if_false]
    exact .blank blank newline (moved depth)
  by_cases digit : c.isDigit = true
  · simp only [ready, newline, blank, digit, if_true, if_false, Bool.false_eq_true]
    exact followed.start (.digits (.single digit)) newline depth
  by_cases name : Text.isNameStart c = true
  · simp only [ready, newline, blank, digit, name, if_true, if_false, Bool.false_eq_true]
    exact followed.start (.word name (by simp)) newline depth
  by_cases quote : c = '"'
  · subst quote
    simp only [ready, newline, blank, digit, name, if_true, if_false, Bool.false_eq_true]
    exact followed.start (.string .nil) newline depth
  simp only [ready, newline, blank, digit, name, quote, if_false, Bool.false_eq_true]
  by_cases left : c = '('
  · subst left
    exact mark_scans .leftParen ['('] rfl rfl rfl (moved (depth + 1))
  by_cases right : c = ')'
  · subst right
    exact mark_scans .rightParen [')'] rfl rfl rfl (moved (depth - 1))
  by_cases comma : c = ','
  · subst comma
    exact mark_scans .comma [','] rfl rfl rfl (moved depth)
  by_cases semicolon : c = ';'
  · subst semicolon
    exact mark_scans .semicolon [';'] rfl rfl rfl (moved depth)
  simp only [left, right, comma, semicolon, if_false]
  by_cases operator : (c = '/' || (doubledOperator? c).isSome) = true
  · simp only [operator, if_true]
    exact followed.start (.operator (mem_marks_of_doubled operator)) newline depth
  · simp only [operator]
    cases single : singleOperator? c with
    | some token =>
      rcases single_cases single operator with rfl | rfl | rfl | rfl
      all_goals
        cases single
        exact mark_scans _ [_] rfl rfl rfl (moved depth)
    | none =>
      have plain : c ∉ "\"(),;".toList := by simp [quote, left, right, comma, semicolon]
      exact unexpectedCharacter_scans (isStray_of_not_operator newline (by simpa using blank)
        (by simpa using digit) (by simpa using name) plain single) (moved depth)

theorem scans_interrupt {mode : Mode} (holds : mode.Holds (positionAfter front) part)
    (ends : mode.goesOn (c :: rest) = false) (depth : Nat) :
    Scans depth front (part ++ c :: rest)
      ((interrupt ⟨mode, positionAfter (front ++ part), depth⟩ c).2 ++
        run (interrupt ⟨mode, positionAfter (front ++ part), depth⟩ c).1 rest) := by
  simp only [interrupt, List.append_assoc]
  exact finish_scans holds ends (followed.scans_ready (front ++ part) depth c)

theorem scans_comment {words : List Char} (level : '\n' ∉ words) (depth : Nat) (c : Char) :
    Scans depth front ('/' :: '/' :: words ++ c :: rest)
      (run ⟨.comment, positionAfter front, depth⟩ (c :: rest)) := by
  by_cases newline : c = '\n'
  · subst newline
    refine Scans.newline (.inr ⟨words, level, rfl⟩) ?_
    have line : down (positionAfter (front ++ '/' :: '/' :: words)) = down (positionAfter front) := by
      rw [positionAfter_append front (by simpa using level)]
      rfl
    have scans := followed.resume_down (front ++ '/' :: '/' :: words) depth
    rwa [line] at scans
  · have longer : '\n' ∉ words ++ [c] := by
      simpa [level] using Ne.symm newline
    have scans := followed _ front _ (.comment depth longer)
    simpa [run, step, newline] using scans

theorem scans_string {written text : List Char} (quotes : Quotes written text) (depth : Nat)
    (c : Char) :
    Scans depth front ('"' :: written ++ c :: rest)
      (run ⟨.string (positionAfter front) text.reverse, positionAfter (front ++ '"' :: written),
        depth⟩ (c :: rest)) := by
  by_cases newline : c = '\n'
  · subst newline
    exact followed.scans_interrupt (.string quotes) (by simp [Mode.goesOn]) depth
  by_cases quote : c = '"'
  · subst quote
    have scans := followed.resume_right (front ++ '"' :: written) depth newline
    rw [List.append_assoc] at scans
    have closed := Scans.token (.string quotes) scans
    simpa [run, step] using closed
  by_cases backslash : c = '\\'
  · subst backslash
    exact followed.goOn (.escape quotes) newline depth
  · simp only [run, step, newline, quote, backslash, if_false]
    exact followed.goOn (by simpa using Mode.Holds.string (.plain quotes newline quote backslash))
      newline depth

/-- The one place where a token goes on behind a line break. -/
theorem scans_escape {written text : List Char} (quotes : Quotes written text) (depth : Nat)
    (c : Char) :
    Scans depth front ('"' :: written ++ ['\\'] ++ c :: rest)
      (run ⟨.escape (positionAfter front) text.reverse,
        positionAfter (front ++ ('"' :: written ++ ['\\'])), depth⟩ (c :: rest)) := by
  have longer : Mode.Holds (positionAfter front) ('"' :: (written ++ ['\\', c]))
      (.string (positionAfter front) (text ++ [unescape c]).reverse) :=
    .string (.escaped c quotes)
  have scans := followed _ front _ (.token depth longer)
  have behind : front ++ '"' :: (written ++ ['\\', c]) =
      front ++ ('"' :: written ++ ['\\']) ++ [c] := by simp
  rw [behind, positionAfter_snoc] at scans
  simpa [run, step] using scans

theorem scans_operator {first : Char} (isMark : first ∈ "/=!<>".toList) (depth : Nat) (c : Char) :
    Scans depth front ([first] ++ c :: rest)
      (run ⟨.operator (positionAfter front) first, positionAfter (front ++ [first]), depth⟩
        (c :: rest)) := by
  by_cases commented : (first = '/' && c = '/') = true
  · obtain ⟨rfl, rfl⟩ : first = '/' ∧ c = '/' := by simpa using commented
    exact followed _ front _ (.comment depth List.not_mem_nil)
  by_cases doubled : c = '='
  · subst doubled
    rcases marks_cases isMark with rfl | equal
    · exact followed.scans_interrupt (.operator isMark) rfl depth
    · have notNewline : '=' ≠ '\n' := by decide
      have scans := followed.resume_right (front ++ [first]) depth notNewline
      rw [List.append_assoc] at scans
      rcases equal with rfl | rfl | rfl | rfl
      all_goals exact mark_scans _ [_, _] rfl rfl rfl scans
  · have ends : (Mode.operator (positionAfter front) first).goesOn (c :: rest) = false := by
      by_cases slash : first = '/' <;> simp_all [Mode.goesOn]
    simp only [run, step, commented, doubled, if_false]
    exact followed.scans_interrupt (.operator isMark) ends depth

/-- A character behind a token that is being read: it goes on, or it ends. -/
theorem scans_token {mode : Mode} (holds : mode.Holds (positionAfter front) part) (depth : Nat)
    (c : Char) :
    Scans depth front (part ++ c :: rest)
      (run ⟨mode, positionAfter (front ++ part), depth⟩ (c :: rest)) := by
  cases holds with
  | ready =>
    rw [List.append_nil]
    exact followed.scans_ready front depth c
  | digits digits =>
    by_cases digit : c.isDigit = true
    · simp only [run, step, digit, if_true]
      exact followed.goOn (by simpa using Mode.Holds.digits (digits.snoc digit))
        (ne_newline_of_isDigit digit) depth
    by_cases point : c = '.'
    · subst point
      exact followed.goOn (.point digits) (by decide) depth
    · simp only [run, step, digit, point, if_false]
      exact followed.scans_interrupt (.digits digits)
        (lengthensDigits_cons (by simpa using digit) point) depth
  | point digits =>
    by_cases digit : c.isDigit = true
    · simp only [run, step, digit, if_true]
      exact followed.goOn (by simpa using Mode.Holds.decimals digits (.single digit))
        (ne_newline_of_isDigit digit) depth
    · simp only [run, step, digit]
      exact followed.scans_interrupt (.point digits) (by simpa [Mode.goesOn] using digit) depth
  | decimals wholeDigits placesDigits =>
    by_cases digit : c.isDigit = true
    · simp only [run, step, digit, if_true]
      exact followed.goOn
        (by simpa using Mode.Holds.decimals wholeDigits (placesDigits.snoc digit))
        (ne_newline_of_isDigit digit) depth
    · simp only [run, step, digit]
      exact followed.scans_interrupt (.decimals wholeDigits placesDigits)
        (by simpa [Mode.goesOn] using digit) depth
  | @word first text starts letters =>
    by_cases letter : Text.isNameChar c = true
    · have longer : ∀ d ∈ text ++ [c], Text.isNameChar d = true := by
        simpa [or_imp, forall_and, letter] using letters
      simp only [run, step, letter, if_true]
      exact followed.goOn (by simpa using Mode.Holds.word starts longer)
        (ne_newline_of_isNameChar letter) depth
    · simp only [run, step, letter]
      exact followed.scans_interrupt (.word starts letters)
        (by simpa [Mode.goesOn] using letter) depth
  | string quotes => exact followed.scans_string quotes depth c
  | escape quotes => exact followed.scans_escape quotes depth c
  | operator isMark => exact followed.scans_operator isMark depth c

end IsFollowed

end

theorem isFollowed_nil : IsFollowed [] := by
  intro s front part holds
  cases holds with
  | comment depth level =>
    rw [List.append_nil]
    exact .eof (.inr ⟨_, level, rfl⟩)
  | @token _ mode depth modeHolds =>
    have ends : mode.goesOn [] = false := by cases mode <;> rfl
    exact finish_scans modeHolds ends (.eof (.inl rfl))

/-- By induction on the rest of the text, every state that is behind a text divides the rest of it. -/
theorem isFollowed (rest : List Char) : IsFollowed rest := by
  induction rest with
  | nil => exact isFollowed_nil
  | cons c rest inductionHypothesis =>
    intro s front part holds
    cases holds with
    | comment depth level => exact inductionHypothesis.scans_comment level depth c
    | token depth modeHolds => exact inductionHypothesis.scans_token modeHolds depth c

end Lexer

/-- The lexemes of a text and the complaints about it are the items of the text, each of them at the
position of its first character. -/
theorem lex_scans (source : String) :
    ∃ items, Lexer.Scans 0 [] source.toList items ∧
      lex source = (items.filterMap Lexer.lexeme?, items.filterMap Lexer.complaint?) :=
  ⟨Lexer.run .initial source.toList,
    Lexer.isFollowed source.toList .initial [] [] (.token 0 .ready), rfl⟩

-- The first line ends where its comment starts, and an escaped line break is one all the same.
example : (lex "a // b\n\"c\\\nd\" e").1.map Lexeme.pos =
    [⟨1, 1⟩, ⟨1, 3⟩, ⟨2, 1⟩, ⟨3, 4⟩, ⟨3, 5⟩] := by
  decide +kernel

end Colloquy.Calc

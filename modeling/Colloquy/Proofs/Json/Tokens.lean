import Colloquy.Proofs.Json.Writing

set_option autoImplicit false

/-!
The tokens of a written document. Both written forms of a document are taken apart into the same ones,
for they differ in blanks alone. This holds for documents without doubles whose integers are in the
range that is kept exactly.
-/

namespace Colloquy.Json

inductive Readable : Json → Prop
  | null : Readable .null
  | bool (value : Bool) : Readable (.bool value)
  | int {n : Int} : -0x8000000000000000 ≤ n → n < 0x10000000000000000 → Readable (.int n)
  | string (text : String) : Readable (.string text)
  | list {items : List Json} : (∀ item ∈ items, Readable item) → Readable (.list items)
  | object {members : List (String × Json)} :
      (∀ member ∈ members, Readable member.2) → Readable (.object members)

/-- The texts that a document may be written as. -/
def written (document : Json) : List String :=
  [document.compact, document.pretty]

/-! Tokens. -/

def wordToken (value : Atom) : Token :=
  .atom (.ok value) (.ok ())

def stringToken (text : String) : Token :=
  .string (.ok text) (.ok ())

mutual

/-- The tokens that a document is written with. -/
def spelled : Json → List Token
  | .null => [wordToken .null]
  | .bool value => [wordToken (.bool value)]
  | .int n => [wordToken (.int n)]
  | .double x => [wordToken (.double x)]
  | .string text => [stringToken text]
  | .list [] => [.openList, .closeList]
  | .list (item :: rest) => .openList :: spelled item ++ spelledItems rest ++ [.closeList]
  | .object [] => [.openObject, .closeObject]
  | .object ((name, value) :: rest) =>
    .openObject :: (stringToken name :: .colon :: spelled value) ++ spelledMembers rest ++
      [.closeObject]

/-- The items after the first one, each after a comma. -/
def spelledItems : List Json → List Token
  | [] => []
  | item :: rest => .comma :: spelled item ++ spelledItems rest

def spelledMembers : List (String × Json) → List Token
  | [] => []
  | (name, value) :: rest =>
    .comma :: (stringToken name :: .colon :: spelled value) ++ spelledMembers rest

end

def spelledMember (member : String × Json) : List Token :=
  stringToken member.1 :: .colon :: spelled member.2

/-- In front of the rest, the characters are taken as these tokens. -/
def Takes (text : List Char) (taken : List Token) (rest : List Char) : Prop :=
  ∀ bound, (text ++ rest).length ≤ bound → ∃ less, rest.length ≤ less ∧
    tokensWithin bound (text ++ rest) = taken ++ tokensWithin less rest

section

variable {text more rest : List Char} {taken moreTaken : List Token}

theorem Takes.append (first : Takes text taken (more ++ rest)) (second : Takes more moreTaken rest) :
    Takes (text ++ more) (taken ++ moreTaken) rest := by
  intro bound enough
  rw [List.append_assoc] at enough ⊢
  obtain ⟨middle, enoughMiddle, taken⟩ := first bound enough
  obtain ⟨less, enoughLess, takenToo⟩ := second middle enoughMiddle
  exact ⟨less, enoughLess, by rw [taken, takenToo, List.append_assoc]⟩

theorem Takes.token {c : Char} {token : Token} (notSpace : isSpace c = false)
    (next : nextToken? (c :: text ++ rest) = some (token, rest)) :
    Takes (c :: text) [token] rest := by
  intro bound enough
  simp only [List.cons_append, List.length_cons, List.length_append] at enough next
  obtain ⟨less, rfl⟩ := Nat.exists_eq_add_of_le' (Nat.le_trans (Nat.le_add_left 1 _) enough)
  refine ⟨less, by omega, ?_⟩
  have starts : (c :: (text ++ rest)).dropWhile isSpace = c :: (text ++ rest) := by
    simp [notSpace]
  rw [List.cons_append, tokensWithin, starts, next]
  rfl

/-- Blanks in front of a token are no part of it. -/
theorem Takes.blanks {blanks : List Char} (areBlanks : ∀ c ∈ blanks, isSpace c = true)
    (takes : Takes text taken rest) : Takes (blanks ++ text) taken rest := by
  intro bound enough
  cases bound with
  | zero =>
    obtain ⟨rfl, rfl⟩ : blanks = [] ∧ text = [] := by
      simp only [List.length_append] at enough
      exact ⟨List.length_eq_zero_iff.mp (by omega), List.length_eq_zero_iff.mp (by omega)⟩
    exact takes 0 enough
  | succ bound =>
    rw [List.append_assoc] at enough ⊢
    have dropped : (blanks ++ (text ++ rest)).dropWhile isSpace = (text ++ rest).dropWhile isSpace :=
      List.dropWhile_append_of_pos areBlanks
    have sameTokens : tokensWithin (bound + 1) (blanks ++ (text ++ rest)) =
        tokensWithin (bound + 1) (text ++ rest) := by
      rw [tokensWithin, dropped, tokensWithin]
    rw [sameTokens]
    rw [List.length_append] at enough
    exact takes (bound + 1) (by omega)

theorem Takes.nil (rest : List Char) : Takes [] [] rest :=
  fun bound enough => ⟨bound, enough, rfl⟩

end

/-! Atoms. -/

/-- What may stand behind an integer, so that it is neither longer nor a double. -/
def EndsInteger (rest : List Char) : Prop :=
  ∀ c ∈ rest.head?, c.isDigit = false ∧ c ≠ '.' ∧ c ≠ 'e' ∧ c ≠ 'E'

theorem EndsInteger.cons {c : Char} (rest : List Char) (ends : c.isDigit = false)
    (whole : c ≠ '.' ∧ c ≠ 'e' ∧ c ≠ 'E') : EndsInteger (c :: rest) := by
  rintro other ⟨⟩
  exact ⟨ends, whole⟩

theorem EndsInteger.nil : EndsInteger [] := by
  rintro c ⟨⟩

/-- Only zero is written with a zero in front. -/
theorem natDigits_zero_in_front {n : Nat} {digits : List Char}
    (written : Decimal.natDigits n = '0' :: digits) : n = 0 := by
  induction n using Nat.strongRecOn generalizing digits with
  | ind n inductionHypothesis =>
    rw [Decimal.natDigits, Nat.toDigits_eq_if (by decide)] at written
    split at written
    case isTrue oneDigit =>
      have all : ∀ n < 10, n.digitChar = '0' → n = 0 := by decide
      exact all n oneDigit (List.cons.inj written).1
    case isFalse moreDigits =>
      obtain ⟨c, front, isFront, _⟩ := natDigits_eq_cons (n / 10)
      rw [← Decimal.natDigits, isFront, List.cons_append] at written
      rw [(List.cons.inj written).1] at isFront
      have noFront := inductionHypothesis (n / 10) (by omega) isFront
      omega

theorem scanNumber_natDigits (n : Nat) {rest : List Char} (ends : EndsInteger rest) :
    scanNumber (Decimal.natDigits n ++ rest) = ⟨Decimal.natDigits n, none, none, rest⟩ := by
  have endsNumber : EndsNumber rest := fun c isHead => (ends c isHead).1
  unfold scanNumber
  extract_lets whole
  have allDigits : whole = Decimal.natDigits n := by
    obtain ⟨c, digits, written, _⟩ := natDigits_eq_cons n
    dsimp only [whole]
    split
    case h_1 zeroInFront =>
      rw [written, List.cons_append] at zeroInFront
      rw [(List.cons.inj zeroInFront).1] at written
      rw [natDigits_zero_in_front written]
      rfl
    case h_2 => exact takeWhile_natDigits n endsNumber
  have nonempty : Decimal.natDigits n ≠ [] := Nat.toDigits_ne_nil
  rw [allDigits, List.drop_left, if_neg (by simpa using nonempty)]
  cases rest with
  | nil => rfl
  | cons c rest =>
    obtain ⟨_, notPoint, notExponent, notCapital⟩ := ends c rfl
    split
    case h_1 isPoint => exact (notPoint (List.cons.inj isPoint).1).elim
    case h_2 => simp [scanExponent, notExponent, notCapital]

theorem le_ofDigitChars (digits : List Char) (n : Nat) : n ≤ Nat.ofDigitChars 10 digits n := by
  induction digits generalizing n with
  | nil => exact Nat.le_refl n
  | cons c digits inductionHypothesis =>
    rw [Nat.ofDigitChars_cons]
    exact Nat.le_trans (by omega) (inductionHypothesis _)

/-- Digits are all taken if their value fits. -/
theorem takeWhole_of_lt (digits : List Char) (s : Significand)
    (fits : Nat.ofDigitChars 10 digits s.digits < significandLimit) :
    takeWhole s digits = (⟨Nat.ofDigitChars 10 digits s.digits, s.exponent⟩, true) := by
  induction digits generalizing s with
  | nil => rfl
  | cons c digits inductionHypothesis =>
    rw [Nat.ofDigitChars_cons, Nat.mul_comm] at fits ⊢
    have fitsSoFar := Nat.lt_of_le_of_lt (le_ofDigitChars _ _) fits
    rw [takeWhole, digitValue]
    exact (if_pos fitsSoFar).trans (inductionHypothesis _ fits)

theorem integer_token {n : Nat} (fits : n < significandLimit) (negative : Bool) {rest : List Char}
    (ends : EndsInteger rest) :
    (scanNumber (Decimal.natDigits n ++ rest)).token negative =
      wordToken (wholeNumber negative n) := by
  have read : Nat.ofDigitChars 10 (Decimal.natDigits n) 0 = n := Nat.ofDigitChars_ten_toDigits
  have taken := takeWhole_of_lt (Decimal.natDigits n) ⟨0, 0⟩ (by rwa [read])
  have faultless : NumberText.fault? ⟨Decimal.natDigits n, none, none, rest⟩ = none := by
    have nonempty : Decimal.natDigits n ≠ [] := Nat.toDigits_ne_nil
    have noDigit : (rest.head?.map Char.isDigit).getD false = false := by
      cases rest with
      | nil => rfl
      | cons c rest => exact (ends c rfl).1
    simp [NumberText.fault?, nonempty, noDigit]
  rw [scanNumber_natDigits n ends, NumberText.token, NumberText.value, faultless]
  simp only [taken, read]
  rfl

theorem isSpace_digit {c : Char} (isDigit : c.isDigit = true) : isSpace c = false := by
  rw [← Bool.not_eq_true]
  intro isBlank
  simp only [isSpace, Bool.or_eq_true, decide_eq_true_eq] at isBlank
  rcases isBlank with ((rfl | rfl) | rfl) | rfl <;> cases isDigit

theorem nextToken?_digit {c : Char} (isDigit : c.isDigit = true) (text : List Char) :
    nextToken? (c :: text) =
      some ((scanNumber (c :: text)).token false, (scanNumber (c :: text)).rest) := by
  unfold nextToken?
  split
  case h_13 _ c other same =>
    obtain ⟨rfl, rfl⟩ := List.cons.inj same
    rw [if_pos isDigit]
  case h_1 same => cases same
  all_goals
    rename_i same
    rw [(List.cons.inj same).1] at isDigit
    cases isDigit

theorem takes_int {n : Int} (low : -0x8000000000000000 ≤ n) (high : n < 0x10000000000000000)
    {rest : List Char} (ends : EndsInteger rest) :
    Takes (Decimal.intDigits n) [wordToken (.int n)] rest := by
  cases n with
  | ofNat n =>
    have fits : n < significandLimit := Int.ofNat_lt.mp high
    have token := integer_token fits false ends
    have scanned := scanNumber_natDigits n ends
    obtain ⟨c, digits, written, isDigit⟩ := natDigits_eq_cons n
    have notSpace := isSpace_digit isDigit
    change Takes (Decimal.natDigits n) _ _
    rw [written] at token scanned ⊢
    refine .token notSpace ?_
    rw [List.cons_append] at token scanned ⊢
    rw [nextToken?_digit isDigit, token, scanned]
    rfl
  | negSucc n =>
    have fits : n + 1 < significandLimit := by
      simp only [significandLimit]
      omega
    have token := integer_token fits true ends
    have scanned := scanNumber_natDigits (n + 1) ends
    have value : wholeNumber true (n + 1) = .int (.negSucc n) := by
      rw [wholeNumber, if_neg (by simp), if_pos]
      · rfl
      · simp
        omega
    refine .token rfl ?_
    change some ((scanNumber (Decimal.natDigits (n + 1) ++ rest)).token true,
      (scanNumber (Decimal.natDigits (n + 1) ++ rest)).rest) = _
    rw [token, scanned, value]

theorem takes_quote (text : String) (rest : List Char) :
    Takes (quote text) [stringToken text] rest := by
  obtain ⟨units, scanned, assembled⟩ := scanString_escaped text.toList rest
  change Takes ('"' :: (text.toList.flatMap escapeChar ++ ['"'])) _ _
  refine .token rfl ?_
  rw [List.cons_append, List.append_assoc, List.singleton_append]
  change some ((scanString (text.toList.flatMap escapeChar ++ '"' :: rest)).token,
    (scanString (text.toList.flatMap escapeChar ++ '"' :: rest)).rest) = _
  rw [scanned, Scanned.token, assembled, stringToken]
  simp [Except.map]

/-! Lists and objects are parts with commas between them, whatever blanks they are written with. -/

/-- Parts with blanks before each one and at the end. -/
def enclosed {α : Type} (opening closing : Char) (before behind : List Char)
    (write : α → List Char) : List α → List Char
  | [] => [opening, closing]
  | a :: more =>
    opening :: (before ++ write a ++ more.flatMap (',' :: before ++ write ·)) ++
      (behind ++ [closing])

def enclosedTokens {α : Type} (opening closing : Token) (tokens : α → List Token) :
    List α → List Token
  | [] => [opening, closing]
  | a :: more => opening :: (tokens a ++ more.flatMap (.comma :: tokens ·)) ++ [closing]

theorem spelled_list (items : List Json) :
    spelled (.list items) = enclosedTokens .openList .closeList spelled items := by
  have later (items : List Json) : spelledItems items = items.flatMap (.comma :: spelled ·) := by
    induction items with
    | nil => rfl
    | cons item rest inductionHypothesis => rw [spelledItems, inductionHypothesis, List.flatMap_cons]
  cases items with
  | nil => rfl
  | cons item rest => rw [spelled, later, enclosedTokens, List.cons_append]

theorem spelled_object (members : List (String × Json)) :
    spelled (.object members) = enclosedTokens .openObject .closeObject spelledMember members := by
  have later (members : List (String × Json)) :
      spelledMembers members = members.flatMap (.comma :: spelledMember ·) := by
    induction members with
    | nil => rfl
    | cons member rest inductionHypothesis =>
      rw [spelledMembers, inductionHypothesis, List.flatMap_cons, spelledMember]
  cases members with
  | nil => rfl
  | cons member rest => rw [spelled, later, enclosedTokens, spelledMember, List.cons_append]

theorem EndsInteger.blanks {blanks : List Char} (areBlanks : ∀ c ∈ blanks, isSpace c = true)
    {rest : List Char} (ends : EndsInteger rest) : EndsInteger (blanks ++ rest) := by
  rcases blanks with _ | ⟨c, blanks⟩
  · exact ends
  · have isBlank := areBlanks c List.mem_cons_self
    simp only [isSpace, Bool.or_eq_true, decide_eq_true_eq] at isBlank
    rcases isBlank with ((rfl | rfl) | rfl) | rfl <;> exact .cons _ rfl (by decide)

/-- What is written is taken as the tokens, unless it is an integer that goes on. -/
def WritesTokens (text : List Char) (tokens : List Token) : Prop :=
  ∀ rest, EndsInteger rest → Takes text tokens rest

section

variable {α : Type} {write : α → List Char} {tokens : α → List Token} {before behind : List Char}
  (beforeBlank : ∀ c ∈ before, isSpace c = true) (behindBlank : ∀ c ∈ behind, isSpace c = true)

include beforeBlank

theorem writesTokens_parts {a : α} {more : List α}
    (writes : ∀ b ∈ a :: more, WritesTokens (write b) (tokens b)) :
    WritesTokens (before ++ write a ++ more.flatMap (',' :: before ++ write ·))
      (tokens a ++ more.flatMap (.comma :: tokens ·)) := by
  induction more generalizing a with
  | nil =>
    intro rest ends
    simpa using (writes a List.mem_cons_self rest ends).blanks beforeBlank
  | cons next more inductionHypothesis =>
    intro rest ends
    obtain ⟨here, later⟩ := List.forall_mem_cons.mp writes
    have others := inductionHypothesis later rest ends
    have comma : Takes [','] [.comma]
        (before ++ write next ++ more.flatMap (',' :: before ++ write ·) ++ rest) :=
      .token rfl rfl
    have endsFirst (behind : List Char) : EndsInteger ([','] ++ behind ++ rest) :=
      .cons _ rfl (by decide)
    have first (behind : List Char) :
        Takes (before ++ write a) (tokens a) ([','] ++ behind ++ rest) :=
      (here _ (endsFirst behind)).blanks beforeBlank
    simpa using (first _).append (comma.append others)

include behindBlank in
theorem writesTokens_enclosed {opening closing : Char} {openingToken closingToken : Token}
    (opens : isSpace opening = false ∧
      ∀ rest, nextToken? (opening :: rest) = some (openingToken, rest))
    (closes : isSpace closing = false ∧
      ∀ rest, nextToken? (closing :: rest) = some (closingToken, rest))
    (ends : ∀ rest, EndsInteger (closing :: rest)) {parts : List α}
    (writes : ∀ a ∈ parts, WritesTokens (write a) (tokens a)) :
    WritesTokens (enclosed opening closing before behind write parts)
      (enclosedTokens openingToken closingToken tokens parts) := by
  intro rest _
  have closed : Takes [closing] [closingToken] rest := .token closes.1 (closes.2 rest)
  have opened (rest : List Char) : Takes [opening] [openingToken] rest :=
    .token opens.1 (opens.2 rest)
  cases parts with
  | nil => exact (opened _).append closed
  | cons a more =>
    have endsParts : EndsInteger (behind ++ [closing] ++ rest) := by
      rw [List.append_assoc]
      exact .blanks behindBlank (ends rest)
    have parts := writesTokens_parts beforeBlank writes _ endsParts
    exact ((opened _).append parts).append (closed.blanks behindBlank)

end

def memberText (write : Json → List Char) (gap : List Char) (member : String × Json) : List Char :=
  quote member.1 ++ ':' :: gap ++ write member.2

theorem writesTokens_member {write : Json → List Char} {gap : List Char}
    (gapBlank : ∀ c ∈ gap, isSpace c = true) {member : String × Json}
    (writes : WritesTokens (write member.2) (spelled member.2)) :
    WritesTokens (memberText write gap member) (spelledMember member) := by
  intro rest ends
  have value := (writes rest ends).blanks gapBlank
  have colon : Takes [':'] [.colon] (gap ++ write member.2 ++ rest) := .token rfl rfl
  simpa [memberText, spelledMember] using (takes_quote member.1 _).append (colon.append value)

section

variable {write : Json → List Char} {before behind : List Char}
  (beforeBlank : ∀ c ∈ before, isSpace c = true) (behindBlank : ∀ c ∈ behind, isSpace c = true)

include beforeBlank behindBlank

theorem writesTokens_list {items : List Json}
    (writes : ∀ item ∈ items, WritesTokens (write item) (spelled item)) :
    WritesTokens (enclosed '[' ']' before behind write items) (spelled (.list items)) := by
  rw [spelled_list]
  exact writesTokens_enclosed beforeBlank behindBlank ⟨rfl, fun _ => rfl⟩ ⟨rfl, fun _ => rfl⟩
    (fun _ => .cons _ rfl (by decide)) writes

theorem writesTokens_object {gap : List Char} (gapBlank : ∀ c ∈ gap, isSpace c = true)
    {members : List (String × Json)}
    (writes : ∀ member ∈ members, WritesTokens (write member.2) (spelled member.2)) :
    WritesTokens (enclosed '\x7b' '\x7d' before behind (memberText write gap) members)
      (spelled (.object members)) := by
  rw [spelled_object]
  exact writesTokens_enclosed beforeBlank behindBlank ⟨rfl, fun _ => rfl⟩ ⟨rfl, fun _ => rfl⟩
    (fun _ => .cons _ rfl (by decide))
    fun member membership => writesTokens_member gapBlank (writes member membership)

end

/-! The two forms. -/

theorem compactChars_list (items : List Json) :
    compactChars (.list items) = enclosed '[' ']' [] [] compactChars items := by
  have parts (item : Json) (rest : List Json) : compactItems (item :: rest) =
      compactChars item ++ rest.flatMap (',' :: compactChars ·) := by
    induction rest generalizing item with
    | nil => simp [compactItems]
    | cons next rest inductionHypothesis =>
      rw [compactItems, inductionHypothesis next, List.flatMap_cons]
      · rfl
      · exact nofun
  cases items with
  | nil => rfl
  | cons item rest =>
    rw [compactChars, parts]
    rfl

theorem compactChars_object (members : List (String × Json)) :
    compactChars (.object members) =
      enclosed '\x7b' '\x7d' [] [] (memberText compactChars []) members := by
  have parts (member : String × Json) (rest : List (String × Json)) :
      compactMembers (member :: rest) = memberText compactChars [] member ++
        rest.flatMap (',' :: memberText compactChars [] ·) := by
    induction rest generalizing member with
    | nil => simp [compactMembers, memberText]
    | cons next rest inductionHypothesis =>
      rw [compactMembers, inductionHypothesis next, List.flatMap_cons]
      · simp [memberText]
      · exact nofun
  cases members with
  | nil => rfl
  | cons member rest =>
    rw [compactChars, parts]
    rfl

theorem prettyChars_list (level : Nat) (items : List Json) :
    prettyChars level (.list items) =
      enclosed '[' ']' (lineAt (level + 1)) (lineAt level) (prettyChars (level + 1)) items := by
  have parts (level : Nat) (items : List Json) :
      prettyItems level items = items.flatMap (',' :: lineAt level ++ prettyChars level ·) := by
    induction items with
    | nil => rfl
    | cons item rest inductionHypothesis => rw [prettyItems, inductionHypothesis, List.flatMap_cons]
  cases items with
  | nil => rfl
  | cons item rest => simp [prettyChars, parts, enclosed]

theorem prettyChars_object (level : Nat) (members : List (String × Json)) :
    prettyChars level (.object members) =
      enclosed '\x7b' '\x7d' (lineAt (level + 1)) (lineAt level)
        (memberText (prettyChars (level + 1)) [' ']) members := by
  have parts (level : Nat) (members : List (String × Json)) : prettyMembers level members =
      members.flatMap (',' :: lineAt level ++ memberText (prettyChars level) [' '] ·) := by
    induction members with
    | nil => rfl
    | cons member rest inductionHypothesis =>
      simp [prettyMembers, inductionHypothesis, memberText]
  cases members with
  | nil => rfl
  | cons member rest => simp [prettyChars, parts, enclosed, memberText]

theorem isSpace_lineAt (level : Nat) : ∀ c ∈ lineAt level, isSpace c = true := by
  intro c membership
  rcases List.mem_cons.mp membership with rfl | isSpace
  · rfl
  · rw [List.eq_of_mem_replicate isSpace]
    rfl

theorem Readable.writesTokens_compact {document : Json} (readable : document.Readable) :
    WritesTokens document.compactChars document.spelled := by
  have noBlank : ∀ c ∈ ([] : List Char), isSpace c = true := nofun
  induction readable with
  | null => exact fun rest _ => .token rfl rfl
  | bool value => cases value <;> exact fun rest _ => .token rfl rfl
  | int low high => exact fun rest => takes_int low high
  | string text => exact fun rest _ => takes_quote text rest
  | list _ writes =>
    rw [compactChars_list]
    exact writesTokens_list noBlank noBlank writes
  | object _ writes =>
    rw [compactChars_object]
    exact writesTokens_object noBlank noBlank noBlank writes

theorem Readable.writesTokens_pretty {document : Json} (readable : document.Readable)
    (level : Nat) : WritesTokens (document.prettyChars level) document.spelled := by
  induction readable generalizing level with
  | null => exact fun rest _ => .token rfl rfl
  | bool value => cases value <;> exact fun rest _ => .token rfl rfl
  | int low high => exact fun rest => takes_int low high
  | string text => exact fun rest _ => takes_quote text rest
  | list _ writes =>
    rw [prettyChars_list]
    exact writesTokens_list (isSpace_lineAt _) (isSpace_lineAt _)
      fun item membership => writes item membership (level + 1)
  | object _ writes =>
    rw [prettyChars_object]
    exact writesTokens_object (isSpace_lineAt _) (isSpace_lineAt _) (by simp [isSpace])
      fun member membership => writes member membership (level + 1)

/-- Both forms of a document are taken apart into the same tokens. -/
theorem Readable.tokens_written {document : Json} (readable : document.Readable) {text : String}
    (isWritten : text ∈ document.written) : tokens text = document.spelled := by
  have whole {chars : List Char} (writes : WritesTokens chars document.spelled) :
      tokens (String.ofList chars) = document.spelled := by
    obtain ⟨less, _, taken⟩ := writes [] .nil chars.length (by simp)
    rw [List.append_nil] at taken
    have nothing : tokensWithin less [] = [] := by cases less <;> rfl
    rw [tokens, String.toList_ofList, taken, nothing, List.append_nil]
  simp only [written, List.mem_cons, List.not_mem_nil, or_false] at isWritten
  rcases isWritten with rfl | rfl
  · exact whole readable.writesTokens_compact
  · exact whole (readable.writesTokens_pretty 0)

end Colloquy.Json

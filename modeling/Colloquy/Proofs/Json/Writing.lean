import Colloquy.Json.Token
import Colloquy.Json.Writer

set_option autoImplicit false

/-!
Written documents. A string between quotation marks is read back as the text that was written, and
what follows it is left as it is. From that, the indented form of a document without doubles
determines the document: no two of them are written alike, nor is one a start of the other.
-/

namespace Colloquy.Json

/-! Strings. -/

theorem hexValue4?_control {n : Nat} (isControl : n < 0x20) :
    hexValue4? '0' '0' (hexDigit (n / 16)) (hexDigit (n % 16)) = some n := by
  have all : ∀ n < 0x20, hexValue4? '0' '0' (hexDigit (n / 16)) (hexDigit (n % 16)) = some n := by
    decide
  exact all n isControl

/-- A control character is no part of a surrogate pair. -/
theorem assemble_control {n : Nat} (isControl : n < 0x20) (units : List Unit16) :
    assemble none (.code n :: units) = (assemble none units).map (Char.ofNat n :: ·) := by
  have notLeading : isLeading n = false := by
    simp only [isLeading, Bool.and_eq_false_iff, decide_eq_false_iff_not]
    omega
  have notTrailing : isTrailing n = false := by
    simp only [isTrailing, Bool.and_eq_false_iff, decide_eq_false_iff_not]
    omega
  rcases units with _ | ⟨unit, units⟩
  · simp [assemble, notLeading, notTrailing]
  · cases unit <;> simp [assemble, notLeading, notTrailing]

theorem scanString_plain {c : Char} (notQuote : c ≠ '"') (notBackslash : c ≠ '\\')
    (notControl : ¬c.toNat < 0x20) (rest : List Char) :
    scanString (c :: rest) = (scanString rest).add (.char c) := by
  rw [scanString, if_neg notControl]
  all_goals simp [notQuote, notBackslash]

/-- A written character is read as one part of a string, which stands for that character. -/
theorem scanString_escapeChar (c : Char) (rest : List Char) :
    ∃ unit, scanString (escapeChar c ++ rest) = (scanString rest).add unit ∧
      ∀ units, assemble none (unit :: units) = (assemble none units).map (c :: ·) := by
  have plain : ∀ units, assemble none (.char c :: units) = (assemble none units).map (c :: ·) :=
    fun _ => rfl
  unfold escapeChar
  -- The quotation mark, the backslash and the five controls that have an escape of their own.
  iterate 7
    split
    · subst_vars
      exact ⟨_, rfl, plain⟩
  split
  case isTrue notQuote notBackslash _ _ _ _ _ isControl =>
    refine ⟨.code c.toNat, ?_, fun units => ?_⟩
    · simp [scanString, hexValue4?_control isControl]
    · rw [assemble_control isControl, Char.ofNat_toNat]
  case isFalse notQuote notBackslash _ _ _ _ _ notControl =>
    exact ⟨.char c, scanString_plain notQuote notBackslash notControl rest, plain⟩

theorem scanString_escaped (text rest : List Char) :
    ∃ units, scanString (text.flatMap escapeChar ++ '"' :: rest) = ⟨units, none, rest⟩ ∧
      assemble none units = .ok text := by
  induction text with
  | nil => exact ⟨[], by simp [scanString], rfl⟩
  | cons c text inductionHypothesis =>
    obtain ⟨units, scanned, assembled⟩ := inductionHypothesis
    obtain ⟨unit, first, stands⟩ := scanString_escapeChar c (text.flatMap escapeChar ++ '"' :: rest)
    refine ⟨unit :: units, ?_, ?_⟩
    · rw [List.flatMap_cons, List.append_assoc, first, scanned]
      rfl
    · rw [stands, assembled]
      rfl

/-- A written string ends where its text does. -/
theorem quote_append_inj {text other : String} {rest behind : List Char}
    (same : quote text ++ rest = quote other ++ behind) : text = other ∧ rest = behind := by
  simp only [quote, List.cons_append, List.append_assoc, List.nil_append, List.cons.injEq,
    true_and] at same
  obtain ⟨units, scanned, assembled⟩ := scanString_escaped text.toList rest
  obtain ⟨others, otherScanned, otherAssembled⟩ := scanString_escaped other.toList behind
  rw [same, otherScanned] at scanned
  cases scanned
  rw [assembled] at otherAssembled
  exact ⟨String.toList_inj.mp (Except.ok.inj otherAssembled), rfl⟩

/-! Numbers. They end at the first character that is no digit. -/

/-- What may stand behind a number. -/
def EndsNumber (rest : List Char) : Prop :=
  ∀ c ∈ rest.head?, c.isDigit = false

theorem EndsNumber.nil : EndsNumber [] := by
  rintro c ⟨⟩

theorem EndsNumber.cons {c : Char} (notDigit : c.isDigit = false) (rest : List Char) :
    EndsNumber (c :: rest) := by
  rintro other ⟨⟩
  exact notDigit

theorem isDigit_of_mem_natDigits {n : Nat} {c : Char} (membership : c ∈ Decimal.natDigits n) :
    c.isDigit = true :=
  Nat.isDigit_of_mem_toDigits (by decide) (by decide) membership

theorem takeWhile_natDigits (n : Nat) {rest : List Char} (ends : EndsNumber rest) :
    (Decimal.natDigits n ++ rest).takeWhile Char.isDigit = Decimal.natDigits n := by
  rw [List.takeWhile_append_of_pos fun _ => isDigit_of_mem_natDigits]
  rcases rest with _ | ⟨c, rest⟩
  · simp
  · simp [ends c rfl]

theorem natDigits_append_inj {n m : Nat} {rest behind : List Char} (ends : EndsNumber rest)
    (endsToo : EndsNumber behind)
    (same : Decimal.natDigits n ++ rest = Decimal.natDigits m ++ behind) :
    n = m ∧ rest = behind := by
  have digits : Decimal.natDigits n = Decimal.natDigits m := by
    rw [← takeWhile_natDigits n ends, same, takeWhile_natDigits m endsToo]
  rw [digits] at same
  refine ⟨?_, List.append_cancel_left same⟩
  calc n = Nat.ofDigitChars 10 (Decimal.natDigits n) 0 := Nat.ofDigitChars_ten_toDigits.symm
    _ = Nat.ofDigitChars 10 (Decimal.natDigits m) 0 := by rw [digits]
    _ = m := Nat.ofDigitChars_ten_toDigits

theorem natDigits_eq_cons (n : Nat) :
    ∃ c digits, Decimal.natDigits n = c :: digits ∧ c.isDigit = true := by
  cases written : Decimal.natDigits n with
  | nil => exact (Nat.toDigits_ne_nil written).elim
  | cons c digits =>
    exact ⟨c, digits, rfl, isDigit_of_mem_natDigits (written ▸ List.mem_cons_self)⟩

theorem intDigits_append_inj {n m : Int} {rest behind : List Char} (ends : EndsNumber rest)
    (endsToo : EndsNumber behind)
    (same : Decimal.intDigits n ++ rest = Decimal.intDigits m ++ behind) :
    n = m ∧ rest = behind := by
  have unsigned (k : Nat) (text other : List Char) :
      Decimal.natDigits k ++ text ≠ '-' :: other := by
    obtain ⟨c, digits, written, isDigit⟩ := natDigits_eq_cons k
    rw [written]
    rintro ⟨⟩
    cases isDigit
  cases n with
  | ofNat n =>
    cases m with
    | ofNat m =>
      obtain ⟨rfl, rest⟩ := natDigits_append_inj ends endsToo same
      exact ⟨rfl, rest⟩
    | negSucc m => exact (unsigned _ _ _ same).elim
  | negSucc n =>
    cases m with
    | ofNat m => exact (unsigned _ _ _ same.symm).elim
    | negSucc m =>
      obtain ⟨sizes, rest⟩ := natDigits_append_inj ends endsToo (List.cons.inj same).2
      obtain rfl : n = m := by omega
      exact ⟨rfl, rest⟩

/-! Documents. -/

inductive WithoutDouble : Json → Prop
  | null : WithoutDouble .null
  | bool (value : Bool) : WithoutDouble (.bool value)
  | int (value : Int) : WithoutDouble (.int value)
  | string (text : String) : WithoutDouble (.string text)
  | list {items : List Json} : (∀ item ∈ items, WithoutDouble item) → WithoutDouble (.list items)
  | object {members : List (String × Json)} :
      (∀ member ∈ members, WithoutDouble member.2) → WithoutDouble (.object members)

attribute [simp] WithoutDouble.null WithoutDouble.bool WithoutDouble.int WithoutDouble.string

@[simp] theorem withoutDouble_list {items : List Json} :
    (Json.list items).WithoutDouble ↔ ∀ item ∈ items, item.WithoutDouble :=
  ⟨fun | .list exact => exact, .list⟩

@[simp] theorem withoutDouble_object {members : List (String × Json)} :
    (Json.object members).WithoutDouble ↔ ∀ member ∈ members, member.2.WithoutDouble :=
  ⟨fun | .object exact => exact, .object⟩

/-- What the first character of a written document tells about it. -/
inductive Lead where
  | null
  | bool
  | number
  | string
  | list
  | object

def lead : Json → Lead
  | .null => .null
  | .bool _ => .bool
  | .int _ | .double _ => .number
  | .string _ => .string
  | .list _ => .list
  | .object _ => .object

def leadOf (c : Char) : Lead :=
  if c = '-' ∨ c.isDigit then .number
  else if c = '"' then .string
  else if c = '[' then .list
  else if c = '\x7b' then .object
  else if c = 'n' then .null
  else .bool

theorem prettyChars_lead {document : Json} (exact : document.WithoutDouble) (level : Nat) :
    ∃ c text, document.prettyChars level = c :: text ∧ leadOf c = document.lead := by
  cases exact with
  | null => exact ⟨_, _, rfl, rfl⟩
  | bool value => cases value <;> exact ⟨_, _, rfl, rfl⟩
  | int n =>
    cases n with
    | ofNat n =>
      obtain ⟨c, digits, written, isDigit⟩ := natDigits_eq_cons n
      exact ⟨c, digits, written, by simp [leadOf, lead, isDigit]⟩
    | negSucc n => exact ⟨_, _, rfl, rfl⟩
  | string text => exact ⟨_, _, rfl, rfl⟩
  | @list items _ => cases items <;> exact ⟨_, _, rfl, rfl⟩
  | @object members _ => cases members <;> exact ⟨_, _, rfl, rfl⟩

/-- A document that its written form determines, with where it ends. -/
def Determined (document : Json) : Prop :=
  ∀ ⦃other : Json⦄ ⦃level : Nat⦄ ⦃rest behind : List Char⦄, other.WithoutDouble →
    EndsNumber rest → EndsNumber behind →
    document.prettyChars level ++ rest = other.prettyChars level ++ behind →
    document = other ∧ rest = behind

theorem lead_eq_of_append {document other : Json} {level : Nat} {rest behind : List Char}
    (exact : document.WithoutDouble) (otherExact : other.WithoutDouble)
    (same : document.prettyChars level ++ rest = other.prettyChars level ++ behind) :
    document.lead = other.lead := by
  obtain ⟨c, text, written, isLead⟩ := prettyChars_lead exact level
  obtain ⟨d, otherText, otherWritten, otherIsLead⟩ := prettyChars_lead otherExact level
  rw [written, otherWritten] at same
  rw [← isLead, ← otherIsLead, (List.cons.inj same).1]

theorem EndsNumber.prettyItems (level : Nat) (items : List Json) (rest : List Char) :
    EndsNumber (prettyItems level items ++ '\n' :: rest) := by
  cases items <;> exact .cons rfl _

theorem EndsNumber.prettyMembers (level : Nat) (members : List (String × Json))
    (rest : List Char) : EndsNumber (prettyMembers level members ++ '\n' :: rest) := by
  cases members <;> exact .cons rfl _

/-- Items end at the line break that no comma stands before. -/
theorem prettyItems_append_inj {items others : List Json} {level : Nat} {rest behind : List Char}
    (determined : ∀ item ∈ items, Determined item) (exact : ∀ item ∈ others, WithoutDouble item)
    (same : prettyItems level items ++ '\n' :: rest = prettyItems level others ++ '\n' :: behind) :
    items = others ∧ rest = behind := by
  induction items generalizing others with
  | nil =>
    cases others with
    | nil => exact ⟨rfl, (List.cons.inj same).2⟩
    | cons other others => cases (List.cons.inj same).1
  | cons item items inductionHypothesis =>
    cases others with
    | nil => cases (List.cons.inj same).1
    | cons other others =>
      simp only [List.forall_mem_cons] at determined exact
      simp only [prettyItems, List.cons_append, List.append_assoc, List.cons.injEq, true_and,
        List.append_cancel_left_eq] at same
      obtain ⟨rfl, later⟩ := determined.1 exact.1 (.prettyItems _ _ _) (.prettyItems _ _ _) same
      obtain ⟨rfl, rest⟩ := inductionHypothesis determined.2 exact.2 later
      exact ⟨rfl, rest⟩

theorem prettyMembers_append_inj {members others : List (String × Json)} {level : Nat}
    {rest behind : List Char} (determined : ∀ member ∈ members, Determined member.2)
    (exact : ∀ member ∈ others, WithoutDouble member.2)
    (same : prettyMembers level members ++ '\n' :: rest =
      prettyMembers level others ++ '\n' :: behind) :
    members = others ∧ rest = behind := by
  induction members generalizing others with
  | nil =>
    cases others with
    | nil => exact ⟨rfl, (List.cons.inj same).2⟩
    | cons other others => cases (List.cons.inj same).1
  | cons member members inductionHypothesis =>
    cases others with
    | nil => cases (List.cons.inj same).1
    | cons other others =>
      obtain ⟨name, value⟩ := member
      obtain ⟨otherName, otherValue⟩ := other
      simp only [List.forall_mem_cons] at determined exact
      simp only [prettyMembers, List.cons_append, List.append_assoc, List.cons.injEq, true_and,
        List.append_cancel_left_eq, List.nil_append] at same
      obtain ⟨rfl, values⟩ := quote_append_inj same
      simp only [List.cons.injEq, true_and] at values
      obtain ⟨rfl, later⟩ := 
        determined.1 exact.1 (.prettyMembers _ _ _) (.prettyMembers _ _ _) values
      obtain ⟨rfl, rest⟩ := inductionHypothesis determined.2 exact.2 later
      exact ⟨rfl, rest⟩

theorem list_append_inj {items others : List Json} {level : Nat} {rest behind : List Char}
    (determined : ∀ item ∈ items, Determined item) (exact : ∀ item ∈ others, WithoutDouble item)
    (same : prettyChars level (.list items) ++ rest = prettyChars level (.list others) ++ behind) :
    items = others ∧ rest = behind := by
  rcases items with _ | ⟨item, items⟩ <;> rcases others with _ | ⟨other, others⟩
  · exact ⟨rfl, by simpa [prettyChars] using same⟩
  · simp [prettyChars, lineAt] at same
  · simp [prettyChars, lineAt] at same
  · -- The first item is written like the later ones, but for the comma.
    have written : prettyItems (level + 1) (item :: items) ++ lineAt level ++ ']' :: rest =
        prettyItems (level + 1) (other :: others) ++ lineAt level ++ ']' :: behind := by
      simpa [prettyChars, prettyItems] using same
    simp only [lineAt, List.append_assoc, List.cons_append] at written
    obtain ⟨sameItems, closings⟩ := prettyItems_append_inj determined exact written
    simp only [List.append_cancel_left_eq, List.cons.injEq, true_and] at closings
    exact ⟨sameItems, closings⟩

theorem object_append_inj {members others : List (String × Json)} {level : Nat}
    {rest behind : List Char} (determined : ∀ member ∈ members, Determined member.2)
    (exact : ∀ member ∈ others, WithoutDouble member.2)
    (same : prettyChars level (.object members) ++ rest =
      prettyChars level (.object others) ++ behind) :
    members = others ∧ rest = behind := by
  rcases members with _ | ⟨⟨name, value⟩, members⟩ <;>
    rcases others with _ | ⟨⟨otherName, otherValue⟩, others⟩
  · exact ⟨rfl, by simpa [prettyChars] using same⟩
  · simp [prettyChars, lineAt] at same
  · simp [prettyChars, lineAt] at same
  · have written :
        prettyMembers (level + 1) ((name, value) :: members) ++ lineAt level ++ '\x7d' :: rest =
          prettyMembers (level + 1) ((otherName, otherValue) :: others) ++ lineAt level ++
            '\x7d' :: behind := by
      simpa [prettyChars, prettyMembers] using same
    simp only [lineAt, List.append_assoc, List.cons_append] at written
    obtain ⟨sameMembers, closings⟩ := prettyMembers_append_inj determined exact written
    simp only [List.append_cancel_left_eq, List.cons.injEq, true_and] at closings
    exact ⟨sameMembers, closings⟩

theorem WithoutDouble.determined {document : Json} (exact : document.WithoutDouble) :
    Determined document := by
  induction exact with
  | null =>
    intro other level rest behind otherExact _ _ same
    have leads := lead_eq_of_append .null otherExact same
    cases otherExact with
    | null => exact ⟨rfl, by simpa [prettyChars] using same⟩
    | _ => cases leads
  | bool value =>
    intro other level rest behind otherExact _ _ same
    have leads := lead_eq_of_append (.bool value) otherExact same
    cases otherExact with
    | bool otherValue =>
      cases value <;> cases otherValue <;> simp [prettyChars] at same ⊢
      all_goals exact same
    | _ => cases leads
  | int n =>
    intro other level rest behind otherExact ends endsToo same
    have leads := lead_eq_of_append (.int n) otherExact same
    cases otherExact with
    | int m =>
      obtain ⟨rfl, rest⟩ := intDigits_append_inj ends endsToo same
      exact ⟨rfl, rest⟩
    | _ => cases leads
  | string text =>
    intro other level rest behind otherExact _ _ same
    have leads := lead_eq_of_append (.string text) otherExact same
    cases otherExact with
    | string otherText =>
      obtain ⟨rfl, rest⟩ := quote_append_inj same
      exact ⟨rfl, rest⟩
    | _ => cases leads
  | @list items exact determined =>
    intro other level rest behind otherExact _ _ same
    have leads := lead_eq_of_append (.list exact) otherExact same
    cases otherExact with
    | list otherExact =>
      obtain ⟨rfl, rest⟩ := list_append_inj determined otherExact same
      exact ⟨rfl, rest⟩
    | _ => cases leads
  | @object members exact determined =>
    intro other level rest behind otherExact _ _ same
    have leads := lead_eq_of_append (.object exact) otherExact same
    cases otherExact with
    | object otherExact =>
      obtain ⟨rfl, rest⟩ := object_append_inj determined otherExact same
      exact ⟨rfl, rest⟩
    | _ => cases leads

/-- No two documents without doubles are written alike. -/
theorem pretty_inj {document other : Json} (exact : document.WithoutDouble)
    (otherExact : other.WithoutDouble) (same : document.pretty = other.pretty) :
    document = other := by
  have written : document.prettyChars 0 ++ [] = other.prettyChars 0 ++ [] := by
    simpa [pretty, String.ofList_inj] using same
  exact (exact.determined otherExact .nil .nil written).1

end Colloquy.Json

import Colloquy.Text.Utf8
import Mathlib.Tactic.SplitIfs

set_option autoImplicit false

/-!
The encoding of a text is read back as that text. Reading goes byte by byte: the first byte of a
character says how many more there are and between which bounds the next one lies, and the bytes of
an encoding keep to these bounds. A character below 128 is its own byte, in both directions.
-/

namespace Colloquy.Text.Utf8

/-- What the first of several bytes leaves open. -/
def opened (a : UInt8) : Pending where
  bytes := [a]
  value := a.toNat % (if a.toNat < 0xE0 then 32 else if a.toNat < 0xF0 then 16 else 8)
  owed := if a.toNat < 0xE0 then 1 else if a.toNat < 0xF0 then 2 else 3
  low := if a = 0xE0 then 0xA0 else if a = 0xF0 then 0x90 else 0x80
  high := if a = 0xED then 0x9F else if a = 0xF4 then 0x8F else 0xBF

theorem first_single {a : UInt8} (small : a.toNat < 0x80) :
    first a = ([.char (Char.ofNat a.toNat)], none) :=
  if_pos (UInt8.lt_iff_toNat_lt.mpr small)

theorem first_opened {a : UInt8} (low : 0xC2 ≤ a.toNat) (high : a.toNat ≤ 0xF4) :
    first a = ([], some (opened a)) := by
  have large : ¬a.toNat < 128 := by omega
  unfold first opened
  simp only [UInt8.lt_iff_toNat_lt, UInt8.le_iff_toNat_le, ← UInt8.toNat_inj, UInt8.reduceToNat,
    Bool.and_eq_true, decide_eq_true_eq]
  split_ifs <;> first | rfl | omega

theorem first_broken {a : UInt8} (large : 0x80 ≤ a.toNat) (outside : a.toNat < 0xC2 ∨ 0xF4 < a.toNat) :
    first a = ([.broken [a]], none) := by
  unfold first
  simp only [UInt8.lt_iff_toNat_lt, UInt8.le_iff_toNat_le, ← UInt8.toNat_inj, UInt8.reduceToNat,
    Bool.and_eq_true, decide_eq_true_eq]
  split_ifs <;> first | rfl | omega

/-- A byte that is not the first one of its character. -/
def IsTail (b : UInt8) : Prop :=
  0x80 ≤ b ∧ b ≤ 0xBF

theorem isTail_iff {b : UInt8} : IsTail b ↔ 0x80 ≤ b.toNat ∧ b.toNat ≤ 0xBF := by
  rw [IsTail, UInt8.le_iff_toNat_le, UInt8.le_iff_toNat_le]
  rfl

/-- The second byte keeps to the bounds that the first one sets: the character fits into no fewer
bytes, and is neither a surrogate nor above the last code point. -/
structure Continues (a b : UInt8) : Prop where
  isTail : IsTail b
  notShort : (a.toNat = 0xE0 → 0xA0 ≤ b.toNat) ∧ (a.toNat = 0xF0 → 0x90 ≤ b.toNat)
  isCodePoint : (a.toNat = 0xED → b.toNat ≤ 0x9F) ∧ (a.toNat = 0xF4 → b.toNat ≤ 0x8F)

theorem continues_iff {a b : UInt8} :
    Continues a b ↔ (opened a).low ≤ b ∧ b ≤ (opened a).high := by
  simp only [opened, UInt8.le_iff_toNat_le, ← UInt8.toNat_inj, UInt8.reduceToNat]
  constructor
  · rintro ⟨isTail, notShort, isCodePoint⟩
    rw [isTail_iff] at isTail
    constructor <;> split_ifs <;> simp only [UInt8.reduceToNat] <;> omega
  · rintro ⟨low, high⟩
    refine ⟨isTail_iff.mpr ?_, ?_, ?_⟩ <;> split_ifs at low high <;>
      simp only [UInt8.reduceToNat] at low high <;> omega

theorem opened_pair {a : UInt8} (high : a.toNat < 0xE0) :
    (opened a).owed = 1 ∧ (opened a).value = a.toNat % 32 := by
  simp [opened, high]

theorem opened_triple {a : UInt8} (low : 0xE0 ≤ a.toNat) (high : a.toNat < 0xF0) :
    (opened a).owed = 2 ∧ (opened a).value = a.toNat % 16 := by
  simp [opened, Nat.not_lt.mpr low, high]

theorem opened_quadruple {a : UInt8} (low : 0xF0 ≤ a.toNat) :
    (opened a).owed = 3 ∧ (opened a).value = a.toNat % 8 := by
  have notTriple : ¬a.toNat < 0xE0 := by omega
  simp [opened, notTriple, Nat.not_lt.mpr low]

section

variable {p : Pending} {b : UInt8} (within : p.low ≤ b ∧ b ≤ p.high)

include within

theorem next_last (owed : p.owed = 1) :
    next p b = ([.char (Char.ofNat (p.value * 64 + b.toNat % 64))], none) := by
  simp [next, within, owed]

theorem next_tail (owed : 1 < p.owed) :
    next p b =
      ([], some ⟨p.bytes ++ [b], p.value * 64 + b.toNat % 64, p.owed - 1, 0x80, 0xBF⟩) := by
  simp [next, within, Nat.not_le.mpr owed]

end

section

variable {a b c d : UInt8} (rest : List UInt8)

theorem scanFrom_opened (low : 0xC2 ≤ a.toNat) (high : a.toNat ≤ 0xF4) :
    scanFrom none (a :: rest) = scanFrom (some (opened a)) rest := by
  rw [scanFrom, first_opened low high, List.nil_append]

theorem scanFrom_pair (low : 0xC2 ≤ a.toNat) (high : a.toNat < 0xE0) (continues : Continues a b) :
    scanFrom none (a :: b :: rest) =
      .char (Char.ofNat (a.toNat % 32 * 64 + b.toNat % 64)) :: scanFrom none rest := by
  obtain ⟨owed, value⟩ := opened_pair high
  rw [scanFrom_opened _ low (by omega), scanFrom, next_last (continues_iff.mp continues) owed, value]
  rfl

theorem scanFrom_triple (low : 0xE0 ≤ a.toNat) (high : a.toNat < 0xF0) (continues : Continues a b)
    (lastTail : IsTail c) :
    scanFrom none (a :: b :: c :: rest) =
      .char (Char.ofNat ((a.toNat % 16 * 64 + b.toNat % 64) * 64 + c.toNat % 64)) ::
        scanFrom none rest := by
  obtain ⟨owed, value⟩ := opened_triple low high
  rw [scanFrom_opened _ (by omega) (by omega), scanFrom,
    next_tail (continues_iff.mp continues) (by omega), value, owed, List.nil_append, scanFrom,
    next_last (by exact lastTail) rfl]
  rfl

theorem scanFrom_quadruple (low : 0xF0 ≤ a.toNat) (high : a.toNat ≤ 0xF4)
    (continues : Continues a b) (tail : IsTail c) (lastTail : IsTail d) :
    scanFrom none (a :: b :: c :: d :: rest) =
      .char (Char.ofNat (((a.toNat % 8 * 64 + b.toNat % 64) * 64 + c.toNat % 64) * 64 +
        d.toNat % 64)) :: scanFrom none rest := by
  obtain ⟨owed, value⟩ := opened_quadruple low
  rw [scanFrom_opened _ (by omega) (by omega), scanFrom,
    next_tail (continues_iff.mp continues) (by omega), value, owed, List.nil_append, scanFrom,
    next_tail (by exact tail) Nat.one_lt_two, List.nil_append, scanFrom,
    next_last (by exact lastTail) rfl]
  rfl

end

/-! Encodings. -/

theorem scanFrom_encodeChar (c : Char) (rest : List UInt8) :
    scanFrom none (String.utf8EncodeChar c ++ rest) = .char c :: scanFrom none rest := by
  have valid : c.val.toNat.isValidChar := c.valid
  have isChar : Piece.char c = .char (Char.ofNat c.val.toNat) :=
    congrArg Piece.char (Char.ofNat_toNat c).symm
  have byte {n : Nat} (small : n < 256) : (UInt8.ofNat n).toNat = n := by simp [small]
  have tail (n : Nat) : (UInt8.ofNat (n % 64 + 128)).toNat = n % 64 + 128 := byte (by omega)
  have isTail (n : Nat) : IsTail (UInt8.ofNat (n % 64 + 128)) := by
    rw [isTail_iff, tail]
    omega
  unfold String.utf8EncodeChar
  rw [isChar]
  generalize c.val.toNat = v at valid ⊢
  dsimp only
  split_ifs with single pair triple
  · have lead : (UInt8.ofNat v).toNat = v := byte (by omega)
    rw [List.singleton_append, scanFrom, first_single (by omega), lead, List.singleton_append]
  · have lead : (UInt8.ofNat (v / 64 % 32 + 192)).toNat = v / 64 % 32 + 192 := byte (by omega)
    have continues : Continues (UInt8.ofNat (v / 64 % 32 + 192)) (UInt8.ofNat (v % 64 + 128)) := by
      refine ⟨isTail v, ?_, ?_⟩ <;> omega
    change scanFrom none (_ :: _ :: rest) = _
    rw [scanFrom_pair rest (by omega) (by omega) continues, lead, tail]
    congr 3
    omega
  · have lead : (UInt8.ofNat (v / 4096 % 16 + 224)).toNat = v / 4096 % 16 + 224 := byte (by omega)
    have continues :
        Continues (UInt8.ofNat (v / 4096 % 16 + 224)) (UInt8.ofNat (v / 64 % 64 + 128)) := by
      have second := tail (v / 64)
      refine ⟨isTail _, ?_, ?_⟩ <;> omega
    change scanFrom none (_ :: _ :: _ :: rest) = _
    rw [scanFrom_triple rest (by omega) (by omega) continues (isTail _), lead, tail, tail]
    congr 3
    omega
  · have lead : (UInt8.ofNat (v / 262144 % 8 + 240)).toNat = v / 262144 % 8 + 240 := byte (by omega)
    have continues :
        Continues (UInt8.ofNat (v / 262144 % 8 + 240)) (UInt8.ofNat (v / 4096 % 64 + 128)) := by
      have second := tail (v / 4096)
      refine ⟨isTail _, ?_, ?_⟩ <;> omega
    change scanFrom none (_ :: _ :: _ :: _ :: rest) = _
    rw [scanFrom_quadruple rest (by omega) (by omega) continues (isTail _) (isTail _), lead, tail,
      tail, tail]
    congr 3
    omega

theorem scan_encode (text : String) : scan (encode text) = text.toList.map .char := by
  rw [scan, encode]
  induction text.toList with
  | nil => rfl
  | cons c rest inductionHypothesis =>
    rw [List.flatMap_cons, scanFrom_encodeChar, inductionHypothesis, List.map_cons]

/-- All pieces of a byte sequence are characters. -/
theorem mapM_char?_eq_some_iff {pieces : List Piece} {chars : List Char} :
    pieces.mapM Piece.char? = some chars ↔ pieces = chars.map .char := by
  induction pieces generalizing chars with
  | nil => simp [eq_comm]
  | cons piece rest inductionHypothesis =>
    rw [List.mapM_cons]
    cases piece with
    | broken bytes => cases chars <;> simp [Piece.char?]
    | char c =>
      cases chars with
      | nil => simp [Piece.char?, Option.bind_eq_some_iff]
      | cons d chars =>
        have parts : rest = chars.map .char ∧ c = d ↔ c = d ∧ rest = chars.map .char := and_comm
        simpa [Piece.char?, Option.bind_eq_some_iff, inductionHypothesis] using parts

@[simp]
theorem decode?_encode (text : String) : decode? (encode text) = some text := by
  rw [decode?, mapM_char?_eq_some_iff.mpr (scan_encode text), Option.map_some, String.ofList_toList]

@[simp]
theorem decodeLossy_encode (text : String) : decodeLossy (encode text) = text := by
  have same : (fun c => (Piece.char c).char?.getD '\uFFFD') = id := rfl
  rw [decodeLossy, scan_encode, List.map_map, Function.comp_def, same, List.map_id,
    String.ofList_toList]

theorem encode_inj {text other : String} (same : encode text = encode other) : text = other := by
  have read : some text = some other := by
    rw [← decode?_encode text, same, decode?_encode]
  exact Option.some.inj read

theorem encode_append (text more : String) : encode (text ++ more) = encode text ++ encode more := by
  rw [encode, String.toList_append, List.flatMap_append, encode, encode]

theorem bytes_pieces_encode (text : String) :
    (text.toList.map Piece.char).flatMap Piece.bytes = encode text := by
  rw [List.flatMap_map]
  rfl

/-! Characters below 128. -/

theorem eq_of_mem_encodeChar {c : Char} {b : UInt8} (small : b.toNat < 0x80)
    (membership : b ∈ String.utf8EncodeChar c) : Char.ofNat b.toNat = c := by
  have byte (n : Nat) : (UInt8.ofNat n).toNat = n % 256 := by simp
  rw [← Char.ofNat_toNat c]
  congr 1
  change b.toNat = c.val.toNat
  unfold String.utf8EncodeChar at membership
  generalize c.val.toNat = v at membership ⊢
  dsimp only at membership
  split_ifs at membership <;> simp only [List.mem_cons, List.not_mem_nil, or_false, ← UInt8.toNat_inj, byte]
    at membership <;> omega

/-- A character below 128 that a text does not have is not among its bytes either. -/
theorem notMem_encode {text : String} {b : UInt8} (small : b.toNat < 0x80)
    (without : Char.ofNat b.toNat ∉ text.toList) : b ∉ encode text := by
  intro membership
  obtain ⟨c, among, isByte⟩ := List.mem_flatMap.mp membership
  apply without
  rwa [eq_of_mem_encodeChar small isByte]

/-! Nothing is lost in reading. -/

theorem val_ofNat {n : Nat} (valid : n.isValidChar) : (Char.ofNat n).val.toNat = n := by
  rw [Char.ofNat, dif_pos valid]
  rfl

section

variable {a b c d : UInt8}

theorem encodeChar_pair (low : 0xC2 ≤ a.toNat) (high : a.toNat < 0xE0) (isTail : IsTail b) :
    String.utf8EncodeChar (Char.ofNat (a.toNat % 32 * 64 + b.toNat % 64)) = [a, b] := by
  rw [isTail_iff] at isTail
  unfold String.utf8EncodeChar
  rw [val_ofNat (Or.inl (by omega))]
  dsimp only
  rw [if_neg (by omega), if_pos (by omega)]
  simp only [List.cons.injEq, ← UInt8.toNat_inj, UInt8.toNat_ofNat', and_true]
  omega

theorem encodeChar_triple (low : 0xE0 ≤ a.toNat) (high : a.toNat < 0xF0) (continues : Continues a b)
    (lastTail : IsTail c) :
    String.utf8EncodeChar
      (Char.ofNat ((a.toNat % 16 * 64 + b.toNat % 64) * 64 + c.toNat % 64)) = [a, b, c] := by
  obtain ⟨isTail, notShort, isCodePoint⟩ := continues
  rw [isTail_iff] at isTail lastTail
  unfold String.utf8EncodeChar
  rw [val_ofNat (by unfold Nat.isValidChar; omega)]
  dsimp only
  rw [if_neg (by omega), if_neg (by omega), if_pos (by omega)]
  simp only [List.cons.injEq, ← UInt8.toNat_inj, UInt8.toNat_ofNat', and_true]
  omega

theorem encodeChar_quadruple (low : 0xF0 ≤ a.toNat) (high : a.toNat ≤ 0xF4)
    (continues : Continues a b) (tail : IsTail c) (lastTail : IsTail d) :
    String.utf8EncodeChar (Char.ofNat (((a.toNat % 8 * 64 + b.toNat % 64) * 64 + c.toNat % 64) * 64 +
      d.toNat % 64)) = [a, b, c, d] := by
  obtain ⟨isTail, notShort, isCodePoint⟩ := continues
  rw [isTail_iff] at isTail tail lastTail
  unfold String.utf8EncodeChar
  rw [val_ofNat (by unfold Nat.isValidChar; omega)]
  dsimp only
  rw [if_neg (by omega), if_neg (by omega), if_neg (by omega)]
  simp only [List.cons.injEq, ← UInt8.toNat_inj, UInt8.toNat_ofNat', and_true]
  omega

end

/-- The encodings that owe bytes. -/
inductive Started : Pending → Prop
  | opened {a : UInt8} : 0xC2 ≤ a.toNat → a.toNat ≤ 0xF4 → Started (opened a)
  | triple {a b : UInt8} : 0xE0 ≤ a.toNat → a.toNat < 0xF0 → Continues a b →
      Started ⟨[a, b], a.toNat % 16 * 64 + b.toNat % 64, 1, 0x80, 0xBF⟩
  | quadruple {a b : UInt8} : 0xF0 ≤ a.toNat → a.toNat ≤ 0xF4 → Continues a b →
      Started ⟨[a, b], a.toNat % 8 * 64 + b.toNat % 64, 2, 0x80, 0xBF⟩
  | last {a b c : UInt8} : 0xF0 ≤ a.toNat → a.toNat ≤ 0xF4 → Continues a b → IsTail c →
      Started ⟨[a, b, c], (a.toNat % 8 * 64 + b.toNat % 64) * 64 + c.toNat % 64, 1, 0x80, 0xBF⟩

/-- What a step of reading gives holds the bytes read so far. -/
structure Holds (bytes : List UInt8) (given : List Piece × Option Pending) : Prop where
  bytes : given.1.flatMap Piece.bytes ++ given.2.elim [] Pending.bytes = bytes
  started : ∀ p ∈ given.2, Started p

theorem first_holds (a : UInt8) : Holds [a] (first a) := by
  by_cases small : a.toNat < 0x80
  · have isByte : String.utf8EncodeChar (Char.ofNat a.toNat) = [a] := by
      unfold String.utf8EncodeChar
      rw [val_ofNat (Or.inl (by omega))]
      dsimp only
      rw [if_pos (by omega), UInt8.ofNat_toNat]
    rw [first_single small]
    exact ⟨by simp [Piece.bytes, isByte], nofun⟩
  · by_cases inside : 0xC2 ≤ a.toNat ∧ a.toNat ≤ 0xF4
    · rw [first_opened inside.1 inside.2]
      refine ⟨rfl, fun p isOpened => ?_⟩
      cases Option.mem_some.mp isOpened
      exact .opened inside.1 inside.2
    · rw [first_broken (by omega) (by omega)]
      exact ⟨rfl, nofun⟩

theorem Holds.ofChar {bytes : List UInt8} {c : Char} (encodes : String.utf8EncodeChar c = bytes) :
    Holds bytes ([.char c], none) :=
  ⟨by simp [Piece.bytes, encodes], nofun⟩

theorem Holds.ofStarted {p : Pending} (started : Started p) : Holds p.bytes ([], some p) := by
  refine ⟨rfl, fun q isPending => ?_⟩
  cases Option.mem_some.mp isPending
  exact started

theorem Started.next_holds {p : Pending} (started : Started p) {b : UInt8}
    (within : p.low ≤ b ∧ b ≤ p.high) : Holds (p.bytes ++ [b]) (next p b) := by
  cases started with
  | @opened a low high =>
    have continues := continues_iff.mpr within
    by_cases isPair : a.toNat < 0xE0
    · obtain ⟨owed, value⟩ := opened_pair isPair
      rw [next_last within owed, value]
      exact .ofChar (encodeChar_pair low isPair continues.isTail)
    · by_cases isTriple : a.toNat < 0xF0
      · obtain ⟨owed, value⟩ := opened_triple (by omega) isTriple
        rw [next_tail within (by omega), value, owed]
        exact .ofStarted (.triple (by omega) isTriple continues)
      · obtain ⟨owed, value⟩ := opened_quadruple (Nat.not_lt.mp isTriple)
        rw [next_tail within (by omega), value, owed]
        exact .ofStarted (.quadruple (by omega) high continues)
  | triple low high continues =>
    rw [next_last within rfl]
    exact .ofChar (encodeChar_triple low high continues within)
  | quadruple low high continues =>
    rw [next_tail within Nat.one_lt_two]
    exact .ofStarted (.last low high continues within)
  | last low high continues isTail =>
    rw [next_last within rfl]
    exact .ofChar (encodeChar_quadruple low high continues isTail within)

theorem next_holds {p : Pending} (started : Started p) (b : UInt8) :
    Holds (p.bytes ++ [b]) (next p b) := by
  by_cases within : p.low ≤ b ∧ b ≤ p.high
  · exact started.next_holds within
  · have breaks : next p b = (.broken p.bytes :: (first b).1, (first b).2) :=
      if_neg (by simpa using within)
    obtain ⟨bytes, startedAgain⟩ := first_holds b
    rw [breaks]
    refine ⟨?_, startedAgain⟩
    rw [List.flatMap_cons, List.append_assoc, bytes]
    rfl

theorem bytes_scanFrom (bytes : List UInt8) {pending? : Option Pending}
    (started : ∀ p ∈ pending?, Started p) :
    (scanFrom pending? bytes).flatMap Piece.bytes = pending?.elim [] Pending.bytes ++ bytes := by
  induction bytes generalizing pending? with
  | nil => cases pending? <;> simp [scanFrom, Piece.bytes]
  | cons b rest inductionHypothesis =>
    have step {before : List UInt8} {given : List Piece × Option Pending}
        (holds : Holds (before ++ [b]) given) :
        (given.1 ++ scanFrom given.2 rest).flatMap Piece.bytes = before ++ b :: rest := by
      rw [List.flatMap_append, inductionHypothesis holds.started, ← List.append_assoc, holds.bytes,
        List.append_assoc, List.singleton_append]
    cases pending? with
    | none => exact step (first_holds b)
    | some p => exact step (next_holds (started p rfl) b)

/-- The pieces of a byte sequence are all of it. -/
theorem bytes_scan (bytes : List UInt8) : (scan bytes).flatMap Piece.bytes = bytes :=
  bytes_scanFrom bytes nofun

/-- What is read as a text is the encoding of that text, and nothing else is. -/
theorem decode?_eq_some_iff {bytes : List UInt8} {text : String} :
    decode? bytes = some text ↔ bytes = encode text := by
  constructor
  · intro isText
    obtain ⟨chars, isChars, rfl⟩ := Option.map_eq_some_iff.mp isText
    rw [← bytes_scan bytes, mapM_char?_eq_some_iff.mp isChars, ← bytes_pieces_encode,
      String.toList_ofList]
  · rintro rfl
    exact decode?_encode text

end Colloquy.Text.Utf8

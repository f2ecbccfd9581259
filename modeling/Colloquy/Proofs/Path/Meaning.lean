import Colloquy.Path
import Mathlib.Data.List.Basic

set_option autoImplicit false

/-!
What a path means as a text: from the root or from where one stands, some steps up, then down
through names. Normalising takes two dots back against the component before them, and does so even if
that component is two dots itself. So what is left of the steps up is whether their number is odd; the
names stay as they are.
-/

namespace Colloquy.Path

/-- Steps up that are left once each one is taken back against the name before it, and the names
left. Above the root there is nowhere to go. -/
structure Meaning where
  absolute : Bool
  up : Nat
  names : List Name
  deriving DecidableEq, Repr

def parentPiece : Name := [dot, dot]

namespace Meaning

def start (absolute : Bool) : Meaning :=
  ⟨absolute, 0, []⟩

/-- Goes on by a piece of a path. -/
def step (meaning : Meaning) (piece : Name) : Meaning :=
  if isIdle piece then meaning
  else if piece = parentPiece then
    if meaning.names = [] then { meaning with up := if meaning.absolute then 0 else meaning.up + 1 }
    else { meaning with names := meaning.names.dropLast }
  else { meaning with names := meaning.names ++ [piece] }

end Meaning

def meaning (path : Path) : Meaning :=
  (split path.bytes).foldl Meaning.step (.start path.isAbsolute)

/-! Pieces. -/

theorem slash_notMem_split (bytes : List UInt8) : ∀ piece ∈ split bytes, slash ∉ piece := by
  induction bytes with
  | nil => simp [split]
  | cons b rest inductionHypothesis =>
    unfold split
    split
    · exact List.forall_mem_cons.mpr ⟨List.not_mem_nil, inductionHypothesis⟩
    case isFalse notSlash =>
      have head (piece : Name) (without : slash ∉ piece) : slash ∉ b :: piece := by
        simp [without, Ne.symm notSlash]
      split
      · exact List.forall_mem_singleton.mpr (head [] List.not_mem_nil)
      case h_2 piece pieces divided =>
        rw [divided] at inductionHypothesis
        obtain ⟨here, later⟩ := List.forall_mem_cons.mp inductionHypothesis
        exact List.forall_mem_cons.mpr ⟨head piece here, later⟩

theorem split_append_slash {piece : Name} (without : slash ∉ piece) (rest : List UInt8) :
    split (piece ++ slash :: rest) = piece :: split rest := by
  induction piece with
  | nil => simp [split]
  | cons b piece inductionHypothesis =>
    obtain ⟨notSlash, without⟩ := List.ne_and_not_mem_of_not_mem_cons without
    simp [split, Ne.symm notSlash, inductionHypothesis without]

theorem split_of_slash_notMem {piece : Name} (without : slash ∉ piece) :
    split piece = [piece] := by
  induction piece with
  | nil => rfl
  | cons b piece inductionHypothesis =>
    obtain ⟨notSlash, without⟩ := List.ne_and_not_mem_of_not_mem_cons without
    simp [split, Ne.symm notSlash, inductionHypothesis without]

theorem split_join {pieces : List Name} (nonempty : pieces ≠ [])
    (without : ∀ piece ∈ pieces, slash ∉ piece) : split (join pieces) = pieces := by
  induction pieces with
  | nil => exact (nonempty rfl).elim
  | cons piece rest inductionHypothesis =>
    obtain ⟨here, later⟩ := List.forall_mem_cons.mp without
    rcases rest with _ | ⟨next, rest⟩
    · exact split_of_slash_notMem here
    · rw [join, split_append_slash here, inductionHypothesis (List.cons_ne_nil _ _) later]
      exact List.cons_ne_nil _ _

/-- Only the slash in front of an absolute path is left out of its pieces. -/
theorem split_bytes (path : Path) :
    split path.bytes = if path.isAbsolute then [] :: path.pieces else path.pieces := by
  obtain ⟨bytes⟩ := path
  rcases bytes with _ | ⟨b, rest⟩
  · rfl
  · by_cases isSlash : b = slash <;> simp [isAbsolute, pieces, split, isSlash]

theorem slash_notMem_pieces (path : Path) : ∀ piece ∈ path.pieces, slash ∉ piece := by
  intro piece membership
  refine slash_notMem_split path.bytes piece ?_
  rw [split_bytes]
  split
  · exact List.mem_cons_of_mem _ membership
  · exact membership

/-! Paths that are written without anything that is passed over. -/

/-- A piece that is a component: not empty, no single dot and without a slash. -/
structure Solid (piece : Name) : Prop where
  counts : isIdle piece = false
  without : slash ∉ piece

theorem Solid.ne_nil {piece : Name} (solid : Solid piece) : piece ≠ [] := by
  rintro rfl
  exact absurd solid.counts (by decide)

theorem Solid.isAbsolute {piece : Name} (solid : Solid piece) :
    (Path.mk piece).isAbsolute = false := by
  obtain ⟨b, rest, rfl⟩ := List.exists_cons_of_ne_nil solid.ne_nil
  have notSlash : b ≠ slash := fun same => solid.without (by simp [same])
  simp [Path.isAbsolute, notSlash]

theorem solid_parentPiece : Solid parentPiece :=
  ⟨by decide, by decide⟩

section

variable {absolute : Bool} {body : List Name} (solid : ∀ piece ∈ body, Solid piece)

include solid

theorem join_head : (join body).head? ≠ some slash := by
  rcases body with _ | ⟨piece, rest⟩
  · exact nofun
  · have first := solid piece List.mem_cons_self
    obtain ⟨b, piece, rfl⟩ := List.exists_cons_of_ne_nil first.ne_nil
    have notSlash : b ≠ slash := fun same => first.without (by simp [same])
    cases rest <;> simpa [join] using notSlash

theorem isAbsolute_ofBody : (ofBody absolute body).isAbsolute = absolute := by
  cases absolute with
  | true => simp [ofBody, isAbsolute]
  | false => simpa [ofBody, isAbsolute] using join_head solid

theorem pieces_ofBody (nonempty : body ≠ []) : (ofBody absolute body).pieces = body := by
  have divided : split (join body) = body :=
    split_join nonempty fun piece membership => (solid piece membership).without
  have bytes := split_bytes (ofBody absolute body)
  rw [isAbsolute_ofBody solid] at bytes
  cases absolute with
  | true => simpa [ofBody, split, divided] using bytes.symm
  | false => simpa [ofBody, divided] using bytes.symm

theorem dropIdleEnd_of_solid (leading : Bool) : dropIdleEnd leading body = body := by
  induction body generalizing leading with
  | nil => rfl
  | cons piece rest inductionHypothesis =>
    obtain ⟨here, later⟩ := List.forall_mem_cons.mp solid
    rw [dropIdleEnd, inductionHypothesis later]
    cases rest with
    | nil => simp [here.counts]
    | cons => rfl

/-- The last component goes, where there is one. -/
theorem parent?_ofBody :
    (ofBody absolute body).parent? =
      if body = [] then none else some (ofBody absolute body.dropLast) := by
  have withoutLast : ∀ piece ∈ body.dropLast, Solid piece :=
    fun piece membership => solid piece (List.dropLast_subset body membership)
  by_cases empty : body = []
  · subst empty
    cases absolute <;> rfl
  · have bodyIs : (ofBody absolute body).body = body := by
      rw [Path.body, pieces_ofBody solid empty, dropIdleEnd_of_solid solid]
    rw [parent?, bodyIs, isAbsolute_ofBody solid, if_neg (by simpa using empty), if_neg empty,
      dropIdleEnd_of_solid withoutLast]

theorem join_getLast? (nonempty : body ≠ []) :
    ∃ last, (join body).getLast? = some last ∧ last ≠ slash := by
  induction body with
  | nil => exact (nonempty rfl).elim
  | cons piece rest inductionHypothesis =>
    obtain ⟨here, later⟩ := List.forall_mem_cons.mp solid
    rcases rest with _ | ⟨next, rest⟩
    · refine ⟨piece.getLast here.ne_nil, List.getLast?_eq_some_getLast here.ne_nil, ?_⟩
      intro isSlash
      exact here.without (isSlash ▸ List.getLast_mem here.ne_nil)
    · obtain ⟨last, isLast, notSlash⟩ := inductionHypothesis later (List.cons_ne_nil _ _)
      refine ⟨last, ?_, notSlash⟩
      simp [join, List.getLast?_append, List.getLast?_cons, isLast]

omit solid in
theorem join_concat (nonempty : body ≠ []) (piece : Name) :
    join (body ++ [piece]) = join body ++ slash :: piece := by
  induction body with
  | nil => exact (nonempty rfl).elim
  | cons first rest inductionHypothesis =>
    rcases rest with _ | ⟨next, rest⟩
    · rfl
    · change first ++ slash :: join (next :: rest ++ [piece]) =
        first ++ slash :: join (next :: rest) ++ slash :: piece
      rw [inductionHypothesis (List.cons_ne_nil _ _), List.append_assoc, List.cons_append]

theorem push_ofBody {piece : Name} (pieceSolid : Solid piece) :
    (ofBody absolute body).push ⟨piece⟩ = ofBody absolute (body ++ [piece]) := by
  have relative := pieceSolid.isAbsolute
  by_cases empty : body = []
  · subst empty
    cases absolute <;> simp [push, relative, ofBody, join]
  · obtain ⟨last, isLast, notSlash⟩ := join_getLast? solid empty
    have bytesLast : (ofBody absolute body).bytes.getLast? = some last := by
      simp [ofBody, List.getLast?_append, isLast]
    simp only [push, relative, bytesLast, if_neg notSlash, Bool.false_eq_true, if_false]
    simp [ofBody, join_concat empty piece]

end

/-! Normalising. -/

/-- Normalising goes through the pieces that are components; it starts at the root or nowhere. -/
theorem normalize_eq_foldl (path : Path) :
    path.normalize = (path.pieces.filter (!isIdle ·)).foldl
      (fun reached piece => reached.addComponent (component piece))
      (ofBody path.isAbsolute []) := by
  rw [normalize, components]
  cases path.isAbsolute with
  | true =>
    simp only [if_true, List.foldl_cons, List.foldl_map]
    rfl
  | false =>
    simp only [Bool.false_eq_true, if_false]
    rcases path.pieces with _ | ⟨piece, rest⟩
    · rfl
    · by_cases isDot : piece = [dot]
      · simp [isDot, isIdle, List.foldl_map, addComponent, ofBody, join, empty]
      · simp [isDot, List.foldl_map, ofBody, join, empty]

/-- A piece that is a name: a component other than two dots. -/
def IsName (piece : Name) : Prop :=
  Solid piece ∧ piece ≠ parentPiece

/-- Two dots or none, and names. -/
def parity (odd : Bool) (names : List Name) : List Name :=
  (if odd then [parentPiece] else []) ++ names

theorem solid_parity {names : List Name} (isNames : ∀ name ∈ names, IsName name) (odd : Bool) :
    ∀ piece ∈ parity odd names, Solid piece := by
  refine List.forall_mem_append.mpr ⟨?_, fun name membership => (isNames name membership).1⟩
  cases odd with
  | true => exact List.forall_mem_singleton.mpr solid_parentPiece
  | false => exact nofun

/-- What has been reached when the pieces so far mean something: the names, under two dots if the
number of steps up is odd. Under the root, two dots may stand as well. -/
structure Reaches (reached : Path) (meaning : Meaning) : Prop where
  isNames : ∀ name ∈ meaning.names, IsName name
  rooted : meaning.absolute = true → meaning.up = 0
  spelled : ∃ odd, reached = ofBody meaning.absolute (parity odd meaning.names) ∧
    (meaning.absolute = false → odd = decide (meaning.up % 2 = 1))

/-- Two dots on top of names take back the last name; on their own they come and go. -/
theorem addComponent_parent {names : List Name} (isNames : ∀ name ∈ names, IsName name)
    (absolute odd : Bool) :
    (ofBody absolute (parity odd names)).addComponent .parent =
      if names = [] then ofBody absolute (parity (!odd) [])
      else ofBody absolute (parity odd names.dropLast) := by
  have solid := solid_parity isNames odd
  rw [addComponent, parent?_ofBody solid]
  by_cases noNames : names = []
  · subst noNames
    rw [if_pos rfl]
    cases odd with
    | true => rfl
    | false => exact push_ofBody solid solid_parentPiece
  · have nonempty : parity odd names ≠ [] := by simp [parity, noNames]
    rw [if_neg nonempty, if_neg noNames, Option.getD_some, parity,
      List.dropLast_append_of_ne_nil noNames, parity]

theorem Reaches.step {reached : Path} {meaning : Meaning} (reaches : Reaches reached meaning)
    {piece : Name} (solid : Solid piece) :
    Reaches (reached.addComponent (component piece)) (meaning.step piece) := by
  obtain ⟨isNames, rooted, odd, rfl, relative⟩ := reaches
  obtain ⟨absolute, up, names⟩ := meaning
  dsimp only at isNames rooted relative
  simp only [Meaning.step, solid.counts, Bool.false_eq_true, if_false]
  by_cases isParent : piece = parentPiece
  · subst isParent
    rw [if_pos rfl, show component parentPiece = .parent from rfl,
      addComponent_parent isNames absolute odd]
    by_cases noNames : names = []
    · subst noNames
      simp only [if_true]
      refine ⟨nofun, fun isAbsolute => if_pos isAbsolute, !odd, rfl, ?_⟩
      intro isRelative
      have flipped : odd = decide (up % 2 = 1) := relative isRelative
      dsimp only at isRelative
      rw [flipped, isRelative, if_neg Bool.false_ne_true, ← decide_not]
      have parities : ¬up % 2 = 1 ↔ (up + 1) % 2 = 1 := by omega
      exact decide_eq_decide.mpr parities
    · simp only [if_neg noNames]
      exact ⟨fun name membership => isNames name (List.dropLast_subset _ membership), rooted, odd,
        rfl, relative⟩
  · rw [if_neg isParent, show component piece = .normal piece from if_neg isParent]
    refine ⟨List.forall_mem_append.mpr ⟨isNames, List.forall_mem_singleton.mpr ⟨solid, isParent⟩⟩,
      rooted, odd, ?_, relative⟩
    change (ofBody absolute (parity odd names)).push ⟨piece⟩ = _
    rw [push_ofBody (solid_parity isNames odd) solid, parity, List.append_assoc, parity]

theorem Reaches.foldl {pieces : List Name} (without : ∀ piece ∈ pieces, slash ∉ piece)
    {reached : Path} {meaning : Meaning} (reaches : Reaches reached meaning) :
    Reaches
      ((pieces.filter (!isIdle ·)).foldl
        (fun reached piece => reached.addComponent (component piece)) reached)
      (pieces.foldl Meaning.step meaning) := by
  induction pieces generalizing reached meaning with
  | nil => exact reaches
  | cons piece rest inductionHypothesis =>
    obtain ⟨here, later⟩ := List.forall_mem_cons.mp without
    by_cases idle : isIdle piece = true
    · have stays : meaning.step piece = meaning := if_pos idle
      rw [List.filter_cons_of_neg (by simp [idle]), List.foldl_cons, stays]
      exact inductionHypothesis later reaches
    · have counts : isIdle piece = false := by simpa using idle
      rw [List.filter_cons_of_pos (by simp [counts]), List.foldl_cons, List.foldl_cons]
      exact inductionHypothesis later (reaches.step ⟨counts, here⟩)

theorem meaning_eq_foldl_pieces (path : Path) :
    path.meaning = path.pieces.foldl Meaning.step (.start path.isAbsolute) := by
  rw [meaning, split_bytes]
  split <;> rfl

theorem normalize_reaches (path : Path) : Reaches path.normalize path.meaning := by
  have starts : Reaches (ofBody path.isAbsolute []) (.start path.isAbsolute) :=
    ⟨nofun, fun _ => rfl, false, rfl, fun _ => rfl⟩
  rw [normalize_eq_foldl, meaning_eq_foldl_pieces]
  exact starts.foldl path.slash_notMem_pieces

theorem foldl_step_names {names : List Name} (isNames : ∀ name ∈ names, IsName name)
    (meaning : Meaning) :
    names.foldl Meaning.step meaning = { meaning with names := meaning.names ++ names } := by
  induction names generalizing meaning with
  | nil => simp
  | cons name rest inductionHypothesis =>
    obtain ⟨⟨solid, notParent⟩, later⟩ := List.forall_mem_cons.mp isNames
    have appended : meaning.step name = { meaning with names := meaning.names ++ [name] } := by
      rw [Meaning.step, solid.counts, if_neg Bool.false_ne_true, if_neg notParent]
    rw [List.foldl_cons, appended, inductionHypothesis later, List.append_assoc]
    rfl

theorem meaning_ofBody {names : List Name} (isNames : ∀ name ∈ names, IsName name)
    (absolute odd : Bool) :
    (ofBody absolute (parity odd names)).meaning =
      ⟨absolute, if absolute then 0 else odd.toNat, names⟩ := by
  have solid := solid_parity isNames odd
  have pieces : (ofBody absolute (parity odd names)).pieces.foldl Meaning.step (.start absolute) =
      (parity odd names).foldl Meaning.step (.start absolute) := by
    by_cases empty : parity odd names = []
    · rw [empty]
      cases absolute <;> rfl
    · rw [pieces_ofBody solid empty]
  rw [meaning_eq_foldl_pieces, isAbsolute_ofBody solid, pieces, parity, List.foldl_append,
    foldl_step_names isNames]
  cases odd <;> cases absolute <;> rfl

/-- Normalising forgets two steps up at a time. -/
theorem meaning_normalize (path : Path) :
    path.normalize.meaning = { path.meaning with up := path.meaning.up % 2 } := by
  obtain ⟨isNames, rooted, odd, spelled, relative⟩ := normalize_reaches path
  have up : (if path.meaning.absolute then 0 else odd.toNat) = path.meaning.up % 2 := by
    cases isAbsolute : path.meaning.absolute with
    | true => rw [if_pos rfl, rooted isAbsolute]
    | false =>
      rw [if_neg Bool.false_ne_true, relative isAbsolute]
      rcases Nat.mod_two_eq_zero_or_one path.meaning.up with even | uneven
      · rw [even]
        rfl
      · rw [uneven]
        rfl
  rw [spelled, meaning_ofBody isNames, up]

/-- Normalising keeps the meaning of a path if at most one step up is left of it. -/
theorem meaning_normalize_eq_iff (path : Path) :
    path.normalize.meaning = path.meaning ↔ path.meaning.up < 2 := by
  rw [meaning_normalize]
  constructor
  · intro same
    have up : path.meaning.up % 2 = path.meaning.up := congrArg Meaning.up same
    exact up ▸ Nat.mod_lt _ Nat.two_pos
  · intro few
    rw [Nat.mod_eq_of_lt few]

end Colloquy.Path

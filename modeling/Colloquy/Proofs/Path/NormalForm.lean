import Colloquy.Proofs.Path.Components

set_option autoImplicit false

/-!
How normalised paths are written: slashes only in front and between pieces, no dots, and two dots only
where no name is before them. Normalising such a path changes nothing, and it is determined by its
components.
-/

namespace Colloquy.Path

/-- Nothing is passed over, and nothing is left to take back. -/
structure IsCanonical (path : Path) : Prop where
  noDotComponent : Component.current ∉ path.components
  noDotPiece : [dot] ∉ split path.bytes
  noRepeatedSlash : ¬[slash, slash] <:+: path.bytes
  noTrailingSlash : path.bytes.getLast? = some slash → path = ⟨[slash]⟩
  noNameBeforeParent : ∀ name, ¬[Component.normal name, .parent] <:+: path.components

section

variable {absolute : Bool} {body : List Name} (solid : ∀ piece ∈ body, Solid piece)

include solid

theorem split_bytes_ofBody (nonempty : body ≠ []) :
    split (ofBody absolute body).bytes = (if absolute then [[]] else []) ++ body := by
  rw [split_bytes, isAbsolute_ofBody solid, pieces_ofBody solid nonempty]
  cases absolute <;> rfl

/-- Behind each slash there is a piece that counts. -/
theorem solid_behind_slash (nonempty : body ≠ []) {front behind : List UInt8}
    (divided : (ofBody absolute body).bytes = front ++ slash :: behind) :
    ∀ piece ∈ split behind, Solid piece := by
  have pieces : split (front ++ slash :: behind) = (if absolute then [[]] else []) ++ body :=
    divided ▸ split_bytes_ofBody solid nonempty
  rw [split_append] at pieces
  obtain ⟨first, others, isFront⟩ := List.exists_cons_of_ne_nil (split_ne_nil front)
  intro piece membership
  apply solid
  cases absolute with
  | true =>
    rw [isFront, List.cons_append] at pieces
    rw [← show others ++ split behind = body from (List.cons.inj pieces).2]
    exact List.mem_append_right _ membership
  | false =>
    rw [← show split front ++ split behind = body from pieces]
    exact List.mem_append_right _ membership

theorem no_repeated_slash_ofBody : ¬[slash, slash] <:+: (ofBody absolute body).bytes := by
  rintro ⟨front, behind, divided⟩
  by_cases empty : body = []
  · have length := congrArg List.length divided
    rw [empty] at length
    cases absolute <;> simp [ofBody, join] at length
    omega
  · have atSlash : (ofBody absolute body).bytes = front ++ slash :: (slash :: behind) := by
      rw [← divided, List.append_assoc]
      rfl
    have pieces := solid_behind_slash solid empty atSlash
    rw [split, if_pos rfl] at pieces
    exact (pieces [] List.mem_cons_self).ne_nil rfl

theorem no_trailing_slash_ofBody
    (isLast : (ofBody absolute body).bytes.getLast? = some slash) :
    ofBody absolute body = ⟨[slash]⟩ := by
  by_cases empty : body = []
  · subst empty
    cases absolute with
    | true => rfl
    | false => cases isLast
  · obtain ⟨front, divided⟩ := List.getLast?_eq_some_iff.mp isLast
    have pieces := solid_behind_slash solid empty divided
    exact ((pieces [] List.mem_cons_self).ne_nil rfl).elim

theorem dot_notMem_split_ofBody : [dot] ∉ split (ofBody absolute body).bytes := by
  by_cases empty : body = []
  · subst empty
    cases absolute <;> decide
  · rw [split_bytes_ofBody solid empty]
    intro membership
    rcases List.mem_append.mp membership with inFront | inBody
    · cases absolute <;> simp at inFront
    · exact absurd (solid _ inBody).counts (by decide)

theorem current_notMem_components_ofBody :
    Component.current ∉ (ofBody absolute body).components := by
  have notCurrent (piece : Name) : component piece ≠ .current := by
    unfold component
    split <;> exact nofun
  rw [components_ofBody solid]
  cases absolute <;> simp [notCurrent]

end

/-- Once names have begun, only names follow. -/
theorem no_parent_behind_names {front : List Component} (noNames : ∀ name, .normal name ∉ front)
    (names : List Name) (name : Name) :
    ¬[Component.normal name, .parent] <:+: front ++ names.map .normal := by
  induction front with
  | nil =>
    intro inside
    have isParent : Component.parent ∈ names.map .normal := inside.subset (by simp)
    simp at isParent
  | cons first front inductionHypothesis =>
    rw [List.cons_append, List.infix_cons_iff]
    rintro (atFront | later)
    · exact noNames name ((List.cons_prefix_cons.mp atFront).1 ▸ List.mem_cons_self)
    · exact inductionHypothesis (fun name membership => noNames name (.tail _ membership)) later

section

variable {names : List Name} (isNames : ∀ name ∈ names, IsName name)

include isNames

theorem components_ofBody_parity (absolute odd : Bool) :
    (ofBody absolute (parity odd names)).components =
      ((if absolute then [.root] else []) ++ if odd then [.parent] else []) ++
        names.map .normal := by
  have named : names.map component = names.map .normal :=
    List.map_congr_left fun name membership => (isNames name membership).component
  rw [components_ofBody (solid_parity isNames odd), parity, List.map_append, named,
    List.append_assoc]
  cases odd <;> rfl

theorem isCanonical_ofBody_parity (absolute odd : Bool) :
    (ofBody absolute (parity odd names)).IsCanonical where
  noDotComponent := current_notMem_components_ofBody (solid_parity isNames odd)
  noDotPiece := dot_notMem_split_ofBody (solid_parity isNames odd)
  noRepeatedSlash := no_repeated_slash_ofBody (solid_parity isNames odd)
  noTrailingSlash := no_trailing_slash_ofBody (solid_parity isNames odd)
  noNameBeforeParent name := by
    rw [components_ofBody_parity isNames]
    apply no_parent_behind_names
    cases absolute <;> cases odd <;> simp

/-- Names are pushed one after the other. -/
theorem foldl_addComponent_names (absolute odd : Bool) {before : List Name}
    (beforeNames : ∀ name ∈ before, IsName name) :
    names.foldl (fun reached piece => reached.addComponent (component piece))
        (ofBody absolute (parity odd before)) =
      ofBody absolute (parity odd (before ++ names)) := by
  induction names generalizing before with
  | nil => rw [List.foldl_nil, List.append_nil]
  | cons name rest inductionHypothesis =>
    obtain ⟨isName, later⟩ := List.forall_mem_cons.mp isNames
    have pushed : (ofBody absolute (parity odd before)).addComponent (component name) =
        ofBody absolute (parity odd (before ++ [name])) := by
      rw [isName.component]
      change (ofBody absolute (parity odd before)).push ⟨name⟩ = _
      rw [push_ofBody (solid_parity beforeNames odd) isName.1, parity, List.append_assoc, parity]
    have beforeToo : ∀ other ∈ before ++ [name], IsName other :=
      List.forall_mem_append.mpr ⟨beforeNames, List.forall_mem_singleton.mpr isName⟩
    rw [List.foldl_cons, pushed, inductionHypothesis later beforeToo, List.append_assoc,
      List.singleton_append]

/-- What normalising leads to, it leads to again. -/
theorem normalize_ofBody_parity (absolute odd : Bool) :
    (ofBody absolute (parity odd names)).normalize = ofBody absolute (parity odd names) := by
  have solid := solid_parity isNames odd
  have start : (parity odd []).foldl (fun reached piece => reached.addComponent (component piece))
      (ofBody absolute []) = ofBody absolute (parity odd []) := by
    cases odd with
    | true =>
      have noNames : ∀ name ∈ ([] : List Name), IsName name := nofun
      exact addComponent_parent noNames absolute false
    | false => rfl
  have pieces : (ofBody absolute (parity odd names)).pieces.filter (!isIdle ·) =
      parity odd names := by
    by_cases empty : parity odd names = []
    · rw [empty]
      cases absolute <;> rfl
    · rw [pieces_ofBody solid empty, filter_solid solid]
  calc _ = (parity odd names).foldl
        (fun reached piece => reached.addComponent (component piece)) (ofBody absolute []) := by
        rw [normalize_eq_foldl, isAbsolute_ofBody solid, pieces]
    _ = names.foldl (fun reached piece => reached.addComponent (component piece))
        ((parity odd []).foldl (fun reached piece => reached.addComponent (component piece))
          (ofBody absolute [])) := by
        rw [parity, parity, List.append_nil, List.foldl_append]
    _ = _ := by
        have noNames : ∀ name ∈ ([] : List Name), IsName name := nofun
        rw [start, foldl_addComponent_names isNames absolute odd noNames, List.nil_append]

end

/-- Normalising once is enough. It leads to a path without dots and needless slashes in which two dots
never stand behind a name, and such paths have the same components only if they are the same text. -/
theorem normalize_canonical (path other : Path) :
    path.normalize.normalize = path.normalize ∧ path.normalize.IsCanonical ∧
      (path.normalize.components = other.normalize.components ↔
        path.normalize = other.normalize) := by
  refine ⟨?_, ?_, ?_⟩
  · obtain ⟨isNames, _, odd, spelled, _⟩ := normalize_reaches path
    rw [spelled, normalize_ofBody_parity isNames]
  · obtain ⟨isNames, _, odd, spelled, _⟩ := normalize_reaches path
    rw [spelled]
    exact isCanonical_ofBody_parity isNames _ odd
  · have sameText := (isPlain_normalize path).same_iff (isPlain_normalize other)
    rwa [same, decide_eq_true_iff] at sameText

end Colloquy.Path

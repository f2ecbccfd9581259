import Colloquy.Proofs.Path.Canonical

set_option autoImplicit false

/-!
What taking a path apart and putting it together does to its components: a name inside a path is one
component more, and the parent of a path has one component less. Both hold however the path is
written, with repeated slashes, single dots or a slash at its end.
-/

namespace Colloquy.Path

/-- The component that a piece stands for, if it counts; `leading` says whether a dot does. -/
def componentOf? (leading : Bool) (piece : Name) : Option Component :=
  if isIdle piece && !(leading && piece = [dot]) then none
  else some (if piece = [dot] then .current else component piece)

theorem componentOf?_nil (leading : Bool) : componentOf? leading [] = none := by
  cases leading <;> rfl

/-- The components that pieces stand for; `leading` says whether a dot in front counts. -/
def counted (leading : Bool) : List Name → List Component
  | [] => []
  | piece :: rest => (componentOf? leading piece).toList ++ counted false rest

theorem Solid.componentOf? {piece : Name} (solid : Solid piece) (leading : Bool) :
    componentOf? leading piece = some (component piece) := by
  have notDot : piece ≠ [dot] := by
    rintro rfl
    exact absurd solid.counts (by decide)
  simp [Path.componentOf?, solid.counts, notDot]

theorem counted_append (leading : Bool) (pieces more : List Name) :
    counted leading (pieces ++ more) =
      counted leading pieces ++ counted (leading && pieces.isEmpty) more := by
  induction pieces generalizing leading with
  | nil => simp [counted]
  | cons piece rest inductionHypothesis =>
    simp [counted, inductionHypothesis, List.append_assoc]

theorem counted_single (leading : Bool) (piece : Name) :
    counted leading [piece] = (componentOf? leading piece).toList :=
  List.append_nil _

theorem counted_false (pieces : List Name) :
    counted false pieces = (pieces.filter (!isIdle ·)).map component := by
  induction pieces with
  | nil => rfl
  | cons piece rest inductionHypothesis =>
    rw [counted, inductionHypothesis]
    cases idle : isIdle piece with
    | true => simp [componentOf?, idle]
    | false =>
      have notDot : piece ≠ [dot] := by
        rintro rfl
        cases idle
      simp [componentOf?, idle, notDot]

theorem components_eq_counted (path : Path) :
    path.components =
      (if path.isAbsolute then [.root] else []) ++ counted (!path.isAbsolute) path.pieces := by
  rw [components]
  cases path.isAbsolute with
  | true =>
    simp only [if_true, Bool.not_true, counted_false]
    rfl
  | false =>
    simp only [Bool.false_eq_true, if_false, List.nil_append, Bool.not_false]
    cases path.pieces with
    | nil => rfl
    | cons piece rest =>
      rw [counted, counted_false]
      by_cases isDot : piece = [dot]
      · subst isDot
        rfl
      · cases idle : isIdle piece <;> simp [componentOf?, isDot, idle]

/-- The empty stretch in front of the slash of an absolute path does not count. -/
theorem components_eq_counted_split (path : Path) :
    path.components =
      (if path.isAbsolute then [.root] else []) ++ counted (!path.isAbsolute) (split path.bytes) := by
  rw [components_eq_counted, split_bytes]
  cases path.isAbsolute with
  | true => rfl
  | false => rfl

theorem split_ne_nil (bytes : List UInt8) : split bytes ≠ [] := by
  cases bytes with
  | nil => exact List.cons_ne_nil _ _
  | cons b rest =>
    unfold split
    split
    · exact List.cons_ne_nil _ _
    · split <;> exact List.cons_ne_nil _ _

theorem split_append (first second : List UInt8) :
    split (first ++ slash :: second) = split first ++ split second := by
  induction first with
  | nil => simp [split]
  | cons b first inductionHypothesis =>
    by_cases isSlash : b = slash
    · simp [split, isSlash, inductionHypothesis]
    · obtain ⟨piece, pieces, divided⟩ := List.exists_cons_of_ne_nil (split_ne_nil first)
      simp [split, isSlash, inductionHypothesis, divided]

/-! Names inside of a path. -/

/-- Whatever a path ends with, a name inside of it is one component more. -/
theorem components_push (path : Path) {name : Name} (solid : Solid name) :
    (path.push ⟨name⟩).components = path.components ++ [component name] := by
  have alone : split name = [name] := split_of_slash_notMem solid.without
  have added (pieces : List Name) (leading : Bool) :
      counted leading (pieces ++ split name) = counted leading pieces ++ [component name] := by
    rw [alone, counted_append, counted_single, solid.componentOf?, Option.toList_some]
  obtain ⟨bytes⟩ := path
  rw [push, solid.isAbsolute, if_neg Bool.false_ne_true]
  cases isLast : bytes.getLast? with
  | none =>
    rw [List.getLast?_eq_none_iff.mp isLast, components_eq_counted_split, solid.isAbsolute]
    exact added [] true
  | some last =>
    obtain ⟨front, rfl⟩ := List.getLast?_eq_some_iff.mp isLast
    have sameRoot (more : List UInt8) :
        (Path.mk (front ++ [last] ++ more)).isAbsolute = (Path.mk (front ++ [last])).isAbsolute := by
      cases front <;> rfl
    have divided (leading : Bool) :
        counted leading (split (front ++ [last] ++ ((if last = slash then [] else [slash]) ++ name))) =
          counted leading (split (front ++ [last])) ++ [component name] := by
      by_cases isSlash : last = slash
      · have emptyEnd : counted leading (split (front ++ [slash])) = counted leading (split front) := by
          rw [split_append, counted_append, split, counted_single, componentOf?_nil,
            Option.toList_none, List.append_nil]
        rw [if_pos isSlash, isSlash, emptyEnd, List.nil_append, List.append_assoc,
          List.singleton_append, split_append, added]
      · rw [if_neg isSlash, List.singleton_append, split_append, added]
    dsimp only
    rw [List.append_assoc, components_eq_counted_split, sameRoot, divided, components_eq_counted_split,
      List.append_assoc]

theorem IsName.component {name : Name} (isName : IsName name) :
    component name = .normal name :=
  if_neg isName.2

theorem fileName?_of_components {path : Path} {front : List Component} {name : Name}
    (isName : IsName name) (isLast : path.components = front ++ [component name]) :
    path.fileName? = some name := by
  rw [fileName?, isLast, List.getLast?_concat, isName.component]

/-! Parents. -/

/-- A piece is dropped if nothing is left behind it and it does not count. -/
theorem dropIdleEnd_cons (leading : Bool) (piece : Name) (rest : List Name) :
    dropIdleEnd leading (piece :: rest) =
      if dropIdleEnd false rest = [] ∧ componentOf? leading piece = none then []
      else piece :: dropIdleEnd false rest := by
  rw [dropIdleEnd, componentOf?]
  cases dropIdleEnd false rest with
  | nil => cases isIdle piece && !(leading && piece = [dot]) <;> rfl
  | cons next kept => rfl

theorem prefix_dropIdleEnd (leading : Bool) (pieces : List Name) :
    dropIdleEnd leading pieces <+: pieces := by
  induction pieces generalizing leading with
  | nil => exact List.prefix_rfl
  | cons piece rest inductionHypothesis =>
    rw [dropIdleEnd_cons]
    split
    · exact List.nil_prefix
    · exact (List.prefix_cons_inj piece).mpr (inductionHypothesis false)

theorem counted_dropIdleEnd (leading : Bool) (pieces : List Name) :
    counted leading (dropIdleEnd leading pieces) = counted leading pieces := by
  induction pieces generalizing leading with
  | nil => rfl
  | cons piece rest inductionHypothesis =>
    rw [dropIdleEnd_cons, counted, ← inductionHypothesis false]
    split
    case isTrue dropped => rw [dropped.1, dropped.2, counted, counted, Option.toList_none, List.append_nil]
    case isFalse => rw [counted]

/-- The last piece that is left counts. -/
theorem counted_of_dropIdleEnd {leading : Bool} {pieces front : List Name} {last : Name}
    (ends : dropIdleEnd leading pieces = front ++ [last]) :
    ∃ c, counted leading pieces = counted leading front ++ [c] := by
  induction pieces generalizing leading front with
  | nil => simp [dropIdleEnd] at ends
  | cons piece rest inductionHypothesis =>
    rw [dropIdleEnd_cons] at ends
    split at ends
    · simp at ends
    case isFalse kept =>
      cases front with
      | nil =>
        obtain ⟨rfl, nothing⟩ := List.cons.inj ends
        obtain ⟨c, isComponent⟩ := Option.ne_none_iff_exists'.mp fun dropped => kept ⟨nothing, dropped⟩
        refine ⟨c, ?_⟩
        rw [counted, counted, ← counted_dropIdleEnd false, nothing, isComponent]
        rfl
      | cons first front =>
        obtain ⟨rfl, restEnds⟩ := List.cons.inj ends
        obtain ⟨c, later⟩ := inductionHypothesis restEnds
        exact ⟨c, by rw [counted, later, counted, List.append_assoc]⟩

theorem counted_split_join (leading : Bool) {pieces : List Name}
    (without : ∀ piece ∈ pieces, slash ∉ piece) :
    counted leading (split (join pieces)) = counted leading pieces := by
  by_cases empty : pieces = []
  · rw [empty, join, split, counted_single, componentOf?_nil]
    rfl
  · rw [split_join empty without]

/-- Pieces that do not look like the start of an absolute path are the components of a path. -/
theorem components_ofBody_counted {absolute : Bool} {body : List Name}
    (without : ∀ piece ∈ body, slash ∉ piece) (relative : absolute = false → body.head? ≠ some []) :
    (ofBody absolute body).components =
      (if absolute then [.root] else []) ++ counted (!absolute) body := by
  have isAbsolute : (ofBody absolute body).isAbsolute = absolute := by
    cases absolute with
    | true => simp [ofBody, Path.isAbsolute]
    | false =>
      rcases body with _ | ⟨_ | ⟨b, piece⟩, rest⟩
      · rfl
      · exact (relative rfl rfl).elim
      · have notSlash : b ≠ slash := fun same => without _ List.mem_cons_self (by simp [same])
        cases rest <;> simp [ofBody, join, Path.isAbsolute, notSlash]
  rw [components_eq_counted_split, isAbsolute]
  congr 1
  cases absolute with
  | true =>
    rw [← counted_split_join _ without]
    change counted false (split (slash :: join body)) = _
    rw [split, if_pos rfl, counted, componentOf?_nil]
    rfl
  | false => exact counted_split_join _ without

theorem head?_pieces {path : Path} (relative : path.isAbsolute = false)
    (empty : path.pieces.head? = some []) : path.pieces = [[]] := by
  obtain ⟨bytes⟩ := path
  rcases bytes with _ | ⟨b, rest⟩
  · rfl
  · have notSlash : b ≠ slash := by simpa [isAbsolute] using relative
    obtain ⟨piece, pieces, divided⟩ := List.exists_cons_of_ne_nil (split_ne_nil rest)
    simp [Path.pieces, notSlash, split, divided] at empty

/-- The parent of a path has all of its components but the last one. -/
theorem parent?_of_components {path : Path} {front : List Component} {piece : Name}
    (isLast : path.components = front ++ [component piece]) :
    ∃ parent, path.parent? = some parent ∧ parent.components = front := by
  rw [components_eq_counted] at isLast
  have bodyPrefix : path.body <+: path.pieces := prefix_dropIdleEnd _ _
  by_cases empty : path.body = []
  · have nothing : counted (!path.isAbsolute) path.pieces = [] := by
      rw [← counted_dropIdleEnd]
      change counted _ path.body = []
      rw [empty, counted]
    rw [nothing, List.append_nil] at isLast
    have isRoot : component piece ∈ (if path.isAbsolute then [Component.root] else []) := by
      rw [isLast]
      exact List.mem_append_right _ List.mem_cons_self
    split at isRoot
    · exact (component_ne_root piece (List.mem_singleton.mp isRoot)).elim
    · cases isRoot
  · obtain ⟨kept, last, ends⟩ := (List.eq_nil_or_concat' path.body).resolve_left empty
    obtain ⟨c, isCounted⟩ := counted_of_dropIdleEnd ends
    rw [isCounted, ← List.append_assoc] at isLast
    have isFront := (List.append_inj' isLast rfl).1
    refine ⟨_, if_neg (by simpa using empty), ?_⟩
    have keptPrefix : dropIdleEnd (!path.isAbsolute) kept <+: path.pieces := by
      rw [ends] at bodyPrefix
      exact (prefix_dropIdleEnd _ kept).trans ((List.prefix_append kept [last]).trans bodyPrefix)
    rw [ends, List.dropLast_concat, components_ofBody_counted, counted_dropIdleEnd, isFront]
    · exact fun piece membership => path.slash_notMem_pieces piece (keptPrefix.subset membership)
    · intro relative isEmpty
      have isHead : path.pieces.head? = some [] := by
        obtain ⟨more, whole⟩ := keptPrefix
        rw [← whole, List.head?_append, isEmpty, Option.some_or]
      apply empty
      rw [body, head?_pieces relative isHead, relative]
      rfl

end Colloquy.Path

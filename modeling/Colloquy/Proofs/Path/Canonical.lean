import Colloquy.Proofs.Path.Meaning

set_option autoImplicit false

/-!
Normalised paths are written without anything that is passed over, so two of them have the same
components only if they are the same path.
-/

namespace Colloquy.Path

/-- A path that is written without anything that is passed over. -/
def IsPlain (path : Path) : Prop :=
  ∃ absolute body, (∀ piece ∈ body, Solid piece) ∧ path = ofBody absolute body

theorem isPlain_normalize (path : Path) : path.normalize.IsPlain := by
  obtain ⟨isNames, _, odd, spelled, _⟩ := normalize_reaches path
  exact ⟨_, _, solid_parity isNames odd, spelled⟩

theorem component_injective : Function.Injective component := by
  intro piece other same
  unfold component at same
  split at same <;> split at same
  case isTrue.isTrue isParent otherParent => rw [isParent, otherParent]
  case isFalse.isFalse => exact Component.normal.inj same
  all_goals cases same

theorem component_ne_root (piece : Name) : component piece ≠ .root := by
  unfold component
  split <;> exact nofun

theorem filter_solid {body : List Name} (solid : ∀ piece ∈ body, Solid piece) :
    body.filter (!isIdle ·) = body := by
  apply List.filter_eq_self.mpr
  intro piece membership
  simp [(solid piece membership).counts]

theorem components_ofBody {body : List Name} (solid : ∀ piece ∈ body, Solid piece)
    (absolute : Bool) :
    (ofBody absolute body).components =
      (if absolute then [.root] else []) ++ body.map component := by
  by_cases empty : body = []
  · subst empty
    cases absolute <;> decide
  · rw [components, isAbsolute_ofBody solid, pieces_ofBody solid empty]
    cases absolute with
    | true =>
      rw [if_pos rfl, if_pos rfl, filter_solid solid]
      rfl
    | false =>
      obtain ⟨piece, rest, rfl⟩ := List.exists_cons_of_ne_nil empty
      have notDot : piece ≠ [dot] := by
        rintro rfl
        exact absurd (solid _ List.mem_cons_self).counts (by decide)
      simp only [Bool.false_eq_true, if_false, if_neg notDot, filter_solid solid]

theorem ofBody_injective {body other : List Name} (solid : ∀ piece ∈ body, Solid piece)
    (otherSolid : ∀ piece ∈ other, Solid piece) {absolute otherAbsolute : Bool}
    (same : (ofBody absolute body).components = (ofBody otherAbsolute other).components) :
    ofBody absolute body = ofBody otherAbsolute other := by
  have rootless (body : List Name) : .root ∉ body.map component := by
    simp [component_ne_root]
  rw [components_ofBody solid, components_ofBody otherSolid] at same
  cases absolute <;> cases otherAbsolute
  · rw [List.map_injective_iff.mpr component_injective same]
  · exact (rootless body (by rw [show body.map component = _ from same]; simp)).elim
  · exact (rootless other (by rw [show other.map component = _ from same.symm]; simp)).elim
  · rw [List.map_injective_iff.mpr component_injective (List.cons.inj same).2]

/-- Plain paths are told apart by their components. -/
theorem IsPlain.same_iff {path other : Path} (plain : path.IsPlain) (otherPlain : other.IsPlain) :
    path.same other = true ↔ path = other := by
  obtain ⟨absolute, body, solid, rfl⟩ := plain
  obtain ⟨otherAbsolute, otherBody, otherSolid, rfl⟩ := otherPlain
  rw [same, decide_eq_true_iff]
  exact ⟨ofBody_injective solid otherSolid, fun equal => by rw [equal]⟩

theorem IsPlain.any_same_iff {path : Path} (plain : path.IsPlain) {paths : List Path}
    (plains : ∀ other ∈ paths, other.IsPlain) : paths.any path.same = true ↔ path ∈ paths := by
  rw [List.any_eq_true]
  constructor
  · rintro ⟨other, membership, same⟩
    rwa [(plain.same_iff (plains other membership)).mp same]
  · intro membership
    exact ⟨path, membership, (plain.same_iff plain).mpr rfl⟩

end Colloquy.Path

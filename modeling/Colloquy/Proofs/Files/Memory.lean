import Colloquy.Files.Memory

set_option autoImplicit false

/-!
What is found in a memory. A file that is put under one path is found under all that lead to the same
file, and one that is deleted under one path is gone under all of them.
-/

namespace Colloquy

namespace PathRules

variable (rules : PathRules) {path other : Path}

theorem sameFile_self (path : Path) : rules.sameFile path path = true :=
  rules.equivalence.refl path

variable {rules}

theorem sameFile_congr (same : rules.sameFile path other = true) (third : Path) :
    rules.sameFile path third = rules.sameFile other third := by
  rw [Bool.eq_iff_iff]
  exact ⟨rules.equivalence.trans (rules.equivalence.symm same), rules.equivalence.trans same⟩

theorem components_of_sameFile (same : rules.sameFile path other = true) :
    path.components = other.components :=
  of_decide_eq_true (rules.same_of_sameFile same)

/-- No path leads to the same file as each of two that lead to different ones. -/
theorem sameFile_of_differ (differ : rules.sameFile path other = false) {third : Path}
    (same : rules.sameFile path third = true) : rules.sameFile other third = false := by
  rw [← differ, sameFile_congr same, Bool.eq_iff_iff]
  exact ⟨rules.equivalence.symm, rules.equivalence.symm⟩

end PathRules

namespace Memory

/-- What is found depends on the rules and the files alone. -/
theorem find?_congr {memory state : Memory} (rules : state.rules = memory.rules)
    (files : state.files = memory.files) (path : Path) : state.find? path = memory.find? path := by
  rw [find?, find?, rules, files]

variable (memory : Memory) (path other : Path) (content : List UInt8)

/-- The directory of a script is asked for without a trace. -/
theorem workingDirectory_run (script : Path) :
    FileSystem.workingDirectory (m := StateM Memory) script memory =
      (memory.rules.workingDirectory script, memory) := rfl

theorem find?_erase :
    (memory.erase path).find? other =
      if memory.rules.sameFile other path then none else memory.find? other := by
  rw [find?, find?, erase, List.find?_filter]
  cases same : memory.rules.sameFile other path with
  | true => simp [PathRules.sameFile_congr same]
  | false =>
    have stays (entry : Path × List UInt8) :
        (!memory.rules.sameFile path entry.1 && memory.rules.sameFile other entry.1) =
          memory.rules.sameFile other entry.1 := by
      cases found : memory.rules.sameFile other entry.1 with
      | true => simp [PathRules.sameFile_of_differ same found]
      | false => rw [Bool.and_false]
    simp [stays]

theorem find?_insert :
    (memory.insert path content).find? other =
      if memory.rules.sameFile other path then some content else memory.find? other := by
  have erased := memory.find?_erase path other
  rw [find?, insert, List.find?_cons]
  dsimp only
  cases same : memory.rules.sameFile other path with
  | true => rfl
  | false =>
    rw [same] at erased
    exact erased

end Memory

end Colloquy

import Colloquy.Proofs.Files.Reads
import Mathlib.Logic.Relation

set_option autoImplicit false

/-!
Runs that only read. The expansion of a script is one on every file system, however it ends.
-/

namespace Colloquy

section

variable {State : Type} [FileSystem (StateM State)] {α β : Type}

/-- One call that reads, or asks for the directory of a script. -/
inductive Reads : State → State → Prop
  | directory (script : Path) (state : State) :
      Reads state (FileSystem.workingDirectory (m := StateM State) script state).2
  | text (path : Path) (state : State) :
      Reads state (FileSystem.readText (m := StateM State) path state).2
  | count (state : State) : Reads state (FileSystem.readableCount (m := StateM State) state).2

/-- Any number of calls that read. -/
abbrev ReadsOnly : State → State → Prop :=
  Relation.ReflTransGen Reads

/-- Whatever the files are, a run of this makes no other calls than reads. -/
def IsReader (run : StateM State α) : Prop :=
  ∀ state, ReadsOnly state (run state).2

theorem IsReader.pure (result : α) : IsReader (Pure.pure result : StateM State α) :=
  fun _ => .refl

theorem IsReader.bind {first : StateM State α} {second : α → StateM State β}
    (firstReads : IsReader first) (secondReads : ∀ result, IsReader (second result)) :
    IsReader (first >>= second) :=
  fun state => (firstReads state).trans (secondReads _ _)

theorem isReader_readText (path : Path) :
    IsReader (FileSystem.readText (m := StateM State) path) :=
  fun state => .single (.text path state)

theorem isReader_readableCount : IsReader (FileSystem.readableCount (m := StateM State)) :=
  fun state => .single (.count state)

theorem isReader_expandLines {load : Path → Expansion → StateM State (Except IncludeError Expansion)}
    (loads : ∀ path out, IsReader (load path out)) (file : Path) (number : Nat)
    (lines : List Include.Line) (out : Expansion) :
    IsReader (Include.expandLines load file number lines out) := by
  fun_induction Include.expandLines load file number lines out with
  | case1 => exact .pure _
  | case2 => exact .pure _
  | case3 number text rest out inductionHypothesis =>
    apply (loads (Include.target file text) out).bind
    intro result
    cases result with
    | error e => exact .pure _
    | ok out => exact inductionHypothesis out
  | case4 number name rest out inductionHypothesis => exact inductionHypothesis
  | case5 number line rest out inductionHypothesis => exact inductionHypothesis

theorem isReader_expand (fuel : Nat) (stack : List Path) (path : Path) (out : Expansion) :
    IsReader (Include.expand (m := StateM State) fuel stack path out) := by
  unfold Include.expand
  split
  · exact .pure _
  split
  · exact .pure _
  · apply (isReader_readText path).bind
    rintro (failure | text)
    · exact .pure _
    · cases fuel with
      | zero => exact .pure _
      | succ fuel =>
        exact isReader_expandLines (isReader_expand fuel (stack ++ [path])) path 1 _ _

theorem isReader_expandScript (script : Path) :
    IsReader (expandScript (m := StateM State) script) :=
  isReader_readableCount.bind fun fuel => isReader_expand fuel [] script.normalize _

end

/-- Reading a memory changes its log only, which gets the reads. -/
theorem ReadsOnly.memory {before after : Memory} (reads : ReadsOnly before after) :
    ∃ made : List Call, (∀ call ∈ made, call.operation = .readText) ∧
      after = { before with log := made ++ before.log } := by
  induction reads with
  | refl => exact ⟨[], nofun, rfl⟩
  | tail _ last inductionHypothesis =>
    obtain ⟨made, allReads, rfl⟩ := inductionHypothesis
    cases last with
    | directory => exact ⟨made, allReads, rfl⟩
    | count => exact ⟨made, allReads, rfl⟩
    | text path =>
      refine ⟨⟨.readText, path⟩ :: made, List.forall_mem_cons.mpr ⟨rfl, allReads⟩, ?_⟩
      rw [(Memory.readText_ok _ _).1]
      rfl

end Colloquy

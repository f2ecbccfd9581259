import Colloquy.Files.Include
import Colloquy.Proofs.Files.Memory
import Colloquy.Proofs.Path.Meaning

set_option autoImplicit false

/-!
Which files the expansion of a script reads. The only calls it makes are reads, and each of them is
made for a path that was written: that of the script, or one of a `#load` line in a file that was
read before. The path read is the written one normalised, so it means the same only where
normalising keeps what the written path means.
-/

namespace Colloquy

open Include

/-- The written paths that a script leads to. That of a `#load` line is taken from the directory of
the file that holds the line. -/
inductive Requested (memory : Memory) (script : Path) : Path → Prop
  | script : Requested memory script script
  | load {path : Path} {text target : String} : Requested memory script path →
      (memory.find? path.normalize).bind Text.Utf8.decode? = some text →
      .load (some target) ∈ Line.all text →
      Requested memory script (((path.normalize.parent?).getD .empty).push (.ofString target))

/-- So far, files have only been read, and only those that were asked for. -/
structure Reading (memory : Memory) (script : Path) (state : Memory) : Prop where
  rules : state.rules = memory.rules
  files : state.files = memory.files
  calls : ∀ call ∈ state.log, call.operation = .readText ∧
    ∃ path, Requested memory script path ∧ call.path = path.normalize

theorem run_bind {State α β : Type} (first : StateM State α) (second : α → StateM State β)
    (state : State) : (first >>= second) state = second (first state).1 (first state).2 := rfl

/-- A read is logged, and what it gives is the text of the file. -/
theorem Memory.readText_ok (path : Path) (state : Memory) :
    (FileSystem.readText (m := StateM Memory) path state).2 =
        { state with log := ⟨.readText, path⟩ :: state.log } ∧
      ∀ text, (FileSystem.readText (m := StateM Memory) path state).1 = .ok text →
        (state.find? path).bind Text.Utf8.decode? = some text := by
  change (Memory.call .readText path (Memory.readText path) state).2 = _ ∧
    ∀ text, (Memory.call .readText path (Memory.readText path) state).1 = .ok text → _
  unfold Memory.call
  dsimp only
  split
  · exact ⟨rfl, nofun⟩
  · have same : Memory.find? { state with log := ⟨.readText, path⟩ :: state.log } path =
        state.find? path := rfl
    unfold Memory.readText
    rw [same]
    cases state.find? path with
    | none => exact ⟨rfl, nofun⟩
    | some content =>
      dsimp only [Option.bind_some]
      cases Text.Utf8.decode? content with
      | none => exact ⟨rfl, nofun⟩
      | some text =>
        refine ⟨rfl, ?_⟩
        rintro _ ⟨⟩
        rfl

section

variable {memory : Memory} {script : Path}

theorem Reading.read {state : Memory} (reading : Reading memory script state) {path : Path}
    (requested : Requested memory script path) :
    Reading memory script
      (FileSystem.readText (m := StateM Memory) path.normalize state).2 := by
  rw [(Memory.readText_ok _ _).1]
  exact ⟨reading.rules, reading.files, List.forall_mem_cons.mpr ⟨⟨rfl, path, requested, rfl⟩, reading.calls⟩⟩

/-- A way to load files that keeps to what was asked for. -/
def Loads (memory : Memory) (script : Path)
    (load : Path → Expansion → StateM Memory (Except IncludeError Expansion)) : Prop :=
  ∀ ⦃path : Path⦄ ⦃state : Memory⦄ (out : Expansion), Requested memory script path →
    Reading memory script state → Reading memory script (load path.normalize out state).2

theorem expandLines_reading {load : Path → Expansion → StateM Memory (Except IncludeError Expansion)}
    (loads : Loads memory script load) {file : Path} {lines : List Line}
    (targets : ∀ target, .load (some target) ∈ lines →
      Requested memory script (((file.parent?).getD .empty).push (.ofString target)))
    (number : Nat) (out : Expansion) {state : Memory} (reading : Reading memory script state) :
    Reading memory script (expandLines load file number lines out state).2 := by
  induction lines generalizing number out state with
  | nil => exact reading
  | cons line rest inductionHypothesis =>
    have later : ∀ target, .load (some target) ∈ rest →
        Requested memory script (((file.parent?).getD .empty).push (.ofString target)) :=
      fun target membership => targets target (List.mem_cons_of_mem _ membership)
    cases line with
    | reference name => exact inductionHypothesis later _ _ reading
    | text line => exact inductionHypothesis later _ _ reading
    | load target? =>
      cases target? with
      | none => exact reading
      | some target =>
        have loaded := loads out (targets target List.mem_cons_self) reading
        rw [expandLines, run_bind]
        cases (load (Include.target file target) out state).1 with
        | error e => exact loaded
        | ok out => exact inductionHypothesis later _ _ loaded

/-- What expanding a file does: nothing, a read, or a read and the lines of the file. -/
theorem expand_run (fuel : Nat) (stack : List Path) (path : Path) (out : Expansion)
    (state : Memory) :
    (expand (m := StateM Memory) fuel stack path out state).2 = state ∨
    (expand (m := StateM Memory) fuel stack path out state).2 =
      (FileSystem.readText (m := StateM Memory) path state).2 ∨
    ∃ less text, fuel = less + 1 ∧
      (FileSystem.readText (m := StateM Memory) path state).1 = .ok text ∧
      (expand (m := StateM Memory) fuel stack path out state).2 =
        (expandLines (m := StateM Memory) (expand less (stack ++ [path])) path 1 (Line.all text)
          { out with loaded := out.loaded ++ [path] }
          (FileSystem.readText (m := StateM Memory) path state).2).2 := by
  unfold expand
  split
  · exact .inl rfl
  · split
    · exact .inl rfl
    · rw [run_bind]
      cases read : (FileSystem.readText (m := StateM Memory) path state).1 with
      | error failure => exact .inr (.inl rfl)
      | ok text =>
        cases fuel with
        | zero => exact .inr (.inl rfl)
        | succ less => exact .inr (.inr ⟨less, text, rfl, rfl, rfl⟩)

theorem expand_loads (fuel : Nat) (stack : List Path) :
    Loads memory script (expand fuel stack) := by
  induction fuel generalizing stack with
  | zero =>
    intro path state out requested reading
    obtain stays | reads | ⟨less, _, impossible, _⟩ :=
      expand_run 0 stack path.normalize out state
    · rwa [stays]
    · rw [reads]
      exact reading.read requested
    · cases impossible
  | succ fuel inductionHypothesis =>
    intro path state out requested reading
    obtain stays | reads | ⟨less, text, fuelIs, isText, expands⟩ :=
      expand_run (fuel + 1) stack path.normalize out state
    · rwa [stays]
    · rw [reads]
      exact reading.read requested
    · cases fuelIs
      rw [expands]
      refine expandLines_reading (inductionHypothesis _) ?_ 1 _ (reading.read requested)
      intro target membership
      have content := (Memory.readText_ok _ _).2 text isText
      rw [Memory.find?_congr reading.rules reading.files] at content
      exact .load requested content membership

end

theorem expandScript_reading (memory : Memory) (script : Path) :
    Reading memory script (expandScript (m := StateM Memory) script { memory with log := [] }).2 := by
  rw [expandScript, run_bind]
  exact expand_loads _ [] _ .script ⟨rfl, rfl, nofun⟩

/-- Of the steps up in a path, normalising keeps whether their number is odd, so it keeps the meaning
of the path if and only if there are fewer than two. Every file that a script reads is found by
normalising a written path, and is the file that the path means under the same condition. -/
theorem reads_keep_meaning_iff (memory : Memory) (script : Path) :
    (∀ path : Path, path.normalize.meaning = { path.meaning with up := path.meaning.up % 2 } ∧
      (path.normalize.meaning = path.meaning ↔ path.meaning.up < 2)) ∧
    ∀ call ∈ (expandScript (m := StateM Memory) script { memory with log := [] }).2.log,
      call.operation = .readText ∧ ∃ path, Requested memory script path ∧
        call.path = path.normalize ∧ (call.path.meaning = path.meaning ↔ path.meaning.up < 2) := by
  refine ⟨fun path => ⟨path.meaning_normalize, path.meaning_normalize_eq_iff⟩, ?_⟩
  intro call made
  obtain ⟨isRead, path, requested, normalised⟩ := (expandScript_reading memory script).calls call made
  refine ⟨isRead, path, requested, normalised, ?_⟩
  rw [normalised]
  exact path.meaning_normalize_eq_iff

theorem two_steps_up_read_another_file :
    (Path.ofString "../../x.csx").meaning.up = 2 ∧
    (Path.ofString "x.csx").meaning ≠ (Path.ofString "../../x.csx").meaning ∧
    (expandScript (m := StateM Memory) (.ofString "../../x.csx")
      ⟨.text, [(.ofString "../../x.csx", [0x31]), (.ofString "x.csx", [0x32])], [], []⟩).2.log =
        [⟨.readText, .ofString "x.csx"⟩] := by
  decide +kernel

end Colloquy

import Colloquy.Engine.Artifact
import Colloquy.Proofs.Files.Steps

set_option autoImplicit false

/-!
What the emission of a script's artifacts leaves behind. Its calls are made in a fixed order, and the
first one that fails decides the result. Until a file has been created nothing is changed; from then
on a failure clears both files, and no other file is ever touched.
-/

namespace Colloquy.Artifact

open Memory

/-- The failure that a call told to fail leads to. -/
def refused (call : Call) : ArtifactFailure :=
  ⟨call.path, ⟨"injected"⟩⟩

def parentSteps (path : Path) : List Step :=
  path.parent?.toList.map fun directory => ⟨⟨.createDirectory, directory⟩, Memory.files⟩

def fileSteps (paths : ArtifactPaths) (contents : Streams) : List Step :=
  writeSteps paths.code contents.code ++ writeSteps paths.symbols contents.symbols

/-- The calls of an emission in their order. -/
def calls (paths : ArtifactPaths) (contents : Streams) : List Call :=
  (parentSteps paths.code ++ fileSteps paths contents).map Step.call

/-- Deletes both files, as far as that is possible. -/
def clear (paths : ArtifactPaths) (memory : Memory) : Memory :=
  (FileSystem.removeFile (m := StateM Memory) paths.symbols
    (FileSystem.removeFile (m := StateM Memory) paths.code memory).2).2

section

variable (paths : ArtifactPaths) (memory : Memory)

theorem createParent_run (path : Path) :
    createParent (m := StateM Memory) path memory =
      match attempt (parentSteps path) memory with
      | (none, after) => (.ok (), after)
      | (some call, after) => (.error (refused call), after) := by
  rw [createParent, parentSteps]
  cases path.parent? with
  | none => rfl
  | some directory =>
    have creates : FileSystem.createDirectory (m := StateM Memory) directory memory =
        answer (attempt [⟨⟨.createDirectory, directory⟩, Memory.files⟩] memory) :=
      call_eq_attempt .createDirectory directory Memory.files memory
    dsimp only
    rw [run_bind, creates, Option.toList_some, List.map_singleton, attempt]
    split <;> rfl

theorem writeOrClear_run (path : Path) (bytes : List UInt8) :
    writeOrClear (m := StateM Memory) paths path bytes memory =
      match attempt (writeSteps path bytes) memory with
      | (none, after) => (.ok (), after)
      | (some call, after) => (.error (refused call), clear paths after) := by
  rw [writeOrClear, run_bind, writeFile_run]
  rcases failed : attempt (writeSteps path bytes) memory with ⟨_ | call, after⟩
  · rfl
  · have isFirst : (((writeSteps path bytes).map Step.call).find? (· ∈ memory.failing)) = some call := by
      rw [← attempt_fst, failed]
    obtain ⟨step, membership, rfl⟩ := List.mem_map.mp (List.mem_of_find?_eq_some isFirst)
    have isRefused : refused step.call = ⟨path, ⟨"injected"⟩⟩ := by
      rw [refused, path_of_mem_writeSteps membership]
    dsimp only
    rw [isRefused]
    rfl

theorem emit_run (layout : Layout) (working script : Path) (contents : Streams) :
    emit (m := StateM Memory) layout working script (.ok contents) memory =
      match attempt (parentSteps (layout.paths working script).code) memory with
      | (some call, after) => (.error (refused call), after)
      | (none, middle) =>
        match attempt (fileSteps (layout.paths working script) contents) middle with
        | (none, after) => (.ok (layout.paths working script), after)
        | (some call, after) => (.error (refused call), clear (layout.paths working script) after) := by
  rw [emit, run_bind, createParent_run]
  rcases attempt (parentSteps (layout.paths working script).code) memory with ⟨_ | call, middle⟩
  · dsimp only
    rw [run_bind, writeOrClear_run, fileSteps, attempt_append]
    rcases attempt (writeSteps (layout.paths working script).code contents.code) middle with
      ⟨_ | call, later⟩
    · dsimp only
      rw [run_bind, writeOrClear_run]
      rcases attempt (writeSteps (layout.paths working script).symbols contents.symbols) later with
        ⟨_ | call, last⟩ <;> rfl
    · rfl
  · rfl

end

/-- Both files hold what was to be written, and no other file has changed. -/
structure Written (before after : Memory) (paths : ArtifactPaths) (contents : Streams) : Prop where
  rules : after.rules = before.rules
  code : after.find? paths.code = some contents.code
  symbols : after.find? paths.symbols = some contents.symbols
  others : ∀ path, before.rules.sameFile path paths.code = false →
    before.rules.sameFile path paths.symbols = false → after.find? path = before.find? path

/-- Both files are gone, and no other file has changed. -/
structure Cleared (before after : Memory) (paths : ArtifactPaths) : Prop where
  rules : after.rules = before.rules
  code : after.find? paths.code = none
  symbols : after.find? paths.symbols = none
  others : ∀ path, before.rules.sameFile path paths.code = false →
    before.rules.sameFile path paths.symbols = false → after.find? path = before.find? path

section

variable (path : Path) (memory : Memory)

/-- Making a directory changes nothing but the log. -/
theorem parentSteps_memory :
    ∃ log, (attempt (parentSteps path) memory).2 = { memory with log } := by
  rw [parentSteps]
  cases path.parent? with
  | none => exact ⟨memory.log, rfl⟩
  | some directory =>
    rw [Option.toList_some, List.map_singleton, attempt]
    split <;> exact ⟨_, rfl⟩

variable {path memory} in
theorem operation_of_parentSteps_failing {call : Call}
    (fails : (attempt (parentSteps path) memory).1 = some call) :
    call.operation = .createDirectory := by
  rw [attempt_fst] at fails
  obtain ⟨step, membership, rfl⟩ := List.mem_map.mp (List.mem_of_find?_eq_some fails)
  obtain ⟨directory, -, rfl⟩ := List.mem_map.mp membership
  rfl

end

section

variable {paths : ArtifactPaths} {contents : Streams} {memory : Memory}

theorem operation_of_fileSteps_failing {call : Call}
    (fails : (attempt (fileSteps paths contents) memory).1 = some call) :
    call.operation ≠ .createDirectory := by
  rw [attempt_fst] at fails
  obtain ⟨step, membership, rfl⟩ := List.mem_map.mp (List.mem_of_find?_eq_some fails)
  rcases List.mem_append.mp membership with ofCode | ofSymbols
  · rcases mem_writeSteps ofCode with rfl | rfl | rfl <;> nofun
  · rcases mem_writeSteps ofSymbols with rfl | rfl | rfl <;> nofun

/-- No step of the writing touches a file that is neither of the pair. -/
theorem find?_fileSteps_other {step : Step} (membership : step ∈ fileSteps paths contents)
    {path : Path} (notCode : memory.rules.sameFile path paths.code = false)
    (notSymbols : memory.rules.sameFile path paths.symbols = false) :
    (step.take memory).find? path = memory.find? path := by
  rcases List.mem_append.mp membership with ofCode | ofSymbols
  · exact find?_writeSteps_other ofCode notCode
  · exact find?_writeSteps_other ofSymbols notSymbols

variable (paths contents memory) in
theorem fileSteps_others (path : Path) (notCode : memory.rules.sameFile path paths.code = false)
    (notSymbols : memory.rules.sameFile path paths.symbols = false) :
    (attempt (fileSteps paths contents) memory).2.find? path = memory.find? path := by
  apply attempt_find?
  intro step membership state sameRules
  rw [← sameRules] at notCode notSymbols
  exact find?_fileSteps_other membership notCode notSymbols

theorem fileSteps_written (differ : memory.rules.sameFile paths.code paths.symbols = false)
    (completes : (attempt (fileSteps paths contents) memory).1 = none) :
    Written memory (attempt (fileSteps paths contents) memory).2 paths contents := by
  have others := fileSteps_others paths contents memory
  have sameRules := attempt_rules (writeSteps paths.code contents.code) memory
  rw [fileSteps, attempt_append] at completes others ⊢
  rcases codeRun : attempt (writeSteps paths.code contents.code) memory with ⟨_ | call, middle⟩
  · rw [codeRun] at completes others sameRules
    have codeWritten : middle.find? paths.code = some contents.code := by
      have written := attempt_writeSteps_find? (congrArg Prod.fst codeRun)
      rwa [codeRun] at written
    -- The second file is written behind the first one, which it leaves alone.
    have codeKept : (attempt (writeSteps paths.symbols contents.symbols) middle).2.find? paths.code =
        middle.find? paths.code := by
      apply attempt_find?
      intro step membership state stateRules
      rw [← sameRules, ← stateRules] at differ
      exact find?_writeSteps_other membership differ
    exact ⟨(attempt_rules _ middle).trans sameRules, codeKept.trans codeWritten,
      attempt_writeSteps_find? completes, others⟩
  · rw [codeRun] at completes
    cases completes

variable (paths) in
theorem clear_find? (deletable : ∀ path, ⟨.removeFile, path⟩ ∉ memory.failing) (path : Path) :
    (clear paths memory).find? path =
      if memory.rules.sameFile path paths.symbols then none
      else if memory.rules.sameFile path paths.code then none else memory.find? path := by
  rw [clear, removeFile_find?, removeFile_find?, removeFile_rules]
  · exact deletable paths.code
  · rw [removeFile_failing]
    exact deletable paths.symbols

theorem clear_others {path : Path} (notCode : memory.rules.sameFile path paths.code = false)
    (notSymbols : memory.rules.sameFile path paths.symbols = false) :
    (clear paths memory).find? path = memory.find? path := by
  rw [clear, removeFile_find?_other, removeFile_find?_other _ _ notCode]
  rwa [removeFile_rules]

variable (paths contents) in
theorem fileSteps_cleared (deletable : ∀ path, ⟨.removeFile, path⟩ ∉ memory.failing) :
    Cleared memory (clear paths (attempt (fileSteps paths contents) memory).2) paths := by
  have sameRules := attempt_rules (fileSteps paths contents) memory
  have deletableAfter (path : Path) :
      ⟨.removeFile, path⟩ ∉ (attempt (fileSteps paths contents) memory).2.failing := by
    rw [attempt_failing]
    exact deletable path
  refine ⟨?_, ?_, ?_, fun path notCode notSymbols => ?_⟩
  · rw [clear, removeFile_rules, removeFile_rules, sameRules]
  · rw [clear_find? paths deletableAfter, if_pos (PathRules.sameFile_self _ paths.code), ite_self]
  · rw [clear_find? paths deletableAfter, if_pos (PathRules.sameFile_self _ paths.symbols)]
  · rw [clear_others, fileSteps_others _ _ _ _ notCode notSymbols]
    · rw [sameRules]
      exact notCode
    · rw [sameRules]
      exact notSymbols

end

section

variable (paths : ArtifactPaths) (contents : Streams)

def isCreation (call : Call) : Bool :=
  call.operation = .createFile

theorem creations_writeSteps (path : Path) (bytes : List UInt8) :
    ((writeSteps path bytes).map Step.call).filter isCreation = [⟨.createFile, path⟩] := by
  rw [writeSteps]
  cases bytes.isEmpty <;> rfl

theorem creations_calls :
    (calls paths contents).filter isCreation =
      [⟨.createFile, paths.code⟩, ⟨.createFile, paths.symbols⟩] := by
  have noParent : ((parentSteps paths.code).map Step.call).filter isCreation = [] := by
    rw [parentSteps]
    cases paths.code.parent? <;> rfl
  rw [calls, fileSteps, List.map_append, List.map_append, List.filter_append, List.filter_append,
    noParent, creations_writeSteps, creations_writeSteps]
  rfl

theorem clear_log (memory : Memory) :
    (clear paths memory).log =
      ⟨.removeFile, paths.symbols⟩ :: ⟨.removeFile, paths.code⟩ :: memory.log := by
  rw [clear, removeFile_log, removeFile_log]

/-- An emission makes its calls in order up to one that fails, and may clear the files after that. -/
theorem emit_memory (layout : Layout) (working script : Path) (memory : Memory) :
    let after := (attempt (parentSteps (layout.paths working script).code ++
      fileSteps (layout.paths working script) contents) memory).2
    (emit (m := StateM Memory) layout working script (.ok contents) memory).2 = after ∨
      (emit (m := StateM Memory) layout working script (.ok contents) memory).2 =
        clear (layout.paths working script) after := by
  dsimp only
  rw [emit_run, attempt_append]
  rcases attempt (parentSteps (layout.paths working script).code) memory with ⟨_ | call, middle⟩
  · dsimp only
    rcases attempt (fileSteps (layout.paths working script) contents) middle with ⟨_ | call, last⟩
    · exact .inl rfl
    · exact .inr rfl
  · exact .inl rfl

end

/-- Whatever becomes of an emission, no file but the pair is touched. -/
theorem emit_others (layout : Layout) (working script : Path)
    (streams : Except Failure Streams) (memory : Memory) {path : Path}
    (notCode : memory.rules.sameFile path (layout.paths working script).code = false)
    (notSymbols : memory.rules.sameFile path (layout.paths working script).symbols = false) :
    (emit (m := StateM Memory) layout working script streams memory).2.find? path =
      memory.find? path := by
  cases streams with
  | error failure => rfl
  | ok contents =>
    have attempted : (attempt (parentSteps (layout.paths working script).code ++
        fileSteps (layout.paths working script) contents) memory).2.find? path =
          memory.find? path := by
      apply attempt_find?
      intro step membership state sameRules
      rw [← sameRules] at notCode notSymbols
      rcases List.mem_append.mp membership with ofParent | ofFiles
      · obtain ⟨directory, -, rfl⟩ := List.mem_map.mp ofParent
        rfl
      · exact find?_fileSteps_other ofFiles notCode notSymbols
    rcases emit_memory contents layout working script memory with stopped | cleared
    · rw [stopped, attempted]
    · rw [cleared, clear_others, attempted]
      · rw [attempt_rules]
        exact notCode
      · rw [attempt_rules]
        exact notSymbols

/-- Each file of the pair is created once at most, that of the code first. -/
theorem emit_creations (layout : Layout) (working script : Path) (streams : Except Failure Streams)
    (memory : Memory) :
    ∃ made, (emit (m := StateM Memory) layout working script streams memory).2.log =
        made ++ memory.log ∧
      made.reverse.filter isCreation <+:
        [⟨.createFile, (layout.paths working script).code⟩,
          ⟨.createFile, (layout.paths working script).symbols⟩] := by
  cases streams with
  | error failure => exact ⟨[], rfl, List.nil_prefix⟩
  | ok contents =>
    rw [← creations_calls _ contents]
    obtain ⟨made, isPrefix, log⟩ := attempt_log (parentSteps (layout.paths working script).code ++
      fileSteps (layout.paths working script) contents) memory
    have creations : made.filter isCreation <+:
        (calls (layout.paths working script) contents).filter isCreation :=
      isPrefix.filter isCreation
    rcases emit_memory contents layout working script memory with stopped | cleared
    · refine ⟨made.reverse, by rw [stopped, log], ?_⟩
      rw [List.reverse_reverse]
      exact creations
    · refine ⟨_ :: _ :: made.reverse, by rw [cleared, clear_log, log]; rfl, ?_⟩
      -- Deletions are no creations.
      simpa [isCreation] using creations

theorem emit_ok {layout : Layout} {working script : Path} {streams : Except Failure Streams}
    {memory : Memory} {written : ArtifactPaths}
    (writes : (emit (m := StateM Memory) layout working script streams memory).1 = .ok written) :
    written = layout.paths working script := by
  cases streams with
  | error failure => cases writes
  | ok contents =>
    rw [emit_run] at writes
    split at writes
    · cases writes
    · split at writes <;> cases writes
      rfl

/-- An emission leaves the whole pair or nothing of it. It succeeds where the streams are there and
no call is told to fail, and then each file holds its stream. Otherwise it reports the first step
that failed: where that comes before the creation of the first file everything is as it was, and
from there on neither file is left. -/
theorem emit_all_or_nothing (memory : Memory)
    (deletable : ∀ path, ⟨.removeFile, path⟩ ∉ memory.failing) (layout : Layout)
    (working script : Path)
    (differ : memory.rules.sameFile (layout.paths working script).code
      (layout.paths working script).symbols = false)
    (streams : Except Failure Streams) :
    let paths := layout.paths working script
    let run := emit (m := StateM Memory) layout working script streams memory
    match run.1 with
    | .ok written => written = paths ∧ ∃ contents, streams = .ok contents ∧
        (calls paths contents).find? (· ∈ memory.failing) = none ∧
        Written memory run.2 paths contents
    | .error failure =>
        (∃ cause, streams = .error cause ∧ failure = ⟨paths.code, cause⟩ ∧
          run.2.files = memory.files) ∨
        ∃ contents call, streams = .ok contents ∧
          (calls paths contents).find? (· ∈ memory.failing) = some call ∧
          failure = ⟨call.path, ⟨"injected"⟩⟩ ∧
          if call.operation = .createDirectory then run.2.files = memory.files
          else Cleared memory run.2 paths := by
  intro paths run
  cases streams with
  | error cause => exact .inl ⟨cause, rfl, rfl, rfl⟩
  | ok contents =>
    have runs : run = _ := emit_run memory layout working script contents
    have firstFailing := attempt_fst (parentSteps paths.code ++ fileSteps paths contents) memory
    obtain ⟨log, isMiddle⟩ := parentSteps_memory paths.code memory
    rw [attempt_append] at firstFailing
    rcases parentRun : attempt (parentSteps paths.code) memory with ⟨_ | call, middle⟩
    · rw [parentRun] at runs firstFailing isMiddle
      cases isMiddle
      dsimp only at runs firstFailing
      rcases fileRun : attempt (fileSteps paths contents) { memory with log } with ⟨_ | call, last⟩
      · have written : Written { memory with log } _ paths contents :=
          fileSteps_written differ (congrArg Prod.fst fileRun)
        rw [fileRun] at runs firstFailing written
        rw [runs]
        exact ⟨rfl, contents, rfl, firstFailing.symm, written.rules, written.code,
          written.symbols, written.others⟩
      · have notDirectory := operation_of_fileSteps_failing (congrArg Prod.fst fileRun)
        have cleared : Cleared { memory with log } _ paths :=
          fileSteps_cleared paths contents deletable
        rw [fileRun] at runs firstFailing cleared
        rw [runs]
        refine .inr ⟨contents, call, rfl, firstFailing.symm, rfl, ?_⟩
        rw [if_neg notDirectory]
        exact ⟨cleared.rules, cleared.code, cleared.symbols, cleared.others⟩
    · have isDirectory := operation_of_parentSteps_failing (congrArg Prod.fst parentRun)
      rw [parentRun] at runs firstFailing isMiddle
      cases isMiddle
      rw [runs]
      refine .inr ⟨contents, call, rfl, firstFailing.symm, rfl, ?_⟩
      rw [if_pos isDirectory]

/-- A memory with a pair of an earlier run, which refuses to flush new symbols. -/
def earlierPair : Memory where
  rules := .components
  files :=
    [(.ofString "work/bin/main.dll", [1]), (.ofString "work/bin/main.pdb", [2]),
      (.ofString "work/main.csx", [3])]
  failing := [⟨.flush, .ofString "work/bin/main.pdb"⟩]
  log := []

theorem earlierPair_cleared :
    (emit (m := StateM Memory) .standard (.ofString "work") (.ofString "work/main.csx")
        (.ok ⟨[4, 5], [6]⟩) earlierPair).1 =
        .error ⟨.ofString "work/bin/main.pdb", ⟨"injected"⟩⟩ ∧
      Cleared earlierPair
        (emit (m := StateM Memory) .standard (.ofString "work") (.ofString "work/main.csx")
          (.ok ⟨[4, 5], [6]⟩) earlierPair).2
        (Layout.standard.paths (.ofString "work") (.ofString "work/main.csx")) := by
  have result : (emit (m := StateM Memory) .standard (.ofString "work") (.ofString "work/main.csx")
      (.ok ⟨[4, 5], [6]⟩) earlierPair).1 =
      .error ⟨.ofString "work/bin/main.pdb", ⟨"injected"⟩⟩ := by decide +kernel
  have deletable (path : Path) : ⟨.removeFile, path⟩ ∉ earlierPair.failing := by
    simp [earlierPair]
  have outcome := emit_all_or_nothing earlierPair deletable .standard (.ofString "work")
    (.ofString "work/main.csx") (by decide +kernel) (.ok ⟨[4, 5], [6]⟩)
  dsimp only at outcome
  rw [result] at outcome
  obtain ⟨cause, impossible, -⟩ | ⟨contents, call, isContents, first, -, left⟩ := outcome
  · cases impossible
  · cases isContents
    have isFlush : call = ⟨.flush, .ofString "work/bin/main.pdb"⟩ := by
      simpa [earlierPair] using List.find?_some first
    rw [isFlush, if_neg nofun] at left
    exact ⟨result, left⟩

end Colloquy.Artifact

import Colloquy.Proofs.Files.Memory
import Colloquy.Proofs.Files.Reads

set_option autoImplicit false

/-!
Calls made one after the other, up to the first that fails. Writing a file is such a series, and so
is everything that is put together from series; what a series leaves behind is read off its steps.
-/

namespace Colloquy.Memory

/-- A call, and the files that it leaves if it does not fail. -/
structure Step where
  call : Call
  effect : Memory → List (Path × List UInt8)

def Step.take (step : Step) (memory : Memory) : Memory :=
  let logged := { memory with log := step.call :: memory.log }
  { logged with files := step.effect logged }

/-- Makes the calls in turn. The first part of the result is the one that failed. -/
def attempt : List Step → Memory → Option Call × Memory
  | [], memory => (none, memory)
  | step :: rest, memory =>
    if step.call ∈ memory.failing then
      (some step.call, { memory with log := step.call :: memory.log })
    else attempt rest (step.take memory)

section

variable (steps more : List Step) (memory : Memory)

theorem attempt_append :
    attempt (steps ++ more) memory =
      match attempt steps memory with
      | (none, memory) => attempt more memory
      | (some call, memory) => (some call, memory) := by
  induction steps generalizing memory with
  | nil => rfl
  | cons step rest inductionHypothesis =>
    rw [List.cons_append, attempt, attempt]
    split
    · rfl
    · exact inductionHypothesis _

/-- A series fails at the first of its calls that is told to fail. -/
theorem attempt_fst :
    (attempt steps memory).1 = (steps.map Step.call).find? (· ∈ memory.failing) := by
  induction steps generalizing memory with
  | nil => rfl
  | cons step rest inductionHypothesis =>
    rw [attempt, List.map_cons, List.find?_cons]
    by_cases fails : step.call ∈ memory.failing
    · simp [fails]
    · simp [fails, inductionHypothesis, Step.take]

/-- A series changes the files and the log only. -/
theorem attempt_frame :
    ∃ files log, (attempt steps memory).2 = { memory with files, log } := by
  induction steps generalizing memory with
  | nil => exact ⟨memory.files, memory.log, rfl⟩
  | cons step rest inductionHypothesis =>
    rw [attempt]
    split
    · exact ⟨memory.files, _, rfl⟩
    · exact inductionHypothesis (step.take memory)

theorem attempt_rules : (attempt steps memory).2.rules = memory.rules := by
  obtain ⟨files, log, frame⟩ := attempt_frame steps memory
  rw [frame]

theorem attempt_failing : (attempt steps memory).2.failing = memory.failing := by
  obtain ⟨files, log, frame⟩ := attempt_frame steps memory
  rw [frame]

theorem attempt_log :
    ∃ made, made <+: steps.map Step.call ∧
      (attempt steps memory).2.log = made.reverse ++ memory.log := by
  induction steps generalizing memory with
  | nil => exact ⟨[], List.nil_prefix, rfl⟩
  | cons step rest inductionHypothesis =>
    rw [attempt]
    split
    · exact ⟨[step.call], by simp, rfl⟩
    · obtain ⟨made, isPrefix, log⟩ := inductionHypothesis (step.take memory)
      refine ⟨step.call :: made, by simpa using isPrefix, ?_⟩
      rw [log, Step.take, List.reverse_cons, List.append_assoc, List.singleton_append]

theorem attempt_completes (completes : (attempt steps memory).1 = none) :
    (attempt steps memory).2 = steps.foldl (fun memory step => step.take memory) memory := by
  induction steps generalizing memory with
  | nil => rfl
  | cons step rest inductionHypothesis =>
    rw [attempt] at completes ⊢
    split at completes
    · cases completes
    case isFalse goesOn =>
      rw [if_neg goesOn]
      exact inductionHypothesis _ completes

/-- A file that no step touches stays as it is, wherever the series stops. -/
theorem attempt_find? {path : Path}
    (untouched : ∀ step ∈ steps, ∀ state : Memory, state.rules = memory.rules →
      (step.take state).find? path = state.find? path) :
    (attempt steps memory).2.find? path = memory.find? path := by
  induction steps generalizing memory with
  | nil => rfl
  | cons step rest inductionHypothesis =>
    obtain ⟨here, later⟩ := List.forall_mem_cons.mp untouched
    rw [attempt]
    split
    · rfl
    · exact (inductionHypothesis (step.take memory) later).trans (here memory rfl)

end

/-- The result of a call that gives no answer but its success. -/
def answer : Option Call × Memory → Except Failure Unit × Memory
  | (none, memory) => (.ok (), memory)
  | (some _, memory) => (.error ⟨"injected"⟩, memory)

theorem call_eq_attempt (operation : Operation) (path : Path)
    (effect : Memory → List (Path × List UInt8)) (memory : Memory) :
    Memory.call operation path (fun memory => (.ok (), { memory with files := effect memory }))
        memory =
      answer (attempt [⟨⟨operation, path⟩, effect⟩] memory) := by
  rw [Memory.call, attempt]
  split <;> rfl

section

variable (path : Path) (memory : Memory)

theorem removeFile_run :
    (FileSystem.removeFile (m := StateM Memory) path memory).2 =
      let logged := { memory with log := ⟨.removeFile, path⟩ :: memory.log }
      if ⟨.removeFile, path⟩ ∈ memory.failing then logged else logged.erase path := by
  change (Memory.call _ _ _ memory).2 = _
  rw [Memory.call]
  split <;> rfl

theorem removeFile_failing :
    (FileSystem.removeFile (m := StateM Memory) path memory).2.failing = memory.failing := by
  rw [removeFile_run]
  split <;> rfl

theorem removeFile_rules :
    (FileSystem.removeFile (m := StateM Memory) path memory).2.rules = memory.rules := by
  rw [removeFile_run]
  split <;> rfl

theorem removeFile_log :
    (FileSystem.removeFile (m := StateM Memory) path memory).2.log =
      ⟨.removeFile, path⟩ :: memory.log := by
  rw [removeFile_run]
  split <;> rfl

theorem removeFile_find? (deletable : ⟨.removeFile, path⟩ ∉ memory.failing) (other : Path) :
    (FileSystem.removeFile (m := StateM Memory) path memory).2.find? other =
      if memory.rules.sameFile other path then none else memory.find? other := by
  rw [removeFile_run, if_neg deletable]
  exact find?_erase _ path other

theorem removeFile_find?_other {other : Path} (differ : memory.rules.sameFile other path = false) :
    (FileSystem.removeFile (m := StateM Memory) path memory).2.find? other = memory.find? other := by
  rw [removeFile_run]
  split
  · rfl
  · rw [find?_erase, differ, if_neg Bool.false_ne_true]
    rfl

end

/-- A series of calls that goes on with another one. -/
theorem run_steps {first second : StateM Memory (Except Failure Unit)} {steps more : List Step}
    (firstRun : ∀ memory, first memory = answer (attempt steps memory))
    (secondRun : ∀ memory, second memory = answer (attempt more memory)) (memory : Memory) :
    (first >>= fun
      | .error failure => pure (.error failure)
      | .ok () => second) memory = answer (attempt (steps ++ more) memory) := by
  rw [run_bind, firstRun, attempt_append]
  rcases attempt steps memory with ⟨_ | call, after⟩
  · exact secondRun after
  · rfl

def createStep (path : Path) : Step :=
  ⟨⟨.createFile, path⟩, fun memory => (memory.insert path []).files⟩

def appendStep (path : Path) (bytes : List UInt8) : Step :=
  ⟨⟨.write, path⟩, fun memory =>
    (memory.insert path ((memory.find? path).getD [] ++ bytes)).files⟩

def flushStep (path : Path) : Step :=
  ⟨⟨.flush, path⟩, Memory.files⟩

/-- The steps by which a whole file is written. -/
def writeSteps (path : Path) (bytes : List UInt8) : List Step :=
  [createStep path] ++ (if bytes.isEmpty then [] else [appendStep path bytes]) ++ [flushStep path]

theorem writeFile_run (path : Path) (bytes : List UInt8) (memory : Memory) :
    Files.writeFile (m := StateM Memory) path bytes memory =
      answer (attempt (writeSteps path bytes) memory) := by
  have creates (memory : Memory) : FileSystem.createFile (m := StateM Memory) path memory =
      answer (attempt [createStep path] memory) :=
    call_eq_attempt .createFile path (createStep path).effect memory
  have appends (memory : Memory) : FileSystem.write (m := StateM Memory) path bytes memory =
      answer (attempt [appendStep path bytes] memory) :=
    call_eq_attempt .write path (appendStep path bytes).effect memory
  have flushes (memory : Memory) : FileSystem.flush (m := StateM Memory) path memory =
      answer (attempt [flushStep path] memory) :=
    call_eq_attempt .flush path Memory.files memory
  rw [Files.writeFile, writeSteps]
  cases bytes.isEmpty with
  | true => exact run_steps creates flushes memory
  | false => exact run_steps creates (run_steps appends flushes) memory

theorem mem_writeSteps {path : Path} {bytes : List UInt8} {step : Step}
    (membership : step ∈ writeSteps path bytes) :
    step = createStep path ∨ step = appendStep path bytes ∨ step = flushStep path := by
  rw [writeSteps, List.mem_append, List.mem_append] at membership
  rcases membership with (creates | appends) | flushes
  · exact .inl (List.mem_singleton.mp creates)
  · split at appends
    · cases appends
    · exact .inr (.inl (List.mem_singleton.mp appends))
  · exact .inr (.inr (List.mem_singleton.mp flushes))

theorem path_of_mem_writeSteps {path : Path} {bytes : List UInt8} {step : Step}
    (membership : step ∈ writeSteps path bytes) : step.call.path = path := by
  rcases mem_writeSteps membership with rfl | rfl | rfl <;> rfl

section

variable (path other : Path) (bytes : List UInt8) (memory : Memory)

theorem find?_createStep :
    ((createStep path).take memory).find? other =
      if memory.rules.sameFile other path then some [] else memory.find? other :=
  find?_insert { memory with log := _ } path other []

theorem find?_appendStep :
    ((appendStep path bytes).take memory).find? other =
      if memory.rules.sameFile other path then some ((memory.find? path).getD [] ++ bytes)
      else memory.find? other :=
  find?_insert { memory with log := _ } path other _

end

theorem find?_writeSteps_other {path other : Path} {bytes : List UInt8} {step : Step}
    (membership : step ∈ writeSteps path bytes) {memory : Memory}
    (differ : memory.rules.sameFile other path = false) :
    (step.take memory).find? other = memory.find? other := by
  rcases mem_writeSteps membership with rfl | rfl | rfl
  · rw [find?_createStep, differ, if_neg Bool.false_ne_true]
  · rw [find?_appendStep, differ, if_neg Bool.false_ne_true]
  · rfl

/-- A file that was written holds what was written, whatever was there before. -/
theorem attempt_writeSteps_find? {path : Path} {bytes : List UInt8} {memory : Memory}
    (completes : (attempt (writeSteps path bytes) memory).1 = none) :
    (attempt (writeSteps path bytes) memory).2.find? path = some bytes := by
  have created (state : Memory) : ((createStep path).take state).find? path = some [] := by
    rw [find?_createStep, if_pos (state.rules.sameFile_self path)]
  rw [attempt_completes _ _ completes, writeSteps]
  cases bytes with
  | nil => exact created memory
  | cons byte rest =>
    change ((appendStep path (byte :: rest)).take ((createStep path).take memory)).find? path = _
    rw [find?_appendStep, if_pos (PathRules.sameFile_self _ path), created]
    rfl

end Colloquy.Memory

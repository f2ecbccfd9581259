import Colloquy.Proofs.Files.Inlining
import Colloquy.Proofs.Files.Reads
import Colloquy.Proofs.Path.Canonical
import Mathlib.Data.List.Chain

set_option autoImplicit false

/-!
What is known in the middle of a depth-first search through the files that a script includes. The
files on the stack are those that are being expanded. A file that was loaded and has left the stack is
finished, and so is every file that it includes.
-/

namespace Colloquy

open Include Relation

theorem includes_iff {memory : Memory} {file target : Path} {lines : List Line}
    (isText : memory.lines? file = some lines) :
    Includes memory file target ↔ target ∈ targets file lines := by
  rw [targets, List.mem_filterMap]
  constructor
  · rintro ⟨_, text, isText', membership, rfl⟩
    cases isText.symm.trans isText'
    exact ⟨_, membership, rfl⟩
  · rintro ⟨line, membership, leads⟩
    split at leads
    · exact ⟨lines, _, isText, membership, Option.some.inj leads⟩
    · cases leads

/-- Every target of a file is found by normalising. -/
theorem Includes.isPlain {memory : Memory} {file target : Path}
    (includes : Includes memory file target) : target.IsPlain := by
  obtain ⟨_, _, _, _, rfl⟩ := includes
  exact Path.isPlain_normalize _

theorem Memory.readText_toOption {state : Memory} (unfailing : state.failing = []) (path : Path) :
    (FileSystem.readText (m := StateM Memory) path state).1.toOption =
      (state.find? path).bind Text.Utf8.decode? := by
  change (Memory.call .readText path (Memory.readText path) state).1.toOption = _
  have same : Memory.find? { state with log := ⟨.readText, path⟩ :: state.log } path =
      state.find? path := rfl
  rw [Memory.call, if_neg (by simp [unfailing]), Memory.readText, same]
  cases state.find? path with
  | none => rfl
  | some content =>
    dsimp only [Option.bind_some]
    cases Text.Utf8.decode? content <;> rfl

/-- A file that is found has the components of a path that files are kept under. -/
theorem Memory.components_mem_of_lines? {memory : Memory} {file : Path}
    (isText : (memory.lines? file).isSome) :
    file.components ∈ memory.files.map fun entry => entry.1.components := by
  rw [Memory.lines?, Option.isSome_map, Memory.find?] at isText
  cases found : memory.files.find? fun entry => memory.rules.sameFile file entry.1 with
  | none => simp [found] at isText
  | some entry =>
    have leads : memory.rules.sameFile file entry.1 = true := by simpa using List.find?_some found
    rw [PathRules.components_of_sameFile leads]
    exact List.mem_map_of_mem (List.mem_of_find?_eq_some found)

/-! What the search has found out so far. -/

/-- The calls made were reads, each of another path. -/
def ReadOnce (state : Memory) : Prop :=
  state.log.Nodup ∧ ∀ call ∈ state.log, call.operation = .readText

/-- Loaded, and not being expanded any more. -/
def Finished (stack loaded : List Path) (file : Path) : Prop :=
  file ∈ loaded ∧ file ∉ stack

/-- The files that are being expanded and the next one: each includes the one after it. -/
structure Route (memory : Memory) (root : Path) (stack : List Path) (path : Path) : Prop where
  chain : (stack ++ [path]).IsChain (Includes memory)
  starts : (stack ++ [path]).head? = some root

/-- What was loaded: texts that the script leads to, each one read once. -/
structure Loaded (memory : Memory) (root : Path) (loaded : List Path) (state : Memory) : Prop where
  rules : state.rules = memory.rules
  files : state.files = memory.files
  failing : state.failing = memory.failing
  log : state.log = loaded.reverse.map (⟨.readText, ·⟩)
  nodup : loaded.Nodup
  plain : ∀ file ∈ loaded, file.IsPlain
  texts : ∀ file ∈ loaded, (memory.lines? file).isSome
  reached : ∀ file ∈ loaded, ReflTransGen (Includes memory) root file

/-- What is known while the files on the stack are being expanded. -/
structure Searching (memory : Memory) (root : Path) (stack loaded : List Path) (state : Memory) : Prop
    extends Loaded memory root loaded state where
  opened : stack ⊆ loaded
  distinct : stack.Nodup
  closed : ∀ file, Finished stack loaded file →
    ∀ target, Includes memory file target → Finished stack loaded target
  acyclic : ∀ file, Finished stack loaded file → ¬TransGen (Includes memory) file file
  walked : ∀ file, Finished stack loaded file → ∃ walk, Walks memory [file] walk ∧ walk ⊆ loaded

/-- The chain goes from the script to a file that it has met before. -/
def IsCircle (memory : Memory) (root : Path) (chain : List Path) (path : Path) : Prop :=
  chain.head? = some root ∧ chain.IsChain (Includes memory) ∧
    ∃ before, chain = before ++ [path] ∧ path ∈ before

section

variable {memory : Memory} {root : Path} {stack loaded : List Path} {state : Memory} {path : Path}

theorem Route.reached (route : Route memory root stack path) :
    ReflTransGen (Includes memory) root path := by
  have nonempty : stack ++ [path] ≠ [] := by simp
  have reaches := List.relationReflTransGen_of_exists_isChain _ route.chain nonempty
  have starts : (stack ++ [path]).head nonempty = root := by
    have found := route.starts
    rwa [List.head?_eq_some_head nonempty, Option.some_inj] at found
  rwa [starts, List.getLast_append_singleton] at reaches

theorem Route.next (route : Route memory root stack path) {target : Path}
    (includes : Includes memory path target) : Route memory root (stack ++ [path]) target := by
  refine ⟨route.chain.append (List.IsChain.singleton target) ?_, ?_⟩
  · simpa using includes
  · rw [List.head?_append, route.starts, Option.some_or]

theorem readOnce_of_log {paths : List Path} (log : state.log = paths.map (⟨.readText, ·⟩))
    (nodup : paths.Nodup) : ReadOnce state := by
  rw [ReadOnce, log]
  constructor
  · refine nodup.map ?_
    intro path other same
    exact (Call.mk.inj same).2
  · simp

theorem Loaded.readOnce (isLoaded : Loaded memory root loaded state) : ReadOnce state :=
  readOnce_of_log isLoaded.log (List.nodup_reverse.mpr isLoaded.nodup)

theorem Loaded.readOnce_read (isLoaded : Loaded memory root loaded state) (new : path ∉ loaded) :
    ReadOnce (FileSystem.readText (m := StateM Memory) path state).2 := by
  have nodup : (path :: loaded.reverse).Nodup := by
    simpa [new] using isLoaded.nodup
  refine readOnce_of_log ?_ nodup
  rw [(Memory.readText_ok path state).1, List.map_cons, ← isLoaded.log]

theorem Loaded.read (isLoaded : Loaded memory root loaded state) (plain : path.IsPlain)
    (reached : ReflTransGen (Includes memory) root path) (new : path ∉ loaded)
    (isText : (memory.lines? path).isSome) :
    Loaded memory root (loaded ++ [path])
      (FileSystem.readText (m := StateM Memory) path state).2 := by
  rw [(Memory.readText_ok path state).1]
  exact {
    rules := isLoaded.rules
    files := isLoaded.files
    failing := isLoaded.failing
    log := by simp [isLoaded.log]
    nodup := nodup_concat isLoaded.nodup new
    plain := List.forall_mem_append.mpr ⟨isLoaded.plain, by simpa using plain⟩
    texts := List.forall_mem_append.mpr ⟨isLoaded.texts, by simpa using isText⟩
    reached := List.forall_mem_append.mpr ⟨isLoaded.reached, by simpa using reached⟩ }

/-- What a finished file leads to is finished. -/
theorem Searching.finished_of_reached (searching : Searching memory root stack loaded state)
    {file other : Path} (finished : Finished stack loaded file)
    (reaches : ReflTransGen (Includes memory) file other) : Finished stack loaded other := by
  induction reaches with
  | refl => exact finished
  | tail _ includes inductionHypothesis => exact searching.closed _ inductionHypothesis _ includes

/-- A file that is read joins the stack. -/
theorem Searching.enter (searching : Searching memory root stack loaded state)
    (plain : path.IsPlain) (reached : ReflTransGen (Includes memory) root path)
    (new : path ∉ loaded) (isText : (memory.lines? path).isSome) :
    Searching memory root (stack ++ [path]) (loaded ++ [path])
      (FileSystem.readText (m := StateM Memory) path state).2 := by
  have older {file : Path} (finished : Finished (stack ++ [path]) (loaded ++ [path]) file) :
      Finished stack loaded file := by
    obtain ⟨isLoaded, notOpen⟩ := finished
    rw [List.mem_append, List.mem_singleton] at isLoaded notOpen
    obtain ⟨notOnStack, differs⟩ := not_or.mp notOpen
    exact ⟨isLoaded.resolve_right differs, notOnStack⟩
  have newer {file : Path} (finished : Finished stack loaded file) :
      Finished (stack ++ [path]) (loaded ++ [path]) file := by
    have differs : file ≠ path := fun same => new (same ▸ finished.1)
    exact ⟨List.mem_append_left _ finished.1, by simp [finished.2, differs]⟩
  exact {
    searching.toLoaded.read plain reached new isText with
    opened := List.append_subset.mpr
      ⟨List.subset_append_of_subset_left _ searching.opened, List.subset_append_right _ _⟩
    distinct := nodup_concat searching.distinct fun onStack => new (searching.opened onStack)
    closed := fun file finished target includes =>
      newer (searching.closed file (older finished) target includes)
    acyclic := fun file finished => searching.acyclic file (older finished)
    walked := by
      intro file finished
      obtain ⟨walk, walks, known⟩ := searching.walked file (older finished)
      exact ⟨walk, walks, List.subset_append_of_subset_left _ known⟩ }

/-- A file may leave the stack when all files that it includes are finished. It cannot lead to
itself, because everything they lead to is finished and it is not. -/
theorem Searching.leave (searching : Searching memory root (stack ++ [path]) loaded state)
    (included : ∀ target, Includes memory path target → Finished (stack ++ [path]) loaded target)
    (walked : ∃ walk, Walks memory [path] walk ∧ walk ⊆ loaded) :
    Searching memory root stack loaded state := by
  have fewer {file : Path} (finished : Finished (stack ++ [path]) loaded file) :
      Finished stack loaded file :=
    ⟨finished.1, fun onStack => finished.2 (List.mem_append_left _ onStack)⟩
  have last {file : Path} (finished : Finished stack loaded file) (differs : file ≠ path) :
      Finished (stack ++ [path]) loaded file :=
    ⟨finished.1, by simp [finished.2, differs]⟩
  exact {
    searching.toLoaded with
    opened := fun _ onStack => searching.opened (List.mem_append_left _ onStack)
    distinct := searching.distinct.of_append_left
    closed := by
      intro file finished target includes
      by_cases isPath : file = path
      · exact fewer (included target (isPath ▸ includes))
      · exact fewer (searching.closed file (last finished isPath) target includes)
    acyclic := by
      intro file finished
      by_cases isPath : file = path
      · subst isPath
        intro circle
        obtain ⟨target, includes, back⟩ := TransGen.head'_iff.mp circle
        have again := searching.finished_of_reached (included target includes) back
        exact again.2 (by simp)
      · exact searching.acyclic file (last finished isPath)
    walked := by
      intro file finished
      by_cases isPath : file = path
      · exact isPath ▸ walked
      · exact searching.walked file (last finished isPath) }

/-- No more files can be on the stack than there are: plain paths with different components lead to
different files. -/
theorem Searching.stack_length_lt (searching : Searching memory root stack loaded state)
    (plain : path.IsPlain) (new : path ∉ loaded) (isText : (memory.lines? path).isSome) :
    stack.length < memory.files.length := by
  have plains : ∀ file ∈ stack ++ [path], file.IsPlain :=
    List.forall_mem_append.mpr
      ⟨fun file onStack => searching.plain file (searching.opened onStack), by simpa using plain⟩
  have texts : ∀ file ∈ stack ++ [path], (memory.lines? file).isSome :=
    List.forall_mem_append.mpr
      ⟨fun file onStack => searching.texts file (searching.opened onStack), by simpa using isText⟩
  have distinct : (stack ++ [path]).Nodup :=
    nodup_concat searching.distinct fun onStack => new (searching.opened onStack)
  have apart : ((stack ++ [path]).map Path.components).Nodup := by
    refine distinct.map_on fun file among other otherAmong same => ?_
    exact ((plains file among).same_iff (plains other otherAmong)).mp (decide_eq_true same)
  have known : (stack ++ [path]).map Path.components ⊆
      memory.files.map fun entry => entry.1.components :=
    List.forall_mem_map.mpr fun file among => Memory.components_mem_of_lines? (texts file among)
  simpa [Nat.succ_le_iff] using apart.length_le_of_subset known

/-- It is enough to look at files that include no others. -/
theorem expandable_of_closed (files : List Path) (starts : root ∈ files)
    (closed : ∀ file ∈ files, ∃ lines, memory.lines? file = some lines ∧ .load none ∉ lines ∧
      targets file lines ⊆ files) : Expandable memory root := by
  have stays {file : Path} (reaches : ReflTransGen (Includes memory) root file) : file ∈ files := by
    induction reaches with
    | refl => exact starts
    | tail _ includes inductionHypothesis =>
      obtain ⟨lines, isText, _, known⟩ := closed _ inductionHypothesis
      exact known ((includes_iff isText).mp includes)
  intro file reaches
  obtain ⟨lines, isText, wellFormed, _⟩ := closed file (stays reaches)
  exact ⟨lines, isText, wellFormed⟩

theorem IsCircle.reached {chain : List Path} {path : Path} (circle : IsCircle memory root chain path) :
    ReflTransGen (Includes memory) root path ∧ TransGen (Includes memory) path path := by
  obtain ⟨starts, isChain, before, rfl, met⟩ := circle
  refine ⟨(Route.mk isChain starts).reached, ?_⟩
  obtain ⟨front, back, rfl⟩ := List.append_of_mem met
  rw [List.append_assoc, List.cons_append] at isChain
  have around : (path :: (back ++ [path])).IsChain (Includes memory) :=
    (List.isChain_append.mp isChain).2.1
  obtain ⟨next, rest, isNext⟩ := List.exists_cons_of_ne_nil (List.append_ne_nil_of_right_ne_nil back
    (List.cons_ne_nil path []))
  rw [isNext] at around
  obtain ⟨includes, rest'⟩ := List.isChain_cons_cons.mp around
  have returns := List.relationReflTransGen_of_exists_isChain _ rest' (List.cons_ne_nil _ _)
  have last : (next :: rest).getLast (List.cons_ne_nil _ _) = path := by
    simp [← isNext]
  rw [last] at returns
  exact .head' includes returns

end

end Colloquy

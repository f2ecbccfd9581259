import Colloquy.Proofs.Files.Search
import Colloquy.Proofs.Entries

set_option autoImplicit false

/-!
The expansion of a script is a depth-first search through the files that it includes. It meets a file
that is still being expanded exactly where files include each other in a circle; otherwise it inlines
each file where it is visited first.
-/

namespace Colloquy

open Include Relation

/-! What the expansion of a file, or of some of its lines, ends with. -/

/-- The error names a file that the script leads to, and is right about it. -/
def IncludeError.IsRight (memory : Memory) (root : Path) (e : IncludeError) : Prop :=
  match e.cause with
  | .unreadable _ => ReflTransGen (Includes memory) root e.path ∧ memory.lines? e.path = none
  | .malformed number => ReflTransGen (Includes memory) root e.path ∧
      ∃ lines, memory.lines? e.path = some lines ∧ lines[number - 1]? = some (.load none)
  | .cycle chain => IsCircle memory root chain e.path
  | .exhausted => False

/-- What is added to an expansion when these parts are inlined. -/
structure Adds (out after : Expansion) (parts : List Part) : Prop where
  code : after.code = out.code ++ Part.code parts
  references : ∀ names, out.references = firstOfKey id names →
    after.references = firstOfKey id (names ++ parts.filterMap Part.reference?)

namespace Adds

variable {out middle after : Expansion} {parts more : List Part} {file : Path}

theorem none (out : Expansion) (loaded : List Path) : Adds out { out with loaded } [] :=
  ⟨by simp [Part.code], by simp⟩

theorem trans (adds : Adds out middle parts) (addsMore : Adds middle after more) :
    Adds out after (parts ++ more) := by
  refine ⟨?_, ?_⟩
  · rw [addsMore.code, adds.code, Part.code, Part.code, Part.code, List.filterMap_append,
      List.map_append, String.join_append, String.append_assoc]
  · intro names isNames
    rw [addsMore.references _ (adds.references names isNames), List.filterMap_append,
      List.append_assoc]

theorem text (out : Expansion) (line : String) : Adds out (addText out line) [⟨file, .text line⟩] :=
  ⟨by simp [addText, Part.code, Part.text?, String.append_assoc],
    by simp [addText, List.filterMap_cons, Part.reference?]⟩

theorem reference (out : Expansion) (name : String) :
    Adds out (addReference out name) [⟨file, .reference name⟩] := by
  refine ⟨?_, ?_⟩
  · rw [addReference]
    split <;> simp [Part.code, List.filterMap_cons, Part.text?]
  · intro names isNames
    rw [addReference, isNames]
    change _ = firstOfKey id (names ++ [name])
    by_cases known : name ∈ names
    · rw [if_pos (mem_firstOfKey_id.mpr known), isNames,
        firstOfKey_id_append_of_subset (by simpa using known)]
    · rw [if_neg (mt mem_firstOfKey_id.mp known), firstOfKey_append]
      simp [firstOfKey, known]

end Adds

section

variable (memory : Memory) (root : Path)

/-- How the expansion of a file may end, given what it starts from. -/
def Completes (stack : List Path) (path : Path) (out : Expansion) :
    Except IncludeError Expansion × Memory → Prop
  | (.error e, state) => e.IsRight memory root ∧ ReadOnce state
  | (.ok after, state) =>
    Searching memory root stack after.loaded state ∧ Finished stack after.loaded path ∧
    (∃ parts, Visits memory path out.loaded after.loaded parts ∧ Adds out after parts) ∧
    ∃ walk, Walks memory [path] walk ∧ firstOfKey id (out.loaded ++ walk) = after.loaded

/-- How the expansion of some lines of a file may end. -/
def CompletesLines (stack : List Path) (file : Path) (lines : List Line) (out : Expansion) :
    Except IncludeError Expansion × Memory → Prop
  | (.error e, state) => e.IsRight memory root ∧ ReadOnce state
  | (.ok after, state) =>
    Searching memory root stack after.loaded state ∧
    (∀ target ∈ targets file lines, Finished stack after.loaded target) ∧
    (∃ parts, Inlines memory file lines out.loaded after.loaded parts ∧ Adds out after parts) ∧
    ∃ walk, Walks memory (targets file lines) walk ∧
      firstOfKey id (out.loaded ++ walk) = after.loaded

end

section

variable {memory : Memory} {root : Path} {stack : List Path} {file : Path} {lines : List Line}
  {out middle : Expansion} {result : Except IncludeError Expansion × Memory}

theorem CompletesLines.keep {line : Line} (isKept : line.isLoad = false)
    (adds : Adds out middle [⟨file, line⟩]) (sameFiles : middle.loaded = out.loaded)
    (completes : CompletesLines memory root stack file lines middle result) :
    CompletesLines memory root stack file (line :: lines) out result := by
  obtain ⟨_ | after, state⟩ := result
  · exact completes
  · obtain ⟨searching, finished, ⟨parts, inlines, addsMore⟩, walk, walks, firsts⟩ := completes
    have sameTargets : targets file (line :: lines) = targets file lines := by
      cases line with
      | load => cases isKept
      | reference => rfl
      | text => rfl
    rw [sameFiles] at inlines firsts
    rw [CompletesLines, sameTargets]
    exact ⟨searching, finished, ⟨_, .keep isKept inlines, adds.trans addsMore⟩, walk, walks, firsts⟩

theorem CompletesLines.load {text : String} {state : Memory}
    (loads : Completes memory root stack (Include.target file text) out (.ok middle, state))
    (completes : CompletesLines memory root stack file lines middle result) :
    CompletesLines memory root stack file (.load (some text) :: lines) out result := by
  obtain ⟨_ | after, afterState⟩ := result
  · exact completes
  · obtain ⟨middleSearching, loaded, ⟨_, visits, adds⟩, innerWalk, innerWalks, innerFirsts⟩ := loads
    obtain ⟨searching, finished, ⟨_, inlines, addsMore⟩, walk, walks, firsts⟩ := completes
    refine ⟨searching, ?_, ⟨_, visits.load inlines, adds.trans addsMore⟩, innerWalk ++ walk,
      innerWalks.append walks, ?_⟩
    · have stays : Finished stack after.loaded (Include.target file text) :=
        ⟨inlines.visited_prefix.subset loaded.1, loaded.2⟩
      exact List.forall_mem_cons.mpr ⟨stays, finished⟩
    · rw [← List.append_assoc, firstOfKey_id_append_left innerFirsts middleSearching.nodup, firsts]

/-- The lines of a file are expanded as long as the files that it loads are. -/
theorem expandLines_completes
    {load : Path → Expansion → StateM Memory (Except IncludeError Expansion)}
    (loads : ∀ path out state, Includes memory file path →
      Searching memory root stack out.loaded state →
      Completes memory root stack path out (load path out state))
    (reached : ReflTransGen (Includes memory) root file) (past : List Line)
    (isText : memory.lines? file = some (past ++ lines)) {state : Memory}
    (searching : Searching memory root stack out.loaded state) :
    CompletesLines memory root stack file lines out
      (expandLines load file (past.length + 1) lines out state) := by
  induction lines generalizing past out state with
  | nil =>
    refine ⟨searching, nofun, ⟨[], .done, Adds.none out out.loaded⟩, [], .done, ?_⟩
    rw [List.append_nil, firstOfKey_id_of_nodup searching.nodup]
  | cons line lines inductionHypothesis =>
    -- the lines gone through grow by one, and so does the number of the line
    have isText' : memory.lines? file = some (past ++ [line] ++ lines) := by
      rw [isText, List.append_assoc, List.singleton_append]
    have goesOn (next : Expansion) {state : Memory}
        (searching : Searching memory root stack next.loaded state) :
        CompletesLines memory root stack file lines next
          (expandLines load file (past.length + 1 + 1) lines next state) := by
      have rest := inductionHypothesis (past ++ [line]) isText' searching
      rwa [List.length_append, List.length_singleton] at rest
    cases line with
    | text line => exact (goesOn (addText out line) searching).keep rfl (Adds.text out line) rfl
    | reference name =>
      have sameFiles : (addReference out name).loaded = out.loaded := by
        rw [addReference]
        split <;> rfl
      refine (goesOn (addReference out name) ?_).keep rfl (Adds.reference out name) sameFiles
      rwa [sameFiles]
    | load target? =>
      cases target? with
      | none => exact ⟨⟨reached, _, isText, by simp⟩, searching.readOnce⟩
      | some text =>
        have includes : Includes memory file (Include.target file text) :=
          ⟨_, text, isText, by simp, rfl⟩
        have loaded := loads _ out state includes searching
        rw [expandLines, run_bind]
        cases ran : load (Include.target file text) out state with
        | mk outcome middleState =>
          rw [ran] at loaded
          cases outcome with
          | error e => exact loaded
          | ok middle => exact CompletesLines.load loaded (goesOn middle loaded.1)

/-- A file that was read completes as its lines do. -/
theorem CompletesLines.completes (new : file ∉ out.loaded)
    (isText : memory.lines? file = some lines)
    (completes : CompletesLines memory root (stack ++ [file]) file lines
      { out with loaded := out.loaded ++ [file] } result) :
    Completes memory root stack file out result := by
  obtain ⟨_ | after, state⟩ := result
  · exact completes
  · obtain ⟨searching, finished, ⟨parts, inlines, adds⟩, walk, walks, firsts⟩ := completes
    have notOnStack : file ∉ stack := by
      intro onStack
      exact (List.nodup_append.mp searching.distinct).2.2 file onStack file (by simp) rfl
    have ownWalk : Walks memory [file] (file :: walk) := by
      simpa using Walks.visit isText walks .done
    have ownFirsts : firstOfKey id (out.loaded ++ file :: walk) = after.loaded := by
      rw [← firsts, List.append_assoc, List.singleton_append]
    have walked : file :: walk ⊆ after.loaded := by
      intro visited membership
      rw [← ownFirsts, mem_firstOfKey_id]
      exact List.mem_append_right _ membership
    have included (target : Path) (includes : Includes memory file target) :
        Finished (stack ++ [file]) after.loaded target :=
      finished target ((includes_iff isText).mp includes)
    exact ⟨searching.leave included ⟨_, ownWalk, walked⟩, ⟨walked List.mem_cons_self, notOnStack⟩,
      ⟨parts, .first new isText inlines, (Adds.none out _).trans adds⟩, _, ownWalk, ownFirsts⟩

end

/-- A file that is neither being expanded nor loaded is read. -/
theorem expand_new {fuel : Nat} {stack : List Path} {path : Path} {out : Expansion}
    (notOpen : ¬stack.any path.same = true) (new : ¬out.loaded.any path.same = true)
    (state : Memory) :
    expand (m := StateM Memory) fuel stack path out state =
      match (FileSystem.readText (m := StateM Memory) path state).1, fuel with
      | .error failure, _ => (.error ⟨path, .unreadable failure⟩,
          (FileSystem.readText (m := StateM Memory) path state).2)
      | .ok _, 0 => (.error ⟨path, .exhausted⟩,
          (FileSystem.readText (m := StateM Memory) path state).2)
      | .ok text, fuel + 1 =>
        expandLines (m := StateM Memory) (expand fuel (stack ++ [path])) path 1 (Line.all text)
          { out with loaded := out.loaded ++ [path] }
          (FileSystem.readText (m := StateM Memory) path state).2 := by
  rw [expand, if_neg notOpen, if_neg new, run_bind]
  cases (FileSystem.readText (m := StateM Memory) path state).1 with
  | error failure => rfl
  | ok text => cases fuel <;> rfl

/-- With as much fuel as there are files that are not on the stack, the expansion of a file is never
cut short. -/
theorem expand_completes {memory : Memory} (unfailing : memory.failing = []) {root : Path}
    (fuel : Nat) {stack : List Path} {path : Path} (plain : path.IsPlain)
    (route : Route memory root stack path) {out : Expansion} {state : Memory}
    (searching : Searching memory root stack out.loaded state)
    (enough : memory.files.length ≤ stack.length + fuel) :
    Completes memory root stack path out
      (expand (m := StateM Memory) fuel stack path out state) := by
  have onStack : stack.any path.same = true ↔ path ∈ stack :=
    plain.any_same_iff fun other onStack => searching.plain other (searching.opened onStack)
  have isLoaded : out.loaded.any path.same = true ↔ path ∈ out.loaded :=
    plain.any_same_iff searching.plain
  by_cases isOpen : path ∈ stack
  · rw [expand, if_pos (onStack.mpr isOpen)]
    exact ⟨⟨route.starts, route.chain, stack, rfl, isOpen⟩, searching.readOnce⟩
  · by_cases old : path ∈ out.loaded
    · rw [expand, if_neg (mt onStack.mp isOpen), if_pos (isLoaded.mpr old)]
      obtain ⟨walk, walks, known⟩ := searching.walked path ⟨old, isOpen⟩
      refine ⟨searching, ⟨old, isOpen⟩, ⟨[], .again old, Adds.none out out.loaded⟩, walk, walks, ?_⟩
      rw [firstOfKey_id_append_of_subset known, firstOfKey_id_of_nodup searching.nodup]
    · rw [expand_new (mt onStack.mp isOpen) (mt isLoaded.mp old)]
      have content := Memory.readText_toOption (searching.failing.trans unfailing) path
      rw [Memory.find?_congr searching.rules searching.files] at content
      cases read : (FileSystem.readText (m := StateM Memory) path state).1 with
      | error failure =>
        have noText : memory.lines? path = none := by
          rw [Memory.lines?, ← content, read]
          rfl
        exact ⟨⟨route.reached, noText⟩, searching.readOnce_read old⟩
      | ok text =>
        have isText : memory.lines? path = some (Line.all text) := by
          rw [Memory.lines?, ← content, read]
          rfl
        have isSome : (memory.lines? path).isSome := by simp [isText]
        cases fuel with
        | zero =>
          have fits := searching.stack_length_lt plain old isSome
          omega
        | succ fuel =>
          refine CompletesLines.completes old isText (expandLines_completes ?_ route.reached []
            isText (searching.enter plain route.reached old isSome))
          intro target next state includes searching
          refine expand_completes unfailing fuel includes.isPlain (route.next includes) searching ?_
          rw [List.length_append, List.length_singleton]
          omega

/-! The fuel is never used up, so that more of it changes nothing. -/

def Exhausted (result : Except IncludeError Expansion) : Prop :=
  ∃ path, result = .error ⟨path, .exhausted⟩

theorem expandLines_more {load more : Path → Expansion → StateM Memory (Except IncludeError Expansion)}
    (same : ∀ path out state, ¬Exhausted (load path out state).1 →
      more path out state = load path out state)
    {file : Path} {lines : List Line} (number : Nat) {out : Expansion} {state : Memory}
    (completes : ¬Exhausted (expandLines load file number lines out state).1) :
    expandLines more file number lines out state = expandLines load file number lines out state := by
  induction lines generalizing number out state with
  | nil => rfl
  | cons line rest inductionHypothesis =>
    cases line with
    | text line => exact inductionHypothesis _ completes
    | reference name => exact inductionHypothesis _ completes
    | load target? =>
      cases target? with
      | none => rfl
      | some text =>
        rw [expandLines, run_bind] at completes
        rw [expandLines, expandLines, run_bind, run_bind]
        have loads : ¬Exhausted (load (Include.target file text) out state).1 := by
          rintro ⟨path, exhausted⟩
          rw [exhausted] at completes
          exact completes ⟨path, rfl⟩
        rw [same _ _ _ loads]
        cases loaded : (load (Include.target file text) out state).1 with
        | error e => rfl
        | ok middle =>
          rw [loaded] at completes
          exact inductionHypothesis _ completes

theorem expand_more (fuel : Nat) {stack : List Path} {path : Path} {out : Expansion} {state : Memory}
    (completes : ¬Exhausted (expand (m := StateM Memory) fuel stack path out state).1) :
    expand (m := StateM Memory) (fuel + 1) stack path out state =
      expand (m := StateM Memory) fuel stack path out state := by
  by_cases onStack : stack.any path.same = true
  · simp only [expand, if_pos onStack]
  · by_cases isLoaded : out.loaded.any path.same = true
    · simp only [expand, if_neg onStack, if_pos isLoaded]
    · rw [expand_new onStack isLoaded] at completes
      rw [expand_new onStack isLoaded, expand_new onStack isLoaded]
      cases read : (FileSystem.readText (m := StateM Memory) path state).1 with
      | error failure => rfl
      | ok text =>
        rw [read] at completes
        cases fuel with
        | zero => exact (completes ⟨path, rfl⟩).elim
        | succ fuel => exact expandLines_more (fun _ _ _ => expand_more fuel) 1 completes

theorem expand_of_le {fuel enough : Nat} (le : enough ≤ fuel) {stack : List Path} {path : Path}
    {out : Expansion} {state : Memory}
    (completes : ¬Exhausted (expand (m := StateM Memory) enough stack path out state).1) :
    expand (m := StateM Memory) fuel stack path out state =
      expand (m := StateM Memory) enough stack path out state := by
  induction fuel, le using Nat.le_induction with
  | base => rfl
  | succ fuel _ inductionHypothesis =>
    rw [← inductionHypothesis] at completes
    rw [expand_more fuel completes, inductionHypothesis]

/-- The expansion holds exactly the files that the script leads to, in the order of their first visits
by a depth-first walk, and inlines each one where it is visited first. -/
structure IsInlining (memory : Memory) (root : Path) (out : Expansion) : Prop where
  reached : ∀ file, file ∈ out.loaded ↔ ReflTransGen (Includes memory) root file
  nodup : out.loaded.Nodup
  starts : out.loaded.head? = some root
  order : ∃ walk, Walks memory [root] walk ∧ out.loaded = firstOfKey id walk
  text : ∃ parts, Visits memory root [] out.loaded parts ∧ out.code = Part.code parts ∧
    out.references = Part.references parts ∧
    ∀ file, parts.filter (·.file = file) = if file ∈ out.loaded then memory.parts file else []

section

variable {memory : Memory} {script : Path}

theorem expandScript_completes (unfailing : memory.failing = []) :
    Completes memory script.normalize [] script.normalize ⟨"", [], []⟩
      (expandScript (m := StateM Memory) script { memory with log := [] }) := by
  have nothing {file : Path} : ¬Finished [] [] file := fun finished => nomatch finished.1
  refine expand_completes unfailing _ (Path.isPlain_normalize script)
    ⟨List.IsChain.singleton _, rfl⟩ ?_ (Nat.le_add_left _ _)
  exact {
    rules := rfl
    files := rfl
    failing := rfl
    log := rfl
    nodup := List.nodup_nil
    plain := nofun
    texts := nofun
    reached := nofun
    opened := List.Subset.refl _
    distinct := List.nodup_nil
    closed := fun _ finished => (nothing finished).elim
    acyclic := fun _ finished => (nothing finished).elim
    walked := fun _ finished => (nothing finished).elim }

theorem Completes.readOnce {root path : Path} {stack : List Path} {out : Expansion}
    {result : Except IncludeError Expansion × Memory}
    (completes : Completes memory root stack path out result) : ReadOnce result.2 := by
  obtain ⟨_ | _, _⟩ := result
  · exact completes.2
  · exact completes.1.readOnce

theorem Completes.not_exhausted {root path : Path} {stack : List Path} {out : Expansion}
    {result : Except IncludeError Expansion × Memory}
    (completes : Completes memory root stack path out result) : ¬Exhausted result.1 := by
  rintro ⟨file, exhausted⟩
  obtain ⟨_, _⟩ := result
  cases exhausted
  exact completes.1

/-- An expansion that succeeds has gone through everything that the script leads to. -/
theorem Completes.isInlining {root : Path} {out : Expansion} {state : Memory}
    (completes : Completes memory root [] root ⟨"", [], []⟩ (.ok out, state)) :
    IsInlining memory root out ∧
      ∀ file, ReflTransGen (Includes memory) root file → ¬TransGen (Includes memory) file file := by
  obtain ⟨searching, finished, ⟨parts, visits, adds⟩, walk, walks, firsts⟩ := completes
  have all {file : Path} (reaches : ReflTransGen (Includes memory) root file) :
      Finished [] out.loaded file := searching.finished_of_reached finished reaches
  refine ⟨⟨fun file => ⟨searching.reached file, fun reaches => (all reaches).1⟩, searching.nodup,
    visits.head? rfl, ⟨walk, walks, firsts.symm⟩, parts, visits, ?_, adds.references [] rfl,
    visits.filter_file⟩, fun file reaches => searching.acyclic file (all reaches)⟩
  rw [adds.code]
  exact String.empty_append

/-- Where all files can be expanded, only a circle is an error. -/
theorem IncludeError.IsRight.isCircle {root : Path} {e : IncludeError}
    (isRight : e.IsRight memory root) (expandable : Expandable memory root) :
    ∃ chain, e.cause = .cycle chain ∧ IsCircle memory root chain e.path := by
  rw [IncludeError.IsRight] at isRight
  cases cause : e.cause with
  | cycle chain =>
    rw [cause] at isRight
    exact ⟨chain, rfl, isRight⟩
  | unreadable failure =>
    rw [cause] at isRight
    obtain ⟨lines, isText, _⟩ := expandable _ isRight.1
    cases isRight.2.symm.trans isText
  | malformed number =>
    rw [cause] at isRight
    obtain ⟨reaches, lines, isText, malformed⟩ := isRight
    obtain ⟨_, isText', wellFormed⟩ := expandable _ reaches
    cases isText.symm.trans isText'
    exact (wellFormed (List.mem_of_getElem? malformed)).elim
  | exhausted =>
    rw [cause] at isRight
    exact isRight.elim

end

/-- The expansion of a script reads no path twice and ends whatever the files are: its bound on the
nesting of files takes no effect. If all files that the script leads to can be expanded, it fails
exactly where one of them leads to itself, and shows how; otherwise it inlines them. -/
theorem expandScript_depth_first (memory : Memory) (unfailing : memory.failing = [])
    (script : Path) :
    let root := script.normalize
    let start := { memory with log := [] }
    let run := expandScript (m := StateM Memory) script start
    ReadOnce run.2 ∧ (∀ path, run.1 ≠ .error ⟨path, .exhausted⟩) ∧
    (∀ fuel, memory.files.length ≤ fuel →
      expand (m := StateM Memory) fuel [] root ⟨"", [], []⟩ start = run) ∧
    (Expandable memory root →
      ((∃ e, run.1 = .error e) ↔ ∃ file, ReflTransGen (Includes memory) root file ∧
        TransGen (Includes memory) file file) ∧
      (∀ e, run.1 = .error e → ∃ chain, e.cause = .cycle chain ∧
        IsCircle memory root chain e.path ∧
        e.message = "include cycle: " ++ String.intercalate " -> " (chain.map Path.display)) ∧
      ∀ out, run.1 = .ok out → IsInlining memory root out) := by
  intro root start run
  have completes : Completes memory root [] root ⟨"", [], []⟩ run := expandScript_completes unfailing
  have goesOn : ¬Exhausted run.1 := completes.not_exhausted
  refine ⟨completes.readOnce, fun path exhausted => goesOn ⟨path, exhausted⟩,
    fun fuel enough => expand_of_le enough goesOn, ?_⟩
  intro expandable
  obtain ⟨result, state⟩ := run
  cases result with
  | error e =>
    obtain ⟨chain, isCycle, circle⟩ := completes.1.isCircle expandable
    refine ⟨⟨fun _ => ⟨e.path, circle.reached⟩, fun _ => ⟨e, rfl⟩⟩, ?_, nofun⟩
    rintro _ ⟨⟩
    refine ⟨chain, isCycle, circle, ?_⟩
    rw [IncludeError.message, isCycle]
  | ok out =>
    obtain ⟨isInlining, acyclic⟩ := completes.isInlining
    refine ⟨⟨nofun, ?_⟩, nofun, ?_⟩
    · rintro ⟨file, reaches, circle⟩
      exact (acyclic file reaches circle).elim
    · rintro _ ⟨⟩
      exact isInlining

/-- Three files: two of them load the third, and the script loads one of them twice. -/
def diamond : Memory where
  rules := .components
  files :=
    [(.ofString "main", Text.Utf8.encode "#load \"lib/a\"\n#load \"b\"\n#load \"lib/a\"\nm"),
      (.ofString "lib/a", Text.Utf8.encode "#r x\n#load \"../b\"\na"),
      (.ofString "b", Text.Utf8.encode "b")]
  failing := []
  log := []

theorem diamond_inlined :
    diamond.failing = [] ∧ Expandable diamond (Path.ofString "main").normalize ∧
    ∃ out, (expandScript (m := StateM Memory) (.ofString "main") diamond).1 = .ok out ∧
      out.loaded = [.ofString "main", .ofString "lib/a", .ofString "b"] ∧
      out.code = "b\na\nm\n" ∧ out.references = ["x"] ∧
      IsInlining diamond (Path.ofString "main").normalize out := by
  have expandable : Expandable diamond (Path.ofString "main").normalize := by
    have lines :
        diamond.lines? (.ofString "main") =
          some [.load (some "lib/a"), .load (some "b"), .load (some "lib/a"), .text "m"] ∧
        diamond.lines? (.ofString "lib/a") =
          some [.reference "x", .load (some "../b"), .text "a"] ∧
        diamond.lines? (.ofString "b") = some [.text "b"] := by
      decide +kernel
    refine expandable_of_closed [.ofString "main", .ofString "lib/a", .ofString "b"]
      (by decide +kernel) ?_
    refine List.forall_mem_cons.mpr ⟨⟨_, lines.1, by decide, by decide +kernel⟩, ?_⟩
    refine List.forall_mem_cons.mpr ⟨⟨_, lines.2.1, by decide, by decide +kernel⟩, ?_⟩
    exact List.forall_mem_singleton.mpr ⟨_, lines.2.2, by decide, by decide +kernel⟩
  have run : ((expandScript (m := StateM Memory) (.ofString "main") diamond).1.toOption.map
      fun out => (out.loaded, out.code, out.references)) =
        some ([.ofString "main", .ofString "lib/a", .ofString "b"], "b\na\nm\n", ["x"]) := by
    decide +kernel
  refine ⟨rfl, expandable, ?_⟩
  have inlines := (expandScript_depth_first diamond rfl (.ofString "main")).2.2.2
    expandable
  cases result : (expandScript (m := StateM Memory) (.ofString "main") diamond).1 with
  | error e =>
    rw [result] at run
    cases run
  | ok out =>
    rw [result] at run
    obtain ⟨loaded, texts⟩ := Prod.mk.inj (Option.some.inj run)
    obtain ⟨code, references⟩ := Prod.mk.inj texts
    exact ⟨out, rfl, loaded, code, references, inlines.2.2 out result⟩

end Colloquy

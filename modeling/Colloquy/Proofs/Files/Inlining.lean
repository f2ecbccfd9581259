import Colloquy.Files.Include
import Colloquy.Files.Memory
import Colloquy.Host
import Mathlib.Data.List.Nodup
import Mathlib.Logic.Relation

set_option autoImplicit false

/-!
What it means to inline the files that a script loads. A file includes the files that its `#load`
lines lead to. Each file is put in at its first visit, in place of the line that loads it, and left
out at all later ones; so every line that is no `#load` line stands once in the text, under its own
file.
-/

namespace Colloquy

open Include

/-- The lines of a file, if it exists and is a text. -/
def Memory.lines? (memory : Memory) (file : Path) : Option (List Line) :=
  ((memory.find? file).bind Text.Utf8.decode?).map Line.all

/-- A `#load` line of the file leads to the target. -/
def Includes (memory : Memory) (file target : Path) : Prop :=
  ∃ lines text, memory.lines? file = some lines ∧ .load (some text) ∈ lines ∧
    Include.target file text = target

/-- All files that the script leads to are texts without malformed `#load` lines. -/
def Expandable (memory : Memory) (root : Path) : Prop :=
  ∀ file, Relation.ReflTransGen (Includes memory) root file →
    ∃ lines, memory.lines? file = some lines ∧ .load none ∉ lines

namespace Include

def Line.isLoad : Line → Bool
  | .load _ => true
  | _ => false

/-- A line that is no `#load` line, and the file it stands in. -/
structure Part where
  file : Path
  line : Line

namespace Part

def text? (part : Part) : Option String :=
  match part.line with
  | .text line => some line
  | _ => none

def reference? (part : Part) : Option String :=
  match part.line with
  | .reference name => some name
  | _ => none

/-- The text that parts make up, in which each line of text is ended by a line break. -/
def code (parts : List Part) : String :=
  String.join ((parts.filterMap text?).map (· ++ "\n"))

/-- The names in the parts, each one once where it comes first. -/
def references (parts : List Part) : List String :=
  firstOfKey id (parts.filterMap reference?)

/-- The parts that a file contributes of its own. -/
def ofLines (file : Path) (lines : List Line) : List Part :=
  (lines.filter (!·.isLoad)).map (⟨file, ·⟩)

end Part

end Include

def Memory.parts (memory : Memory) (file : Path) : List Part :=
  Part.ofLines file ((memory.lines? file).getD [])

/-- The files that the `#load` lines lead to, in their order. -/
def targets (file : Path) (lines : List Line) : List Path :=
  lines.filterMap fun line =>
    match line with
    | .load (some text) => some (Include.target file text)
    | _ => none

/-- The depth-first walk from some files along all `#load` lines, repeated visits included. -/
inductive Walks (memory : Memory) : List Path → List Path → Prop
  | done : Walks memory [] []
  | visit {file : Path} {lines : List Line} {rest inner outer : List Path} :
      memory.lines? file = some lines → Walks memory (targets file lines) inner →
      Walks memory rest outer → Walks memory (file :: rest) (file :: inner ++ outer)

theorem Walks.append {memory : Memory} {files more walk moreWalk : List Path}
    (walks : Walks memory files walk) (moreWalks : Walks memory more moreWalk) :
    Walks memory (files ++ more) (walk ++ moreWalk) := by
  induction walks with
  | done => exact moreWalks
  | visit isText inner _ _ inductionHypothesis =>
    rw [List.append_assoc]
    exact .visit isText inner inductionHypothesis

/-- The inlined text of the lines of a file, given the files that were visited before and those that
are visited after. -/
inductive Inlines (memory : Memory) :
    Path → List Line → List Path → List Path → List Part → Prop
  | done {file : Path} {visited : List Path} : Inlines memory file [] visited visited []
  | keep {file : Path} {line : Line} {lines : List Line} {before after : List Path}
      {parts : List Part} : line.isLoad = false → Inlines memory file lines before after parts →
      Inlines memory file (line :: lines) before after (⟨file, line⟩ :: parts)
  | again {file : Path} {text : String} {lines : List Line} {before after : List Path}
      {parts : List Part} : Include.target file text ∈ before →
      Inlines memory file lines before after parts →
      Inlines memory file (.load (some text) :: lines) before after parts
  | first {file : Path} {text : String} {lines inner : List Line} {before middle after : List Path}
      {innerParts parts : List Part} : Include.target file text ∉ before →
      memory.lines? (Include.target file text) = some inner →
      Inlines memory (Include.target file text) inner (before ++ [Include.target file text]) middle
        innerParts →
      Inlines memory file lines middle after parts →
      Inlines memory file (.load (some text) :: lines) before after (innerParts ++ parts)

/-- The inlined text of a file: nothing if it was visited before, or else that of its lines. -/
inductive Visits (memory : Memory) (file : Path) : List Path → List Path → List Part → Prop
  | again {visited : List Path} : file ∈ visited → Visits memory file visited visited []
  | first {lines : List Line} {before after : List Path} {parts : List Part} : file ∉ before →
      memory.lines? file = some lines →
      Inlines memory file lines (before ++ [file]) after parts →
      Visits memory file before after parts

section

variable {memory : Memory} {file : Path} {lines : List Line} {before after : List Path}
  {parts : List Part}

theorem Visits.load {text : String} {middle : List Path} {innerParts : List Part}
    (visits : Visits memory (Include.target file text) before middle innerParts)
    (inlines : Inlines memory file lines middle after parts) :
    Inlines memory file (.load (some text) :: lines) before after (innerParts ++ parts) := by
  cases visits with
  | again visited => exact .again visited inlines
  | first new isText inner => exact .first new isText inner inlines

theorem Inlines.visited_prefix (inlines : Inlines memory file lines before after parts) :
    before <+: after := by
  induction inlines with
  | done => exact List.prefix_refl _
  | keep _ _ inductionHypothesis => exact inductionHypothesis
  | again _ _ inductionHypothesis => exact inductionHypothesis
  | first _ _ _ _ innerHypothesis outerHypothesis =>
    exact ((List.prefix_append _ _).trans innerHypothesis).trans outerHypothesis

theorem Visits.mem (visits : Visits memory file before after parts) : file ∈ after := by
  cases visits with
  | again visited => exact visited
  | first _ _ inlines => exact inlines.visited_prefix.subset (by simp)

theorem Visits.head? (visits : Visits memory file before after parts) (noneBefore : before = []) :
    after.head? = some file := by
  cases visits with
  | again visited =>
    rw [noneBefore] at visited
    cases visited
  | first _ _ inlines =>
    obtain ⟨rest, rfl⟩ := inlines.visited_prefix
    rw [noneBefore]
    rfl

theorem nodup_concat {visited : List Path} (nodup : visited.Nodup) (new : file ∉ visited) :
    (visited ++ [file]).Nodup :=
  nodup.append (List.nodup_singleton file) (by simpa using new)

/-- Of the parts, a file that is visited on the way contributes its own lines, and the lines gone
through are those of their file; a file visited before contributes nothing more. -/
theorem Inlines.filter_file (inlines : Inlines memory file lines before after parts)
    (isVisited : file ∈ before) (other : Path) :
    parts.filter (·.file = other) =
      if other = file then Part.ofLines file lines
      else if other ∈ before then []
      else if other ∈ after then memory.parts other else [] := by
  induction inlines with
  | @done file visited => by_cases isVisited : other ∈ visited <;> simp [Part.ofLines, isVisited]
  | @keep file line lines before after parts isKept inlines inductionHypothesis =>
    have own : Part.ofLines file (line :: lines) = ⟨file, line⟩ :: Part.ofLines file lines := by
      simp [Part.ofLines, isKept]
    rw [List.filter_cons, inductionHypothesis isVisited, own]
    by_cases isFile : other = file
    · simp [isFile]
    · simp [isFile, Ne.symm isFile]
  | again _ _ inductionHypothesis => exact inductionHypothesis isVisited
  | @first file text lines inner before middle after innerParts parts new isText inlinesInner
      inlines innerHypothesis outerHypothesis =>
    have early := inlinesInner.visited_prefix.subset
    have late := inlines.visited_prefix.subset
    have own : memory.parts (Include.target file text) =
        Part.ofLines (Include.target file text) inner := by
      rw [Memory.parts, isText, Option.getD_some]
    have differ : file ≠ Include.target file text := fun same => new (same ▸ isVisited)
    rw [List.filter_append, innerHypothesis (by simp), outerHypothesis (early (by simp [isVisited]))]
    by_cases isTarget : other = Include.target file text
    · have visited : other ∈ middle := early (by simp [isTarget])
      have ends : other ∈ after := late visited
      rw [if_pos isTarget, if_neg (isTarget ▸ differ.symm), if_pos visited,
        if_neg (isTarget ▸ differ.symm), if_neg (isTarget ▸ new), if_pos ends, isTarget, own,
        List.append_nil]
    · by_cases isFile : other = file
      · have visited : other ∈ before ++ [Include.target file text] := by simp [isFile, isVisited]
        rw [if_neg isTarget, if_pos visited, if_pos isFile, if_pos isFile]
        rfl
      · by_cases visited : other ∈ before
        · have visitedAfter : other ∈ before ++ [Include.target file text] := by simp [visited]
          simp [isTarget, isFile, visited, early visitedAfter]
        · by_cases visitedInside : other ∈ middle
          · simp [isTarget, isFile, visited, visitedInside, late visitedInside]
          · simp [isTarget, isFile, visited, visitedInside]

/-- The inlined text of a script consists of the lines of the files visited, each line once and those
of a file in their order. -/
theorem Visits.filter_file (visits : Visits memory file [] after parts) (other : Path) :
    parts.filter (·.file = other) = if other ∈ after then memory.parts other else [] := by
  have visited := visits.mem
  cases visits with
  | again impossible => exact (List.not_mem_nil impossible).elim
  | first _ isText inlines =>
    rw [inlines.filter_file (by simp)]
    by_cases isFile : other = file
    · rw [if_pos isFile, isFile, if_pos visited, Memory.parts, isText, Option.getD_some]
    · simp [isFile]

end

end Colloquy

import Colloquy.Proofs.Engine.Debugging
import Colloquy.Proofs.Engine.Layout

set_option autoImplicit false

/-!
What an execution that leaves artifacts does to the files that its script was read from. Artifacts
replace whatever is at their paths, and the failure of one of them deletes both. So a source stays as
it is unless its path leads to the same file as that of an artifact, which takes a file of the output
directory that has the name of the script and one of the two extensions.
-/

namespace Colloquy

/-- The files that the expansion of a script asks for. -/
def IsReadFor (memory : Memory) (script path : Path) : Prop :=
  ⟨.readText, path⟩ ∈ (expandScript (m := StateM Memory) script { memory with log := [] }).2.log

instance (memory : Memory) (script path : Path) : Decidable (IsReadFor memory script path) :=
  inferInstanceAs (Decidable (_ ∈ _))

theorem IsReadFor.isPlain {memory : Memory} {script path : Path}
    (isRead : IsReadFor memory script path) : path.IsPlain := by
  obtain ⟨-, written, -, isNormal⟩ := (expandScript_reading memory script).calls _ isRead
  rw [show path = written.normalize from isNormal]
  exact written.isPlain_normalize

namespace Engine

variable {σ υ φ : Type} (engine : Engine σ υ φ) (layout : Layout) (store : Store σ) (script : Path)
  (host : Host) (key? : Option Key) (memory : Memory)

/-- The files are touched only for a text that has compiled, and of them only the pair. -/
theorem debugging_find? (path : Path) :
    let paths := layout.paths (memory.rules.workingDirectory script) script
    let after :=
      ((engine.debugging layout).execute (m := StateM Memory) store script host key? memory).2
    after.find? path = memory.find? path ∨
      (∃ prepared, engine.Compiles store script host key? memory prepared) ∧
        (memory.rules.sameFile path paths.code = true ∨
          memory.rules.sameFile path paths.symbols = true) := by
  intro paths after
  obtain ⟨reads, -, isExpanded⟩ := ReadsOnly.memory (isReader_expandScript script memory)
  have kept : (expandScript (m := StateM Memory) script memory).2.find? path = memory.find? path := by
    rw [isExpanded]
    rfl
  have sameRules : (expandScript (m := StateM Memory) script memory).2.rules = memory.rules := by
    rw [isExpanded]
  rcases engine.execute_cases layout store script host key? memory with
    ⟨e, _, -, plainRun, debugRun⟩ | ⟨prepared, _, emission, compiles, isEmission, -, debugRun⟩
  · left
    have untouched : after = (expandScript (m := StateM Memory) script memory).2 :=
      congrArg Prod.snd (debugRun.trans plainRun)
    rw [untouched, kept]
  · by_cases isArtifact : memory.rules.sameFile path paths.code = true ∨
      memory.rules.sameFile path paths.symbols = true
    · exact .inr ⟨⟨prepared, compiles⟩, isArtifact⟩
    · left
      rw [not_or, Bool.not_eq_true, Bool.not_eq_true, ← sameRules] at isArtifact
      obtain ⟨notCode, notSymbols⟩ := isArtifact
      have emitted : after = emission.2 := congrArg Prod.snd debugRun
      rw [emitted, ← isEmission, Artifact.emit_others _ _ _ _ _ notCode notSymbols, kept]

end Engine

/-- With artifacts enabled, a file that the script was read from is there with its content after the
execution, unless the script has compiled and the file is one of its artifacts itself: the path that
it was read by leads to the same file as that of the artifact, a file of the output directory that is
named after the script and has one of the two extensions. -/
theorem Config.source_kept_or_artifact {σ υ φ : Type} (config : Config)
    (enabled : config.artifactsEnabled = true) (accepted : config.validate = .ok ())
    (engine : Engine σ υ φ) (configured : engine.layout? = config.layout?) (store : Store σ)
    (script : Path) (host : Host) (key? : Option Key) (memory : Memory) (path : Path)
    (content : List UInt8) (isRead : IsReadFor memory script path)
    (present : memory.find? path = some content) :
    let working := memory.rules.workingDirectory script
    let directory := working.push (.ofString config.layout.outputDir)
    let paths := config.layout.paths working script
    let after := (engine.execute (m := StateM Memory) store script host key? memory).2
    after.find? path = some content ∨
      (∃ prepared, engine.Compiles store script host key? memory prepared) ∧ path.IsPlain ∧
        (memory.rules.sameFile path paths.code = true ∧
            Layout.Places directory script config.layout.codeExtension path ∨
          memory.rules.sameFile path paths.symbols = true ∧
            Layout.Places directory script config.layout.symbolExtension path) := by
  intro working directory paths after
  obtain ⟨codeFits, symbolsFit, -⟩ := validate_eq_ok_iff.mp accepted
  have isDebugging : engine = engine.debugging config.layout := by
    rw [layout?, if_pos enabled] at configured
    rw [Engine.debugging, ← configured]
  rcases engine.debugging_find? config.layout store script host key? memory path with
    kept | ⟨compiles, isCode | isSymbols⟩
  · left
    rw [← isDebugging] at kept
    exact kept.trans present
  · have placed : Layout.Places directory script config.layout.codeExtension path :=
      Layout.places codeFits (PathRules.components_of_sameFile isCode)
    exact .inr ⟨compiles, isRead.isPlain, .inl ⟨isCode, placed⟩⟩
  · have placed : Layout.Places directory script config.layout.symbolExtension path :=
      Layout.places symbolsFit (PathRules.components_of_sameFile isSymbols)
    exact .inr ⟨compiles, isRead.isPlain, .inr ⟨isSymbols, placed⟩⟩

-- The path of the artifact, `work/./bin/main.dll`, leads to the same file as that of the source.
example :
    let engine := Engine.mk Calc.backend (some ⟨"./bin", "dll", "pdb"⟩)
    let source := Path.ofString "work/bin/main.dll"
    let memory : Memory := ⟨.components,
      [(.ofString "work/main.csx", Text.Utf8.encode "#load \"bin/main.dll\""),
        (source, Text.Utf8.encode "// shared")], [], []⟩
    let run := engine.execute (m := StateM Memory) .empty (.ofString "work/main.csx") ⟨[], []⟩ none
      memory
    run.2.find? source ≠ memory.find? source := by
  decide +kernel

/-- Artifacts go to a directory that is not written in its shortest form. -/
def Config.indirect : Config :=
  { Config.standard with
    artifactsEnabled := true
    layout := { Layout.standard with outputDir := "./bin" } }

theorem Config.indirect_accepted : Config.indirect.validate = .ok () :=
  validate_eq_ok_iff.mpr (by decide +kernel)

/-- A script that loads another one, and whose symbols cannot be written. -/
def failingPair : Memory where
  rules := .components
  files :=
    [(.ofString "work/main.csx", Text.Utf8.encode "#load \"main.dll\"\nx"),
      (.ofString "work/main.dll", Text.Utf8.encode "var x = 1")]
  failing := [⟨.flush, .ofString "work/./bin/main.pdb"⟩]
  log := []

theorem failingPair_sources_kept :
    let engine : Engine Calc.Session Calc.Compiled Calc.Fault :=
      ⟨Calc.backend, Config.indirect.layout?⟩
    let path := Path.ofString "work/main.dll"
    let run := engine.execute (m := StateM Memory) .empty (.ofString "work/main.csx") ⟨[], []⟩ none
      failingPair
    IsReadFor failingPair (.ofString "work/main.csx") path ∧
      run.2.find? path = some (Text.Utf8.encode "var x = 1") := by
  intro engine path run
  have isRead : IsReadFor failingPair (.ofString "work/main.csx") path := by
    decide +kernel
  have present : failingPair.find? path = some (Text.Utf8.encode "var x = 1") := by
    decide +kernel
  refine ⟨isRead, ?_⟩
  obtain kept | ⟨-, -, ⟨isCode, -⟩ | ⟨isSymbols, -⟩⟩ :=
    Config.indirect.source_kept_or_artifact rfl Config.indirect_accepted engine rfl .empty
      (.ofString "work/main.csx") ⟨[], []⟩ none failingPair path _ isRead present
  · exact kept
  · exact absurd isCode (by decide +kernel)
  · exact absurd isSymbols (by decide +kernel)

/-- Artifacts go where they go by default. -/
def Config.debugging : Config :=
  { Config.standard with artifactsEnabled := true }

theorem Config.debugging_accepted : Config.debugging.validate = .ok () :=
  validate_eq_ok_iff.mpr (by decide +kernel)

/-- A script that loads a file from where its own code goes. -/
def loadsArtifact : Memory where
  rules := .text
  files :=
    [(.ofString "work/main.csx", Text.Utf8.encode "#load \"bin/main.dll\""),
      (.ofString "work/bin/main.dll", Text.Utf8.encode "// shared")]
  failing := []
  log := []

theorem source_replaced_by_artifact :
    let path := Path.ofString "work/bin/main.dll"
    let run := Engine.calculator.execute (m := StateM Memory) .empty (.ofString "work/main.csx")
      ⟨[], []⟩ none loadsArtifact
    Config.debugging.artifactsEnabled = true ∧ Config.debugging.validate = .ok () ∧
      Engine.calculator.layout? = Config.debugging.layout? ∧
      IsReadFor loadsArtifact (.ofString "work/main.csx") path ∧
      loadsArtifact.find? path = some (Text.Utf8.encode "// shared") ∧
      run.2.find? path ≠ some (Text.Utf8.encode "// shared") :=
  ⟨rfl, Config.debugging_accepted, rfl, by decide +kernel, by decide +kernel, by decide +kernel⟩

end Colloquy

import Colloquy.CommandLine.Config
import Colloquy.Proofs.Path.Components
import Colloquy.Proofs.Text.Utf8
import Mathlib.Data.List.TakeWhile

set_option autoImplicit false

/-!
Where the artifacts of a script go. An extension that a configuration may have is a part of one file
name and has no dot. Behind any stem it makes a name that is neither empty nor made of dots, so the
name stays where it is put: both files lie in the output directory, and they are two.
-/

namespace Colloquy

/-! Texts in names. -/

theorem slash_notMem_decodeLossy {bytes : List UInt8} (without : Path.slash ∉ bytes) :
    '/' ∉ (Text.Utf8.decodeLossy bytes).toList := by
  rw [Text.Utf8.decodeLossy, String.toList_ofList]
  intro membership
  obtain ⟨piece, among, isSlash⟩ := List.mem_map.mp membership
  cases piece with
  | broken broken => exact absurd isSlash (by simp [Text.Utf8.Piece.char?])
  | char c =>
    cases isSlash
    apply without
    rw [← Text.Utf8.bytes_scan bytes]
    exact List.mem_flatMap.mpr ⟨_, among, by decide⟩

namespace Path

theorem mem_counted {leading : Bool} {pieces : List Name} {name : Name}
    (membership : .normal name ∈ counted leading pieces) : name ∈ pieces := by
  induction pieces generalizing leading with
  | nil => cases membership
  | cons piece rest inductionHypothesis =>
    rcases List.mem_append.mp membership with here | later
    · rw [Option.mem_toList, componentOf?] at here
      split at here
      · cases here
      · split at here
        · cases here
        · rw [component] at here
          split at here <;> cases here
          exact List.mem_cons_self
    · exact List.mem_cons_of_mem _ (inductionHypothesis later)

theorem slash_notMem_fileName {path : Path} {name : Name} (isName : path.fileName? = some name) :
    slash ∉ name := by
  have isLast : path.components.getLast? = some (.normal name) := by
    unfold fileName? at isName
    split at isName
    case h_1 found =>
      cases isName
      exact found
    case h_2 => cases isName
  have among := List.mem_of_getLast? isLast
  rw [components_eq_counted] at among
  rcases List.mem_append.mp among with isRoot | isPiece
  · split at isRoot
    · cases List.mem_singleton.mp isRoot
    · cases isRoot
  · exact path.slash_notMem_pieces name (mem_counted isPiece)

/-- A stem is what stands before the last dot of a name, unless that dot is in front. -/
theorem stem_cases (name : Name) :
    dot ∉ name.tail ∧ stem name = name ∨
      ∃ extension, name = stem name ++ dot :: extension ∧ stem name ≠ [] ∧ dot ∉ extension := by
  have isAll := List.takeWhile_append_dropWhile (p := (· ≠ dot)) (l := name.reverse)
  have noDot : dot ∉ name.reverse.takeWhile (· ≠ dot) := by
    intro membership
    simpa using List.mem_takeWhile_imp membership
  rw [stem]
  cases left : name.reverse.dropWhile (· ≠ dot) with
  | nil =>
    rw [left, List.append_nil] at isAll
    rw [isAll] at noDot
    refine .inl ⟨fun membership => noDot ?_, rfl⟩
    exact List.mem_reverse.mpr (List.mem_of_mem_tail membership)
  | cons last before =>
    have isDot : last = dot := by
      have found := List.head?_dropWhile_not (· ≠ dot) name.reverse
      rw [left] at found
      simpa using found
    generalize behind : name.reverse.takeWhile (· ≠ dot) = tail at isAll noDot
    have isName : name = before.reverse ++ dot :: tail.reverse := by
      rw [← List.reverse_reverse name, ← isAll, left, isDot, List.reverse_append, List.reverse_cons,
        List.append_assoc, List.singleton_append]
    dsimp only
    by_cases inFront : before = []
    · refine .inl ⟨?_, if_pos (by simpa using inFront)⟩
      rw [isName, inFront]
      simpa using noDot
    · rw [if_neg (by simpa using inFront)]
      exact .inr ⟨tail.reverse, isName, by simpa using inFront, by simpa using noDot⟩

end Path

namespace Config

theorem extension_of_isExtension {text : String} (isExtension : isExtension text = true) :
    text ≠ "" ∧ '/' ∉ text.toList ∧ '.' ∉ text.toList := by
  unfold Config.isExtension at isExtension
  rw [Bool.and_eq_true, List.all_eq_true] at isExtension
  obtain ⟨nonempty, allowed⟩ := isExtension
  refine ⟨?_, fun isSlash => ?_, fun isDot => ?_⟩
  · rintro rfl
    cases nonempty
  · exact absurd (allowed _ isSlash) (by decide)
  · exact absurd (allowed _ isDot) (by decide)

theorem validate_eq_ok_iff {config : Config} :
    config.validate = .ok () ↔
      isExtension config.layout.codeExtension = true ∧
        isExtension config.layout.symbolExtension = true ∧
        config.layout.codeExtension ≠ config.layout.symbolExtension := by
  unfold validate
  dsimp only
  split
  case isTrue refused => simpa using fun fits => absurd fits (by simpa using refused)
  split
  case isTrue refused => simpa using fun _ fits => absurd fits (by simpa using refused)
  split
  case isTrue same => simpa using fun _ _ => same
  case isFalse codeFits symbolsFit differ =>
    exact ⟨fun _ => ⟨by simpa using codeFits, by simpa using symbolsFit, differ⟩, fun _ => rfl⟩

end Config

namespace Layout

/-- The text that the artifacts of a script are named after: the stem of its own name, in which what
is no text is replaced, or `script` where there is no name. -/
inductive NamedAfter (script : Path) : String → Prop
  | unnamed : script.fileName? = none → NamedAfter script "script"
  | whole {name : Path.Name} : script.fileName? = some name → Path.dot ∉ name.tail →
      NamedAfter script (Text.Utf8.decodeLossy name)
  | stem {stem extension : Path.Name} : script.fileName? = some (stem ++ Path.dot :: extension) →
      stem ≠ [] → Path.dot ∉ extension → NamedAfter script (Text.Utf8.decodeLossy stem)

/-- A file of a directory that is named after a script and has an extension. A stem that is a text
is kept byte for byte. -/
structure Places (directory script : Path) (extension : String) (path : Path) : Prop where
  named : ∃ base, NamedAfter script base ∧
    path.fileName? = some (Text.Utf8.encode (base ++ "." ++ extension))
  kept : ∀ stem text, script.fileStem? = some stem → Text.Utf8.decode? stem = some text →
    path.fileName? = some (stem ++ Path.dot :: Text.Utf8.encode extension)
  inside : ∃ parent, path.parent? = some parent ∧ parent.components = directory.components

theorem namedAfter_baseName (script : Path) : NamedAfter script (baseName script) := by
  rw [baseName, Path.fileStem?]
  cases isName : script.fileName? with
  | none => exact .unnamed isName
  | some name =>
    rcases Path.stem_cases name with ⟨noDot, isStem⟩ | ⟨extension, split, nonempty, noDot⟩
    · rw [Option.map_some, isStem]
      exact .whole isName noDot
    · rw [split] at isName
      exact .stem isName nonempty noDot

theorem NamedAfter.slash_notMem {script : Path} {base : String} (named : NamedAfter script base) :
    '/' ∉ base.toList := by
  cases named with
  | unnamed => decide
  | whole isName => exact slash_notMem_decodeLossy (Path.slash_notMem_fileName isName)
  | stem isName =>
    apply slash_notMem_decodeLossy
    exact fun membership =>
      Path.slash_notMem_fileName isName (List.mem_append_left _ membership)

theorem fileName_bytes (base extension : String) :
    Text.Utf8.encode (base ++ "." ++ extension) =
      Text.Utf8.encode base ++ Path.dot :: Text.Utf8.encode extension := by
  rw [Text.Utf8.encode_append, Text.Utf8.encode_append, List.append_assoc]
  rfl

/-- The name of a file ends with its extension, which has no dot. -/
theorem fileName_getLast? (base : String) {extension : String}
    (isExtension : Config.isExtension extension = true) :
    (Text.Utf8.encode (base ++ "." ++ extension)).getLast? ≠ some Path.dot := by
  obtain ⟨nonempty, -, noDot⟩ := Config.extension_of_isExtension isExtension
  have bytes : Text.Utf8.encode extension ≠ [] := fun empty =>
    nonempty (Text.Utf8.encode_inj (empty.trans (by rfl)))
  obtain ⟨front, last, ends⟩ := (List.eq_nil_or_concat' (Text.Utf8.encode extension)).resolve_left bytes
  have notDot : last ≠ Path.dot := by
    rintro rfl
    have among : Path.dot ∈ Text.Utf8.encode extension := by
      rw [ends]
      exact List.mem_append_right _ List.mem_cons_self
    exact Text.Utf8.notMem_encode (by decide) noDot among
  rw [fileName_bytes, ends, ← List.cons_append, ← List.append_assoc, List.getLast?_concat]
  exact fun isDot => notDot (Option.some.inj isDot)

theorem isName_fileName {base extension : String} (without : '/' ∉ base.toList)
    (isExtension : Config.isExtension extension = true) :
    Path.IsName (Text.Utf8.encode (base ++ "." ++ extension)) := by
  obtain ⟨-, noSlash, -⟩ := Config.extension_of_isExtension isExtension
  have ends := fileName_getLast? base isExtension
  -- Nothing but dots would end with a dot.
  refine ⟨⟨?_, ?_⟩, ?_⟩
  · have nonempty : Text.Utf8.encode (base ++ "." ++ extension) ≠ [] := by
      simp [fileName_bytes]
    have notDot : Text.Utf8.encode (base ++ "." ++ extension) ≠ [Path.dot] := by
      intro isDot
      rw [isDot] at ends
      exact ends rfl
    simp [Path.isIdle, nonempty, notDot]
  · have nowhere : '/' ∉ (base ++ "." ++ extension).toList := by simp [without, noSlash]
    exact Text.Utf8.notMem_encode (by decide) nowhere
  · intro isParent
    rw [isParent] at ends
    exact ends rfl

/-- Only the components of a path say where it places a file. -/
theorem places {directory script : Path} {extension : String}
    (isExtension : Config.isExtension extension = true) {path : Path}
    (isThere : path.components =
      (directory.push (.ofString (baseName script ++ "." ++ extension))).components) :
    Places directory script extension path := by
  have named := namedAfter_baseName script
  have isName := isName_fileName named.slash_notMem isExtension
  have isLast := isThere.trans (Path.components_push directory isName.1)
  have fileName := Path.fileName?_of_components isName isLast
  refine ⟨⟨_, named, fileName⟩, ?_, ?_⟩
  · intro stem text isStem isText
    have isBase : baseName script = text := by
      rw [baseName, isStem, Text.Utf8.decode?_eq_some_iff.mp isText]
      exact Text.Utf8.decodeLossy_encode text
    rw [Text.Utf8.decode?_eq_some_iff.mp isText, ← isBase, ← fileName_bytes]
    exact fileName
  · exact Path.parent?_of_components isLast

end Layout

/-- For every configuration that is accepted, the two artifacts of a script have different paths,
whatever the script and the working directory are called. Each one is named after the script, with
its own extension, and its parent is the output directory. -/
theorem Config.artifacts_in_output_directory (config : Config)
    (accepted : config.validate = .ok ()) (working script : Path) :
    let directory := working.push (.ofString config.layout.outputDir)
    let paths := config.layout.paths working script
    paths.code.same paths.symbols = false ∧
      Layout.Places directory script config.layout.codeExtension paths.code ∧
      Layout.Places directory script config.layout.symbolExtension paths.symbols := by
  intro directory paths
  obtain ⟨codeFits, symbolsFit, differ⟩ := validate_eq_ok_iff.mp accepted
  refine ⟨?_, Layout.places codeFits rfl, Layout.places symbolsFit rfl⟩
  apply decide_eq_false
  intro same
  apply differ
  have without := (Layout.namedAfter_baseName script).slash_notMem
  have codeIsName := Layout.isName_fileName without codeFits
  have symbolsIsName := Layout.isName_fileName without symbolsFit
  have codeName := Path.fileName?_of_components codeIsName
    (same.symm.trans (Path.components_push directory codeIsName.1))
  have symbolsName := Path.fileName?_of_components symbolsIsName
    (Path.components_push directory symbolsIsName.1)
  have sameBytes := codeName.symm.trans symbolsName
  rw [Option.some.injEq, Layout.fileName_bytes, Layout.fileName_bytes, List.append_cancel_left_eq,
    List.cons.injEq] at sameBytes
  exact Text.Utf8.encode_inj sameBytes.2

/-- A script without a name, whose artifacts go to a directory beside the working directory. -/
theorem unnamed_script_artifacts :
    let config : Config := ⟨true, ⟨"../out/.", "dll", "pdb"⟩, none, "info"⟩
    let working := Path.ofString "work//"
    let script := Path.ofString "lib/.."
    let paths := config.layout.paths working script
    config.validate = .ok () ∧
      paths = ⟨.ofString "work//../out/./script.dll", .ofString "work//../out/./script.pdb"⟩ ∧
      paths.code.same paths.symbols = false ∧
      Layout.Places (.ofString "work//../out/.") script "dll" paths.code ∧
      Layout.Places (.ofString "work//../out/.") script "pdb" paths.symbols := by
  intro config working script paths
  have directory : working.push (.ofString config.layout.outputDir) = .ofString "work//../out/." := by
    decide
  have accepted : config.validate = .ok () := Config.validate_eq_ok_iff.mpr (by decide +kernel)
  have written :
      paths = ⟨.ofString "work//../out/./script.dll", .ofString "work//../out/./script.pdb"⟩ := by
    decide +kernel
  refine ⟨accepted, written, ?_⟩
  rw [← directory]
  exact config.artifacts_in_output_directory accepted working script

end Colloquy

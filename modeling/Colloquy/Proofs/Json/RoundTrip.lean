import Colloquy.CommandLine.Config
import Colloquy.Json.Values
import Colloquy.Proofs.Json.Reading

set_option autoImplicit false

/-!
Values and configurations that are written and read again. Of a written configuration any members may
be left out, whole sections or fields of them: exactly the fields that are missing are then read as
their defaults, as each reader of a section starts from none of them.
-/

namespace Colloquy

namespace Json

/-! Leaving out members. A member is given by the names that lead to it. -/

mutual

def without (removed : List String → Bool) : Json → Json
  | .object members => .object (withoutMembers removed members)
  | document => document

def withoutMembers (removed : List String → Bool) :
    List (String × Json) → List (String × Json)
  | [] => []
  | (name, value) :: rest =>
    if removed [name] then withoutMembers removed rest
    else (name, value.without fun path => removed (name :: path)) :: withoutMembers removed rest

end

theorem mem_withoutMembers {removed : List String → Bool} {members : List (String × Json)}
    {member : String × Json} (membership : member ∈ withoutMembers removed members) :
    ∃ original ∈ members, ∃ inside, member.2 = original.2.without inside := by
  induction members with
  | nil => cases membership
  | cons first rest inductionHypothesis =>
    have later : member ∈ withoutMembers removed rest →
        ∃ original ∈ first :: rest, ∃ inside, member.2 = original.2.without inside := by
      intro among
      obtain ⟨original, isOriginal, inside, same⟩ := inductionHypothesis among
      exact ⟨original, List.mem_cons_of_mem _ isOriginal, inside, same⟩
    rw [withoutMembers] at membership
    split at membership
    · exact later membership
    · rcases List.mem_cons.mp membership with rfl | among
      · exact ⟨first, List.mem_cons_self, _, rfl⟩
      · exact later among

theorem Readable.without {document : Json} (readable : document.Readable)
    (removed : List String → Bool) : (document.without removed).Readable := by
  induction readable generalizing removed with
  | null => exact .null
  | bool value => exact .bool value
  | int low high => exact .int low high
  | string text => exact .string text
  | list items => exact .list items
  | object _ inductionHypothesis =>
    rw [Json.without]
    refine .object fun member membership => ?_
    obtain ⟨original, isOriginal, inside, same⟩ := mem_withoutMembers membership
    rw [same]
    exact inductionHypothesis original isOriginal inside

/-- A member that is left out is passed over. -/
theorem foldlM_withoutMembers {σ : Type} (step : σ → String × Json → Except ReadError σ)
    (removed : List String → Bool) (name : String) (value : Json) (rest : List (String × Json))
    (state : σ) :
    (withoutMembers removed ((name, value) :: rest)).foldlM step state =
      (if removed [name] then .ok state
        else step state (name, value.without fun path => removed (name :: path))) >>=
      (withoutMembers removed rest).foldlM step := by
  rw [withoutMembers]
  split <;> rfl

end Json

open Json

/-! Values. -/

namespace Value

theorem readable_toJson {value : Value} (noDouble : value.kind ≠ .double) :
    value.toJson.Readable := by
  refine .object (List.forall_mem_cons.mpr ⟨.string _, ?_⟩)
  cases value with
  | unit => exact nofun
  | bool b => exact List.forall_mem_singleton.mpr (.bool b)
  | int n =>
    have low := n.le_toInt
    have high := n.toInt_lt
    exact List.forall_mem_singleton.mpr (.int (by omega) (by omega))
  | double => exact (noDouble rfl).elim
  | string text => exact List.forall_mem_singleton.mpr (.string text)

theorem decode_toJson {value : Value} (noDouble : value.kind ≠ .double) :
    decode value.toJson.node = .ok value := by
  cases value with
  | unit => rfl
  | bool => rfl
  | int n =>
    have number : Decode.int64 (Json.int n.toInt).node = .ok n := by
      rw [node, Decode.int64, Integer.ofInt?_toInt]
    have content : advance (.tagged .int) "value" (Json.int n.toInt).node =
        .ok (.done (.int n)) := by
      change ((Decode.int64 (Json.int n.toInt).node).map Value.int).map Progress.done = _
      rw [number]
      rfl
    have tagged : advance .start "type" (Json.string "int").node = .ok (.tagged .int) := rfl
    rw [toJson, node, decode, members_written]
    simp only [List.foldlM_cons, List.foldlM_nil, tag, tagged, content, bind, Except.bind]
    rfl
  | double => exact (noDouble rfl).elim
  | string => rfl

end Value

/-! Configurations. -/

namespace Config

/-- The value of a field, or its default if the field is left out, alone or with its section. -/
def fieldWithout {α : Type} (removed : List String → Bool) (part field : String)
    (value fallback : α) : α :=
  if removed [part] || removed [part, field] then fallback else value

/-- The configuration with its defaults in the place of the fields that are left out. -/
def withDefaults (config : Config) (removed : List String → Bool) : Config where
  artifactsEnabled := fieldWithout removed "artifacts" "enabled" config.artifactsEnabled
    standard.artifactsEnabled
  layout :=
    { outputDir := fieldWithout removed "artifacts" "output_dir" config.layout.outputDir
        standard.layout.outputDir
      codeExtension := fieldWithout removed "artifacts" "code_extension"
        config.layout.codeExtension standard.layout.codeExtension
      symbolExtension := fieldWithout removed "artifacts" "symbol_extension"
        config.layout.symbolExtension standard.layout.symbolExtension }
  sessionKey := fieldWithout removed "session" "key" config.sessionKey standard.sessionKey
  logLevel := fieldWithout removed "logging" "level" config.logLevel standard.logLevel

theorem readable_toJson (config : Config) : config.toJson.Readable := by
  refine .object ?_
  simp only [List.forall_mem_cons]
  refine ⟨.object ?_, .object ?_, .object ?_, nofun⟩
  · simp only [List.forall_mem_cons]
    exact ⟨.bool _, .string _, .string _, .string _, nofun⟩
  · refine List.forall_mem_singleton.mpr ?_
    cases config.sessionKey with
    | none => exact .null
    | some key => exact .string key
  · exact List.forall_mem_singleton.mpr (.string _)

/-! Sections. -/

theorem artifactsMember_text {name : String} (other : name ≠ "enabled") (text : String)
    (read : ArtifactsRead) :
    artifactsMember read name (Json.string text).node =
      .ok { read with others := read.others ++ [(name, .string text)] } :=
  if_neg other

theorem artifactsSection_without (removed : List String → Bool) (enabled : Bool)
    (layout : Layout) :
    artifactsSection (Json.node (.object (withoutMembers removed [
        ("enabled", .bool enabled),
        ("output_dir", .string layout.outputDir),
        ("code_extension", .string layout.codeExtension),
        ("symbol_extension", .string layout.symbolExtension)]))) =
      .ok (if removed ["enabled"] then standard.artifactsEnabled else enabled,
        ⟨if removed ["output_dir"] then standard.layout.outputDir else layout.outputDir,
          if removed ["code_extension"] then standard.layout.codeExtension
          else layout.codeExtension,
          if removed ["symbol_extension"] then standard.layout.symbolExtension
          else layout.symbolExtension⟩) := by
  have first : (if removed ["enabled"] then .ok ⟨none, []⟩
      else artifactsMember ⟨none, []⟩ "enabled" (Json.bool enabled).node) =
      .ok ⟨if removed ["enabled"] then none else some enabled, []⟩ := by
    split <;> rfl
  have later {name : String} (other : name ≠ "enabled") (text : String) (read : ArtifactsRead) :
      (if removed [name] then .ok read
        else artifactsMember read name (Json.string text).node) =
      .ok { read with others :=
        read.others ++ if removed [name] then [] else [(name, .string text)] } := by
    split
    · rw [List.append_nil]
    · exact artifactsMember_text other text read
  rw [node, artifactsSection, members_written]
  simp only [foldlM_withoutMembers, Json.without, first, later, ne_eq, String.reduceEq,
    not_false_eq_true, bind, Except.bind]
  rw [withoutMembers, List.foldlM_nil]
  -- Each of the texts is found among those that are left, or it is not.
  cases removed ["enabled"] <;> cases removed ["output_dir"] <;>
    cases removed ["code_extension"] <;> cases removed ["symbol_extension"] <;> rfl

theorem fieldSection_without {α : Type} (decode : Node → Except ReadError α) (fallback : α)
    (removed : List String → Bool) {name : String} {value : Json} {read : α}
    (reads : decode (value.without fun path => removed (name :: path)).node = .ok read) :
    fieldSection name decode fallback
        (Json.node (.object (withoutMembers removed [(name, value)]))) =
      .ok (if removed [name] then fallback else read) := by
  rw [node, fieldSection, members_written, foldlM_withoutMembers, withoutMembers]
  split
  · rfl
  · simp only [if_true, reads]
    rfl

/-- Whatever members are left out, exactly the fields that are missing are read as their defaults. -/
theorem decode_without (config : Config) (removed : List String → Bool) :
    decode (config.toJson.without removed).node = .ok (config.withDefaults removed) := by
  obtain ⟨enabled, layout, sessionKey, logLevel⟩ := config
  have artifacts := artifactsSection_without (fun path => removed ("artifacts" :: path)) enabled
    layout
  have session (value : Json) (reads : Decode.optional Decode.string
      (value.without fun path => removed ("session" :: "key" :: path)).node = .ok sessionKey) :
      sessionSection (Json.node (.object
          (withoutMembers (fun path => removed ("session" :: path)) [("key", value)]))) =
        .ok (if removed ["session", "key"] then standard.sessionKey else sessionKey) :=
    fieldSection_without _ _ _ reads
  have logging : loggingSection (Json.node (.object
      (withoutMembers (fun path => removed ("logging" :: path)) [("level", .string logLevel)]))) =
      .ok (if removed ["logging", "level"] then standard.logLevel else logLevel) :=
    fieldSection_without _ _ _ rfl
  rw [toJson, Json.without, node, decode, members_written]
  simp only [foldlM_withoutMembers, Json.without, sectionMember, artifacts, logging]
  rw [session _ (by cases sessionKey <;> rfl), withoutMembers, withDefaults]
  simp only [fieldWithout]
  cases removed ["artifacts"] <;> cases removed ["session"] <;> cases removed ["logging"] <;> rfl

end Config

/-- What was written is read back as it was, doubles apart. A configuration that was written without
some of its members is read with the defaults of exactly those fields. -/
theorem read_back_written :
    (∀ value : Value, value.kind ≠ .double → ∀ text ∈ value.toJson.written,
      Value.ofJson? text = .ok value) ∧
    (∀ config : Config, ∀ text ∈ config.toJson.written, Config.ofJson? text = .ok config) ∧
    ∀ (config : Config) (removed : List String → Bool),
      ∀ text ∈ (config.toJson.without removed).written,
        Config.ofJson? text = .ok (config.withDefaults removed) := by
  have partially (config : Config) (removed : List String → Bool) :
      ∀ text ∈ (config.toJson.without removed).written,
        Config.ofJson? text = .ok (config.withDefaults removed) := by
    intro text isWritten
    have readable := config.readable_toJson.without removed
    rw [Config.ofJson?, readable.read_written isWritten, Config.decode_without]
  refine ⟨?_, ?_, partially⟩
  · intro value noDouble text isWritten
    rw [Value.ofJson?, (Value.readable_toJson noDouble).read_written isWritten,
      Value.decode_toJson noDouble]
  · intro config text isWritten
    have whole : config.toJson.without (fun _ => false) = config.toJson := by
      rw [Config.toJson]
      cases config.sessionKey <;> rfl
    rw [← whole] at isWritten
    exact partially config (fun _ => false) text isWritten

/-- The least integer, and a configuration of which a section and two fields of another one are
missing. -/
theorem least_integer_and_part_read_back :
    (Value.int Int64.minValue).kind ≠ .double ∧
    Value.ofJson? "\x7b\"type\":\"int\",\"value\":-9223372036854775808\x7d" =
      .ok (.int Int64.minValue) ∧
    Config.ofJson? ("\x7b\"artifacts\":\x7b\"enabled\":true,\"output_dir\":\"a\\\"b\"\x7d," ++
      "\"session\":\x7b\"key\":\"k\"\x7d\x7d") =
      .ok ⟨true, ⟨"a\"b", "dll", "pdb"⟩, some "k", "info"⟩ := by
  refine ⟨by decide, ?_, ?_⟩
  · exact read_back_written.1 (.int Int64.minValue) (by decide) _ (by decide +kernel)
  · exact read_back_written.2.2 ⟨true, ⟨"a\"b", "img", "sym"⟩, some "k", "trace"⟩
      (fun path => path ∈ [["artifacts", "code_extension"], ["artifacts", "symbol_extension"],
        ["logging"]]) _ (by decide +kernel)

end Colloquy

import Colloquy.CommandLine.Options
import Colloquy.Proofs.Text.Utf8

set_option autoImplicit false

/-!
Command lines as lists of items. An item is a script, a flag, or a setting with a value, in one of
its spellings. A command line is read to what its items say: the scripts in their order, the flags
that occur, and for each setting the value that is given last. Neither the spelling of an item nor
its place among items of another kind matters.
-/

namespace Colloquy.Options

open Text.Utf8 (encode)

def Flag.letter : Flag → Char
  | .help => 'h'
  | .version => 'V'
  | .debug => 'd'

def Flag.word : Flag → String
  | .help => "help"
  | .version => "version"
  | .debug => "debug"

def Setting.letter : Setting → Char
  | .session => 's'
  | .config => 'c'
  | .logLevel => 'l'

def Setting.word : Setting → String
  | .session => "session"
  | .config => "config"
  | .logLevel => "log-level"

/-- How a setting and its value are written. -/
inductive Spelling where
  /-- As in `-x value`. -/
  | short
  /-- As in `-xvalue`. -/
  | shortAttached
  /-- As in `-x=value`. -/
  | shortEquals
  /-- As in `--name value`. -/
  | long
  /-- As in `--name=value`. -/
  | longEquals
  deriving DecidableEq

inductive Item where
  | script (text : String)
  | flag (flag : Flag) (isLong : Bool)
  | setting (setting : Setting) (value : String) (spelling : Spelling)

namespace Item

/-- The arguments that an item is written as. -/
def render : Item → List String
  | .script text => [text]
  | .flag f isLong => [if isLong then "--" ++ f.word else shortName f.letter]
  | .setting s value .short => [shortName s.letter, value]
  | .setting s value .shortAttached => [shortName s.letter ++ value]
  | .setting s value .shortEquals => [shortName s.letter ++ ("=" ++ value)]
  | .setting s value .long => ["--" ++ s.word, value]
  | .setting s value .longEquals => ["--" ++ s.word ++ ("=" ++ value)]

/-- A script does not look like an option, the key of a session is not blank, and a value that
directly follows its letter is there and is not taken to be set off from it. -/
def Admissible : Item → Prop
  | .script text => text = "-" ∨ text.toList.head? ≠ some '-'
  | .flag _ _ => True
  | .setting s value spelling =>
    (s = .session → value.toList.all Text.isBlank = false) ∧
      (spelling = .shortAttached → value ≠ "" ∧ value.toList.head? ≠ some '=')

instance (item : Item) : Decidable item.Admissible :=
  match item with
  | .script _ => inferInstanceAs (Decidable (_ ∨ _))
  | .flag _ _ => inferInstanceAs (Decidable True)
  | .setting _ _ _ => inferInstanceAs (Decidable (_ ∧ _))

def script? : Item → Option String
  | .script text => some text
  | _ => none

def sets (f : Flag) : Item → Bool
  | .flag given _ => given = f
  | _ => false

def value? (s : Setting) : Item → Option String
  | .setting given value _ => if given = s then some value else none
  | _ => none

end Item

/-- The value that a setting is given last. -/
def lastValue? (setting : Setting) (items : List Item) : Option String :=
  (items.filterMap (Item.value? setting)).getLast?

theorem lastValue?_append (setting : Setting) (items more : List Item) :
    lastValue? setting (items ++ more) =
      (lastValue? setting more).or (lastValue? setting items) := by
  rw [lastValue?, List.filterMap_append, List.getLast?_append, lastValue?, lastValue?]

/-- What items add to the options that are read already. -/
def gather (options : Options) (items : List Item) : Options where
  scripts := options.scripts ++ (items.filterMap Item.script?).map Path.ofString
  scriptArgs := options.scriptArgs
  debug := options.debug || items.any (Item.sets .debug)
  session := (lastValue? .session items).or options.session
  config := ((lastValue? .config items).map Path.ofString).or options.config
  logLevel := (lastValue? .logLevel items).or options.logLevel
  version := options.version || items.any (Item.sets .version)
  help := options.help || items.any (Item.sets .help)

theorem gather_append (options : Options) (items more : List Item) :
    options.gather (items ++ more) = (options.gather items).gather more := by
  simp only [gather, List.filterMap_append, List.map_append, List.append_assoc, List.any_append,
    Bool.or_assoc, lastValue?_append, Option.map_or, Option.or_assoc]

theorem gather_nil (options : Options) : options.gather [] = options := by
  simp [gather, lastValue?]

theorem gather_script (options : Options) (text : String) :
    options.gather [.script text] =
      { options with scripts := options.scripts ++ [.ofString text] } := by
  simp [gather, lastValue?, Item.script?, Item.sets, Item.value?]

theorem gather_flag (options : Options) (flag : Flag) (isLong : Bool) :
    options.gather [.flag flag isLong] = options.setFlag flag := by
  cases flag <;> simp [gather, lastValue?, Item.script?, Item.sets, Item.value?, setFlag]

theorem mem_dropWhile {α : Type} {p : α → Bool} {items : List α} {a : α} (among : a ∈ items)
    (fails : p a = false) : a ∈ items.dropWhile p := by
  have parts : a ∈ items.takeWhile p ++ items.dropWhile p := by
    rwa [List.takeWhile_append_dropWhile]
  refine (List.mem_append.mp parts).resolve_left fun taken => ?_
  have holds := List.all_eq_true.mp List.all_takeWhile a taken
  rw [fails] at holds
  cases holds

theorem trim_isEmpty {text : List Char} (notBlank : text.all Text.isBlank = false) :
    (Text.trim text).isEmpty = false := by
  obtain ⟨c, among, isVisible⟩ := List.all_eq_false.mp notBlank
  have visible : Text.isBlank c = false := Bool.eq_false_iff.mpr isVisible
  have kept : c ∈ Text.trim text :=
    List.mem_reverse.mpr (mem_dropWhile (List.mem_reverse.mpr (mem_dropWhile among visible)) visible)
  exact List.isEmpty_eq_false_iff.mpr (List.ne_nil_of_mem kept)

/-- A value is taken as it is written, whatever it looks like. -/
theorem assign_encode (options : Options) {setting : Setting} {value : String} {spelling : Spelling}
    (admissible : (Item.setting setting value spelling).Admissible) :
    options.assign setting (encode value) =
      .ok (options.gather [.setting setting value spelling]) := by
  rw [assign, Text.Utf8.decode?_encode]
  cases setting with
  | session =>
    have notBlank := trim_isEmpty (admissible.1 rfl)
    simp [notBlank, gather, lastValue?, Item.script?, Item.sets, Item.value?]
  | config | logLevel =>
    simp [gather, lastValue?, Item.script?, Item.sets, Item.value?, Path.ofString]

/-! The form of an argument. -/

theorem encode_dash (text : String) : encode ("-" ++ text) = dash :: encode text := by
  rw [Text.Utf8.encode_append]
  rfl

/-- Only the dash is encoded with its byte. -/
theorem head?_of_encode_dash {text : String} (isDash : (encode text).head? = some dash) :
    text.toList.head? = some '-' := by
  rw [encode] at isDash
  cases chars : text.toList with
  | nil =>
    rw [chars] at isDash
    cases isDash
  | cons c rest =>
    have someByte : String.utf8EncodeChar c ≠ [] := by
      rw [← List.length_pos_iff, String.length_utf8EncodeChar]
      exact Char.utf8Size_pos c
    rw [chars, List.flatMap_cons, List.head?_append, List.head?_eq_some_head someByte,
      Option.some_or, ← List.head?_eq_some_head] at isDash
    have isChar := Text.Utf8.eq_of_mem_encodeChar (by decide) (List.mem_of_mem_head? isDash)
    rw [List.head?_cons, ← isChar]
    rfl

theorem ofArgument_plain {text : String} (admissible : (Item.script text).Admissible) :
    Form.ofArgument (encode text) = .plain := by
  rcases admissible with rfl | noDash
  · rfl
  · have notDash : (encode text).head? ≠ some dash := mt head?_of_encode_dash noDash
    unfold Form.ofArgument
    cases bytes : encode text with
    | nil => rfl
    | cons first rest =>
      rw [bytes, List.head?_cons, Ne, Option.some.injEq] at notDash
      simp [notDash]

theorem ofArgument_cluster {text : String} (someChar : text ≠ "")
    (notDash : text.toList.head? ≠ some '-') :
    Form.ofArgument (encode ("-" ++ text)) = .cluster (text.toList.map .char) := by
  have someByte : encode text ≠ [] := fun isEmpty => someChar (Text.Utf8.encode_inj isEmpty)
  rw [encode_dash, Form.ofArgument, if_neg (by simpa using someByte),
    if_neg (mt head?_of_encode_dash notDash), Text.Utf8.scan_encode]

/-- A word goes up to the equals sign that sets off its value. -/
theorem ofArgument_long {word : String} (noEquals : '=' ∉ word.toList) (rest : List UInt8)
    (stops : rest.takeWhile (· ≠ equals) = []) :
    Form.ofArgument (encode ("--" ++ word) ++ rest) =
      .long word (if rest.isEmpty then none else some rest.tail) := by
  have allOther : ∀ b ∈ encode word, decide (b ≠ equals) = true := by
    intro b among
    rw [decide_eq_true_iff]
    rintro rfl
    exact Text.Utf8.notMem_encode (by decide) noEquals among
  have isName : (encode word ++ rest).takeWhile (· ≠ equals) = encode word := by
    rw [List.takeWhile_append_of_pos allOther, stops, List.append_nil]
  have isLong : encode ("--" ++ word) ++ rest = dash :: dash :: (encode word ++ rest) := by
    rw [Text.Utf8.encode_append]
    rfl
  rw [isLong, Form.ofArgument, if_neg (by simp), if_pos List.head?_cons]
  dsimp only [List.tail_cons]
  rw [isName, List.drop_left, Text.Utf8.decodeLossy_encode]

/-! One argument. -/

theorem short?_flag (flag : Flag) : short? flag.letter = some (.flag flag) := by
  cases flag <;> rfl

theorem short?_setting (setting : Setting) :
    short? setting.letter = some (.setting setting) := by
  cases setting <;> rfl

theorem long?_flag (flag : Flag) : long? flag.word = some (.flag flag) := by
  cases flag <;> rfl

theorem long?_setting (setting : Setting) : long? setting.word = some (.setting setting) := by
  cases setting <;> rfl

theorem ofArgument_letter {c : Char} {meaning : Meaning} (isOption : short? c = some meaning)
    (rest : String) :
    Form.ofArgument (encode (shortName c ++ rest)) =
      .cluster (.char c :: rest.toList.map .char) := by
  have isCluster : shortName c ++ rest = "-" ++ String.ofList (c :: rest.toList) := by
    apply String.toList_injective
    simp [shortName]
  have someChar : String.ofList (c :: rest.toList) ≠ "" := by
    simp
  have notDash : (String.ofList (c :: rest.toList)).toList.head? ≠ some '-' := by
    rw [String.toList_ofList, List.head?_cons, Ne, Option.some.injEq]
    rintro rfl
    cases isOption
  rw [isCluster, ofArgument_cluster someChar notDash, String.toList_ofList, List.map_cons]

theorem attachedValue_plain {value : String} (noEquals : value.toList.head? ≠ some '=') :
    attachedValue (value.toList.map .char) = encode value := by
  rw [← Text.Utf8.bytes_pieces_encode]
  unfold attachedValue
  split
  case _ starts =>
    obtain ⟨c, rest, isText, isEquals, -⟩ := List.map_eq_cons_iff.mp starts
    cases isEquals
    rw [isText] at noEquals
    exact absurd rfl noEquals
  case _ => rfl

theorem attachedValue_equals (value : String) :
    attachedValue (("=" ++ value).toList.map .char) = encode value := by
  rw [← Text.Utf8.bytes_pieces_encode, String.toList_append]
  rfl

section

variable (options : Options)

theorem readArgument_script {text : String} (admissible : (Item.script text).Admissible) :
    readArgument options (encode text) = .ok (.done (options.gather [.script text])) := by
  rw [readArgument, ofArgument_plain admissible, gather_script]
  rfl

theorem readArgument_flag (flag : Flag) (isLong : Bool) :
    readArgument options (encode (if isLong then "--" ++ flag.word else shortName flag.letter)) =
      .ok (.done (options.gather [.flag flag isLong])) := by
  rw [gather_flag]
  cases isLong with
  | false =>
    have isCluster := ofArgument_letter (short?_flag flag) ""
    rw [String.append_empty] at isCluster
    rw [if_neg Bool.false_ne_true, readArgument, isCluster]
    simp [readCluster, short?_flag]
  | true =>
    have noEquals : '=' ∉ flag.word.toList := by cases flag <;> decide
    have isLong := ofArgument_long noEquals [] rfl
    rw [List.append_nil] at isLong
    rw [if_pos rfl, readArgument, isLong]
    simp [long?_flag]

/-- Either the value is attached, or it is the next argument. -/
theorem readArgument_letter (setting : Setting) (rest : String) :
    readArgument options (encode (shortName setting.letter ++ rest)) =
      if rest = "" then .ok (.value options setting (shortName setting.letter))
      else (options.assign setting (attachedValue (rest.toList.map .char))).map .done := by
  rw [readArgument, ofArgument_letter (short?_setting setting)]
  by_cases isEmpty : rest = ""
  · rw [isEmpty, if_pos rfl]
    simp [readCluster, short?_setting]
  · rw [if_neg isEmpty]
    have attached : (rest.toList.map Text.Utf8.Piece.char).isEmpty = false := by simpa using isEmpty
    simp only [readCluster, short?_setting, attached, ite_self]
    cases options.assign setting (attachedValue (rest.toList.map .char)) <;> rfl

theorem readArgument_word (setting : Setting) (rest : List UInt8)
    (stops : rest.takeWhile (· ≠ equals) = []) :
    readArgument options (encode ("--" ++ setting.word) ++ rest) =
      if rest.isEmpty then .ok (.value options setting ("--" ++ setting.word))
      else (options.assign setting rest.tail).map .done := by
  have noEquals : '=' ∉ setting.word.toList := by cases setting <;> decide
  rw [readArgument, ofArgument_long noEquals rest stops]
  cases rest.isEmpty <;> simp [long?_setting]

/-! Items. -/

variable {options}

theorem readAll_done {next : Options} {argument : Argument}
    (read : readArgument options argument = .ok (.done next)) (rest : List Argument) :
    readAll options (argument :: rest) = readAll next rest := by
  rw [readAll, read]

theorem readAll_value {next : Options} {argument value : Argument} {setting : Setting}
    {option : String} (read : readArgument options argument = .ok (.value options setting option))
    (assigned : options.assign setting value = .ok next) (rest : List Argument) :
    readAll options (argument :: value :: rest) = readAll next rest := by
  rw [readAll, read]
  dsimp only
  rw [assigned]

/-- An item is read to what it says, in each spelling and whatever comes after it. -/
theorem readAll_item (options : Options) {item : Item} (admissible : item.Admissible)
    (rest : List Argument) :
    readAll options (item.render.map encode ++ rest) = readAll (options.gather [item]) rest := by
  cases item with
  | script text => exact readAll_done (readArgument_script options admissible) rest
  | flag f isLong => exact readAll_done (readArgument_flag options f isLong) rest
  | setting s value spelling =>
    have assigned := assign_encode options admissible
    cases spelling with
    | short =>
      have read := readArgument_letter options s ""
      rw [String.append_empty, if_pos rfl] at read
      exact readAll_value read assigned rest
    | shortAttached =>
      obtain ⟨someChar, noEquals⟩ := admissible.2 rfl
      apply readAll_done
      rw [readArgument_letter, if_neg someChar, attachedValue_plain noEquals, assigned]
      rfl
    | shortEquals =>
      apply readAll_done
      rw [readArgument_letter, if_neg (by simp), attachedValue_equals, assigned]
      rfl
    | long =>
      have read := readArgument_word options s [] rfl
      rw [List.append_nil] at read
      exact readAll_value read assigned rest
    | longEquals =>
      have isEquals : encode ("=" ++ value) = equals :: encode value := by
        rw [Text.Utf8.encode_append]
        rfl
      apply readAll_done
      rw [Text.Utf8.encode_append, isEquals, readArgument_word options s _ (by simp),
        List.isEmpty_cons, if_neg Bool.false_ne_true, List.tail_cons, assigned]
      rfl

theorem readAll_items (options : Options) {items : List Item}
    (admissible : ∀ item ∈ items, item.Admissible) :
    readAll options ((items.flatMap Item.render).map encode) = .ok (options.gather items) := by
  induction items generalizing options with
  | nil =>
    rw [gather_nil]
    rfl
  | cons item items inductionHypothesis =>
    obtain ⟨first, others⟩ := List.forall_mem_cons.mp admissible
    rw [List.flatMap_cons, List.map_append, readAll_item options first,
      inductionHypothesis _ others, ← gather_append, List.singleton_append]

end

/-! Command lines. -/

/-- A command line: the name of the program, the items, and what comes after a separator, if there
is one. -/
structure Line where
  program : Argument
  items : List Item
  tail? : Option (List String)
  admissible : ∀ item ∈ items, item.Admissible
  unseparated : "--" ∉ items.flatMap Item.render

namespace Line

variable (line : Line)

/-- The arguments before the separator. -/
def own : List Argument :=
  (line.items.flatMap Item.render).map encode

/-- The separator, if there is one, with what comes after it. -/
def separated : List Argument :=
  line.tail?.elim [] fun tail => separator :: tail.map encode

def argv : List Argument :=
  line.program :: (line.own ++ line.separated)

theorem takeWhile_argv : line.argv.tail.takeWhile (· ≠ separator) = line.own := by
  have allOther : ∀ argument ∈ line.own, decide (argument ≠ separator) = true := by
    intro argument among
    obtain ⟨text, isRendered, rfl⟩ := List.mem_map.mp among
    rw [decide_eq_true_iff]
    intro isSeparator
    have isText : text = "--" := Text.Utf8.encode_inj isSeparator
    exact line.unseparated (isText ▸ isRendered)
  rw [argv, List.tail_cons, List.takeWhile_append_of_pos allOther, separated]
  cases line.tail? <;> simp

theorem drop_argv :
    line.argv.tail.drop (line.own.length + 1) = (line.tail?.getD []).map encode := by
  rw [argv, List.tail_cons, ← List.drop_drop, List.drop_left, separated]
  cases line.tail? <;> rfl

end Line

theorem mapM_scriptArgument_encode (texts : List String) :
    (texts.map encode).mapM scriptArgument = .ok texts := by
  have read : scriptArgument ∘ encode = fun text => pure (id text) := by
    funext text
    rw [Function.comp_apply, scriptArgument, Text.Utf8.decode?_encode]
    rfl
  rw [List.mapM_map, read, List.mapM_pure, List.map_id]
  rfl

/-- Every command line is read to what its items say, in whatever order and spelling they come, and
to what comes after the separator. -/
theorem Line.parse_argv (line : Line) :
    parse line.argv = .ok {
      scripts := (line.items.filterMap Item.script?).map Path.ofString
      scriptArgs := line.tail?.getD []
      debug := line.items.any (Item.sets .debug)
      session := lastValue? .session line.items
      config := (lastValue? .config line.items).map Path.ofString
      logLevel := lastValue? .logLevel line.items
      version := line.items.any (Item.sets .version)
      help := line.items.any (Item.sets .help) } := by
  rw [parse, line.takeWhile_argv, line.drop_argv, mapM_scriptArgument_encode]
  change readAll _ line.own = _
  rw [own, readAll_items _ line.admissible]
  simp [gather, initial]

/-- Values that look like options, between scripts and flags. -/
def mixedLine : Line where
  program := encode "colloquy"
  items := [
    .script "a.csx", .setting .session "one" .short, .flag .debug true,
    .setting .config "=" .shortEquals, .script "-", .setting .session "--help" .long,
    .setting .logLevel "" .longEquals, .flag .version false,
    .setting .logLevel "-" .shortAttached]
  tail? := some ["-d", "--", ""]
  admissible := by decide +kernel
  unseparated := by decide +kernel

theorem mixedLine_parsed :
    parse (["colloquy", "a.csx", "-s", "one", "--debug", "-c==", "-", "--session", "--help",
      "--log-level=", "-V", "-l-", "--", "-d", "--", ""].map encode) = .ok {
        scripts := [.ofString "a.csx", .ofString "-"]
        scriptArgs := ["-d", "--", ""]
        debug := true
        session := some "--help"
        config := some (.ofString "=")
        logLevel := some "-"
        version := true
        help := false } := by
  have written : mixedLine.argv = ["colloquy", "a.csx", "-s", "one", "--debug", "-c==", "-",
      "--session", "--help", "--log-level=", "-V", "-l-", "--", "-d", "--", ""].map encode := by
    decide +kernel
  rw [← written]
  exact mixedLine.parse_argv

end Colloquy.Options

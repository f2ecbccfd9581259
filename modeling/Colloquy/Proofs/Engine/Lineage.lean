import Colloquy.Proofs.Calc.Incremental
import Colloquy.Proofs.Engine.Conversation
import Colloquy.Proofs.Engine.Slots
import Mathlib.Logic.Function.Basic

set_option autoImplicit false

/-!
What a calculator keeps of its sessions. Two counters and a last value are kept of a session, in the
store and in the session itself, and a session can be taken out, put back, moved or replaced. Next to
the store we follow, for every key, the session under it together with the outcomes of all submissions
that compiled against that session since it was created. After any operations the counters are the
number of these outcomes, and the last value is that of the latest one.
-/

namespace Colloquy

theorem Calc.Session.submissions_execute (session : Session) (compiled : Compiled) :
    (session.execute compiled).1.submissions = session.submissions + 1 := by
  have unmoved := runFrom_submissions { session with submissions := session.submissions + 1 }
    (session.submissions + 1) .unit compiled.statements
  rw [execute, unmoved]

namespace Engine

/-- A session, with the outcomes of the submissions that compiled against it, in their order. -/
structure Lineage where
  session : Calc.Session
  outcomes : List (Except Calc.Fault Value)

namespace Lineage

/-- A session that has just been created. -/
def ofHost (host : Host) : Lineage :=
  ⟨.ofHost host, []⟩

/-- The value of the latest submission, if it completed. -/
def lastValue (lineage : Lineage) : Option Value :=
  lineage.outcomes.getLast?.bind Except.toOption

/-- What is kept of a session. -/
def state (lineage : Lineage) : SessionState Calc.Session :=
  ⟨lineage.session, lineage.lastValue, lineage.outcomes.length⟩

/-- Runs a submission that compiled. -/
def run (lineage : Lineage) (compiled : Calc.Compiled) : Lineage :=
  ⟨(lineage.session.execute compiled).1,
    lineage.outcomes ++ [(lineage.session.execute compiled).2]⟩

/-- The session counts the submissions too. -/
def Counted (lineage : Lineage) : Prop :=
  lineage.session.submissions = lineage.outcomes.length

theorem Counted.run {lineage : Lineage} (counted : lineage.Counted) (compiled : Calc.Compiled) :
    (lineage.run compiled).Counted := by
  rw [Counted] at counted
  rw [Counted, Lineage.run, Calc.Session.submissions_execute, counted, List.length_append]
  rfl

theorem state_run (lineage : Lineage) (compiled : Calc.Compiled) :
    (lineage.run compiled).state =
      SessionState.advance { lineage.state with session := (lineage.session.execute compiled).1 }
        (lineage.session.execute compiled).2.toOption := by
  simp [state, run, lastValue, SessionState.advance]

/-- A lineage tells what a state has counted and what its last value is. -/
structure Describes (lineage : Lineage) (state : SessionState Calc.Session) : Prop where
  session : state.session = lineage.session
  submissions : state.submissions = lineage.outcomes.length
  sessionSubmissions : state.session.submissions = lineage.outcomes.length
  lastValue : ∀ value, state.lastValue = some value ↔ lineage.outcomes.getLast? = some (.ok value)

theorem Counted.describes {lineage : Lineage} (counted : lineage.Counted) :
    lineage.Describes lineage.state where
  session := rfl
  submissions := rfl
  sessionSubmissions := counted
  lastValue value := by
    rw [state, Lineage.lastValue]
    rcases lineage.outcomes.getLast? with _ | _ | _ <;> simp [Except.toOption]

end Lineage

/-- The lineages of the sessions of a store. -/
abbrev Lineages := Key → Option Lineage

namespace Lineages

/-- The session that a submission runs in: that of its key, or a new one. -/
def start (lineages : Lineages) (host : Host) (key? : Option Key) : Lineage :=
  (key?.bind lineages).getD (.ofHost host)

/-- A submission counts if it compiles. -/
def submit (lineages : Lineages) (text : String) (host : Host) (key? : Option Key) : Lineages :=
  match (lineages.start host key?).session.compile text with
  | .error _ => lineages
  | .ok compiled =>
    Function.update lineages (slotKey key?) (some ((lineages.start host key?).run compiled))

/-- The lines of a prompt are submissions, up to the one that ends it. -/
def prompt (settings : Prompt.Settings) : Lineages → List (List UInt8) → Lineages
  | lineages, [] => lineages
  | lineages, line :: rest =>
    match (Text.Utf8.decode? line).map Command.parse with
    | none | some .quit => lineages
    | some (.submit code) =>
      prompt settings (lineages.submit code settings.host (some settings.key)) rest
    | some _ => prompt settings lineages rest

end Lineages

/-- What can be done with an engine and its store, on whatever has become of the files. -/
inductive Operation (State : Type) where
  /-- A submission, in a task of its own or not. -/
  | submit (source : Source) (host : Host) (key? : Option Key) (files : State)
  | prompt (settings : Prompt.Settings) (input : List UInt8)
  | listVariables (key : Key)
  | slot (key : Key)
  | remove (key : Key)
  /-- Stores a new session. -/
  | put (host : Host) (key : Key)
  /-- Takes a state from under a key and stores it under another one. -/
  | move (source target : Key)

section

variable {State : Type} [FileSystem (StateM State)]

/-- The store after an operation. -/
def apply {σ υ φ : Type} (engine : Engine σ υ φ) (store : Store σ) : Operation State → Store σ
  | .submit source host key? files =>
    (engine.submit (m := StateM State) store source host key? files).1.2
  | .prompt settings input => (Prompt.run engine settings store input).store
  | .listVariables _ => store
  | .slot key => (store.slot key).2
  | .remove key => (store.remove key).2
  | .put host key =>
    match engine.freshState host with
    | .error _ => store
    | .ok state => (store.put key state).2
  | .move source target =>
    match store.remove source with
    | (.ok (some state), store) => (store.put target state).2
    | (_, store) => store

def Lineages.apply (lineages : Lineages) : Operation State → Lineages
  | .submit source host key? files =>
    match source.text? files with
    | none => lineages
    | some text => lineages.submit text host key?
  | .prompt settings input => lineages.prompt settings (Prompt.inputLines input)
  | .listVariables _ | .slot _ => lineages
  | .remove key => Function.update lineages key none
  | .put host key => Function.update lineages key (some (.ofHost host))
  | .move source target =>
    match lineages source with
    | none => lineages
    | some lineage => Function.update (Function.update lineages source none) target (some lineage)

end

/-- A store keeps what the lineages of its keys come to. -/
structure Keeps (store : Store Calc.Session) (lineages : Lineages) : Prop where
  reachable : store.Reachable
  state : ∀ key, store.state? key = .ok ((lineages key).map Lineage.state)
  counted : ∀ ⦃key lineage⦄, lineages key = some lineage → lineage.Counted

section

variable {store : Store Calc.Session} {lineages : Lineages}

theorem Keeps.empty : Keeps .empty fun _ => none :=
  ⟨.empty, fun _ => rfl, nofun⟩

theorem Keeps.content (keeps : Keeps store lineages) (key : Key) :
    (store.slot key).1.content = .holding ((lineages key).map Lineage.state) :=
  Store.content_of_state? (keeps.state key)

theorem counted_update {key : Key} {lineage? : Option Lineage}
    (counted : ∀ ⦃key lineage⦄, lineages key = some lineage → lineage.Counted)
    (newCounted : ∀ lineage ∈ lineage?, lineage.Counted) ⦃other : Key⦄ ⦃lineage : Lineage⦄
    (found : Function.update lineages key lineage? other = some lineage) : lineage.Counted := by
  by_cases isKey : other = key
  · subst isKey
    rw [Function.update_self] at found
    exact newCounted lineage found
  · rw [Function.update_of_ne isKey] at found
    exact counted found

/-- What is left in the slot of a key decides its lineage. -/
theorem Keeps.modify (keeps : Keeps store lineages) {key : Key} {α : Type}
    {change : SlotContent Calc.Session → α × SlotContent Calc.Session} {lineage? : Option Lineage}
    (left : (change (.holding ((lineages key).map Lineage.state))).2 =
      .holding (lineage?.map Lineage.state))
    (newCounted : ∀ lineage ∈ lineage?, lineage.Counted) :
    Keeps (store.modify key change).2 (Function.update lineages key lineage?) := by
  rw [← keeps.content] at left
  refine ⟨keeps.reachable.modify key change, ?_, counted_update keeps.counted newCounted⟩
  intro other
  rw [Store.state?_modify change left]
  by_cases isKey : other = key
  · rw [if_pos isKey, isKey, Function.update_self]
  · rw [if_neg isKey, Function.update_of_ne isKey, keeps.state]

theorem Keeps.slot (keeps : Keeps store lineages) (key : Key) :
    Keeps (store.slot key).2 lineages := by
  refine ⟨keeps.reachable.slot key, ?_, keeps.counted⟩
  intro other
  rw [Store.state?_slot, keeps.state]

theorem Keeps.erase (keeps : Keeps store lineages) (key : Key) :
    Keeps (store.erase key) (Function.update lineages key none) := by
  refine ⟨keeps.reachable.erase key, ?_, counted_update keeps.counted nofun⟩
  intro other
  rw [Store.state?_erase]
  by_cases isKey : other = key
  · rw [if_pos isKey, isKey, Function.update_self]
    rfl
  · rw [if_neg isKey, Function.update_of_ne isKey, keeps.state]

theorem Keeps.put (keeps : Keeps store lineages) (key : Key) {lineage : Lineage}
    (counted : lineage.Counted) :
    Keeps (store.put key lineage.state).2 (Function.update lineages key (some lineage)) := by
  rw [keeps.reachable.put_eq]
  apply keeps.modify
  · rfl
  · rintro _ ⟨⟩
    exact counted

end

section

variable (layout? : Option Layout) (lineages : Lineages) (text : String) (host : Host)
  (key? : Option Key)

/-- A calculator. -/
def calculating : Engine Calc.Session Calc.Compiled Calc.Fault :=
  ⟨Calc.backend, layout?⟩

theorem startIn_kept :
    (calculating layout?).startIn host key?.isSome
        (.holding ((lineages (slotKey key?)).map Lineage.state)) =
      (.ok ((lineages.start host key?).state, (key?.bind lineages).isSome),
        if (key?.bind lineages).isSome then .holding none
        else .holding ((lineages (slotKey key?)).map Lineage.state)) := by
  rcases key? with _ | key
  · rfl
  · have isKey : slotKey (some key) = key := rfl
    rw [isKey, Lineages.start, Option.bind_some]
    cases lineages key <;> rfl

/-- A calculator never breaks off. -/
theorem finishIn_kept (key : Key) (lineage : Lineage) (resumed : Bool) (compiled : Calc.Compiled)
    (emission? : Option (Except ArtifactFailure ArtifactPaths)) :
    (calculating layout?).finishIn key ⟨lineage.state, resumed, compiled⟩ emission? =
      (.returned ((calculating layout?).conclude key ⟨lineage.state, resumed, compiled⟩ emission?
        (lineage.session.execute compiled).2), .holding (some (lineage.run compiled).state)) := by
  rw [Lineage.state_run]
  simp only [finishIn, calculating, Calc.backend, Lineage.state]
  rcases lineage.session.execute compiled with ⟨session, fault | value⟩ <;> rfl

theorem submitIn_kept
    (emission? : Calc.Compiled → Option (Except ArtifactFailure ArtifactPaths)) :
    (calculating layout?).submitIn text host key? emission?
        (.holding ((lineages (slotKey key?)).map Lineage.state)) =
      match (lineages.start host key?).session.compile text with
      | .error diagnostics => (.returned (.error (.compilation diagnostics)),
          .holding ((lineages (slotKey key?)).map Lineage.state))
      | .ok compiled =>
        (.returned ((calculating layout?).conclude (slotKey key?)
          ⟨(lineages.start host key?).state, (key?.bind lineages).isSome, compiled⟩
          (emission? compiled) ((lineages.start host key?).session.execute compiled).2),
          .holding (some ((lineages.start host key?).run compiled).state)) := by
  have compiles : (calculating layout?).backend.compile (lineages.start host key?).state.session text =
      (lineages.start host key?).session.compile text := rfl
  rw [submitIn, prepareIn, startIn_kept]
  dsimp only
  rw [compiles]
  cases (lineages.start host key?).session.compile text with
  | ok compiled => exact finishIn_kept layout? _ _ _ _ _
  | error diagnostics =>
    -- Where a session was gone on with, it is the one that the slot gets back.
    cases found : key?.bind lineages with
    | none => rfl
    | some lineage =>
      obtain ⟨key, rfl, isLineage⟩ := Option.bind_eq_some_iff.mp found
      have same : lineages (slotKey (some key)) = some lineage := isLineage
      rw [Lineages.start, found, same]
      rfl

variable {lineages} in
/-- What a submission does to a slot is what it does to the lineage of the key. -/
theorem Keeps.submitted {store : Store Calc.Session} (keeps : Keeps store lineages)
    (emission? : Calc.Compiled → Option (Except ArtifactFailure ArtifactPaths)) :
    Keeps (store.modify (slotKey key?)
      ((calculating layout?).submitIn text host key? emission?)).2
      (lineages.submit text host key?) := by
  have startCounted : (lineages.start host key?).Counted := by
    rw [Lineages.start]
    cases found : key?.bind lineages with
    | none => rfl
    | some lineage =>
      obtain ⟨key, -, isLineage⟩ := Option.bind_eq_some_iff.mp found
      exact keeps.counted isLineage
  have left := submitIn_kept layout? lineages text host key? emission?
  rw [Lineages.submit]
  cases compiles : (lineages.start host key?).session.compile text with
  | error diagnostics =>
    rw [compiles] at left
    have unchanged := keeps.modify (congrArg Prod.snd left) fun _ found => keeps.counted found
    rwa [Function.update_eq_self] at unchanged
  | ok compiled =>
    rw [compiles] at left
    refine keeps.modify (congrArg Prod.snd left) ?_
    rintro _ ⟨⟩
    exact startCounted.run compiled

variable {lineages} {store : Store Calc.Session} (keeps : Keeps store lineages)
include keeps

theorem Keeps.executeCode :
    Keeps ((calculating layout?).executeCode store text host key?).2
      (lineages.submit text host key?) := by
  rw [executeCode_eq_modify _ _ _ _ keeps.reachable]
  exact keeps.submitted layout? text host key? _

theorem Keeps.runLines (settings : Prompt.Settings) (lines : List (List UInt8)) :
    Keeps (Prompt.runLines (calculating layout?) settings store lines).store
      (lineages.prompt settings lines) := by
  induction lines generalizing store lineages with
  | nil => exact keeps
  | cons line lines inductionHypothesis =>
    rw [Prompt.runLines, Prompt.turn, Lineages.prompt]
    cases Text.Utf8.decode? line with
    | none => exact keeps
    | some input =>
      rw [Option.map_some]
      dsimp only
      cases Command.parse input with
      | quit => exact keeps
      | empty | listVariables | unknown => exact inductionHypothesis keeps
      | submit code =>
        have submitted := keeps.executeCode layout? code settings.host (some settings.key)
        have backendReturns : (calculating layout?).backend.Returns := Calc.backend_returns
        have returns := executeCode_ne_brokeOff backendReturns store code settings.host
          (some settings.key)
        rw [Prompt.reply]
        generalize (calculating layout?).executeCode store code settings.host (some settings.key) =
          executed at submitted returns
        obtain ⟨_ | _, later⟩ := executed
        · exact inductionHypothesis submitted
        · exact (returns rfl).elim

variable {State : Type} [FileSystem (StateM State)]

theorem Keeps.submit (source : Source) (files : State) :
    Keeps ((calculating layout?).submit (m := StateM State) store source host key? files).1.2
      (lineages.apply (.submit source host key? files)) := by
  rw [Lineages.apply]
  cases readable : source.text? files with
  | none =>
    obtain ⟨path, message, unchanged⟩ := (calculating layout?).submit_of_unreadable host key? readable
    rw [unchanged]
    exact keeps
  | some text =>
    obtain ⟨emission?, modified⟩ :=
      (calculating layout?).submit_eq_modify host key? keeps.reachable readable
    rw [modified]
    exact keeps.submitted layout? text host key? emission?

theorem Keeps.apply (operation : Operation State) :
    Keeps ((calculating layout?).apply store operation) (lineages.apply operation) := by
  cases operation with
  | submit source host key? files => exact keeps.submit layout? host key? source files
  | prompt settings input => exact keeps.runLines layout? settings _
  | listVariables => exact keeps
  | slot key => exact keeps.slot key
  | remove key => exact keeps.erase key
  | put host key =>
    have counted : (Lineage.ofHost host).Counted := rfl
    exact keeps.put key counted
  | move source target =>
    rw [Engine.apply, Store.remove, keeps.state, Lineages.apply]
    cases found : lineages source with
    | none =>
      have erased := keeps.erase source
      rwa [← found, Function.update_eq_self] at erased
    | some lineage => exact (keeps.erase source).put target (keeps.counted found)

end

/-! Reports that tell whether a session was gone on with. -/

/-- The report on a submission that completed, whether its artifacts were written or not. -/
def report? {φ : Type} : Except (ScriptError φ) Report → Option Report
  | .ok report | .error (.artifactWrite _ report) => some report
  | .error _ => none

theorem resumed_conclude {σ υ φ : Type} (engine : Engine σ υ φ) {key : Key} {prepared : Prepared σ υ}
    {emission? : Option (Except ArtifactFailure ArtifactPaths)} {outcome : Except φ Value}
    {report : Report} (reported : report? (engine.conclude key prepared emission? outcome) = some report) :
    report.resumed = prepared.resumed := by
  rcases outcome with fault | value
  · cases reported
  · rcases emission? with _ | failure | paths <;> cases reported <;> rfl

section

variable (layout? : Option Layout) {store : Store Calc.Session} {lineages : Lineages}
  (keeps : Keeps store lineages) {State : Type} [FileSystem (StateM State)]
include keeps

theorem Keeps.holds_iff (key? : Option Key) :
    (key?.bind lineages).isSome ↔
      ∃ key state, key? = some key ∧ store.state? key = .ok (some state) := by
  rcases key? with _ | key
  · simp
  · simp [keeps.state, Option.isSome_iff_exists]

theorem Keeps.resumed {source : Source} {host : Host} {key? : Option Key} {files : State}
    {report : Report} (reported : report? ((calculating layout?).submit (m := StateM State) store
      source host key? files).1.1.inTask = some report) :
    report.resumed = (key?.bind lineages).isSome := by
  cases readable : source.text? files with
  | none =>
    obtain ⟨path, message, refused⟩ := (calculating layout?).submit_of_unreadable host key? readable
    rw [refused] at reported
    cases reported
  | some text =>
    obtain ⟨emission?, modified⟩ :=
      (calculating layout?).submit_eq_modify host key? keeps.reachable readable
    rw [modified, Store.modify, keeps.content, submitIn_kept] at reported
    cases compiles : (lineages.start host key?).session.compile text with
    | error diagnostics =>
      rw [compiles] at reported
      cases reported
    | ok compiled =>
      rw [compiles] at reported
      exact resumed_conclude _ reported

end

section

variable {State : Type} [FileSystem (StateM State)] (layout? : Option Layout)
  (operations : List (Operation State))

/-- The store of a new calculator after some operations. -/
def storeAfter : Store Calc.Session :=
  operations.foldl (calculating layout?).apply .empty

def lineagesAfter : Lineages :=
  operations.foldl Lineages.apply fun _ => none

theorem keeps_after : Keeps (storeAfter layout? operations) (lineagesAfter operations) := by
  have run {store : Store Calc.Session} {lineages : Lineages} (keeps : Keeps store lineages) :
      Keeps (operations.foldl (calculating layout?).apply store)
        (operations.foldl Lineages.apply lineages) := by
    induction operations generalizing store lineages with
    | nil => exact keeps
    | cons operation operations inductionHypothesis =>
      exact inductionHypothesis (keeps.apply layout? operation)
  exact run .empty

/-- After any operations, every key holds a state if and only if it has a lineage, which tells the
counters and the last value of the state; and the report on a submission says that its session was
gone on with if and only if a key was given under which there was a state. -/
theorem lineages_kept :
    (∀ key, ∃ state?, (storeAfter layout? operations).state? key = .ok state? ∧
      Option.Rel Lineage.Describes (lineagesAfter operations key) state?) ∧
    ∀ (source : Source) (host : Host) (key? : Option Key) (files : State) (report : Report),
      report? ((calculating layout?).submit (m := StateM State) (storeAfter layout? operations) source
        host key? files).1.1.inTask = some report →
      (report.resumed ↔ ∃ key state, key? = some key ∧
        (storeAfter layout? operations).state? key = .ok (some state)) := by
  have keeps := keeps_after layout? operations
  constructor
  · intro key
    refine ⟨_, keeps.state key, ?_⟩
    cases found : lineagesAfter operations key with
    | none => exact .none
    | some lineage => exact .some (keeps.counted found).describes
  · intro source host key? files report reported
    rw [keeps.resumed layout? reported]
    exact keeps.holds_iff key?

end

/-- A session that is moved to another key after a submission that faulted and one that was refused. -/
def moved : List (Operation Memory) :=
  let files : Memory := ⟨.text, [(.ofString "main.csx", Text.Utf8.encode "x + 1")], [], []⟩
  let submit (source : Source) (key : String) : Operation Memory :=
    .submit source ⟨[], []⟩ (some ⟨key⟩) files
  [submit (.code "var x = 2; x") "a", submit (.code "x / 0") "a", submit (.code "y") "a",
    .move ⟨"a"⟩ ⟨"b"⟩, submit (.script (.ofString "main.csx")) "b"]

theorem moved_session_kept :
    ((lineagesAfter moved ⟨"b"⟩).map fun lineage =>
      lineage.outcomes.map fun outcome => outcome.toOption.isSome) = some [true, false, true] ∧
    (∃ state, (storeAfter none moved).state? ⟨"b"⟩ = .ok (some state) ∧ state.submissions = 3) ∧
    ∃ report, report? ((calculating none).submit (m := StateM Memory) (storeAfter none moved)
      (.code "x") ⟨[], []⟩ (some ⟨"b"⟩) ⟨.text, [], [], []⟩).1.1.inTask = some report ∧ report.resumed := by
  have outcomes : ((lineagesAfter moved ⟨"b"⟩).map fun lineage =>
      lineage.outcomes.map fun outcome => outcome.toOption.isSome) = some [true, false, true] := by
    decide +kernel
  have reported : (report? ((calculating none).submit (m := StateM Memory) (storeAfter none moved)
      (.code "x") ⟨[], []⟩ (some ⟨"b"⟩) ⟨.text, [], [], []⟩).1.1.inTask).isSome := by
    decide +kernel
  obtain ⟨kept, resumed⟩ := lineages_kept none moved
  obtain ⟨state?, isState, described⟩ := kept ⟨"b"⟩
  obtain ⟨lineage, found, counted⟩ := Option.map_eq_some_iff.mp outcomes
  rw [found] at described
  cases described with
  | some describes =>
    obtain ⟨report, isReport⟩ := Option.isSome_iff_exists.mp reported
    refine ⟨outcomes, ⟨_, isState, ?_⟩, report, isReport, ?_⟩
    · rw [describes.submissions, ← List.length_map, counted]
      rfl
    · exact (resumed _ _ _ _ report isReport).mpr ⟨_, _, rfl, isState⟩

end Engine

end Colloquy

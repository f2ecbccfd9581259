import Colloquy.Proofs.Calc.Execution
import Colloquy.Proofs.Calc.Image
import Colloquy.Proofs.Engine.Poisoning

set_option autoImplicit false

/-!
The variables that a calculator lists. A name and a kind are listed once, where the session under the
key first declares them, and no two of them are listed alike. A session is only ever added to, so as
long as it stays under its key, what was listed of it stays in front of what is listed later.
-/

namespace Colloquy

namespace Calc

/-- How a variable is listed. -/
def Binding.shown (binding : Binding) : String :=
  binding.kind.name ++ " " ++ binding.name

/-- A list of the variables of a session. -/
structure Session.Lists (session : Session) (listed : List String) : Prop where
  nodup : listed.Nodup
  shown : ∀ entry ∈ listed, ∃ binding ∈ session.bindings, binding.shown = entry
  mem_iff : ∀ (kind : Kind) (name : String), kind.name ++ " " ++ name ∈ listed ↔
    ∃ binding ∈ session.bindings, binding.kind = kind ∧ binding.name = name
  /-- What is declared first is listed first. -/
  ordered : listed.Pairwise fun first second =>
    (session.bindings.map Binding.shown).idxOf first <
      (session.bindings.map Binding.shown).idxOf second

/-- Names of kinds have no blank in them, so the first one stands behind the kind. -/
theorem shown_inj {kind other : Kind} {name otherName : String}
    (same : kind.name ++ " " ++ name = other.name ++ " " ++ otherName) :
    kind = other ∧ name = otherName := by
  have front (kind : Kind) (name : String) :
      (kind.name ++ " " ++ name).toList.takeWhile (· ≠ ' ') = kind.name.toList := by
    cases kind <;> simp [Kind.name]
  have sameKind : kind.name.toList = other.name.toList := by
    rw [← front kind name, same, front]
  obtain rfl := Kind.name_inj (String.toList_inj.mp sameKind)
  refine ⟨rfl, ?_⟩
  simpa using same

theorem Session.lists_firstOfKey (session : Session) :
    session.Lists (firstOfKey id (session.bindings.map Binding.shown)) where
  nodup := nodup_firstOfKey_id _
  shown entry among := List.mem_map.mp (mem_firstOfKey_id.mp among)
  mem_iff kind name := by
    rw [mem_firstOfKey_id, List.mem_map]
    constructor
    · rintro ⟨binding, among, same⟩
      exact ⟨binding, among, shown_inj same⟩
    · rintro ⟨binding, among, rfl, rfl⟩
      exact ⟨binding, among, rfl⟩
  ordered := pairwise_firstOfKey_id _

end Calc

/-- The session under a key, if there is one, stays there, and gets new variables only behind those
that it has. -/
def Store.Grows (store later : Store Calc.Session) (key : Key) : Prop :=
  ∀ state, store.state? key = .ok (some state) → ∃ next,
    later.state? key = .ok (some next) ∧ state.session.bindings <+: next.session.bindings

namespace Store.Grows

variable {store middle later : Store Calc.Session} {key : Key}

theorem of_same (same : later.state? key = store.state? key) : store.Grows later key :=
  fun state held => ⟨state, same.trans held, List.prefix_rfl⟩

theorem refl : store.Grows store key :=
  of_same rfl

theorem trans (first : store.Grows middle key) (second : middle.Grows later key) :
    store.Grows later key := by
  intro state held
  obtain ⟨between, isBetween, front⟩ := first state held
  obtain ⟨next, isNext, behind⟩ := second between isBetween
  exact ⟨next, isNext, front.trans behind⟩

theorem erase {erased : Key} (differs : key ≠ erased) : store.Grows (store.erase erased) key :=
  of_same (by rw [state?_erase, if_neg differs])

theorem slot (opened : Key) : store.Grows (store.slot opened).2 key :=
  of_same (state?_slot store opened key)

/-- What is done to the slot of a key matters for no other key. -/
theorem modify {α : Type} (opened : Key)
    (change : SlotContent Calc.Session → α × SlotContent Calc.Session)
    (left : key = opened → ∀ state, store.state? key = .ok (some state) → ∃ next,
      (change (.holding (some state))).2 = .holding (some next) ∧
        state.session.bindings <+: next.session.bindings) :
    store.Grows (store.modify opened change).2 key := by
  intro state held
  by_cases isOpened : key = opened
  · obtain ⟨next, isLeft, front⟩ := left isOpened state held
    subst isOpened
    refine ⟨next, ?_, front⟩
    rw [← content_of_state? held] at isLeft
    rw [state?_modify change isLeft, if_pos rfl]
  · refine ⟨state, ?_, List.prefix_rfl⟩
    rw [Store.state?, find?_modify_of_ne store opened change isOpened]
    exact held

theorem put (reachable : store.Reachable) {replaced : Key} (differs : key ≠ replaced)
    (state : SessionState Calc.Session) : store.Grows (store.put replaced state).2 key := by
  rw [reachable.put_eq]
  exact modify replaced _ fun isReplaced => absurd isReplaced differs

theorem take (reachable : store.Reachable) {taken : Key} (differs : key ≠ taken) :
    store.Grows (store.take taken).2 key := by
  rw [reachable.take_eq_modify]
  exact modify taken _ fun isTaken => absurd isTaken differs

theorem advance (reachable : store.Reachable) (advanced : Key) (lastValue : Option Value) :
    store.Grows (store.advance advanced lastValue).2 key := by
  rw [reachable.advance_eq_modify]
  exact modify advanced _ fun _ state _ => ⟨_, rfl, List.prefix_rfl⟩

end Store.Grows

namespace Engine

section

variable (layout? : Option Layout) (text : String) (host : Host)
  (emission? : Calc.Compiled → Option (Except ArtifactFailure ArtifactPaths))
  (state : SessionState Calc.Session)

/-- A submission to a session leaves it longer, or as it was. -/
theorem submitIn_resumed (key : Key) : ∃ next,
    ((calculating layout?).submitIn text host (some key) emission? (.holding (some state))).2 =
        .holding (some next) ∧
      state.session.bindings <+: next.session.bindings := by
  have resumes : (calculating layout?).startIn host true (.holding (some state)) =
      (.ok (state, true), .holding none) := rfl
  simp only [submitIn, prepareIn, Option.isSome_some, resumes]
  cases (calculating layout?).backend.compile state.session text with
  | error diagnostics => exact ⟨state, rfl, List.prefix_rfl⟩
  | ok compiled =>
    have front := state.session.bindings_prefix_execute compiled
    simp only [finishIn, calculating, Calc.backend]
    generalize state.session.execute compiled = executed at front
    obtain ⟨session, fault | value⟩ := executed
    · exact ⟨_, rfl, front⟩
    · exact ⟨_, rfl, front⟩

/-- A submission without a key leaves the session of the default key alone if it is refused. -/
theorem submitIn_refused
    (refused : ∀ compiled, (Calc.Session.ofHost host).compile text ≠ .ok compiled) :
    ((calculating layout?).submitIn text host none emission? (.holding (some state))).2 =
      .holding (some state) := by
  have starts : (calculating layout?).startIn host false (.holding (some state)) =
      (.ok (.ofSession (.ofHost host), false), .holding (some state)) := rfl
  have compiles : (calculating layout?).backend.compile (Calc.Session.ofHost host) text =
      (Calc.Session.ofHost host).compile text := rfl
  simp only [submitIn, prepareIn, Option.isSome_none, starts, SessionState.ofSession, compiles]
  cases answer : (Calc.Session.ofHost host).compile text with
  | error diagnostics => rfl
  | ok compiled => exact (refused compiled answer).elim

end

section

variable (layout? : Option Layout) {store : Store Calc.Session} (reachable : store.Reachable)
  (key : Key)

theorem grows_submitIn (text : String) (host : Host) (key? : Option Key)
    (emission? : Calc.Compiled → Option (Except ArtifactFailure ArtifactPaths))
    (kept : key? = none → key = .default →
      ∀ compiled, (Calc.Session.ofHost host).compile text ≠ .ok compiled) :
    store.Grows (store.modify (slotKey key?)
      ((calculating layout?).submitIn text host key? emission?)).2 key := by
  apply Store.Grows.modify
  intro isKey state _
  rcases key? with _ | other
  · have refused := kept rfl isKey
    exact ⟨state, submitIn_refused layout? text host emission? state refused, List.prefix_rfl⟩
  · exact submitIn_resumed layout? text host emission? state other

include reachable

theorem grows_executeCode (text : String) (host : Host) (other : Key) :
    store.Grows ((calculating layout?).executeCode store text host (some other)).2 key := by
  rw [executeCode_eq_modify _ _ _ _ reachable]
  exact grows_submitIn layout? key text host (some other) _ nofun

theorem grows_runLines (settings : Prompt.Settings) (lines : List (List UInt8)) :
    store.Grows (Prompt.runLines (calculating layout?) settings store lines).store key := by
  induction lines generalizing store with
  | nil => exact .refl
  | cons line lines inductionHypothesis =>
    rw [Prompt.runLines, Prompt.turn]
    cases Text.Utf8.decode? line with
    | none => exact .refl
    | some input =>
      dsimp only
      cases Command.parse input with
      | quit => exact .refl
      | empty | listVariables | unknown => exact inductionHypothesis reachable
      | submit code =>
        have executed := grows_executeCode layout? reachable key code settings.host settings.key
        have laterReachable := ((calculating layout?).marks_executeCode reachable code settings.host
          (some settings.key)).reachable
        rw [Prompt.reply]
        generalize (calculating layout?).executeCode store code settings.host (some settings.key) =
          completed at executed laterReachable ⊢
        obtain ⟨result | _, later⟩ := completed
        · exact executed.trans (inductionHypothesis laterReachable)
        · exact executed

end

section

variable {State : Type} [FileSystem (StateM State)]

theorem listVariables_of_state (layout? : Option Layout) {store : Store Calc.Session} {key : Key}
    {state : SessionState Calc.Session} (held : store.state? key = .ok (some state)) :
    (calculating layout?).listVariables store key =
      firstOfKey id (state.session.bindings.map Calc.Binding.shown) := by
  have declared : (state.session.declared.map Variable.render) =
      state.session.bindings.map Calc.Binding.shown := by
    rw [Calc.Session.declared, List.map_map]
    rfl
  rw [listVariables, held, ← declared]
  rfl

theorem listVariables_of_empty (layout? : Option Layout) {store : Store Calc.Session} {key : Key}
    (empty : ¬∃ state, store.state? key = .ok (some state)) :
    (calculating layout?).listVariables store key = [] := by
  rw [listVariables]
  split
  case h_1 state held => exact (empty ⟨state, held⟩).elim
  · rfl

/-- The acts that take the session from under a key, or put another one in its place. A submission
without a key does so to the default key, if it compiles in a new session. -/
inductive Displaces (store : Store Calc.Session) (key : Key) : Act Calc.Session State → Prop
  | restart {source : Source} {host : Host} {files : State} {text : String}
      {compiled : Calc.Compiled} : key = .default → source.text? files = some text →
      (Calc.Session.ofHost host).compile text = .ok compiled →
      Displaces store key (.engine (.submit source host none files))
  | remove : Displaces store key (.engine (.remove key))
  | put (host : Host) : Displaces store key (.engine (.put host key))
  | moveAway (target : Key) : Displaces store key (.engine (.move key target))
  | moveHere {source : Key} {state : SessionState Calc.Session} :
      store.state? source = .ok (some state) → Displaces store key (.engine (.move source key))
  | removeState : Displaces store key (.store (.remove key))
  | putState (state : SessionState Calc.Session) : Displaces store key (.store (.put key state))
  | takeState : Displaces store key (.store (.take key))

/-- A run in which the session under a key stays where it is. -/
def Undisturbed (layout? : Option Layout) (key : Key) :
    Store Calc.Session → List (Act Calc.Session State) → Prop
  | _, [] => True
  | store, act :: acts =>
    ((∃ state, store.state? key = .ok (some state)) → ¬Displaces store key act) ∧
      Undisturbed layout? key ((calculating layout?).perform store act) acts

variable (layout? : Option Layout) {store : Store Calc.Session} (reachable : store.Reachable)
  (key : Key)
include reachable

theorem grows_submit (source : Source) (host : Host) (key? : Option Key) (files : State)
    (kept : ¬Displaces store key (.engine (.submit source host key? files))) :
    store.Grows ((calculating layout?).submit (m := StateM State) store source host key? files).1.2
      key := by
  cases readable : source.text? files with
  | none =>
    obtain ⟨path, message, unchanged⟩ := (calculating layout?).submit_of_unreadable host key? readable
    rw [unchanged]
    exact .refl
  | some text =>
    obtain ⟨emission?, modified⟩ :=
      (calculating layout?).submit_eq_modify host key? reachable readable
    rw [modified]
    refine grows_submitIn layout? key text host key? emission? ?_
    rintro rfl isDefault compiled compiles
    exact kept (.restart isDefault readable compiles)

theorem grows_perform {act : Act Calc.Session State} (kept : ¬Displaces store key act) :
    store.Grows ((calculating layout?).perform store act) key := by
  cases act with
  | engine operation =>
    cases operation with
    | submit source host key? files =>
      exact grows_submit layout? reachable key source host key? files kept
    | prompt settings input => exact grows_runLines layout? reachable key settings _
    | listVariables => exact .refl
    | slot opened => exact .slot opened
    | remove removed =>
      refine .erase ?_
      rintro rfl
      exact kept .remove
    | put host replaced =>
      refine .put reachable ?_ (.ofSession (.ofHost host))
      rintro rfl
      exact kept (.put host)
    | move source target =>
      have erased : store.Grows (store.erase source) key := by
        refine .erase ?_
        rintro rfl
        exact kept (.moveAway target)
      rw [perform, apply, Store.remove]
      cases held : store.state? source with
      | error e => exact erased
      | ok state? =>
        rcases state? with _ | state
        · exact erased
        · refine erased.trans (.put (reachable.erase source) ?_ state)
          rintro rfl
          exact kept (.moveHere held)
  | store operation =>
    cases operation with
    | state | contains | keys | count => exact .refl
    | slot opened => exact .slot opened
    | remove removed =>
      refine .erase ?_
      rintro rfl
      exact kept .removeState
    | put replaced state =>
      refine .put reachable ?_ state
      rintro rfl
      exact kept (.putState state)
    | take taken =>
      refine .take reachable ?_
      rintro rfl
      exact kept .takeState
    | advance advanced lastValue => exact .advance reachable advanced lastValue

theorem grows_performAll {acts : List (Act Calc.Session State)}
    (undisturbed : Undisturbed layout? key store acts) :
    store.Grows ((calculating layout?).performAll store acts) key := by
  induction acts generalizing store with
  | nil => exact .refl
  | cons act acts inductionHypothesis =>
    obtain ⟨kept, undisturbed⟩ := undisturbed
    have laterReachable := ((calculating layout?).marks_perform reachable act).reachable
    have grows := inductionHypothesis laterReachable undisturbed
    intro state held
    exact (grows_perform layout? reachable key (kept ⟨state, held⟩)).trans grows state held

/-- On a calculator, a list of variables has every variable of the session under the key once and in
the order of first declaration, and it is empty without a session. Whatever is done while the session
stays under its key, the list gets no more than new entries behind the old ones. -/
theorem listVariables_stable :
    (∀ state, store.state? key = .ok (some state) →
      state.session.Lists ((calculating layout?).listVariables store key)) ∧
    ((¬∃ state, store.state? key = .ok (some state)) →
      (calculating layout?).listVariables store key = []) ∧
    ∀ acts : List (Act Calc.Session State), Undisturbed layout? key store acts →
      (calculating layout?).listVariables store key <+:
        (calculating layout?).listVariables ((calculating layout?).performAll store acts) key := by
  refine ⟨fun state held => ?_, listVariables_of_empty layout?, fun acts undisturbed => ?_⟩
  · rw [listVariables_of_state layout? held]
    exact state.session.lists_firstOfKey
  · by_cases holds : ∃ state, store.state? key = .ok (some state)
    · obtain ⟨state, held⟩ := holds
      obtain ⟨next, heldLater, front⟩ := grows_performAll layout? reachable key undisturbed state held
      rw [listVariables_of_state layout? held, listVariables_of_state layout? heldLater]
      exact firstOfKey_id_prefix (front.map Calc.Binding.shown)
    · rw [listVariables_of_empty layout? holds]
      exact List.nil_prefix

end

/-- One name, declared three times under the default key. -/
def declaring : List (Act Calc.Session Memory) :=
  [.engine (.submit (.code "var b = 1; var b = \"\"; var b = 2") ⟨[], []⟩
    (some .default) ⟨.text, [], [], []⟩)]

/-- A submission that faults, two that are refused, the second one without a key, and a prompt. -/
def staying : List (Act Calc.Session Memory) :=
  let submit (text : String) (key? : Option Key) : Act Calc.Session Memory :=
    .engine (.submit (.code text) ⟨[], []⟩ key? ⟨.text, [], [], []⟩)
  [submit "var c = true; 1 / 0" (some .default), submit "missing" (some .default),
    submit "missing" none,
    .engine (.prompt ⟨.default, ⟨[], []⟩⟩ (Text.Utf8.encode ":vars\nvar e = c\n"))]

theorem undisturbed_staying :
    Undisturbed none .default ((calculating none).performAll .empty declaring) staying := by
  refine ⟨fun _ => nofun, fun _ => nofun, fun _ displaces => ?_, fun _ => nofun, trivial⟩
  cases displaces with
  | restart _ readable compiles =>
    cases readable
    have refused : ((Calc.Session.ofHost ⟨[], []⟩).compile "missing").toOption.isNone = true := by
      decide +kernel
    rw [compiles] at refused
    cases refused

theorem listed_behind_declared :
    let store := (calculating none).performAll .empty declaring
    (calculating none).listVariables store .default = ["int b", "string b"] ∧
      Undisturbed none .default store staying ∧
      (calculating none).listVariables ((calculating none).performAll store staying) .default =
        ["int b", "string b", "bool c", "bool e"] ∧
      (calculating none).listVariables store .default <+:
        (calculating none).listVariables ((calculating none).performAll store staying) .default := by
  intro store
  have reachable : store.Reachable := (calculating none).reachable_performAll .empty declaring
  have listed := (listVariables_stable none reachable .default).2.2 staying undisturbed_staying
  exact ⟨by decide +kernel, undisturbed_staying, by decide +kernel, listed⟩

end Engine

end Colloquy

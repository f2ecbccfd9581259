import Colloquy.Proofs.Engine.Refusal

set_option autoImplicit false

/-!
Submissions as operations on one slot. What a submission answers and what it leaves in the slot of its
key depends on nothing but what the slot holds, and no other slot is touched.
-/

namespace Colloquy

/-- The text that is submitted, if the files that it needs can be read. -/
def Source.text? {State : Type} [FileSystem (StateM State)] (files : State) : Source → Option String
  | .code text => some text
  | .script path =>
    let located := FileSystem.workingDirectory (m := StateM State) path files
    match (expandScript (m := StateM State) path located.2).1 with
    | .ok expansion => some expansion.code
    | .error _ => none

namespace Engine

variable {σ υ φ : Type}

/-- The state that a submission runs in, and what is left in the slot. -/
def startIn (engine : Engine σ υ φ) (host : Host) (resumes : Bool) :
    SlotContent σ → Except (ScriptError φ) (SessionState σ × Bool) × SlotContent σ
  | .poisoned => (.error .lockPoisoned, .poisoned)
  | .holding state? =>
    match if resumes then state? else none with
    | some state => (.ok (state, true), .holding none)
    | none => ((engine.freshState host).map fun state => (state, false), .holding state?)

def prepareIn (engine : Engine σ υ φ) (text : String) (host : Host) (resumes : Bool)
    (content : SlotContent σ) : Except (ScriptError φ) (Prepared σ υ) × SlotContent σ :=
  match engine.startIn host resumes content with
  | (.error e, left) => (.error e, left)
  | (.ok (state, resumed), left) =>
    match engine.backend.compile state.session text with
    | .ok compiled => (.ok ⟨state, resumed, compiled⟩, left)
    | .error diagnostics =>
      (.error (.compilation diagnostics), if resumed then .holding (some state) else left)

/-- Runs a prepared submission, and says what is left in its slot. -/
def finishIn (engine : Engine σ υ φ) (key : Key) (prepared : Prepared σ υ)
    (emission? : Option (Except ArtifactFailure ArtifactPaths)) : Completion φ × SlotContent σ :=
  match engine.backend.execute prepared.state.session prepared.compiled with
  | (_, .crash) => (.brokeOff, .poisoned)
  | (session, .fault fault) =>
    (.returned (engine.conclude key prepared emission? (.error fault)),
      .holding (some (SessionState.advance { prepared.state with session } none)))
  | (session, .value value) =>
    (.returned (engine.conclude key prepared emission? (.ok value)),
      .holding (some (SessionState.advance { prepared.state with session } (some value))))

/-- A submission in a slot, given what becomes of its artifacts. -/
def submitIn (engine : Engine σ υ φ) (text : String) (host : Host) (key? : Option Key)
    (emission? : υ → Option (Except ArtifactFailure ArtifactPaths)) (content : SlotContent σ) :
    Completion φ × SlotContent σ :=
  match engine.prepareIn text host key?.isSome content with
  | (.error e, content) => (.returned (.error e), content)
  | (.ok prepared, _) => engine.finishIn (slotKey key?) prepared (emission? prepared.compiled)

section

variable (engine : Engine σ υ φ) {store : Store σ} (text : String) (host : Host) (key? : Option Key)

theorem start_eq_modify (reachable : store.Reachable) :
    engine.start store host key? =
      store.modify (slotKey key?) (engine.startIn host key?.isSome) := by
  have unchanged : (store.slot (slotKey key?)).2.fill (slotKey key?)
      (store.slot (slotKey key?)).1.content = (store.slot (slotKey key?)).2 :=
    Store.fill_content (reachable.slot _).nodup (Store.find?_slot store _)
  unfold start Store.modify
  rw [Store.take_eq]
  generalize store.slot (slotKey key?) = opened at unchanged ⊢
  obtain ⟨⟨number, content⟩, opened⟩ := opened
  cases content with
  | poisoned => cases key? <;> simp only [startIn, unchanged]
  | holding state? =>
    rcases key? with _ | key
    · simp [startIn, Store.fill_fill]
    · rcases state? with _ | state
      · simp [startIn, Store.fill_fill]
      · simp [startIn]

theorem prepare_eq_modify (reachable : store.Reachable) :
    engine.prepare store text host key? =
      store.modify (slotKey key?) (engine.prepareIn text host key?.isSome) := by
  unfold prepare prepareIn
  rw [start_eq_modify _ _ _ reachable, Store.modify, Store.modify]
  obtain ⟨slot, opened⟩ := store.slot (slotKey key?)
  dsimp only
  rcases engine.startIn host key?.isSome slot.content with ⟨_ | ⟨state, resumed⟩, left⟩
  · rfl
  · dsimp only
    cases engine.backend.compile state.session text with
    | ok compiled => rfl
    | error diagnostics =>
      cases resumed with
      | false => rfl
      | true => simp [Store.fill_fill]

theorem finish_eq_fill (key : Key) (prepared : Prepared σ υ)
    (emission? : Option (Except ArtifactFailure ArtifactPaths)) :
    engine.finish store key prepared emission? =
      ((engine.finishIn key prepared emission?).1,
        store.fill key (engine.finishIn key prepared emission?).2) := by
  unfold finish finishIn
  rcases engine.backend.execute prepared.state.session prepared.compiled with ⟨session, _ | _ | _⟩ <;>
    rfl

/-- What is prepared in a slot is also finished there. -/
theorem finish_prepared (reachable : store.Reachable)
    (emission? : υ → Option (Except ArtifactFailure ArtifactPaths)) :
    (match engine.prepare store text host key? with
      | (.error e, store) => (.returned (.error e), store)
      | (.ok prepared, store) =>
        engine.finish store (slotKey key?) prepared (emission? prepared.compiled)) =
      store.modify (slotKey key?) (engine.submitIn text host key? emission?) := by
  unfold submitIn
  rw [prepare_eq_modify _ _ _ _ reachable, Store.modify, Store.modify]
  obtain ⟨slot, opened⟩ := store.slot (slotKey key?)
  dsimp only
  rcases engine.prepareIn text host key?.isSome slot.content with ⟨_ | prepared, left⟩
  · rfl
  · dsimp only
    rw [finish_eq_fill, Store.fill_fill]

theorem executeCode_eq_modify (reachable : store.Reachable) :
    engine.executeCode store text host key? =
      store.modify (slotKey key?) (engine.submitIn text host key? fun _ => none) :=
  engine.finish_prepared text host key? reachable fun _ => none

variable {State : Type} [FileSystem (StateM State)] {source : Source} {files : State}

theorem submit_of_unreadable (unreadable : source.text? files = none) :
    ∃ path message, (engine.submit (m := StateM State) store source host key? files).1 =
      (.returned (.error (.preprocess path message)), store) := by
  cases source with
  | code text => cases unreadable
  | script path =>
    change ∃ path message, (engine.execute (m := StateM State) store _ host key? files).1 = _
    rw [execute_run]
    dsimp only [Source.text?] at unreadable ⊢
    generalize FileSystem.workingDirectory (m := StateM State) path files = located at unreadable ⊢
    generalize expandScript (m := StateM State) path located.2 = expanded at unreadable ⊢
    rcases expanded with ⟨e | expansion, later⟩
    · exact ⟨e.path, e.message, rfl⟩
    · cases unreadable

theorem submit_eq_modify (reachable : store.Reachable) {text : String}
    (readable : source.text? files = some text) :
    ∃ emission?, (engine.submit (m := StateM State) store source host key? files).1 =
      store.modify (slotKey key?) (engine.submitIn text host key? emission?) := by
  cases source with
  | code =>
    cases readable
    exact ⟨_, engine.executeCode_eq_modify text host key? reachable⟩
  | script path =>
    change ∃ emission?, (engine.execute (m := StateM State) store path host key? files).1 = _
    rw [execute_run]
    dsimp only [Source.text?] at readable ⊢
    generalize FileSystem.workingDirectory (m := StateM State) path files = located at readable ⊢
    generalize expandScript (m := StateM State) path located.2 = expanded at readable ⊢
    rcases expanded with ⟨e | expansion, later⟩
    · cases readable
    · cases readable
      let emission? (compiled : υ) :=
        (engine.emitArtifacts (m := StateM State) located.1 path compiled later).1
      refine ⟨emission?, ?_⟩
      rw [← engine.finish_prepared expansion.code host key? reachable emission?]
      dsimp only
      rcases engine.prepare store expansion.code host key? with ⟨_ | prepared, after⟩ <;> rfl

end

end Engine

end Colloquy

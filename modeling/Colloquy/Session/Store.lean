import Colloquy.Session.Key
import Colloquy.Value

/-!
The store of sessions. It gives each key a slot, which is made when the key is first used and holds
the state of the session, or nothing. A slot in which an execution broke off is poisoned: nothing
can be done with it but to remove it.
-/

set_option autoImplicit false

namespace Colloquy

/-- What is kept of a session between submissions. The times of its creation and of its latest
activity are left out: nothing that is decided here depends on a clock. -/
structure SessionState (σ : Type) where
  session : σ
  /-- The value of the latest submission, if it completed. -/
  lastValue : Option Value
  /-- The number of submissions so far. They are made one at a time, so 64 bits would do for every
  run that can be carried out: it would take 2^64 submissions to overflow them. -/
  submissions : Nat

namespace SessionState

variable {σ : Type}

def ofSession (session : σ) : SessionState σ :=
  ⟨session, none, 0⟩

/-- The state after another submission. -/
def advance (state : SessionState σ) (lastValue : Option Value) : SessionState σ :=
  ⟨state.session, lastValue, state.submissions + 1⟩

end SessionState

inductive SlotContent (σ : Type) where
  | holding (state? : Option (SessionState σ))
  | poisoned

/-- A slot; the number tells it from all other slots of a store, also from those removed. -/
structure Slot (σ : Type) where
  number : Nat
  content : SlotContent σ

/-- The answer to a request for a poisoned slot. -/
inductive Poisoned where
  | poisoned
  deriving DecidableEq, Repr

def Slot.read {σ : Type} (slot : Slot σ) : Except Poisoned (Option (SessionState σ)) :=
  match slot.content with
  | .holding state? => .ok state?
  | .poisoned => .error .poisoned

structure Store (σ : Type) where
  slots : List (Key × Slot σ)
  /-- The number of the next slot. -/
  nextNumber : Nat

namespace Store

variable {σ : Type}

def empty : Store σ :=
  ⟨[], 0⟩

def find? (store : Store σ) (key : Key) : Option (Slot σ) :=
  store.slots.lookup key

def erase (store : Store σ) (key : Key) : Store σ :=
  { store with slots := store.slots.filter fun entry => entry.1 ≠ key }

/-- The slot of a key, made if it is missing. -/
def slot (store : Store σ) (key : Key) : Slot σ × Store σ :=
  match store.find? key with
  | some slot => (slot, store)
  | none =>
    let slot : Slot σ := ⟨store.nextNumber, .holding none⟩
    (slot, ⟨(key, slot) :: store.slots, store.nextNumber + 1⟩)

/-- Changes what the slot of a key holds. -/
def fill (store : Store σ) (key : Key) (content : SlotContent σ) : Store σ :=
  { store with slots := store.slots.map fun entry =>
      if entry.1 = key then (key, ⟨entry.2.number, content⟩) else entry }

/-- Opens the slot of a key, made if it is missing. -/
def access (store : Store σ) (key : Key) :
    Except Poisoned (Option (SessionState σ)) × Store σ :=
  let (slot, store) := store.slot key
  (slot.read, store)

/-- The state under a key; no slot is made. -/
def state? (store : Store σ) (key : Key) : Except Poisoned (Option (SessionState σ)) :=
  match store.find? key with
  | none => .ok none
  | some slot => slot.read

def contains (store : Store σ) (key : Key) : Except Poisoned Bool := do
  let state? ← store.state? key
  return state?.isSome

/-- Stores a state, and gives the one it replaces. -/
def put (store : Store σ) (key : Key) (state : SessionState σ) :
    Except Poisoned (Option (SessionState σ)) × Store σ :=
  match store.access key with
  | (.error e, store) => (.error e, store)
  | (.ok replaced, store) => (.ok replaced, store.fill key (.holding (some state)))

/-- Takes the state out of a slot, which stays. -/
def take (store : Store σ) (key : Key) :
    Except Poisoned (Option (SessionState σ)) × Store σ :=
  match store.access key with
  | (.error e, store) => (.error e, store)
  | (.ok taken, store) => (.ok taken, store.fill key (.holding none))

/-- Advances the state in a slot, if there is one. -/
def advance (store : Store σ) (key : Key) (lastValue : Option Value) :
    Except Poisoned (Option (SessionState σ)) × Store σ :=
  match store.access key with
  | (.error e, store) => (.error e, store)
  | (.ok state?, store) =>
    let advanced := state?.map fun state => state.advance lastValue
    (.ok advanced, store.fill key (.holding advanced))

/-- Removes the slot of a key, and gives the state it held. A poisoned slot is removed too. -/
def remove (store : Store σ) (key : Key) :
    Except Poisoned (Option (SessionState σ)) × Store σ :=
  (store.state? key, store.erase key)

/-- The keys that have a state, which cannot be told if any slot is poisoned. -/
def keys (store : Store σ) : Except Poisoned (List Key) := do
  let entries ← store.slots.mapM fun entry => do
    let state? ← entry.2.read
    return (entry.1, state?.isSome)
  return (entries.filter Prod.snd).map Prod.fst

def count (store : Store σ) : Nat :=
  match store.keys with
  | .ok keys => keys.length
  | .error _ => 0

end Store

end Colloquy

import Colloquy.Value

/-!
What a host gives to a session: arguments, and packs of named values.
-/

set_option autoImplicit false

namespace Colloquy

/-- The items of a list whose key no earlier item has. -/
def firstOfKey {α β : Type} [DecidableEq β] (key : α → β) : List α → List α
  | [] => []
  | a :: rest => a :: (firstOfKey key rest).filter fun b => key b ≠ key a

/-- A named bundle of values that scripts can read by name. -/
structure Pack where
  name : String
  globals : List (String × Value)

/-- A host context. Of several packs with one name only the first is active. -/
structure Host where
  args : List String
  packs : List Pack

namespace Host

def ofPacks (args : List String) (packs : List Pack) : Host :=
  ⟨args, firstOfKey Pack.name packs⟩

def packNames (host : Host) : List String :=
  host.packs.map Pack.name

def require? (host : Host) (name : String) : Option Pack :=
  host.packs.find? fun pack => pack.name = name

/-- The values of all active packs; the first pack that defines a name decides it. -/
def globals (host : Host) : List (String × Value) :=
  firstOfKey Prod.fst (host.packs.flatMap Pack.globals)

def showList (texts : List String) : String :=
  "[" ++ String.intercalate ", " (texts.map Text.quoted) ++ "]"

/-- A one-line summary for logs. -/
def summary (host : Host) : String :=
  "ScriptHostContext \x7b args: " ++ showList host.args ++ ", packs: " ++
    showList host.packNames ++ " \x7d"

end Host

end Colloquy

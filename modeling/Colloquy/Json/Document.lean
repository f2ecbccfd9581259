import Colloquy.Json.Token

/-!
Documents as they are found in a text, whether it is right or not: where the text breaks off, the
document says so. A reader that goes through a document in order therefore meets the first fault
first.
-/

set_option autoImplicit false

namespace Colloquy.Json

/-- A name in an object, with both verdicts on it. -/
structure Label where
  value : Except ReadError String
  passed : Except ReadError Unit

/-- What stands in the place of a name that is missing. -/
def Label.missing (e : ReadError) : Label :=
  ⟨.error e, .error e⟩

inductive Node where
  | atom (value : Except ReadError Atom) (passed : Except ReadError Unit)
  | string (value : Except ReadError String) (passed : Except ReadError Unit)
  /-- The items of a list, and what stands in the place of its end, if anything. -/
  | list (items : List Node) (break? : Option ReadError)
  | object (members : List (Label × Node)) (break? : Option ReadError)
  /-- No value stands where one should. -/
  | missing (e : ReadError)

/-- A list or an object that is not closed yet, its parts in reverse. -/
inductive Frame where
  | list (items : List Node)
  /-- The value of the label is still to come. -/
  | object (members : List (Label × Node)) (label : Label)

/-- What is expected next. -/
inductive Spot where
  | value
  /-- The first item of the list that was just opened, or its end. -/
  | firstItem
  | afterItem (items : List Node)
  /-- A label; if it would be the first one, the object may end instead. -/
  | label (members : List (Label × Node)) (first : Bool)
  | colon (members : List (Label × Node)) (label : Label)
  | afterMember (members : List (Label × Node))

/-- The part of a text that it breaks off in. A comma promises another item or name, so behind one
these are missing. -/
def Spot.broken (e : ReadError) : Spot → Node
  | .value | .firstItem => .missing e
  | .afterItem items => .list items.reverse (some e)
  | .label members _ => .object ((.missing e, .missing e) :: members).reverse (some e)
  | .colon members last => .object ((last, .missing e) :: members).reverse (some e)
  | .afterMember members => .object members.reverse (some e)

/-- The document of a text that breaks off inside of open frames. -/
def abandon (e : ReadError) (node : Node) : List Frame → Node
  | [] => node
  | .list items :: outer => abandon e (.list (node :: items).reverse (some e)) outer
  | .object members label :: outer =>
    abandon e (.object ((label, node) :: members).reverse (some e)) outer

/-- What a token does: it completes a value inside of frames, leads to another spot, or is wrong. -/
inductive Move where
  | complete (node : Node) (frames : List Frame)
  | go (spot : Spot) (frames : List Frame)
  | wrong

def moveValue (frames : List Frame) : Token → Move
  | .atom value passed => .complete (.atom value passed) frames
  | .string value passed => .complete (.string value passed) frames
  | .openList => .go .firstItem (.list [] :: frames)
  | .openObject => .go (.label [] true) frames
  | _ => .wrong

def move (frames : List Frame) : Spot → Token → Move
  | .value, token => moveValue frames token
  | .firstItem, .closeList => .complete (.list [] none) frames.tail
  | .firstItem, token => moveValue frames token
  | .afterItem items, .comma => .go .value (.list items :: frames)
  | .afterItem items, .closeList => .complete (.list items.reverse none) frames
  | .label members _, .string value passed => .go (.colon members ⟨value, passed⟩) frames
  | .label members true, .closeObject => .complete (.object members.reverse none) frames
  | .colon members label, .colon => .go .value (.object members label :: frames)
  | .afterMember members, .comma => .go (.label members false) frames
  | .afterMember members, .closeObject => .complete (.object members.reverse none) frames
  | _, _ => .wrong

/-- Builds the document that goes on at a spot inside of open frames, and gives the tokens behind
it. -/
def build (spot : Spot) (frames : List Frame) : List Token → Node × List Token
  | [] => (abandon .ended (spot.broken .ended) frames, [])
  | token :: rest =>
    match move frames spot token with
    | .wrong => (abandon .malformed (spot.broken .malformed) frames, rest)
    | .go spot frames => build spot frames rest
    | .complete node [] => (node, rest)
    | .complete node (.list items :: outer) => build (.afterItem (node :: items)) outer rest
    | .complete node (.object members label :: outer) =>
      build (.afterMember ((label, node) :: members)) outer rest

/-- The document of a text and the tokens behind it. -/
def document (text : String) : Node × List Token :=
  build .value [] (tokens text)

end Colloquy.Json

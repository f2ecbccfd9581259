import Colloquy.Json.Decoder
import Colloquy.Proofs.Json.Tokens

set_option autoImplicit false

/-!
Reading what was written. The tokens of a written document build a document of the same shape, without
a fault anywhere, and nothing is left behind it. So a reader is given exactly what was written, in
either form.
-/

namespace Colloquy.Json

mutual

/-- A document as it is found where it is without faults. -/
def node : Json → Node
  | .null => .atom (.ok .null) (.ok ())
  | .bool value => .atom (.ok (.bool value)) (.ok ())
  | .int n => .atom (.ok (.int n)) (.ok ())
  | .double x => .atom (.ok (.double x)) (.ok ())
  | .string text => .string (.ok text) (.ok ())
  | .list items => .list (nodes items) none
  | .object members => .object (memberNodes members) none

def nodes : List Json → List Node
  | [] => []
  | item :: rest => node item :: nodes rest

def memberNodes : List (String × Json) → List (Label × Node)
  | [] => []
  | (name, value) :: rest => (⟨.ok name, .ok ()⟩, node value) :: memberNodes rest

end

/-- A member as it is found. -/
def memberNode (member : String × Json) : Label × Node :=
  (⟨.ok member.1, .ok ()⟩, member.2.node)

/-- Goes on behind a value inside of open frames. -/
def settle (node : Node) (rest : List Token) : List Frame → Node × List Token
  | [] => (node, rest)
  | .list items :: outer => build (.afterItem (node :: items)) outer rest
  | .object members label :: outer => build (.afterMember ((label, node) :: members)) outer rest

theorem build_of_complete {spot : Spot} {frames outer : List Frame} {token : Token} {node : Node}
    (completes : move frames spot token = .complete node outer) (rest : List Token) :
    build spot frames (token :: rest) = settle node rest outer := by
  rw [build, completes]
  rcases outer with _ | ⟨_ | _, outer⟩ <;> rfl

theorem build_of_go {spot next : Spot} {frames inner : List Frame} {token : Token}
    (goes : move frames spot token = .go next inner) (rest : List Token) :
    build spot frames (token :: rest) = build next inner rest := by
  rw [build, goes]

/-- The tokens of a document build it, wherever it stands. -/
def Builds (document : Json) : Prop :=
  ∀ frames rest, build .value frames (document.spelled ++ rest) = settle document.node rest frames

theorem spelled_start (document : Json) :
    ∃ token rest, document.spelled = token :: rest ∧
      ∀ frames, move frames .firstItem token = move frames .value token := by
  cases document with
  | list items =>
    rw [spelled_list]
    cases items <;> exact ⟨_, _, rfl, fun _ => rfl⟩
  | object members =>
    rw [spelled_object]
    cases members <;> exact ⟨_, _, rfl, fun _ => rfl⟩
  | _ => exact ⟨_, _, rfl, fun _ => rfl⟩

/-- The first item of a list is built like any value. -/
theorem build_firstItem (document : Json) (frames : List Frame) (rest : List Token) :
    build .firstItem frames (document.spelled ++ rest) =
      build .value frames (document.spelled ++ rest) := by
  obtain ⟨token, more, isSpelled, sameMove⟩ := spelled_start document
  rw [isSpelled, List.cons_append, build, build, sameMove]
  rfl

theorem build_items {items : List Json} (builds : ∀ item ∈ items, Builds item) (before : List Node)
    (frames : List Frame) (rest : List Token) :
    build (.afterItem before) frames
        (items.flatMap (.comma :: spelled ·) ++ .closeList :: rest) =
      settle (.list (before.reverse ++ nodes items) none) rest frames := by
  induction items generalizing before with
  | nil =>
    rw [nodes, List.append_nil]
    exact build_of_complete rfl rest
  | cons item items inductionHypothesis =>
    obtain ⟨here, later⟩ := List.forall_mem_cons.mp builds
    rw [List.flatMap_cons, List.append_assoc, List.cons_append, build_of_go rfl, here, settle,
      inductionHypothesis later, nodes, List.reverse_cons, List.append_assoc]
    rfl

theorem build_members {members : List (String × Json)} (builds : ∀ member ∈ members, Builds member.2)
    (before : List (Label × Node)) (frames : List Frame) (rest : List Token) :
    build (.afterMember before) frames
        (members.flatMap (.comma :: spelledMember ·) ++ .closeObject :: rest) =
      settle (.object (before.reverse ++ memberNodes members) none) rest frames := by
  induction members generalizing before with
  | nil =>
    rw [memberNodes, List.append_nil]
    exact build_of_complete rfl rest
  | cons member members inductionHypothesis =>
    obtain ⟨here, later⟩ := List.forall_mem_cons.mp builds
    rw [List.flatMap_cons, List.append_assoc, List.cons_append, build_of_go rfl, spelledMember,
      List.cons_append, List.cons_append, build_of_go rfl, build_of_go rfl, here, settle,
      inductionHypothesis later, memberNodes, List.reverse_cons, List.append_assoc]
    rfl

theorem Readable.builds {document : Json} (readable : document.Readable) : Builds document := by
  induction readable with
  | null | bool | int | string => exact fun frames rest => build_of_complete rfl rest
  | @list items _ builds =>
    intro frames rest
    rw [spelled_list]
    cases items with
    | nil => exact (build_of_go rfl _).trans (build_of_complete rfl rest)
    | cons item items =>
      obtain ⟨here, later⟩ := List.forall_mem_cons.mp builds
      rw [enclosedTokens, List.append_assoc, List.cons_append, build_of_go rfl, List.append_assoc,
        build_firstItem, here, settle]
      exact build_items later [item.node] frames rest
  | @object members _ builds =>
    intro frames rest
    rw [spelled_object]
    cases members with
    | nil => exact (build_of_go rfl _).trans (build_of_complete rfl rest)
    | cons member members =>
      obtain ⟨here, later⟩ := List.forall_mem_cons.mp builds
      rw [enclosedTokens, List.append_assoc, List.cons_append, build_of_go rfl, List.append_assoc,
        spelledMember, List.cons_append, List.cons_append, build_of_go rfl, build_of_go rfl, here,
        settle]
      exact build_members later [memberNode member] frames rest

theorem Readable.document_written {document : Json} (readable : document.Readable) {text : String}
    (isWritten : text ∈ document.written) : Json.document text = (document.node, []) := by
  have built := readable.builds [] []
  rw [List.append_nil] at built
  rw [Json.document, readable.tokens_written isWritten, built, settle]

/-- A reader of a written text is given the document as it was written. -/
theorem Readable.read_written {α : Type} {document : Json} (readable : document.Readable)
    {text : String} (isWritten : text ∈ document.written) (decode : Node → Except ReadError α) :
    read decode text = decode document.node := by
  rw [read, readable.document_written isWritten]
  dsimp only
  cases decode document.node <;> rfl

/-! Members of a written object are read one after the other. -/

theorem members_written {σ : Type} (step : σ → String → Node → Except ReadError σ)
    (members : List (String × Json)) (state : σ) :
    Decode.members step state (memberNodes members) none =
      members.foldlM (fun state member => step state member.1 member.2.node) state := by
  induction members generalizing state with
  | nil => rfl
  | cons member rest inductionHypothesis =>
    rw [memberNodes, List.foldlM_cons]
    change (step state member.1 member.2.node >>= fun state =>
      Decode.members step state (memberNodes rest) none) = _
    simp only [inductionHypothesis]

end Colloquy.Json

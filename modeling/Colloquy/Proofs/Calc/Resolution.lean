import Colloquy.Proofs.Calc.Extension

set_option autoImplicit false

/-!
What a name stands for in a session. Three orders decide it: of the packs with one name the first one
is active, of the active packs the first one that has the name supplies its value, by its first entry,
and the latest variable of that name hides it. Packs that come after others therefore add names
without taking any over.
-/

namespace Colloquy

/-- No pack before it has its name. -/
def Pack.IsActive (pack : Pack) (before : List Pack) : Prop :=
  pack.name ∉ before.map Pack.name

/-- Packs supply a name by its first entry in the first active pack that has one. -/
inductive Supplies (name : String) (value : Value) : List Pack → Prop
  | first {before after : List Pack} {pack : Pack} {front back : List (String × Value)} :
      pack.IsActive before →
      (∀ earlier other later, before = earlier ++ other :: later → other.IsActive earlier →
        ∀ entry ∈ other.globals, entry.1 ≠ name) →
      pack.globals = front ++ (name, value) :: back → (∀ entry ∈ front, entry.1 ≠ name) →
      Supplies name value (before ++ pack :: after)

theorem Supplies.append {name : String} {value : Value} {packs : List Pack}
    (supplies : Supplies name value packs) (more : List Pack) :
    Supplies name value (packs ++ more) := by
  obtain ⟨isActive, nothing, isEntry, isFirst⟩ := supplies
  rw [List.append_assoc, List.cons_append]
  exact .first isActive nothing isEntry isFirst

namespace Host

theorem lookup_globals_eq_some_iff (args : List String) (packs : List Pack) (name : String)
    (value : Value) :
    (ofPacks args packs).globals.lookup name = some value ↔ Supplies name value packs := by
  rw [globals, lookup_firstOfKey, lookup_flatMap, ofPacks, findSome?_firstOfKey_eq_some_iff]
  constructor
  · rintro ⟨before, pack, after, rfl, isActive, nothing, isFound⟩
    obtain ⟨front, back, isEntry, isFirst⟩ := List.lookup_eq_some_iff.mp isFound
    refine .first isActive ?_ isEntry fun entry among => (bne_iff_ne.mp (isFirst entry among)).symm
    intro earlier other later isBefore otherActive entry among
    have kept := mem_firstOfKey.mpr ⟨earlier, later, isBefore, otherActive⟩
    have isOther := List.lookup_eq_none_iff.mp (nothing other kept) entry among
    exact (bne_iff_ne.mp isOther).symm
  · rintro ⟨isActive, nothing, isEntry, isFirst⟩
    refine ⟨_, _, _, rfl, isActive, ?_, ?_⟩
    · intro other kept
      obtain ⟨earlier, later, isBefore, otherActive⟩ := mem_firstOfKey.mp kept
      apply List.lookup_eq_none_iff.mpr
      intro entry among
      exact bne_iff_ne.mpr (nothing earlier other later isBefore otherActive entry among).symm
    · apply List.lookup_eq_some_iff.mpr
      exact ⟨_, _, isEntry, fun entry among => bne_iff_ne.mpr (isFirst entry among).symm⟩

theorem ofPacks_append_known (args : List String) {packs : List Pack} {pack : Pack}
    (known : ∃ earlier ∈ packs, earlier.name = pack.name) :
    ofPacks args (packs ++ [pack]) = ofPacks args packs := by
  rw [ofPacks, firstOfKey_concat, if_pos (List.mem_map.mpr known), List.append_nil, ofPacks]

end Host

namespace Calc.Session

/-- No binding after it has its name. -/
def IsLatest (binding : Binding) (bindings : List Binding) : Prop :=
  ∃ older newer, bindings = older ++ binding :: newer ∧ ∀ later ∈ newer, later.name ≠ binding.name

theorem latest?_eq_some_iff {bindings : List Binding} {name : String} {value : Value} :
    latest? bindings name = some value ↔
      ∃ binding, IsLatest binding bindings ∧ binding.name = name ∧ binding.value = value := by
  rw [latest?, Option.map_eq_some_iff]
  constructor
  · rintro ⟨binding, found, rfl⟩
    obtain ⟨isNamed, newer, older, split, others⟩ := List.find?_eq_some_iff_append.mp found
    have isName := of_decide_eq_true isNamed
    refine ⟨binding, ⟨older.reverse, newer.reverse, ?_, ?_⟩, isName, rfl⟩
    · rw [← List.reverse_reverse bindings, split]
      simp
    · intro later among
      rw [isName]
      simpa using others later (List.mem_reverse.mp among)
  · rintro ⟨binding, ⟨older, newer, rfl, others⟩, rfl, rfl⟩
    refine ⟨binding, List.find?_eq_some_iff_append.mpr ⟨decide_eq_true rfl, ?_⟩, rfl⟩
    exact ⟨newer.reverse, older.reverse, by simp, by simpa using others⟩

theorem latest?_eq_none_iff {bindings : List Binding} {name : String} :
    latest? bindings name = none ↔ ∀ binding ∈ bindings, binding.name ≠ name := by
  simp [latest?]

theorem value?_eq_some_iff {session : Session} {name : String} {value : Value} :
    session.value? name = some value ↔
      (∃ binding, IsLatest binding session.bindings ∧ binding.name = name ∧ binding.value = value) ∨
        (∀ binding ∈ session.bindings, binding.name ≠ name) ∧
          session.globals.lookup name = some value := by
  rw [value?_eq_or, Option.or_eq_some_iff, latest?_eq_some_iff, latest?_eq_none_iff]

/-- The values of the host are those that the session started with. -/
theorem executeAll_globals (session : Session) (units : List Compiled) :
    (session.executeAll units).globals = session.globals := by
  induction units generalizing session with
  | nil => rfl
  | cons compiled units inductionHypothesis =>
    obtain ⟨ran, rest, added, outcome, -, -, -, isRun⟩ := session.execute_adds compiled
    have kept : (session.execute compiled).1.globals = session.globals := by rw [isRun]
    exact (inductionHypothesis (session.execute compiled).1).trans kept

/-- The session that a host with arguments and packs starts. -/
def created (args : List String) (packs : List Pack) : Session :=
  ofHost (.ofPacks args packs)

theorem created_within (args : List String) (packs more : List Pack) :
    (created args packs).Within (created args (packs ++ more)) where
  bindings := rfl
  args := rfl
  globals := by
    intro name value isValue
    apply (Host.lookup_globals_eq_some_iff args (packs ++ more) name value).mpr
    exact ((Host.lookup_globals_eq_some_iff args packs name value).mp isValue).append more

/-- After any submissions a name stands for its latest variable, and without one for what the packs
supply. More packs leave everything that stood for something as it was, for texts that compile without
them, and a pack with the name of an earlier one leaves the host as it was. No submission changes a
name that has no variable. -/
theorem names_resolve (args : List String) (packs : List Pack) :
    (∀ units name value,
      ((created args packs).executeAll units).value? name = some value ↔
        (∃ binding, IsLatest binding ((created args packs).executeAll units).bindings ∧
          binding.name = name ∧ binding.value = value) ∨
        (∀ binding ∈ ((created args packs).executeAll units).bindings, binding.name ≠ name) ∧
          Supplies name value packs) ∧
    (∀ more sources units, (created args packs).Submits sources units →
      (created args (packs ++ more)).Submits sources units ∧
        ∀ name value, ((created args packs).executeAll units).value? name = some value →
          ((created args (packs ++ more)).executeAll units).value? name = some value) ∧
    (∀ pack, (∃ earlier ∈ packs, earlier.name = pack.name) →
      Host.ofPacks args (packs ++ [pack]) = Host.ofPacks args packs) ∧
    ∀ units name,
      (∀ binding ∈ ((created args packs).executeAll units).bindings, binding.name ≠ name) →
      ((created args packs).executeAll units).value? name = (created args packs).value? name := by
  refine ⟨?_, ?_, fun pack => Host.ofPacks_append_known args, ?_⟩
  · intro units name value
    rw [value?_eq_some_iff, executeAll_globals]
    exact or_congr_right (and_congr_right fun _ =>
      Host.lookup_globals_eq_some_iff args packs name value)
  · intro more sources units submits
    obtain ⟨submitsToo, within⟩ := (created_within args packs more).submits submits
    exact ⟨submitsToo, within.environment.value?⟩
  · intro units name unshadowed
    rw [value?_eq_or, latest?_eq_none_iff.mpr unshadowed, executeAll_globals]
    rfl

/-- Packs with a name twice, and a name twice in a pack. -/
def crowdedPacks : List Pack :=
  [⟨"base", [("x", .int 1), ("x", .int 2)]⟩, ⟨"extra", [("x", .int 3), ("y", .int 4)]⟩,
    ⟨"base", [("z", .int 5)]⟩]

def latePack : Pack :=
  ⟨"late", [("y", .int 6), ("z", .int 7)]⟩

theorem crowdedPacks_resolved :
    ∃ units, (created [] crowdedPacks).Submits ["var w = x + y", "var y = w * 2"] units ∧
      (created [] (crowdedPacks ++ [latePack])).Submits ["var w = x + y", "var y = w * 2"] units ∧
      (∀ entry ∈ [("w", "5"), ("x", "1"), ("y", "10")],
        (((created [] (crowdedPacks ++ [latePack])).executeAll units).value? entry.1).map
          Value.display = some entry.2) ∧
      Host.ofPacks [] (crowdedPacks ++ [⟨"extra", [("z", .int 8)]⟩]) = .ofPacks [] crowdedPacks := by
  have shown : (((created [] crowdedPacks).compile "var w = x + y").toOption.bind fun first =>
      (((created [] crowdedPacks).execute first).1.compile "var y = w * 2").toOption.map fun second =>
        decide (∀ entry ∈ [("w", "5"), ("x", "1"), ("y", "10")],
          (((created [] crowdedPacks).executeAll [first, second]).value? entry.1).map
            Value.display = some entry.2)) = some true := by
    decide +kernel
  obtain ⟨-, appended, repeated, -⟩ := names_resolve [] crowdedPacks
  cases firstCompiles : (created [] crowdedPacks).compile "var w = x + y" with
  | error complaints => simp [firstCompiles, Except.toOption] at shown
  | ok first =>
    cases secondCompiles : ((created [] crowdedPacks).execute first).1.compile "var y = w * 2" with
    | error complaints => simp [firstCompiles, secondCompiles, Except.toOption] at shown
    | ok second =>
      simp only [firstCompiles, secondCompiles, Except.toOption, Option.bind_some, Option.map_some,
        Option.some.injEq, decide_eq_true_eq] at shown
      have submits : (created [] crowdedPacks).Submits _ [first, second] :=
        .cons firstCompiles (.cons secondCompiles (.nil _))
      obtain ⟨submitsToo, kept⟩ := appended [latePack] _ _ submits
      refine ⟨_, submits, submitsToo, ?_, repeated _ (by simp [crowdedPacks])⟩
      intro entry among
      obtain ⟨value, isValue, isShown⟩ := Option.map_eq_some_iff.mp (shown entry among)
      rw [kept entry.1 value isValue, Option.map_some, isShown]

end Calc.Session

end Colloquy

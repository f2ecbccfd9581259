import Colloquy.Host
import Mathlib.Data.List.Induction
import Mathlib.Data.List.Nodup

set_option autoImplicit false

/-!
Lists of entries under keys: what is looked up in them, and what comes first in them.
-/

namespace Colloquy

section

variable {α β : Type} [DecidableEq α]

theorem lookup_cons_eq_ite (key other : α) (value : β) (entries : List (α × β)) :
    ((key, value) :: entries).lookup other =
      if other = key then some value else entries.lookup other := by
  by_cases same : other = key
  · rw [same, List.lookup_cons_self, if_pos rfl]
  · rw [List.lookup_cons, beq_false_of_ne same, if_neg same]

/-- Entries under one key are gone once they are filtered out, and all others stay. -/
theorem lookup_filter_ne (entries : List (α × β)) (key other : α) :
    (entries.filter fun entry => entry.1 ≠ key).lookup other =
      if other = key then none else entries.lookup other := by
  induction entries with
  | nil => simp
  | cons entry rest inductionHypothesis =>
    obtain ⟨first, value⟩ := entry
    rw [lookup_cons_eq_ite]
    by_cases isKey : first = key
    · rw [List.filter_cons_of_neg (by simp [isKey]), inductionHypothesis, isKey]
      by_cases isOther : other = key
      · simp [isOther]
      · simp [isOther]
    · rw [List.filter_cons_of_pos (by simp [isKey]), lookup_cons_eq_ite, inductionHypothesis]
      by_cases isFirst : other = first
      · simp [isFirst, isKey]
      · simp [isFirst]

/-- Where no two entries have one key, an entry is what is looked up under its key. -/
theorem lookup_of_mem_of_nodup {entries : List (α × β)} (distinct : (entries.map Prod.fst).Nodup)
    {entry : α × β} (membership : entry ∈ entries) : entries.lookup entry.1 = some entry.2 := by
  induction entries with
  | nil => cases membership
  | cons first rest inductionHypothesis =>
    rw [List.map_cons, List.nodup_cons] at distinct
    rw [lookup_cons_eq_ite]
    rcases List.mem_cons.mp membership with rfl | later
    · rw [if_pos rfl]
    · have differ : entry.1 ≠ first.1 := by
        intro same
        exact distinct.1 (same ▸ List.mem_map_of_mem later)
      rw [if_neg differ]
      exact inductionHypothesis distinct.2 later

end

/-- What comes first behind another list is what comes first and has no key of that list. -/
theorem firstOfKey_append {α β : Type} [DecidableEq β] (key : α → β) (items more : List α) :
    firstOfKey key (items ++ more) =
      firstOfKey key items ++ (firstOfKey key more).filter fun item => key item ∉ items.map key := by
  induction items with
  | nil => simp [firstOfKey]
  | cons item rest inductionHypothesis =>
    simp only [List.cons_append, firstOfKey, inductionHypothesis, List.filter_append,
      List.filter_filter, List.map_cons, List.mem_cons, not_or, Bool.decide_and]

section

variable {α β γ : Type} [DecidableEq β] {key : α → β} {items : List α}

theorem firstOfKey_concat (items : List α) (item : α) :
    firstOfKey key (items ++ [item]) =
      firstOfKey key items ++ if key item ∈ items.map key then [] else [item] := by
  have single : firstOfKey key [item] = [item] := rfl
  rw [firstOfKey_append, single, List.filter_singleton]
  by_cases known : key item ∈ items.map key <;> simp [known]

theorem firstOfKey_append_cons {item : α} (isNew : key item ∉ items.map key) (more : List α) :
    ∃ later, firstOfKey key (items ++ item :: more) = firstOfKey key items ++ item :: later := by
  rw [List.append_cons, firstOfKey_append, firstOfKey_concat, if_neg isNew, List.append_assoc]
  exact ⟨_, rfl⟩

/-- Before an item that is kept, what is kept is what is kept of the items before it. -/
theorem firstOfKey_split {front back : List α} {item : α}
    (kept : firstOfKey key items = front ++ item :: back) :
    ∃ before after, items = before ++ item :: after ∧ key item ∉ before.map key ∧
      firstOfKey key before = front := by
  induction items using List.reverseRecOn generalizing back with
  | nil => simp [firstOfKey] at kept
  | append_singleton items last inductionHypothesis =>
    have earlier {back : List α} (kept : firstOfKey key items = front ++ item :: back) :
        ∃ before after, items ++ [last] = before ++ item :: after ∧ key item ∉ before.map key ∧
          firstOfKey key before = front := by
      obtain ⟨before, after, rfl, rest⟩ := inductionHypothesis kept
      exact ⟨before, after ++ [last], by rw [List.append_assoc, List.cons_append], rest⟩
    rw [firstOfKey_concat] at kept
    split at kept
    · rw [List.append_nil] at kept
      exact earlier kept
    case isFalse isNew =>
      rcases List.eq_nil_or_concat back with rfl | ⟨back, other, rfl⟩
      · obtain ⟨isFront, isLast⟩ := List.append_inj' kept rfl
        cases isLast
        exact ⟨items, [], rfl, isNew, isFront⟩
      · rw [List.concat_eq_append, ← List.cons_append, ← List.append_assoc] at kept
        exact earlier (List.append_inj' kept rfl).1

/-- What is kept of a list is what nothing before it has the key of. -/
theorem mem_firstOfKey {item : α} :
    item ∈ firstOfKey key items ↔
      ∃ before after, items = before ++ item :: after ∧ key item ∉ before.map key := by
  constructor
  · intro among
    obtain ⟨front, back, kept⟩ := List.append_of_mem among
    obtain ⟨before, after, isItems, isNew, -⟩ := firstOfKey_split kept
    exact ⟨before, after, isItems, isNew⟩
  · rintro ⟨before, after, rfl, isNew⟩
    obtain ⟨later, kept⟩ := firstOfKey_append_cons isNew after
    rw [kept]
    exact List.mem_append_right _ List.mem_cons_self

/-- A search through what is kept of a list ends at an item where it has found nothing before. -/
theorem findSome?_firstOfKey_eq_some_iff {f : α → Option γ} {found : γ} :
    (firstOfKey key items).findSome? f = some found ↔
      ∃ before item after, items = before ++ item :: after ∧ key item ∉ before.map key ∧
        (∀ other ∈ firstOfKey key before, f other = none) ∧ f item = some found := by
  rw [List.findSome?_eq_some_iff]
  constructor
  · rintro ⟨front, item, back, kept, isFound, nothing⟩
    obtain ⟨before, after, isItems, isNew, rfl⟩ := firstOfKey_split kept
    exact ⟨before, item, after, isItems, isNew, nothing, isFound⟩
  · rintro ⟨before, item, after, rfl, isNew, nothing, isFound⟩
    obtain ⟨later, kept⟩ := firstOfKey_append_cons isNew after
    exact ⟨_, item, later, kept, isFound, nothing⟩

end

/-- The first entry under each key is all that a lookup needs. -/
theorem lookup_firstOfKey {α β : Type} [DecidableEq α] (entries : List (α × β)) (key : α) :
    (firstOfKey Prod.fst entries).lookup key = entries.lookup key := by
  induction entries with
  | nil => rfl
  | cons entry rest inductionHypothesis =>
    obtain ⟨first, value⟩ := entry
    rw [firstOfKey, lookup_cons_eq_ite, lookup_cons_eq_ite, lookup_filter_ne, inductionHypothesis]
    by_cases same : key = first
    · rw [if_pos same, if_pos same]
    · rw [if_neg same, if_neg same, if_neg same]

theorem lookup_flatMap {α β γ : Type} [DecidableEq α] (items : List γ) (f : γ → List (α × β))
    (key : α) : (items.flatMap f).lookup key = items.findSome? fun item => (f item).lookup key := by
  induction items with
  | nil => rfl
  | cons item rest inductionHypothesis =>
    rw [List.flatMap_cons, List.lookup_append, inductionHypothesis, List.findSome?_cons]
    cases (f item).lookup key <;> rfl

variable {α : Type} [DecidableEq α]

theorem mem_firstOfKey_id {items : List α} {item : α} :
    item ∈ firstOfKey id items ↔ item ∈ items := by
  induction items with
  | nil => rfl
  | cons first rest inductionHypothesis =>
    by_cases same : item = first
    · simp [firstOfKey, same]
    · simp [firstOfKey, same, inductionHypothesis]

theorem firstOfKey_id_of_nodup {items : List α} (nodup : items.Nodup) :
    firstOfKey id items = items := by
  induction items with
  | nil => rfl
  | cons first rest inductionHypothesis =>
    obtain ⟨new, nodup⟩ := List.nodup_cons.mp nodup
    rw [firstOfKey, inductionHypothesis nodup]
    congr 1
    apply List.filter_eq_self.mpr
    intro item membership
    have differ : item ≠ first := fun same => new (same ▸ membership)
    exact decide_eq_true differ

/-- First occurrences keep the order of the list that they occur in. -/
theorem pairwise_firstOfKey_id (items : List α) :
    (firstOfKey id items).Pairwise fun first second => items.idxOf first < items.idxOf second := by
  induction items with
  | nil => exact .nil
  | cons item rest inductionHypothesis =>
    have behind {other : α}
        (among : other ∈ (firstOfKey id rest).filter fun other => id other ≠ id item) :
        (item :: rest).idxOf other = rest.idxOf other + 1 := by
      have differ : item ≠ other := by
        rintro rfl
        simp at among
      exact List.idxOf_cons_ne rest differ
    rw [firstOfKey, List.pairwise_cons]
    constructor
    · intro other among
      rw [List.idxOf_cons_self, behind among]
      exact Nat.succ_pos _
    · refine (inductionHypothesis.filter _).imp_of_mem fun firstAmong secondAmong earlier => ?_
      rw [behind firstAmong, behind secondAmong]
      exact Nat.succ_lt_succ earlier

theorem nodup_firstOfKey_id (items : List α) : (firstOfKey id items).Nodup := by
  refine (pairwise_firstOfKey_id items).imp fun earlier same => ?_
  rw [same] at earlier
  exact Nat.lt_irrefl _ earlier

theorem firstOfKey_id_prefix {items more : List α} (front : items <+: more) :
    firstOfKey id items <+: firstOfKey id more := by
  obtain ⟨rest, rfl⟩ := front
  rw [firstOfKey_append]
  exact List.prefix_append _ _

theorem firstOfKey_id_append_of_subset {items more : List α} (known : more ⊆ items) :
    firstOfKey id (items ++ more) = firstOfKey id items := by
  rw [firstOfKey_append, List.filter_eq_nil_iff.mpr, List.append_nil]
  intro item membership
  simpa using known (mem_firstOfKey_id.mp membership)

/-- First occurrences may be taken of a part of the list already. -/
theorem firstOfKey_id_append_left {items firsts : List α} (isFirsts : firstOfKey id items = firsts)
    (nodup : firsts.Nodup) (more : List α) :
    firstOfKey id (items ++ more) = firstOfKey id (firsts ++ more) := by
  rw [firstOfKey_append, firstOfKey_append, firstOfKey_id_of_nodup nodup, isFirsts]
  congr 1
  apply List.filter_congr
  intro item _
  simp [← isFirsts, mem_firstOfKey_id]

end Colloquy

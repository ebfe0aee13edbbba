import Mathlib.Data.List.Induction
import Mathlib.Data.List.Nodup

/-!
Items in the order in which they first occur, each of them once.
-/

namespace ClassAtlas

variable {α : Type}

theorem eraseDups_concat [DecidableEq α] (items : List α) (last : α) :
    (items ++ [last]).eraseDups =
      if last ∈ items.eraseDups then items.eraseDups else items.eraseDups ++ [last] := by
  rw [List.eraseDups_append]
  split
  case isTrue present =>
    have member := List.mem_eraseDups.mp present
    simp [List.removeAll, member]
  case isFalse absent =>
    have missing := List.mem_eraseDups.not.mp absent
    simp [List.removeAll, missing, List.eraseDups_cons]

theorem eraseDups_of_nodup [DecidableEq α] {items : List α} (distinct : items.Nodup) :
    items.eraseDups = items := by
  induction items using List.reverseRecOn with
  | nil => rfl
  | append_singleton items last ih =>
      obtain ⟨distinctItems, -, apart⟩ := List.nodup_append.mp distinct
      have isNew : last ∉ items := fun member => apart last member last List.mem_cons_self rfl
      rw [eraseDups_concat, ih distinctItems, if_neg isNew]

theorem getElem?_concat_eq_some_iff {items : List α} {last x : α} {i : Nat} :
    (items ++ [last])[i]? = some x ↔ items[i]? = some x ∨ i = items.length ∧ x = last := by
  rcases Nat.lt_trichotomy i items.length with inside | rfl | outside
  · rw [List.getElem?_append_left inside]
    simp [Nat.ne_of_lt inside]
  · rw [List.getElem?_concat_length, List.getElem?_eq_none Nat.le.refl]
    simp [eq_comm]
  · have beyond : (items ++ [last]).length ≤ i := by
      rw [List.length_append]
      exact outside
    rw [List.getElem?_eq_none beyond, List.getElem?_eq_none (Nat.le_of_lt outside)]
    simp [Nat.ne_of_gt outside]

/-- The items that occur at some place, each once and in the order of their first places. -/
structure InFirstOrder (occurs : Nat → α → Prop) (items : List α) : Prop where
  mem : ∀ x, x ∈ items ↔ ∃ i, occurs i x
  order : items.Pairwise fun x y => ∃ i, occurs i x ∧ ∀ j, occurs j y → i < j

namespace InFirstOrder

variable {occurs later : Nat → α → Prop} {items : List α}

theorem nodup (listed : InFirstOrder occurs items) : items.Nodup := by
  apply listed.order.imp
  intro x y before same
  obtain ⟨i, there, first⟩ := before
  exact Nat.lt_irrefl i (first i (same ▸ there))

theorem congr (listed : InFirstOrder occurs items) (same : ∀ i x, later i x ↔ occurs i x) :
    InFirstOrder later items := by
  have equal : later = occurs := by
    funext i x
    exact propext (same i x)
  rwa [equal]

/-- An item at the next place comes last if it is new. -/
theorem next [DecidableEq α] (listed : InFirstOrder occurs items) {n : Nat} {last : α}
    (bounded : ∀ i x, occurs i x → i < n)
    (grown : ∀ i x, later i x ↔ occurs i x ∨ i = n ∧ x = last) :
    InFirstOrder later (if last ∈ items then items else items ++ [last]) := by
  have order : items.Pairwise fun x y => ∃ i, later i x ∧ ∀ j, later j y → i < j := by
    apply listed.order.imp
    intro x y before
    obtain ⟨i, there, first⟩ := before
    refine ⟨i, (grown i x).mpr (.inl there), ?_⟩
    intro j after
    rcases (grown j y).mp after with earlier | ⟨rfl, -⟩
    · exact first j earlier
    · exact bounded i x there
  have mem (x : α) : (∃ i, later i x) ↔ x ∈ items ∨ x = last := by
    rw [listed.mem]
    constructor
    · intro found
      obtain ⟨i, there⟩ := found
      rcases (grown i x).mp there with earlier | ⟨-, same⟩
      · exact .inl ⟨i, earlier⟩
      · exact .inr same
    · intro found
      rcases found with ⟨i, earlier⟩ | same
      · exact ⟨i, (grown i x).mpr (.inl earlier)⟩
      · exact ⟨n, (grown n x).mpr (.inr ⟨rfl, same⟩)⟩
  split
  case isTrue present =>
    refine ⟨?_, order⟩
    intro x
    rw [mem]
    constructor
    · exact .inl
    · intro found
      rcases found with member | same
      · exact member
      · exact same ▸ present
  case isFalse absent =>
    refine ⟨?_, List.pairwise_append.mpr ⟨order, List.pairwise_singleton .., ?_⟩⟩
    · intro x
      rw [mem, List.mem_append, List.mem_singleton]
    · intro x member y added
      obtain rfl := List.mem_singleton.mp added
      obtain ⟨i, there⟩ := (listed.mem x).mp member
      refine ⟨i, (grown i x).mpr (.inl there), ?_⟩
      intro j after
      rcases (grown j y).mp after with earlier | ⟨rfl, -⟩
      · exact absurd ((listed.mem y).mpr ⟨j, earlier⟩) absent
      · exact bounded i x there

end InFirstOrder

theorem inFirstOrder_eraseDups [DecidableEq α] (items : List α) :
    InFirstOrder (fun i x => items[i]? = some x) items.eraseDups := by
  induction items using List.reverseRecOn with
  | nil => exact ⟨by simp, .nil⟩
  | append_singleton items last ih =>
      rw [eraseDups_concat]
      refine ih.next ?_ fun i x => getElem?_concat_eq_some_iff
      intro i x there
      exact (List.getElem?_eq_some_iff.mp there).1

theorem inFirstOrder_eraseDups_map {β : Type} [DecidableEq α] (f : β → α) (items : List β) :
    InFirstOrder (fun i x => ∃ item, items[i]? = some item ∧ f item = x) (items.map f).eraseDups := by
  apply (inFirstOrder_eraseDups _).congr
  intro i x
  rw [List.getElem?_map, Option.map_eq_some_iff]

end ClassAtlas

import ClassAtlas.NameSet
import ClassAtlas.Proofs.Text.Utf8
import Mathlib.Data.List.Induction
import Mathlib.Data.List.Sort
import Mathlib.Data.String.Basic

/-!
A name set holds what was put into it, and stays ascending. A name map gives for a key what was put
there last, and stays ascending by its keys.
-/

namespace ClassAtlas

namespace NameSet

/-- In order and without repetition. -/
def Ascending (names : List String) : Prop :=
  names.Pairwise (· < ·)

@[simp] theorem mem_insert (name added : String) (set : List String) :
    name ∈ insert added set ↔ name = added ∨ name ∈ set := by
  induction set with
  | nil => simp [insert]
  | cons head tail ih =>
      unfold insert
      split
      case isTrue => rw [List.mem_cons]
      case isFalse =>
        split
        case isTrue same => simp [same]
        case isFalse => rw [List.mem_cons, ih, List.mem_cons, or_left_comm]

@[simp] theorem mem_insertAll (name : String) (added set : List String) :
    name ∈ insertAll added set ↔ name ∈ added ∨ name ∈ set := by
  induction added generalizing set with
  | nil => simp [insertAll]
  | cons first more ih =>
      have step : insertAll (first :: more) set = insertAll more (insert first set) := rfl
      rw [step, ih, mem_insert, List.mem_cons, or_left_comm, or_assoc]

theorem Ascending.insert {set : List String} (ascending : Ascending set) (added : String) :
    Ascending (insert added set) := by
  induction set with
  | nil => exact List.pairwise_singleton _ added
  | cons head tail ih =>
      obtain ⟨above, ascendingTail⟩ := List.pairwise_cons.mp ascending
      unfold NameSet.insert
      split
      case isTrue below =>
        refine List.pairwise_cons.mpr ⟨fun name member => ?_, ascending⟩
        obtain rfl | inTail := List.mem_cons.mp member
        · exact below
        · exact lt_trans below (above name inTail)
      case isFalse notBelow =>
        split
        case isTrue => exact ascending
        case isFalse different =>
          refine List.pairwise_cons.mpr ⟨fun name member => ?_, ih ascendingTail⟩
          obtain rfl | inTail := (mem_insert ..).mp member
          · exact lt_of_le_of_ne (not_lt.mp notBelow) (Ne.symm different)
          · exact above name inTail

theorem Ascending.insertAll {set : List String} (ascending : Ascending set) (added : List String) :
    Ascending (insertAll added set) := by
  induction added generalizing set with
  | nil => exact ascending
  | cons first more ih => exact ih (ascending.insert first)

theorem ascending_ofList (names : List String) : Ascending (ofList names) :=
  Ascending.insertAll .nil names

@[simp] theorem mem_ofList (name : String) (names : List String) :
    name ∈ ofList names ↔ name ∈ names := by
  rw [ofList, mem_insertAll]
  simp

/-- In the order of their UTF-8 bytes and without repetition. -/
def ByteAscending (names : List String) : Prop :=
  names.Pairwise fun one other => Text.utf8 one < Text.utf8 other

theorem Ascending.bytes {names : List String} (ascending : Ascending names) :
    ByteAscending names :=
  List.Pairwise.imp Text.utf8_lt ascending

end NameSet

namespace NameMap

variable {α : Type}

@[simp] theorem lookup_insert (key : String) (value : α) (map : List (String × α)) :
    (insert key value map).lookup key = some value := by
  induction map with
  | nil => simp [insert]
  | cons head tail ih =>
      unfold insert
      split
      case isTrue => simp
      case isFalse =>
        split
        case isTrue => simp
        case isFalse different =>
          rw [List.lookup_cons, beq_eq_false_iff_ne.mpr different]
          exact ih

theorem lookup_insert_of_ne {key other : String} (different : other ≠ key) (value : α)
    (map : List (String × α)) : (insert key value map).lookup other = map.lookup other := by
  have skip : (other == key) = false := beq_eq_false_iff_ne.mpr different
  induction map with
  | nil => simp [insert, List.lookup_cons, skip]
  | cons head tail ih =>
      unfold insert
      split
      case isTrue => rw [List.lookup_cons, skip]
      case isFalse =>
        split
        case isTrue same => rw [List.lookup_cons, List.lookup_cons, ← same, skip]
        case isFalse => rw [List.lookup_cons, List.lookup_cons, ih]

theorem ofList_concat (entries : List (String × α)) (last : String × α) :
    ofList (entries ++ [last]) = insert last.1 last.2 (ofList entries) := by
  rw [ofList, List.foldl_append]
  rfl

/-- Of several values for a key the last is found. -/
theorem lookup_ofList (entries : List (String × α)) (key : String) :
    (ofList entries).lookup key = (entries.filter (·.1 == key)).getLast?.map (·.2) := by
  induction entries using List.reverseRecOn with
  | nil => rfl
  | append_singleton entries last ih =>
      rw [ofList_concat, List.filter_append]
      by_cases same : last.1 = key
      · subst same
        simp
      · rw [lookup_insert_of_ne (Ne.symm same), ih]
        simp [same]

theorem mem_keys_insert (key added : String) (value : α) (map : List (String × α)) :
    key ∈ (insert added value map).map (·.1) ↔ key = added ∨ key ∈ map.map (·.1) := by
  induction map with
  | nil => simp [insert]
  | cons head tail ih =>
      unfold insert
      split
      case isTrue => simp
      case isFalse =>
        split
        case isTrue same => simp [same]
        case isFalse =>
          rw [List.map_cons, List.mem_cons, ih, List.map_cons, List.mem_cons, or_left_comm]

theorem ascending_insert {map : List (String × α)} (ascending : NameSet.Ascending (map.map (·.1)))
    (key : String) (value : α) : NameSet.Ascending ((insert key value map).map (·.1)) := by
  induction map with
  | nil => exact List.pairwise_singleton _ key
  | cons head tail ih =>
      obtain ⟨above, ascendingTail⟩ := List.pairwise_cons.mp ascending
      unfold insert
      split
      case isTrue below =>
        refine List.pairwise_cons.mpr ⟨?_, ascending⟩
        intro other member
        obtain rfl | inTail := List.mem_cons.mp member
        · exact below
        · exact lt_trans below (above other inTail)
      case isFalse notBelow =>
        split
        case isTrue same => exact same ▸ ascending
        case isFalse different =>
          refine List.pairwise_cons.mpr ⟨?_, ih ascendingTail⟩
          intro other member
          obtain rfl | inTail := (mem_keys_insert ..).mp member
          · exact lt_of_le_of_ne (not_lt.mp notBelow) (Ne.symm different)
          · exact above other inTail

/-- The keys of a map are ascending. -/
theorem ascending_keys (entries : List (String × α)) :
    NameSet.Ascending ((ofList entries).map (·.1)) := by
  induction entries using List.reverseRecOn with
  | nil => exact .nil
  | append_singleton entries last ih =>
      rw [ofList_concat]
      exact ascending_insert ih last.1 last.2

theorem mem_keys (entries : List (String × α)) (key : String) :
    key ∈ (ofList entries).map (·.1) ↔ key ∈ entries.map (·.1) := by
  induction entries using List.reverseRecOn with
  | nil => rfl
  | append_singleton entries last ih =>
      rw [ofList_concat, mem_keys_insert, ih, List.map_append, List.mem_append, or_comm]
      simp

/-- A map has one value for a key. -/
theorem mem_iff_lookup {map : List (String × α)} {key : String} {value : α}
    (ascending : NameSet.Ascending (map.map (·.1))) :
    (key, value) ∈ map ↔ map.lookup key = some value := by
  induction map with
  | nil => simp
  | cons head tail ih =>
      obtain ⟨above, ascendingTail⟩ := List.pairwise_cons.mp ascending
      rw [List.mem_cons, ih ascendingTail, List.lookup_cons]
      by_cases same : key = head.1
      · have absent : tail.lookup key = none := by
          rw [List.lookup_eq_none_iff]
          intro entry member
          have below := above entry.1 (List.mem_map_of_mem member)
          exact bne_iff_ne.mpr (same ▸ ne_of_lt below)
        rw [absent, same]
        simp [Prod.ext_iff, eq_comm]
      · have other : (key, value) ≠ head := fun equal => same (congrArg Prod.fst equal)
        simp [other, beq_eq_false_iff_ne.mpr same]

theorem getLast?_filter_eq_some_iff {p : α → Bool} {items : List α} {item : α} :
    (items.filter p).getLast? = some item ↔
      ∃ before after, items = before ++ item :: after ∧ p item ∧ ∀ other ∈ after, ¬ p other := by
  rw [List.getLast?_filter, List.find?_eq_some_iff_append]
  constructor
  · rintro ⟨holds, later, earlier, parts, none⟩
    refine ⟨earlier.reverse, later.reverse, ?_, holds, ?_⟩
    · rw [← List.reverse_reverse items, parts]
      simp
    · simpa using none
  · rintro ⟨before, after, rfl, holds, none⟩
    exact ⟨holds, after.reverse, before.reverse, by simp, by simpa using none⟩

/-- The last of some keys of a map is the greatest of them. -/
theorem getLast?_filter_key_iff {map : List (String × α)} {k : String} {v : α}
    (ascending : NameSet.Ascending (map.map (·.1))) (p : String → Bool) :
    (map.filter (p ·.1)).getLast? = some (k, v) ↔
      p k ∧ (k, v) ∈ map ∧ ∀ other ∈ map.map (·.1), p other → other ≠ k → other < k := by
  rw [getLast?_filter_eq_some_iff]
  constructor
  · rintro ⟨before, after, rfl, holds, none⟩
    refine ⟨holds, List.mem_append_right _ List.mem_cons_self, ?_⟩
    intro other given chosen different
    rw [List.map_append, List.map_cons] at ascending given
    obtain earlier | later := List.mem_append.mp given
    · exact (List.pairwise_append.mp ascending).2.2 _ earlier _ List.mem_cons_self
    · obtain rfl | later := List.mem_cons.mp later
      · exact absurd rfl different
      · obtain ⟨entry, member, rfl⟩ := List.mem_map.mp later
        exact absurd chosen (none entry member)
  · rintro ⟨holds, member, greatest⟩
    obtain ⟨before, after, rfl⟩ := List.append_of_mem member
    refine ⟨before, after, rfl, holds, ?_⟩
    intro entry later chosen
    rw [List.map_append, List.map_cons] at ascending greatest
    have listed := List.mem_map_of_mem (f := Prod.fst) later
    have above := (List.pairwise_cons.mp (List.pairwise_append.mp ascending).2.1).1 _ listed
    have below := greatest entry.1 (List.mem_append_right _ (List.mem_cons_of_mem _ listed)) chosen
      (ne_of_gt above)
    exact lt_asymm above below

theorem lookup_filter_ne (key : String) (map : List (String × α)) :
    (map.filter (·.1 ≠ key)).lookup key = none := by
  rw [List.lookup_eq_none_iff]
  intro entry member
  have kept := of_decide_eq_true (List.mem_filter.mp member).2
  exact bne_iff_ne.mpr (Ne.symm kept)

theorem lookup_filter_of_ne {key other : String} (different : other ≠ key)
    (map : List (String × α)) : (map.filter (·.1 ≠ key)).lookup other = map.lookup other := by
  induction map with
  | nil => rfl
  | cons head tail ih =>
      rw [List.filter_cons]
      split
      case isTrue => rw [List.lookup_cons, List.lookup_cons, ih]
      case isFalse dropped =>
        have same : head.1 = key := by simpa using dropped
        rw [ih, List.lookup_cons, same, beq_eq_false_iff_ne.mpr different]

end NameMap

end ClassAtlas

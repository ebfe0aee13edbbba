import ClassAtlas.Text.Cut

/-!
Cutting a text at the last place of a separator, and at every place of it; joining parts and cutting
them again.
-/

namespace ClassAtlas.Text

variable {separator : Char}

theorem cutLast?_eq_none_iff {text : List Char} :
    cutLast? separator text = none ↔ separator ∉ text := by
  induction text with
  | nil => simp [cutLast?]
  | cons c rest ih =>
    rw [cutLast?, List.mem_cons, not_or, ← ih]
    cases cutLast? separator rest with
    | some => simp
    | none => simp [eq_comm]

theorem cutLast?_append (before : List Char) {after : List Char} (last : separator ∉ after) :
    cutLast? separator (before ++ separator :: after) = some (before, after) := by
  induction before with
  | nil => rw [List.nil_append, cutLast?, cutLast?_eq_none_iff.mpr last, if_pos rfl]
  | cons c before ih => rw [List.cons_append, cutLast?, ih]

theorem eq_of_cutLast? {text before after : List Char}
    (cut : cutLast? separator text = some (before, after)) :
    text = before ++ separator :: after ∧ separator ∉ after := by
  induction text generalizing before after with
  | nil => cases cut
  | cons c rest ih =>
    rw [cutLast?] at cut
    cases deeper : cutLast? separator rest with
    | some found =>
      rw [deeper] at cut
      cases cut
      obtain ⟨same, last⟩ := ih deeper
      exact ⟨congrArg (c :: ·) same, last⟩
    | none =>
      simp only [deeper] at cut
      split at cut
      case isTrue same =>
        cases cut
        exact ⟨congrArg (· :: rest) same, cutLast?_eq_none_iff.mp deeper⟩
      case isFalse => cases cut

theorem splitAll_ne_nil (separator : Char) (text : List Char) : splitAll separator text ≠ [] := by
  cases text with
  | nil => exact List.cons_ne_nil _ _
  | cons c rest =>
    unfold splitAll
    split
    case isTrue => exact List.cons_ne_nil _ _
    case isFalse => split <;> exact List.cons_ne_nil _ _

theorem splitAll_separator (separator : Char) (rest : List Char) :
    splitAll separator (separator :: rest) = [] :: splitAll separator rest := by
  rw [splitAll, if_pos rfl]

theorem splitAll_cons_of_ne {c : Char} (other : c ≠ separator) {rest part : List Char}
    {parts : List (List Char)} (split : splitAll separator rest = part :: parts) :
    splitAll separator (c :: rest) = (c :: part) :: parts := by
  rw [splitAll, if_neg other, split]

theorem splitAll_of_not_mem {text : List Char} (free : separator ∉ text) :
    splitAll separator text = [text] := by
  induction text with
  | nil => rfl
  | cons c rest ih =>
    rw [List.mem_cons, not_or] at free
    exact splitAll_cons_of_ne (Ne.symm free.1) (ih free.2)

theorem splitAll_append {before : List Char} (free : separator ∉ before) (after : List Char) :
    splitAll separator (before ++ separator :: after) = before :: splitAll separator after := by
  induction before with
  | nil => exact splitAll_separator separator after
  | cons c before ih =>
    rw [List.mem_cons, not_or] at free
    exact splitAll_cons_of_ne (Ne.symm free.1) (ih free.2)

theorem not_mem_of_mem_splitAll {text part : List Char} (found : part ∈ splitAll separator text) :
    separator ∉ part := by
  induction text generalizing part with
  | nil =>
    rw [List.mem_singleton.mp found]
    exact List.not_mem_nil
  | cons c rest ih =>
    by_cases same : c = separator
    · rw [same, splitAll_separator] at found
      rcases List.mem_cons.mp found with rfl | later
      · exact List.not_mem_nil
      · exact ih later
    · obtain ⟨first, others, split⟩ := List.exists_cons_of_ne_nil (splitAll_ne_nil separator rest)
      rw [splitAll_cons_of_ne same split] at found
      rw [split] at ih
      rcases List.mem_cons.mp found with rfl | later
      · exact List.not_mem_cons_of_ne_of_not_mem (Ne.symm same) (ih List.mem_cons_self)
      · exact ih (List.mem_cons_of_mem first later)

theorem toList_joinWith_cons_cons (joint part next : String) (parts : List String) :
    (joinWith joint (part :: next :: parts)).toList =
      part.toList ++ (joint.toList ++ (joinWith joint (next :: parts)).toList) := by
  simp [joinWith]

theorem joinWith_eq_intercalate (joint : String) (parts : List String) :
    joinWith joint parts = joint.intercalate parts := by
  induction parts with
  | nil => rfl
  | cons part parts ih =>
    cases parts with
    | nil => simp [joinWith]
    | cons next others =>
      rw [String.intercalate_cons_cons, ← ih]
      rfl

/-- Parts without the separator are found again, unless there are none. -/
theorem splitAll_joinWith {joint : String} (single : joint.toList = [separator])
    {parts : List String} (nonempty : parts ≠ [])
    (free : ∀ part ∈ parts, separator ∉ part.toList) :
    splitAll separator (joinWith joint parts).toList = parts.map String.toList := by
  induction parts with
  | nil => exact absurd rfl nonempty
  | cons part parts ih =>
    rw [List.forall_mem_cons] at free
    cases parts with
    | nil => exact splitAll_of_not_mem free.1
    | cons next others =>
      rw [toList_joinWith_cons_cons, single, List.singleton_append, splitAll_append free.1,
        ih (List.cons_ne_nil next others) free.2]
      rfl

end ClassAtlas.Text

import ClassAtlas.Text.Cut
import ClassAtlas.Text.Lowercase

/-!
Lower case leaves no capital of ASCII, and of an ASCII text it is what lowering each letter gives.
Beyond ASCII only the first holds: some capitals there have a small letter within ASCII.
-/

namespace ClassAtlas.Text

theorem toLower_eq_self {c : Char} (noCapital : c.toNat < 65 ∨ 90 < c.toNat) : c.toLower = c := by
  unfold Char.toLower
  rw [dif_neg]
  rintro ⟨above, below⟩
  have above : 65 ≤ c.toNat := above
  have below : c.toNat ≤ 90 := below
  omega

theorem toLower_toLower (c : Char) : c.toLower.toLower = c.toLower := by
  by_cases capital : c.val ≥ 'A'.val ∧ c.val ≤ 'Z'.val
  · have above : 65 ≤ c.toNat := capital.1
    have below : c.toNat ≤ 90 := capital.2
    have moved : c.toLower.toNat = c.toNat + 32 := by
      unfold Char.toLower
      rw [dif_pos capital]
      show (c.val + ('a'.val - 'A'.val)).toNat = c.toNat + 32
      rw [UInt32.toNat_add]
      have : c.val.toNat = c.toNat := rfl
      have : ('a'.val - 'A'.val).toNat = 32 := rfl
      omega
    exact toLower_eq_self (by omega)
  · have same : c.toLower = c := dif_neg capital
    rw [same, same]

theorem toLower_ofNat {n : Nat} (small : 90 < n) : (Char.ofNat n).toLower = Char.ofNat n := by
  by_cases valid : n.isValidChar
  · have same : (Char.ofNat n).toNat = n := by
      rw [Char.ofNat, dif_pos valid]
      rfl
    exact toLower_eq_self (.inr (by omega))
  · have none : Char.ofNat n = '\x00' := dif_neg valid
    rw [none]
    rfl

theorem lower_of_mem_caseRuns {run : CaseRun} (member : run ∈ caseRuns) : 90 < run.lower := by
  have every : caseRuns.all (fun run => decide (90 < run.lower)) = true := by decide +kernel
  exact of_decide_eq_true (List.all_eq_true.mp every run member)

theorem toLower_of_mem_lowerChar {c d : Char} (member : d ∈ lowerChar c) : d.toLower = d := by
  unfold lowerChar at member
  split at member
  case isTrue =>
    rw [List.mem_singleton.mp member, toLower_toLower]
  case isFalse ascii =>
    split at member
    case isTrue =>
      rcases List.mem_cons.mp member with rfl | member
      · rfl
      · rw [List.mem_singleton.mp member]
        rfl
    case isFalse =>
      split at member
      case h_1 run found =>
        have small := lower_of_mem_caseRuns (List.mem_of_find?_eq_some found)
        rw [List.mem_singleton.mp member]
        exact toLower_ofNat (by omega)
      case h_2 =>
        rw [List.mem_singleton.mp member]
        exact toLower_eq_self (by omega)

theorem toLower_of_mem_lowerFrom {d : Char} {before chars : List Char}
    (member : d ∈ lowerFrom before chars) : d.toLower = d := by
  induction chars generalizing before with
  | nil => exact absurd member List.not_mem_nil
  | cons c rest fromRest =>
    rcases List.mem_append.mp member with lowered | later
    · split at lowered
      · split at lowered <;> rw [List.mem_singleton.mp lowered] <;> exact toLower_ofNat (by decide)
      · exact toLower_of_mem_lowerChar lowered
    · exact fromRest later

/-- Lower case has no capitals of ASCII left. -/
theorem lowercase_lowered (text : String) :
    (lowercase text).toList.map Char.toLower = (lowercase text).toList := by
  unfold lowercase
  rw [String.toList_ofList]
  exact (List.map_congr_left fun _ member => toLower_of_mem_lowerFrom member).trans (List.map_id' _)

theorem lowerFrom_of_ascii {before chars : List Char} (ascii : ∀ c ∈ chars, c.toNat < 128) :
    lowerFrom before chars = chars.map Char.toLower := by
  induction chars generalizing before with
  | nil => rfl
  | cons c rest fromRest =>
    have here : c.toNat < 128 := ascii c List.mem_cons_self
    have single : lowerChar c = [c.toLower] := if_pos here
    rw [lowerFrom, if_neg (by omega), single,
      fromRest fun d member => ascii d (List.mem_cons_of_mem c member)]
    rfl

theorem sameIgnoringCase_iff {a b : String} :
    sameIgnoringCase a b ↔ a.toList.map Char.toLower = b.toList.map Char.toLower :=
  beq_iff_eq

/-- Lower case is a text as it is compared with its letters' case ignored. -/
theorem sameIgnoringCase_lowercase_iff {a b : String} :
    sameIgnoringCase (lowercase a) b ↔ (lowercase a).toList = b.toList.map Char.toLower := by
  rw [sameIgnoringCase_iff, lowercase_lowered]

theorem toList_lowercase_of_ascii {text : String} (ascii : ∀ c ∈ text.toList, c.toNat < 128) :
    (lowercase text).toList = text.toList.map Char.toLower := by
  rw [lowercase, String.toList_ofList, lowerFrom_of_ascii ascii]

end ClassAtlas.Text

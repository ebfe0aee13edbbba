import Mathlib.Data.String.Basic
import Mathlib.Order.Basic

/-!
The UTF-8 form of a text. Its bytes stand in the order of the characters: of two texts the smaller one
by code points is the smaller one by bytes. A byte below 128 is always a character of its own.
-/

namespace ClassAtlas.Text

/-- The bytes of the UTF-8 form. -/
def utf8 (text : String) : List UInt8 :=
  text.toUTF8.data.toList

theorem utf8_ofList (chars : List Char) :
    utf8 (String.ofList chars) = chars.flatMap String.utf8EncodeChar := by
  simp [utf8, String.toUTF8, String.ofList, List.utf8Encode]

theorem utf8_eq (text : String) : utf8 text = text.toList.flatMap String.utf8EncodeChar := by
  rw [← utf8_ofList, String.ofList_toList]

theorem exists_utf8EncodeChar (c : Char) :
    ∃ byte more, String.utf8EncodeChar c = byte :: more := by
  apply List.exists_cons_of_length_pos
  rw [String.length_utf8EncodeChar]
  exact c.utf8Size_pos

theorem utf8EncodeChar_ascii {c : Char} (ascii : c.toNat < 128) :
    String.utf8EncodeChar c = [c.toUInt8] := by
  have small : c.val.toNat ≤ 127 := Nat.le_of_lt_succ ascii
  unfold String.utf8EncodeChar
  exact if_pos small

theorem le_of_mem_utf8EncodeChar {c : Char} (wide : 128 ≤ c.toNat) {byte : UInt8}
    (written : byte ∈ String.utf8EncodeChar c) : 128 ≤ byte.toNat := by
  have wide : 128 ≤ c.val.toNat := wide
  have high {n : Nat} (least : 128 ≤ n) (greatest : n < 256) : 128 ≤ (UInt8.ofNat n).toNat := by
    rwa [UInt8.toNat_ofNat_of_lt' greatest]
  unfold String.utf8EncodeChar at written
  generalize c.val.toNat = n at wide written
  simp only at written
  split_ifs at written
  · omega
  all_goals
    simp only [List.mem_cons, List.not_mem_nil, or_false] at written
    rcases written with rfl | rfl | rfl | rfl <;> exact high (by omega) (by omega)

/-- The byte of a character below 128 stands in no other character. -/
theorem toUInt8_mem_utf8EncodeChar {x c : Char} (ascii : x.toNat < 128) :
    x.toUInt8 ∈ String.utf8EncodeChar c ↔ c = x := by
  have low : x.toUInt8.toNat = x.toNat := by
    change x.val.toNat < 128 at ascii
    change x.val.toUInt8.toNat = x.val.toNat
    rw [UInt32.toNat_toUInt8]
    omega
  constructor
  · intro written
    have narrow : c.toNat < 128 := by
      by_contra wide
      have high := le_of_mem_utf8EncodeChar (Nat.le_of_not_lt wide) written
      omega
    rw [utf8EncodeChar_ascii narrow, List.mem_singleton] at written
    have same : c.val.toUInt8.toNat = x.val.toNat := by
      rw [← show x.toUInt8.toNat = x.val.toNat from low, written]
      rfl
    rw [UInt32.toNat_toUInt8] at same
    change c.val.toNat < 128 at narrow
    exact Char.ext (UInt32.toNat_inj.mp (by omega))
  · rintro rfl
    rw [utf8EncodeChar_ascii ascii]
    exact List.mem_singleton_self _

/-- Every offset in the UTF-8 form is a 64-bit word. -/
def Fits (text : String) : Prop :=
  (utf8 text).length < UInt64.size

theorem length_utf8_ofList (chars : List Char) :
    (utf8 (String.ofList chars)).length ≤ 4 * chars.length := by
  rw [utf8_ofList]
  induction chars with
  | nil => exact Nat.le.refl
  | cons c chars ih =>
      have width := c.utf8Size_le_four
      rw [List.flatMap_cons, List.length_append, String.length_utf8EncodeChar, List.length_cons]
      omega

/-- Two sequences with a first place where they differ, the left one with the smaller byte there. -/
inductive Departs : List UInt8 → List UInt8 → Prop where
  | here {x y : UInt8} {xs ys : List UInt8} : x < y → Departs (x :: xs) (y :: ys)
  | later {x : UInt8} {xs ys : List UInt8} : Departs xs ys → Departs (x :: xs) (x :: ys)

theorem Departs.append_lt {xs ys : List UInt8} (departs : Departs xs ys) (us vs : List UInt8) :
    xs ++ us < ys ++ vs := by
  induction departs with
  | here below => exact List.Lex.rel below
  | later _ ih => exact List.Lex.cons ih

/-- Bytes given by numbers depart at once, or later if they are equal. -/
theorem departs_ofNat {m n : Nat} {xs ys : List UInt8} (ordered : m ≤ n) (small : n < 256)
    (more : m = n → Departs xs ys) : Departs (UInt8.ofNat m :: xs) (UInt8.ofNat n :: ys) := by
  rcases Nat.lt_or_eq_of_le ordered with below | rfl
  · apply Departs.here
    rw [UInt8.lt_iff_toNat_lt, UInt8.toNat_ofNat_of_lt' (by exact Nat.lt_trans below small),
      UInt8.toNat_ofNat_of_lt' small]
    exact below
  · exact .later (more rfl)

theorem departs_utf8EncodeChar {c d : Char} (below : c < d) :
    Departs (String.utf8EncodeChar c) (String.utf8EncodeChar d) := by
  have less : c.val.toNat < d.val.toNat := below
  have last : d.val.toNat ≤ 0x10FFFF := by
    have valid := d.valid
    simp only [UInt32.isValidChar, Nat.isValidChar] at valid
    omega
  unfold String.utf8EncodeChar
  generalize c.val.toNat = m at less
  generalize d.val.toNat = n at less last
  -- the first byte tells the number of bytes; forms of one length are compared digit by digit
  simp only
  split_ifs
  all_goals
    repeat refine departs_ofNat (by omega) (by omega) fun same => ?_
    omega

theorem flatMap_utf8EncodeChar_lt {cs ds : List Char} (below : cs < ds) :
    cs.flatMap String.utf8EncodeChar < ds.flatMap String.utf8EncodeChar := by
  induction below with
  | @nil d ds =>
      obtain ⟨byte, more, written⟩ := exists_utf8EncodeChar d
      rw [List.flatMap_nil, List.flatMap_cons, written]
      exact List.Lex.nil
  | rel less => exact (departs_utf8EncodeChar less).append_lt _ _
  | cons _ ih => exact List.append_left_lt ih

theorem utf8_lt {s t : String} (below : s < t) : utf8 s < utf8 t := by
  rw [utf8_eq, utf8_eq]
  exact flatMap_utf8EncodeChar_lt below

theorem utf8_lt_iff {s t : String} : utf8 s < utf8 t ↔ s < t := by
  constructor
  · intro below
    by_contra notBelow
    obtain same | above := eq_or_lt_of_not_gt notBelow
    · exact List.lt_irrefl _ (same ▸ below)
    · exact List.lt_asymm below (utf8_lt above)
  · exact utf8_lt

end ClassAtlas.Text

import ClassAtlas.ClassFile.Decoder
import Mathlib.Data.List.Induction

/-!
Big-endian numerals of a fixed width and the machine words they write. The byte sequences of a given
length are the numerals of that width, one for each number below the power of 256.
-/

namespace ClassAtlas.ClassFile

theorem forall_byte {P : UInt8 → Prop} (checked : ∀ n : Fin 256, P (UInt8.ofFin n))
    (byte : UInt8) : P byte :=
  checked byte.toFin

/-- The lowest `width` bytes of a number, most significant first. -/
def numeral : Nat → Nat → List UInt8
  | 0, _ => []
  | width + 1, n => numeral width (n / 256) ++ [UInt8.ofNat n]

@[simp] theorem length_numeral (width n : Nat) : (numeral width n).length = width := by
  induction width generalizing n with
  | zero => rfl
  | succ width ih => simp [numeral, ih]

theorem bigEndian_concat (bytes : List UInt8) (byte : UInt8) :
    bigEndian (bytes ++ [byte]) = bigEndian bytes * 256 + byte.toNat := by
  simp [bigEndian]

theorem bigEndian_numeral (width n : Nat) : bigEndian (numeral width n) = n % Nat.pow 256 width := by
  induction width generalizing n with
  | zero => exact (Nat.mod_one n).symm
  | succ width ih =>
      have power : Nat.pow 256 (width + 1) = 256 * Nat.pow 256 width := Nat.pow_succ'
      rw [numeral, bigEndian_concat, ih, power, Nat.mod_mul, UInt8.toNat_ofNat']
      omega

theorem numeral_bigEndian (bytes : List UInt8) : numeral bytes.length (bigEndian bytes) = bytes := by
  induction bytes using List.reverseRecOn with
  | nil => rfl
  | append_singleton bytes byte ih =>
      have small := byte.toNat_lt
      have higher : (bigEndian bytes * 256 + byte.toNat) / 256 = bigEndian bytes := by omega
      have lowest : UInt8.ofNat (bigEndian bytes * 256 + byte.toNat) = byte := by
        apply UInt8.toNat_inj.mp
        rw [UInt8.toNat_ofNat']
        omega
      rw [bigEndian_concat, List.length_append, List.length_singleton, numeral, higher, lowest, ih]

theorem bigEndian_lt (bytes : List UInt8) : bigEndian bytes < Nat.pow 256 bytes.length := by
  rw [← numeral_bigEndian bytes, bigEndian_numeral, length_numeral]
  exact Nat.mod_lt _ (Nat.pow_pos (by decide))

theorem numeral_mod (width n : Nat) : numeral width (n % Nat.pow 256 width) = numeral width n := by
  have spelled := numeral_bigEndian (numeral width n)
  rwa [bigEndian_numeral, length_numeral] at spelled

/-- The higher bytes of a numeral are a numeral of their own. -/
theorem numeral_add (higher lower n : Nat) :
    numeral (higher + lower) n = numeral higher (n / Nat.pow 256 lower) ++ numeral lower n := by
  induction lower generalizing n with
  | zero => simp [numeral]
  | succ lower ih =>
      have power : Nat.pow 256 (lower + 1) = 256 * Nat.pow 256 lower := Nat.pow_succ'
      rw [← Nat.add_assoc, numeral, ih, numeral, Nat.div_div_eq_div_mul, power, List.append_assoc]

def word2 (word : UInt16) : List UInt8 := numeral 2 word.toNat

def word4 (word : UInt32) : List UInt8 := numeral 4 word.toNat

def word8 (word : UInt64) : List UInt8 := numeral 8 word.toNat

@[simp] theorem length_word2 (word : UInt16) : (word2 word).length = 2 := length_numeral ..

@[simp] theorem length_word4 (word : UInt32) : (word4 word).length = 4 := length_numeral ..

@[simp] theorem bigEndian_word2 (word : UInt16) : bigEndian (word2 word) = word.toNat := by
  rw [word2, bigEndian_numeral]
  exact Nat.mod_eq_of_lt word.toNat_lt

@[simp] theorem bigEndian_word4 (word : UInt32) : bigEndian (word4 word) = word.toNat := by
  rw [word4, bigEndian_numeral]
  exact Nat.mod_eq_of_lt word.toNat_lt

theorem exists_word2 {bytes : List UInt8} (two : bytes.length = 2) : ∃ word, bytes = word2 word := by
  have small := bigEndian_lt bytes
  have spelled := numeral_bigEndian bytes
  rw [two] at small spelled
  refine ⟨UInt16.ofNat (bigEndian bytes), ?_⟩
  rw [word2, UInt16.toNat_ofNat_of_lt' small, spelled]

theorem exists_word4 {bytes : List UInt8} (four : bytes.length = 4) :
    ∃ word, bytes = word4 word := by
  have small := bigEndian_lt bytes
  have spelled := numeral_bigEndian bytes
  rw [four] at small spelled
  refine ⟨UInt32.ofNat (bigEndian bytes), ?_⟩
  rw [word4, UInt32.toNat_ofNat_of_lt' small, spelled]

theorem exists_append_of_le {bytes : List UInt8} {n : Nat} (enough : n ≤ bytes.length) :
    ∃ front back, bytes = front ++ back ∧ front.length = n :=
  ⟨bytes.take n, bytes.drop n, (List.take_append_drop n bytes).symm, List.length_take_of_le enough⟩

theorem exists_word2_append (bytes : List UInt8) (enough : 2 ≤ bytes.length) :
    ∃ word more, bytes = word2 word ++ more := by
  obtain ⟨front, more, rfl, two⟩ := exists_append_of_le enough
  obtain ⟨word, rfl⟩ := exists_word2 two
  exact ⟨word, more, rfl⟩

theorem exists_word4_append (bytes : List UInt8) (enough : 4 ≤ bytes.length) :
    ∃ word more, bytes = word4 word ++ more := by
  obtain ⟨front, more, rfl, four⟩ := exists_append_of_le enough
  obtain ⟨word, rfl⟩ := exists_word4 four
  exact ⟨word, more, rfl⟩

/-- Where every sequence of `size` bytes writes an item, a whole number of them writes a list. -/
theorem exists_flatMap {α : Type} {encode : α → List UInt8} {size : Nat}
    (written : ∀ bytes : List UInt8, bytes.length = size → ∃ item, bytes = encode item) (count : Nat)
    {bytes : List UInt8} (whole : bytes.length = count * size) :
    ∃ items : List α, items.length = count ∧ bytes = items.flatMap encode := by
  induction count generalizing bytes with
  | zero => exact ⟨[], rfl, List.eq_nil_of_length_eq_zero (by omega)⟩
  | succ count ih =>
      rw [Nat.succ_mul] at whole
      have enough : size ≤ bytes.length := by omega
      obtain ⟨front, back, rfl, sized⟩ := exists_append_of_le enough
      obtain ⟨item, rfl⟩ := written front sized
      have remaining : back.length = count * size := by
        rw [List.length_append, sized] at whole
        omega
      obtain ⟨items, counted, rfl⟩ := ih remaining
      exact ⟨item :: items, by rw [List.length_cons, counted], rfl⟩

theorem length_flatMap {α : Type} {encode : α → List UInt8} {size : Nat}
    (sized : ∀ item, (encode item).length = size) (items : List α) :
    (items.flatMap encode).length = items.length * size := by
  induction items with
  | nil => simp
  | cons item items ih =>
      rw [List.flatMap_cons, List.length_append, sized, ih, List.length_cons, Nat.succ_mul,
        Nat.add_comm]

theorem halves_lt (high low : UInt32) : high.toNat * UInt32.size + low.toNat < UInt64.size := by
  have highSmall := high.toNat_lt
  have lowSmall := low.toNat_lt
  rw [UInt32.size, UInt64.size]
  omega

/-- A long word is its two halves. -/
theorem word8_ofNat (high low : UInt32) :
    word8 (UInt64.ofNat (high.toNat * UInt32.size + low.toNat)) = word4 high ++ word4 low := by
  have lowSmall := low.toNat_lt_size
  have power : Nat.pow 256 4 = UInt32.size := rfl
  have upper : (high.toNat * UInt32.size + low.toNat) / Nat.pow 256 4 = high.toNat := by
    rw [power, Nat.mul_comm, Nat.mul_add_div (show 0 < UInt32.size by decide),
      Nat.div_eq_of_lt lowSmall, Nat.add_zero]
  have lower : (high.toNat * UInt32.size + low.toNat) % Nat.pow 256 4 = low.toNat := by
    rw [power, Nat.mul_comm, Nat.mul_add_mod, Nat.mod_eq_of_lt lowSmall]
  rw [word8, UInt64.toNat_ofNat_of_lt' (halves_lt high low), numeral_add 4 4, upper,
    ← numeral_mod 4 (_ + _), lower]
  rfl

theorem exists_halves (word : UInt64) :
    ∃ high low : UInt32, word = UInt64.ofNat (high.toNat * UInt32.size + low.toNat) := by
  have small := word.toNat_lt
  refine ⟨UInt32.ofNat (word.toNat / UInt32.size), UInt32.ofNat word.toNat, ?_⟩
  have whole : (UInt32.ofNat (word.toNat / UInt32.size)).toNat * UInt32.size +
      (UInt32.ofNat word.toNat).toNat = word.toNat := by
    rw [UInt32.toNat_ofNat', UInt32.toNat_ofNat', UInt32.size]
    omega
  rw [whole, UInt64.ofNat_toNat]

/-- The two's complement reading of a word is the signed word with the same bits. -/
theorem twosComplement_toNat {bits : Nat} (word : BitVec (bits + 1)) :
    twosComplement (bits + 1) word.toNat = word.toInt := by
  have power : Nat.pow 2 (bits + 1) = 2 * Nat.pow 2 bits := Nat.pow_succ'
  rw [twosComplement, BitVec.toInt_eq_toNat_cond, Nat.add_sub_cancel, ← Nat.pow_eq, power]
  split <;> split <;> omega

theorem twosComplement_toUInt32 (value : Int32) :
    twosComplement 32 value.toUInt32.toNat = value.toInt :=
  twosComplement_toNat value.toBitVec

theorem twosComplement_toUInt64 (value : Int64) :
    twosComplement 64 value.toUInt64.toNat = value.toInt :=
  twosComplement_toNat value.toBitVec

/-- A word whose signed reading is not negative is read as it stands. -/
theorem twosComplement_nonneg {n : Nat} (nonnegative : 0 ≤ twosComplement 32 n)
    (word : n < UInt32.size) : twosComplement 32 n = n ∧ n < Nat.pow 2 31 := by
  unfold twosComplement at *
  split at nonnegative
  case isTrue low => exact ⟨if_pos low, low⟩
  case isFalse high =>
    have power : Nat.pow 2 32 = UInt32.size := rfl
    omega

end ClassAtlas.ClassFile

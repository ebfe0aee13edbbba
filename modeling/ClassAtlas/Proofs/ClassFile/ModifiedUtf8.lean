import ClassAtlas.ClassFile.ModifiedUtf8
import ClassAtlas.Proofs.Text.Utf8

/-!
Texts as class records hold them. A character is written as its UTF-16 units, and each unit takes one
to three bytes, none of them zero. Decoding undoes this for every text: the rule by units does, and
where the bytes happen to be plain UTF-8 as well, the two rules give the same text. On plain UTF-8 at
large they differ only where a character takes four bytes, which are no units.
-/

namespace ClassAtlas.ClassFile.ModifiedUtf8

/-- The bytes of a UTF-16 unit. NUL takes two, as if it were beyond ASCII. -/
def encodeUnit (unit : Nat) : List UInt8 :=
  if 0x01 ≤ unit ∧ unit ≤ 0x7F then [UInt8.ofNat unit]
  else if unit ≤ 0x7FF then [UInt8.ofNat (0xC0 + unit / 64), UInt8.ofNat (0x80 + unit % 64)]
  else
    [UInt8.ofNat (0xE0 + unit / 4096), UInt8.ofNat (0x80 + unit / 64 % 64),
      UInt8.ofNat (0x80 + unit % 64)]

/-- The UTF-16 units of a character: one in the basic plane, two surrogates beyond it. -/
def unitsOf (c : Char) : List Nat :=
  if c.toNat < 0x10000 then [c.toNat]
  else [0xD800 + (c.toNat - 0x10000) / 0x400, 0xDC00 + (c.toNat - 0x10000) % 0x400]

def encode (text : String) : List UInt8 :=
  (text.toList.flatMap unitsOf).flatMap encodeUnit

section Bytes

/-- The bounds of a byte that is given by its number. -/
theorem ofNat_between {n : Nat} (small : n < 256) (low high : UInt8) :
    low ≤ UInt8.ofNat n ∧ UInt8.ofNat n ≤ high ↔ low.toNat ≤ n ∧ n ≤ high.toNat := by
  rw [UInt8.le_iff_toNat_le, UInt8.le_iff_toNat_le, UInt8.toNat_ofNat_of_lt' small]

theorem continuation?_ofNat {bits : Nat} (small : bits < 64) :
    continuation? (UInt8.ofNat (0x80 + bits)) = some bits := by
  have byte : 0x80 + bits < 256 := by omega
  have inRange := (ofNat_between byte 0x80 0xBF).mpr (by change 128 ≤ _ ∧ _ ≤ 191; omega)
  rw [continuation?, if_pos inRange, UInt8.toNat_ofNat_of_lt' byte]
  congr 1
  omega

variable (rest : List UInt8)

theorem units?_single {n : Nat} (least : 1 ≤ n) (greatest : n ≤ 0x7F) :
    units? (UInt8.ofNat n :: rest) = (units? rest).map (n :: ·) := by
  have byte : n < 256 := by omega
  have single := (ofNat_between byte 0x01 0x7F).mpr ⟨least, greatest⟩
  rw [units?.eq_def]
  simp only [if_pos single, UInt8.toNat_ofNat_of_lt' byte]
  cases units? rest <;> rfl

theorem units?_double {lead low : Nat} (leadSmall : lead < 32) (lowSmall : low < 64) :
    units? (UInt8.ofNat (0xC0 + lead) :: UInt8.ofNat (0x80 + low) :: rest) =
      (units? rest).map ((lead * 64 + low) :: ·) := by
  have byte : 0xC0 + lead < 256 := by omega
  have notSingle := (ofNat_between byte 0x01 0x7F).not.mpr (by change ¬ (1 ≤ _ ∧ _ ≤ 127); omega)
  have double := (ofNat_between byte 0xC0 0xDF).mpr (by change 192 ≤ _ ∧ _ ≤ 223; omega)
  have payload : (0xC0 + lead) % 32 = lead := by omega
  rw [units?.eq_def]
  simp only [if_neg notSingle, if_pos double, continuation?_ofNat lowSmall,
    UInt8.toNat_ofNat_of_lt' byte, payload]
  cases units? rest <;> rfl

/-- From 0xE0 on, a byte opens no unit of one or two bytes. -/
theorem not_single_or_double {n : Nat} (least : 0xE0 ≤ n) (byte : n < 256) :
    ¬ (0x01 ≤ UInt8.ofNat n ∧ UInt8.ofNat n ≤ 0x7F) ∧
      ¬ (0xC0 ≤ UInt8.ofNat n ∧ UInt8.ofNat n ≤ 0xDF) := by
  rw [ofNat_between byte, ofNat_between byte]
  change ¬ (1 ≤ n ∧ n ≤ 127) ∧ ¬ (192 ≤ n ∧ n ≤ 223)
  omega

theorem units?_triple {lead high low : Nat} (leadSmall : lead < 16) (highSmall : high < 64)
    (lowSmall : low < 64) :
    units? (UInt8.ofNat (0xE0 + lead) :: UInt8.ofNat (0x80 + high) :: UInt8.ofNat (0x80 + low) :: rest) =
      (units? rest).map ((lead * 4096 + high * 64 + low) :: ·) := by
  have byte : 0xE0 + lead < 256 := by omega
  obtain ⟨notSingle, notDouble⟩ := not_single_or_double (Nat.le_add_right ..) byte
  have triple := (ofNat_between byte 0xE0 0xEF).mpr (by change 224 ≤ _ ∧ _ ≤ 239; omega)
  have payload : (0xE0 + lead) % 16 = lead := by omega
  rw [units?.eq_def]
  simp only [if_neg notSingle, if_neg notDouble, if_pos triple, continuation?_ofNat highSmall,
    continuation?_ofNat lowSmall, UInt8.toNat_ofNat_of_lt' byte, payload]
  cases units? rest <;> rfl

/-- The first byte of four in plain UTF-8 opens no unit. -/
theorem units?_quadruple {n : Nat} (least : 0xF0 ≤ n) (byte : n < 256) :
    units? (UInt8.ofNat n :: rest) = none := by
  obtain ⟨notSingle, notDouble⟩ := not_single_or_double (by omega) byte
  have notTriple := (ofNat_between byte 0xE0 0xEF).not.mpr (by change ¬ (224 ≤ _ ∧ _ ≤ 239); omega)
  rw [units?.eq_def]
  simp only [if_neg notSingle, if_neg notDouble, if_neg notTriple]

end Bytes

/-- The bytes of a unit give it back, whatever follows. -/
theorem units?_encodeUnit {unit : Nat} (small : unit < 0x10000) (rest : List UInt8) :
    units? (encodeUnit unit ++ rest) = (units? rest).map (unit :: ·) := by
  unfold encodeUnit
  split
  case isTrue single => exact units?_single rest single.1 single.2
  case isFalse =>
    split
    case isTrue double =>
      have leadSmall : unit / 64 < 32 := by omega
      have joined : unit / 64 * 64 + unit % 64 = unit := by omega
      have read := units?_double rest leadSmall (Nat.mod_lt unit (by decide : 0 < 64))
      rwa [joined] at read
    case isFalse =>
      have leadSmall : unit / 4096 < 16 := by omega
      have joined : unit / 4096 * 4096 + unit / 64 % 64 * 64 + unit % 64 = unit := by omega
      have read := units?_triple rest leadSmall (Nat.mod_lt (unit / 64) (by decide : 0 < 64))
        (Nat.mod_lt unit (by decide : 0 < 64))
      rwa [joined] at read

theorem units?_flatMap_encodeUnit {units : List Nat} (small : ∀ unit ∈ units, unit < 0x10000) :
    units? (units.flatMap encodeUnit) = some units := by
  induction units with
  | nil => rw [List.flatMap_nil, units?]
  | cons unit units ih =>
      obtain ⟨here, later⟩ := List.forall_mem_cons.mp small
      rw [List.flatMap_cons, units?_encodeUnit here, ih later, Option.map_some]

section Characters

/-- No character stands in the range of the surrogates. -/
theorem toNat_bounds (c : Char) : c.toNat < 0xD800 ∨ 0xDFFF < c.toNat ∧ c.toNat < 0x110000 :=
  c.valid

theorem unitsOf_lt {c : Char} {unit : Nat} (written : unit ∈ unitsOf c) : unit < 0x10000 := by
  have bounds := toNat_bounds c
  unfold unitsOf at written
  split at written
  case isTrue narrow => rwa [List.mem_singleton.mp written]
  case isFalse wide =>
    simp only [List.mem_cons, List.not_mem_nil, or_false] at written
    omega

/-- The units of a character give it back, whatever follows. -/
theorem ofUnits?_unitsOf (c : Char) (rest : List Nat) :
    ofUnits? (unitsOf c ++ rest) = (ofUnits? rest).map (c :: ·) := by
  have bounds := toNat_bounds c
  unfold unitsOf
  split
  case isTrue narrow =>
    have notHigh : isHighSurrogate c.toNat = false := by
      simp only [isHighSurrogate, Bool.and_eq_false_iff, decide_eq_false_iff_not]
      omega
    have notLow : isLowSurrogate c.toNat = false := by
      simp only [isLowSurrogate, Bool.and_eq_false_iff, decide_eq_false_iff_not]
      omega
    rw [List.singleton_append, ofUnits?.eq_def]
    simp only [notHigh, notLow, Char.ofNat_toNat]
    cases ofUnits? rest <;> rfl
  case isFalse wide =>
    generalize numbered : c.toNat - 0x10000 = beyond
    have high : isHighSurrogate (0xD800 + beyond / 0x400) = true := by
      simp only [isHighSurrogate, Bool.and_eq_true, decide_eq_true_eq]
      omega
    have low : isLowSurrogate (0xDC00 + beyond % 0x400) = true := by
      simp only [isLowSurrogate, Bool.and_eq_true, decide_eq_true_eq]
      omega
    have paired : 0x10000 + (0xD800 + beyond / 0x400 - 0xD800) * 0x400
        + (0xDC00 + beyond % 0x400 - 0xDC00) = c.toNat := by omega
    rw [List.cons_append, List.singleton_append, ofUnits?.eq_def]
    simp only [high, low, paired, Char.ofNat_toNat, if_true]
    cases ofUnits? rest <;> rfl

theorem ofUnits?_flatMap_unitsOf (chars : List Char) :
    ofUnits? (chars.flatMap unitsOf) = some chars := by
  induction chars with
  | nil => rw [List.flatMap_nil, ofUnits?]
  | cons c chars ih => rw [List.flatMap_cons, ofUnits?_unitsOf, ih, Option.map_some]

end Characters

theorem decodeUnits_encode (text : String) : decodeUnits (encode text) = some text := by
  have small : ∀ unit ∈ text.toList.flatMap unitsOf, unit < 0x10000 := by
    intro unit written
    obtain ⟨c, -, ofChar⟩ := List.mem_flatMap.mp written
    exact unitsOf_lt ofChar
  rw [decodeUnits, encode, units?_flatMap_encodeUnit small, Option.bind_eq_bind, Option.bind_some,
    ofUnits?_flatMap_unitsOf, Option.bind_eq_bind, Option.bind_some, String.ofList_toList]
  rfl

section Plain

theorem decodePlain_eq_some_iff {raw : List UInt8} {text : String} :
    decodePlain raw = some text ↔ Text.utf8 text = raw ∧ '\x00' ∉ text.toList := by
  have valid : String.fromUTF8? ⟨raw.toArray⟩ = some text ↔ Text.utf8 text = raw := by
    constructor
    · intro read
      unfold String.fromUTF8? at read
      split at read
      case isTrue => cases read; rfl
      case isFalse => cases read
    · rintro rfl
      have bytes : (⟨(Text.utf8 text).toArray⟩ : ByteArray) = text.toByteArray := rfl
      rw [bytes, String.fromUTF8?, dif_pos text.isValidUTF8]
      rfl
  rw [← valid, decodePlain]
  constructor
  · intro decoded
    obtain ⟨found, read, checked⟩ := Option.bind_eq_some_iff.mp decoded
    split at checked
    case isTrue => cases checked
    case isFalse clean =>
      cases checked
      exact ⟨read, by simpa using clean⟩
  · rintro ⟨read, noNul⟩
    simp [read, noNul]

/-- In the basic plane, NUL apart, a character has its bytes of plain UTF-8. -/
theorem utf8EncodeChar_narrow {c : Char} (notNul : c ≠ '\x00') (narrow : c.toNat < 0x10000) :
    String.utf8EncodeChar c = encodeUnit c.toNat := by
  have positive : 1 ≤ c.toNat := by
    rw [Nat.one_le_iff_ne_zero]
    intro zero
    exact notNul (Char.ext (UInt32.toNat_inj.mp zero))
  change _ = encodeUnit c.val.toNat
  change c.val.toNat < 0x10000 at narrow
  change 1 ≤ c.val.toNat at positive
  unfold String.utf8EncodeChar encodeUnit
  generalize c.val.toNat = n at narrow positive
  simp only [positive, true_and]
  split_ifs
  · rfl
  · have lead : n / 64 % 32 + 192 = 0xC0 + n / 64 := by omega
    rw [lead, Nat.add_comm (n % 64)]
  · have lead : n / 4096 % 16 + 224 = 0xE0 + n / 4096 := by omega
    rw [lead, Nat.add_comm (n % 64), Nat.add_comm (n / 64 % 64)]
  · omega

theorem units?_utf8EncodeChar_wide {c : Char} (wide : 0x10000 ≤ c.toNat) (rest : List UInt8) :
    units? (String.utf8EncodeChar c ++ rest) = none := by
  change 0x10000 ≤ c.val.toNat at wide
  unfold String.utf8EncodeChar
  generalize c.val.toNat = n at wide
  simp only
  split_ifs
  · omega
  · omega
  · omega
  · exact units?_quadruple _ (Nat.le_add_left ..) (by omega)

theorem utf8_eq_encode {text : String} (noNul : '\x00' ∉ text.toList)
    (narrow : ∀ c ∈ text.toList, c.toNat < 0x10000) : Text.utf8 text = encode text := by
  rw [Text.utf8_eq, encode, List.flatMap_assoc]
  apply List.flatMap_congr
  intro c member
  have notNul : c ≠ '\x00' := fun same => noNul (same ▸ member)
  rw [utf8EncodeChar_narrow notNul (narrow c member), unitsOf, if_pos (narrow c member),
    List.flatMap_singleton]

theorem units?_flatMap_wide {chars : List Char} (noNul : '\x00' ∉ chars)
    (wide : ∃ c ∈ chars, 0x10000 ≤ c.toNat) :
    units? (chars.flatMap String.utf8EncodeChar) = none := by
  induction chars with
  | nil =>
      obtain ⟨_, member, -⟩ := wide
      cases member
  | cons c chars ih =>
      rw [List.flatMap_cons]
      by_cases narrow : c.toNat < 0x10000
      · obtain ⟨notNul, later⟩ := not_or.mp (List.mem_cons.not.mp noNul)
        obtain ⟨other, member, beyond⟩ := wide
        have wideLater : ∃ c ∈ chars, 0x10000 ≤ c.toNat := by
          rcases List.mem_cons.mp member with rfl | among
          · omega
          · exact ⟨other, among, beyond⟩
        rw [utf8EncodeChar_narrow (Ne.symm notNul) narrow, units?_encodeUnit narrow,
          ih later wideLater, Option.map_none]
      · exact units?_utf8EncodeChar_wide (Nat.le_of_not_lt narrow) _

/-- Only a character beyond the basic plane has a byte from 0xF0 on. -/
theorem exists_high_byte_iff (c : Char) :
    (∃ byte ∈ String.utf8EncodeChar c, 0xF0 ≤ byte) ↔ 0x10000 ≤ c.toNat := by
  have high {n : Nat} (small : n < 256) : (0xF0 : UInt8) ≤ UInt8.ofNat n ↔ 0xF0 ≤ n := by
    rw [UInt8.le_iff_toNat_le, UInt8.toNat_ofNat_of_lt' small]
    rfl
  have last : c.val.toNat < 0x110000 := by
    have bounds := toNat_bounds c
    change c.val.toNat < 0xD800 ∨ 0xDFFF < c.val.toNat ∧ c.val.toNat < 0x110000 at bounds
    omega
  change _ ↔ 0x10000 ≤ c.val.toNat
  unfold String.utf8EncodeChar
  generalize c.val.toNat = n at last
  simp only
  split_ifs
  all_goals
    simp only [List.mem_cons, List.not_mem_nil, or_false, exists_eq_or_imp, exists_eq_left]
    repeat rw [high (by omega)]
    omega

theorem exists_high_byte_utf8_iff (text : String) :
    (∃ byte ∈ Text.utf8 text, 0xF0 ≤ byte) ↔ ∃ c ∈ text.toList, 0x10000 ≤ c.toNat := by
  rw [Text.utf8_eq]
  simp only [List.mem_flatMap, ← exists_high_byte_iff]
  constructor
  · rintro ⟨byte, ⟨c, member, written⟩, high⟩
    exact ⟨c, member, byte, written, high⟩
  · rintro ⟨c, member, byte, written, high⟩
    exact ⟨byte, ⟨c, member, written⟩, high⟩

/-- Read by units, plain UTF-8 without NUL gives its text unless a character takes four bytes. -/
theorem decodeUnits_utf8 {text : String} (noNul : '\x00' ∉ text.toList) :
    decodeUnits (Text.utf8 text) =
      if ∃ byte ∈ Text.utf8 text, 0xF0 ≤ byte then none else some text := by
  split
  case isTrue high =>
    have wide := (exists_high_byte_utf8_iff text).mp high
    rw [decodeUnits, Text.utf8_eq, units?_flatMap_wide noNul wide]
    rfl
  case isFalse low =>
    have narrow : ∀ c ∈ text.toList, c.toNat < 0x10000 := by
      intro c member
      by_contra beyond
      exact low ((exists_high_byte_utf8_iff text).mpr ⟨c, member, Nat.le_of_not_lt beyond⟩)
    rw [utf8_eq_encode noNul narrow, decodeUnits_encode]

/-- Read by units, plain UTF-8 without NUL gives its own text or none. -/
theorem eq_of_decodeUnits_utf8 {text other : String} (noNul : '\x00' ∉ text.toList)
    (decoded : decodeUnits (Text.utf8 text) = some other) : other = text := by
  rw [decodeUnits_utf8 noNul] at decoded
  split at decoded
  case isTrue => cases decoded
  case isFalse => exact (Option.some.inj decoded).symm

end Plain

section Zero

theorem ne_zero_of_le {low byte : UInt8} (positive : 0 < low) (least : low ≤ byte) : 0 ≠ byte := by
  intro zero
  rw [← zero] at least
  exact UInt8.lt_irrefl 0 (UInt8.lt_of_lt_of_le positive least)

theorem ne_zero_of_continuation? {byte : UInt8} {bits : Nat} (found : continuation? byte = some bits) :
    0 ≠ byte := by
  intro zero
  rw [← zero] at found
  cases found

/-- No unit has a zero byte. -/
theorem zero_not_mem_of_units? {raw : List UInt8} {units : List Nat} (found : units? raw = some units) :
    0 ∉ raw := by
  fun_induction units? raw generalizing units with
  | case1 => exact List.not_mem_nil
  | case2 b0 rest single ih =>
      obtain ⟨more, foundMore, -⟩ := Option.bind_eq_some_iff.mp found
      have lead : 0 ≠ b0 := ne_zero_of_le (by decide) single.1
      simp [lead, ih foundMore]
  | case3 b0 single double b1 rest ih =>
      obtain ⟨x1, bits, foundRest⟩ := Option.bind_eq_some_iff.mp found
      obtain ⟨more, foundMore, -⟩ := Option.bind_eq_some_iff.mp foundRest
      have lead : 0 ≠ b0 := ne_zero_of_le (by decide) double.1
      simp [lead, ne_zero_of_continuation? bits, ih foundMore]
  | case4 => cases found
  | case5 b0 single double triple b1 b2 rest ih =>
      obtain ⟨x1, bits, foundRest⟩ := Option.bind_eq_some_iff.mp found
      obtain ⟨x2, bits2, foundRest2⟩ := Option.bind_eq_some_iff.mp foundRest
      obtain ⟨more, foundMore, -⟩ := Option.bind_eq_some_iff.mp foundRest2
      have lead : 0 ≠ b0 := ne_zero_of_le (by decide) triple.1
      simp [lead, ne_zero_of_continuation? bits, ne_zero_of_continuation? bits2, ih foundMore]
  | case6 => cases found
  | case7 => cases found

theorem zero_not_mem_utf8 {text : String} (noNul : '\x00' ∉ text.toList) : 0 ∉ Text.utf8 text := by
  intro zero
  rw [Text.utf8_eq] at zero
  obtain ⟨c, member, written⟩ := List.mem_flatMap.mp zero
  have nul := (Text.toUInt8_mem_utf8EncodeChar (x := '\x00') (by decide)).mp written
  exact noNul (nul ▸ member)

end Zero

/-- Every text comes back from its bytes, whichever of the two rules reads them. -/
theorem decode_encode (text : String) : decode (encode text) = some text := by
  unfold decode
  cases plain : decodePlain (encode text) with
  | none => exact decodeUnits_encode text
  | some found =>
      obtain ⟨written, noNul⟩ := decodePlain_eq_some_iff.mp plain
      have byUnits := decodeUnits_encode text
      rw [← written] at byUnits
      exact congrArg some (eq_of_decodeUnits_utf8 noNul byUnits).symm

/-- The two rules compared. The one for plain texts answers on UTF-8 without NUL; there the rule by
units gives the same text, or none if some byte is 0xF0 or more. Neither takes a zero byte. -/
theorem rules_agree_below_four_bytes (raw : List UInt8) :
    (∀ text, decodePlain raw = some text ↔ Text.utf8 text = raw ∧ '\x00' ∉ text.toList) ∧
      (∀ text, decodePlain raw = some text →
        decodeUnits raw = if ∃ byte ∈ raw, 0xF0 ≤ byte then none else some text) ∧
      (0 ∈ raw → decodePlain raw = none ∧ decodeUnits raw = none) := by
  refine ⟨fun text => decodePlain_eq_some_iff, ?_, ?_⟩
  · intro text plain
    obtain ⟨rfl, noNul⟩ := decodePlain_eq_some_iff.mp plain
    exact decodeUnits_utf8 noNul
  · intro zero
    constructor
    · rw [Option.eq_none_iff_forall_ne_some]
      intro text plain
      obtain ⟨rfl, noNul⟩ := decodePlain_eq_some_iff.mp plain
      exact zero_not_mem_utf8 noNul zero
    · rw [Option.eq_none_iff_forall_ne_some]
      intro text decoded
      obtain ⟨units, found, -⟩ := Option.bind_eq_some_iff.mp decoded
      exact zero_not_mem_of_units? found zero

example : decodePlain [0xF0, 0x9F, 0x98, 0x80] = some "😀" ∧
    decodeUnits [0xF0, 0x9F, 0x98, 0x80] = none := by
  decide +kernel

end ClassAtlas.ClassFile.ModifiedUtf8

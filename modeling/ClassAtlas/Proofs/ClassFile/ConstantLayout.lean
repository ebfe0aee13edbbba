import ClassAtlas.Proofs.ClassFile.Decoding

/-!
The layout of the constant pool. Constants follow each other without padding, and a wide one takes
two slots. The declared count is that of the slots with slot 0, except that it may leave out the
second slot of a wide constant at the end.
-/

namespace ClassAtlas.ClassFile

/-- A text in modified UTF-8 after its length. -/
def encodeText (raw : List UInt8) : List UInt8 :=
  numeral 2 raw.length ++ raw

def TextMeans (raw : List UInt8) (c : Constant) : Prop :=
  raw.length < UInt16.size ∧ ∃ text, ModifiedUtf8.decode raw = some text ∧ c = .utf8 text

inductive ConstantLayout where
  | utf8 (raw : List UInt8)
  | integer (value : Int32)
  | float (bits : UInt32)
  | long (value : Int64)
  | double (bits : UInt64)
  | classInfo (nameIndex : UInt16)
  | string (stringIndex : UInt16)
  | fieldRef (classIndex nameAndTypeIndex : UInt16)
  | methodRef (classIndex nameAndTypeIndex : UInt16)
  | interfaceMethodRef (classIndex nameAndTypeIndex : UInt16)
  | nameAndType (nameIndex descriptorIndex : UInt16)
  | methodHandle (kind : UInt8) (referenceIndex : UInt16)
  | methodType (descriptorIndex : UInt16)
  | dynamic (bootstrapIndex nameAndTypeIndex : UInt16)
  | invokeDynamic (bootstrapIndex nameAndTypeIndex : UInt16)
  | moduleInfo (nameIndex : UInt16)
  | packageInfo (nameIndex : UInt16)

namespace ConstantLayout

def tag : ConstantLayout → UInt8
  | .utf8 _ => 1
  | .integer _ => 3
  | .float _ => 4
  | .long _ => 5
  | .double _ => 6
  | .classInfo _ => 7
  | .string _ => 8
  | .fieldRef _ _ => 9
  | .methodRef _ _ => 10
  | .interfaceMethodRef _ _ => 11
  | .nameAndType _ _ => 12
  | .methodHandle _ _ => 15
  | .methodType _ => 16
  | .dynamic _ _ => 17
  | .invokeDynamic _ _ => 18
  | .moduleInfo _ => 19
  | .packageInfo _ => 20

def body : ConstantLayout → List UInt8
  | .utf8 raw => encodeText raw
  | .integer value => word4 value.toUInt32
  | .float bits => word4 bits
  | .long value => word8 value.toUInt64
  | .double bits => word8 bits
  | .classInfo nameIndex => word2 nameIndex
  | .string stringIndex => word2 stringIndex
  | .fieldRef classIndex nameAndTypeIndex => word2 classIndex ++ word2 nameAndTypeIndex
  | .methodRef classIndex nameAndTypeIndex => word2 classIndex ++ word2 nameAndTypeIndex
  | .interfaceMethodRef classIndex nameAndTypeIndex => word2 classIndex ++ word2 nameAndTypeIndex
  | .nameAndType nameIndex descriptorIndex => word2 nameIndex ++ word2 descriptorIndex
  | .methodHandle kind referenceIndex => kind :: word2 referenceIndex
  | .methodType descriptorIndex => word2 descriptorIndex
  | .dynamic bootstrapIndex nameAndTypeIndex => word2 bootstrapIndex ++ word2 nameAndTypeIndex
  | .invokeDynamic bootstrapIndex nameAndTypeIndex => word2 bootstrapIndex ++ word2 nameAndTypeIndex
  | .moduleInfo nameIndex => word2 nameIndex
  | .packageInfo nameIndex => word2 nameIndex

def encode (layout : ConstantLayout) : List UInt8 :=
  layout.tag :: layout.body

/-- A text decodes as modified UTF-8. The other constants are what they say; the indices in them are
not followed. -/
def Means : ConstantLayout → Constant → Prop
  | .utf8 raw, c => TextMeans raw c
  | .integer value, c => c = .integer value.toInt
  | .float bits, c => c = .float bits.toNat
  | .long value, c => c = .long value.toInt
  | .double bits, c => c = .double bits.toNat
  | .classInfo nameIndex, c => c = .classInfo nameIndex.toNat
  | .string stringIndex, c => c = .string stringIndex.toNat
  | .fieldRef classIndex nameAndTypeIndex, c => c = .fieldRef classIndex.toNat nameAndTypeIndex.toNat
  | .methodRef classIndex nameAndTypeIndex, c =>
    c = .methodRef classIndex.toNat nameAndTypeIndex.toNat
  | .interfaceMethodRef classIndex nameAndTypeIndex, c =>
    c = .interfaceMethodRef classIndex.toNat nameAndTypeIndex.toNat
  | .nameAndType nameIndex descriptorIndex, c =>
    c = .nameAndType nameIndex.toNat descriptorIndex.toNat
  | .methodHandle kind referenceIndex, c => c = .methodHandle kind referenceIndex.toNat
  | .methodType descriptorIndex, c => c = .methodType descriptorIndex.toNat
  | .dynamic bootstrapIndex nameAndTypeIndex, c =>
    c = .dynamic bootstrapIndex.toNat nameAndTypeIndex.toNat
  | .invokeDynamic bootstrapIndex nameAndTypeIndex, c =>
    c = .invokeDynamic bootstrapIndex.toNat nameAndTypeIndex.toNat
  | .moduleInfo nameIndex, c => c = .moduleInfo nameIndex.toNat
  | .packageInfo nameIndex, c => c = .packageInfo nameIndex.toNat

end ConstantLayout

section Fields

/-- An index, of which `k` makes a constant. -/
def WrittenIndex (k : Nat → Constant) : List UInt8 → Constant → Prop :=
  Written word2 fun index c => c = k index.toNat

theorem decodes_index (k : Nat → Constant) :
    Decodes (do return k (← Decoder.u2)) (WrittenIndex k) := by
  refine Decodes.u2.thenPure.congr fun bytes c => ?_
  simp only [WrittenIndex, Written, exists_eq_left]

/-- Two indices in a row, of which `k` makes a constant. -/
def WrittenPair (k : Nat → Nat → Constant) : List UInt8 → Constant → Prop :=
  Written (fun indices : UInt16 × UInt16 => word2 indices.1 ++ word2 indices.2)
    fun indices c => c = k indices.1.toNat indices.2.toNat

theorem decodes_indices (k : Nat → Nat → Constant) :
    Decodes (do return k (← Decoder.u2) (← Decoder.u2)) (WrittenPair k) := by
  refine (Decodes.u2.andThen fun first => Decodes.u2.thenPure).congr fun bytes c => ?_
  simp only [WrittenPair, Written, exists_eq_left]

theorem decodes_text (index : Nat) :
    Decodes (do
        let raw ← Decoder.bytes (← Decoder.u2)
        match ModifiedUtf8.decode raw with
        | some text => return Constant.utf8 text
        | none => Decoder.fail (.invalidUtf8 index))
      (Written encodeText TextMeans) := by
  have checked (raw : List UInt8) :
      Decodes (match ModifiedUtf8.decode raw with
          | some text => return Constant.utf8 text
          | none => Decoder.fail (.invalidUtf8 index))
        fun bytes c =>
          bytes = [] ∧ ∃ text, ModifiedUtf8.decode raw = some text ∧ c = .utf8 text := by
    cases ModifiedUtf8.decode raw with
    | none => exact (Decodes.fail _).congr (by simp)
    | some text => exact (Decodes.pure _).congr (by simp)
  refine ((Decodes.numeral 2).bind fun n => (Decodes.bytes n).bind checked).congr fun bytes c => ?_
  constructor
  · rintro ⟨_, _, _, rfl, ⟨small, rfl⟩, raw, _, _, rfl, ⟨rfl, rfl⟩, rfl, decoded⟩
    refine ⟨_, ?_, small, decoded⟩
    rw [List.append_nil]
    rfl
  · rintro ⟨raw, rfl, small, decoded⟩
    exact ⟨_, _, _, rfl, ⟨small, rfl⟩, raw, [], raw, (List.append_nil raw).symm, ⟨rfl, rfl⟩, rfl,
      decoded⟩

theorem decodes_integer :
    Decodes (do return Constant.integer (twosComplement 32 (← Decoder.u4)))
      (Written (fun value : Int32 => word4 value.toUInt32) fun value c => c = .integer value.toInt) := by
  refine Decodes.u4.thenPure.congr fun bytes c => ?_
  constructor
  · rintro ⟨bits, rfl, _, rfl, rfl⟩
    have signed := twosComplement_toUInt32 bits.toInt32
    rw [UInt32.toUInt32_toInt32] at signed
    exact ⟨bits.toInt32, congrArg word4 (UInt32.toUInt32_toInt32 bits).symm,
      congrArg _ signed⟩
  · rintro ⟨value, rfl, rfl⟩
    exact ⟨value.toUInt32, rfl, _, rfl, congrArg _ (twosComplement_toUInt32 value).symm⟩

theorem decodes_long :
    Decodes (do return Constant.long (twosComplement 64 (← Decoder.u8)))
      (Written (fun value : Int64 => word8 value.toUInt64) fun value c => c = .long value.toInt) := by
  refine Decodes.u8.thenPure.congr fun bytes c => ?_
  constructor
  · rintro ⟨bits, rfl, _, rfl, rfl⟩
    have signed := twosComplement_toUInt64 bits.toInt64
    rw [UInt64.toUInt64_toInt64] at signed
    exact ⟨bits.toInt64, congrArg word8 (UInt64.toUInt64_toInt64 bits).symm,
      congrArg _ signed⟩
  · rintro ⟨value, rfl, rfl⟩
    exact ⟨value.toUInt64, rfl, _, rfl, congrArg _ (twosComplement_toUInt64 value).symm⟩

theorem decodes_float :
    Decodes (do return Constant.float (← Decoder.u4))
      (Written word4 fun bits c => c = .float bits.toNat) := by
  refine Decodes.u4.thenPure.congr fun bytes c => ?_
  simp only [Written, exists_eq_left]

theorem decodes_double :
    Decodes (do return Constant.double (← Decoder.u8))
      (Written word8 fun bits c => c = .double bits.toNat) := by
  refine Decodes.u8.thenPure.congr fun bytes c => ?_
  simp only [Written, exists_eq_left]

theorem decodes_methodHandle :
    Decodes (do return Constant.methodHandle (← Decoder.u1) (← Decoder.u2))
      (Written (fun pair : UInt8 × UInt16 => pair.1 :: word2 pair.2) fun pair c =>
        c = .methodHandle pair.1 pair.2.toNat) := by
  refine (Decodes.u1.andThen fun kind => Decodes.u2.thenPure).congr fun bytes c => ?_
  simp only [Written, exists_eq_left, List.singleton_append]

end Fields

/-- What the bytes after a tag spell, by the number of the tag. -/
def Payload (tag : UInt8) (bytes : List UInt8) (c : Constant) : Prop :=
  match tag.toNat with
  | 1 => Written encodeText TextMeans bytes c
  | 3 => Written (fun value : Int32 => word4 value.toUInt32)
    (fun value c => c = .integer value.toInt) bytes c
  | 4 => Written word4 (fun bits c => c = .float bits.toNat) bytes c
  | 5 => Written (fun value : Int64 => word8 value.toUInt64)
    (fun value c => c = .long value.toInt) bytes c
  | 6 => Written word8 (fun bits c => c = .double bits.toNat) bytes c
  | 7 => WrittenIndex .classInfo bytes c
  | 8 => WrittenIndex .string bytes c
  | 9 => WrittenPair .fieldRef bytes c
  | 10 => WrittenPair .methodRef bytes c
  | 11 => WrittenPair .interfaceMethodRef bytes c
  | 12 => WrittenPair .nameAndType bytes c
  | 15 => Written (fun pair : UInt8 × UInt16 => pair.1 :: word2 pair.2)
    (fun pair c => c = .methodHandle pair.1 pair.2.toNat) bytes c
  | 16 => WrittenIndex .methodType bytes c
  | 17 => WrittenPair .dynamic bytes c
  | 18 => WrittenPair .invokeDynamic bytes c
  | 19 => WrittenIndex .moduleInfo bytes c
  | 20 => WrittenIndex .packageInfo bytes c
  | _ => False

theorem payload_iff (tag : UInt8) (bytes : List UInt8) (c : Constant) :
    Payload tag bytes c ↔
      ∃ layout : ConstantLayout, layout.tag = tag ∧ bytes = layout.body ∧ layout.Means c := by
  constructor
  · intro spelled
    have numbered {n : Nat} (same : tag.toNat = n) : UInt8.ofNat n = tag := by
      rw [← same, UInt8.ofNat_toNat]
    unfold Payload at spelled
    split at spelled
    case h_1 same =>
      obtain ⟨raw, rfl, means⟩ := spelled
      exact ⟨.utf8 raw, numbered same, rfl, means⟩
    case h_2 same =>
      obtain ⟨value, rfl, means⟩ := spelled
      exact ⟨.integer value, numbered same, rfl, means⟩
    case h_3 same =>
      obtain ⟨bits, rfl, means⟩ := spelled
      exact ⟨.float bits, numbered same, rfl, means⟩
    case h_4 same =>
      obtain ⟨value, rfl, means⟩ := spelled
      exact ⟨.long value, numbered same, rfl, means⟩
    case h_5 same =>
      obtain ⟨bits, rfl, means⟩ := spelled
      exact ⟨.double bits, numbered same, rfl, means⟩
    case h_6 same =>
      obtain ⟨index, rfl, means⟩ := spelled
      exact ⟨.classInfo index, numbered same, rfl, means⟩
    case h_7 same =>
      obtain ⟨index, rfl, means⟩ := spelled
      exact ⟨.string index, numbered same, rfl, means⟩
    case h_8 same =>
      obtain ⟨⟨first, second⟩, rfl, means⟩ := spelled
      exact ⟨.fieldRef first second, numbered same, rfl, means⟩
    case h_9 same =>
      obtain ⟨⟨first, second⟩, rfl, means⟩ := spelled
      exact ⟨.methodRef first second, numbered same, rfl, means⟩
    case h_10 same =>
      obtain ⟨⟨first, second⟩, rfl, means⟩ := spelled
      exact ⟨.interfaceMethodRef first second, numbered same, rfl, means⟩
    case h_11 same =>
      obtain ⟨⟨first, second⟩, rfl, means⟩ := spelled
      exact ⟨.nameAndType first second, numbered same, rfl, means⟩
    case h_12 same =>
      obtain ⟨⟨kind, index⟩, rfl, means⟩ := spelled
      exact ⟨.methodHandle kind index, numbered same, rfl, means⟩
    case h_13 same =>
      obtain ⟨index, rfl, means⟩ := spelled
      exact ⟨.methodType index, numbered same, rfl, means⟩
    case h_14 same =>
      obtain ⟨⟨first, second⟩, rfl, means⟩ := spelled
      exact ⟨.dynamic first second, numbered same, rfl, means⟩
    case h_15 same =>
      obtain ⟨⟨first, second⟩, rfl, means⟩ := spelled
      exact ⟨.invokeDynamic first second, numbered same, rfl, means⟩
    case h_16 same =>
      obtain ⟨index, rfl, means⟩ := spelled
      exact ⟨.moduleInfo index, numbered same, rfl, means⟩
    case h_17 same =>
      obtain ⟨index, rfl, means⟩ := spelled
      exact ⟨.packageInfo index, numbered same, rfl, means⟩
    case h_18 => exact spelled.elim
  · rintro ⟨layout, rfl, rfl, means⟩
    cases layout with
    | fieldRef first second => exact ⟨(first, second), rfl, means⟩
    | methodRef first second => exact ⟨(first, second), rfl, means⟩
    | interfaceMethodRef first second => exact ⟨(first, second), rfl, means⟩
    | nameAndType first second => exact ⟨(first, second), rfl, means⟩
    | methodHandle kind index => exact ⟨(kind, index), rfl, means⟩
    | dynamic first second => exact ⟨(first, second), rfl, means⟩
    | invokeDynamic first second => exact ⟨(first, second), rfl, means⟩
    | _ => exact ⟨_, rfl, means⟩

theorem decodes_constant (index : Nat) :
    Decodes (ConstantPool.constant index) (Written ConstantLayout.encode ConstantLayout.Means) := by
  unfold ConstantPool.constant
  refine (Decodes.u1.bind (T := Payload) fun tag => ?_).congr fun bytes c => ?_
  · unfold Payload
    generalize tag.toNat = number
    split
    case h_1 => exact decodes_text index
    case h_2 => exact decodes_integer
    case h_3 => exact decodes_float
    case h_4 => exact decodes_long
    case h_5 => exact decodes_double
    case h_6 => exact decodes_index _
    case h_7 => exact decodes_index _
    case h_8 => exact decodes_indices _
    case h_9 => exact decodes_indices _
    case h_10 => exact decodes_indices _
    case h_11 => exact decodes_indices _
    case h_12 => exact decodes_methodHandle
    case h_13 => exact decodes_index _
    case h_14 => exact decodes_indices _
    case h_15 => exact decodes_indices _
    case h_16 => exact decodes_index _
    case h_17 => exact decodes_index _
    case h_18 =>
      refine (Decodes.fail _).congr fun bytes c => ?_
      simp_all only
  · constructor
    · rintro ⟨_, _, _, rfl, ⟨tag, rfl, rfl⟩, payload⟩
      obtain ⟨layout, rfl, rfl, means⟩ := (payload_iff _ _ _).mp payload
      exact ⟨layout, rfl, means⟩
    · rintro ⟨layout, rfl, means⟩
      exact ⟨[layout.tag], layout.body, layout.tag, rfl, ⟨layout.tag, rfl, rfl⟩,
        (payload_iff _ _ _).mpr ⟨layout, rfl, rfl, means⟩⟩

/-- The slots that a constant takes. -/
def Constant.slots (c : Constant) : List (Option Constant) :=
  if c.isWide then [some c, none] else [some c]

/-- The constants take up the declared slots, or one more if a wide constant is the last. -/
def Fills (declared : Nat) (constants : List Constant) : Prop :=
  (constants.flatMap Constant.slots).length = declared ∨
    (constants.flatMap Constant.slots).length = declared + 1 ∧
      ∃ c, constants.getLast? = some c ∧ c.isWide = true

section Slots

variable {c : Constant} {constants : List Constant} {left : Nat}

theorem length_slots (c : Constant) : c.slots.length = if c.isWide then 2 else 1 := by
  unfold Constant.slots
  split <;> rfl

theorem length_slots_getLast (last : constants.getLast? = some c) :
    c.slots.length ≤ (constants.flatMap Constant.slots).length := by
  obtain ⟨before, rfl⟩ := List.getLast?_eq_some_iff.mp last
  simp only [List.flatMap_append, List.flatMap_singleton, List.length_append]
  omega

theorem fills_zero : Fills 0 constants ↔ constants = [] := by
  constructor
  · rintro (none | ⟨one, c, last, wide⟩)
    · cases constants with
      | nil => rfl
      | cons c more =>
          have one := length_slots c
          simp only [List.flatMap_cons, List.length_append] at none
          split at one <;> omega
    · have two := length_slots_getLast last
      rw [length_slots, if_pos wide] at two
      omega
  · rintro rfl
    exact .inl rfl

theorem not_fills_nil : ¬ Fills (left + 1) [] := by
  simp [Fills]

theorem fills_narrow (narrow : c.isWide = false) :
    Fills (left + 1) (c :: constants) ↔ Fills left constants := by
  have taken : ((c :: constants).flatMap Constant.slots).length =
      (constants.flatMap Constant.slots).length + 1 := by
    rw [List.flatMap_cons, List.length_append, length_slots, narrow, Nat.add_comm]
    rfl
  have last : (∃ d, (c :: constants).getLast? = some d ∧ d.isWide = true) ↔
      ∃ d, constants.getLast? = some d ∧ d.isWide = true := by
    cases constants with
    | nil => simp [narrow]
    | cons d more => rw [List.getLast?_cons_cons]
  rw [Fills, Fills, taken, last, Nat.add_right_cancel_iff, Nat.add_right_cancel_iff]

theorem fills_wide (wide : c.isWide = true) :
    Fills (left + 1) (c :: constants) ↔
      left = 0 ∧ constants = [] ∨ ∃ more, left = more + 1 ∧ Fills more constants := by
  have taken : ((c :: constants).flatMap Constant.slots).length =
      (constants.flatMap Constant.slots).length + 2 := by
    rw [List.flatMap_cons, List.length_append, length_slots, wide, Nat.add_comm]
    rfl
  rw [Fills, taken]
  constructor
  · rintro (filled | ⟨short, d, last, wideLast⟩)
    · exact .inr ⟨_, by omega, .inl rfl⟩
    · cases constants with
      | nil => exact .inl ⟨by simpa using short.symm, rfl⟩
      | cons e more =>
          rw [List.getLast?_cons_cons] at last
          have two := length_slots_getLast last
          rw [length_slots, if_pos wideLast] at two
          exact .inr ⟨left - 1, by omega, .inr ⟨by omega, d, last, wideLast⟩⟩
  · rintro (⟨rfl, rfl⟩ | ⟨more, rfl, filled | ⟨short, d, last, wideLast⟩⟩)
    · exact .inr ⟨rfl, c, rfl, wide⟩
    · exact .inl (by omega)
    · refine .inr ⟨by omega, d, ?_, wideLast⟩
      rw [List.getLast?_cons, last]
      rfl

end Slots

/-- Constants that fill `left` declared slots, and the slots they take. -/
def SlotsMean (left : Nat) (layouts : List ConstantLayout) (slots : List (Option Constant)) : Prop :=
  ∃ constants, List.Forall₂ ConstantLayout.Means layouts constants ∧ Fills left constants ∧
    slots = constants.flatMap Constant.slots

theorem slotsMean_succ {left : Nat} {layouts : List ConstantLayout}
    {slots : List (Option Constant)} :
    SlotsMean (left + 1) layouts slots ↔ ∃ layout more c constants, layouts = layout :: more ∧
      layout.Means c ∧ List.Forall₂ ConstantLayout.Means more constants ∧
      Fills (left + 1) (c :: constants) ∧ slots = (c :: constants).flatMap Constant.slots := by
  constructor
  · rintro ⟨_, described, filled, rfl⟩
    cases described with
    | nil => exact (not_fills_nil filled).elim
    | cons means more => exact ⟨_, _, _, _, rfl, means, more, filled, rfl⟩
  · rintro ⟨layout, more, c, constants, rfl, means, described, filled, rfl⟩
    exact ⟨_, .cons means described, filled, rfl⟩

/-- The slots that follow the first constant `c` of `left + 1`, with those of `c` itself. -/
theorem decodes_slotsAfter (index left : Nat) (c : Constant)
    (ih : ∀ fewer ≤ left, ∀ index, Decodes (ConstantPool.slotsFrom index fewer)
      (Written (List.flatMap ConstantLayout.encode) (SlotsMean fewer))) :
    Decodes (if c.isWide then
        match left with
        | 0 => return [some c, none]
        | left + 1 => return some c :: none :: (← ConstantPool.slotsFrom (index + 2) left)
      else return some c :: (← ConstantPool.slotsFrom (index + 1) left))
      (Written (List.flatMap ConstantLayout.encode) fun layouts slots =>
        ∃ constants, List.Forall₂ ConstantLayout.Means layouts constants ∧
          Fills (left + 1) (c :: constants) ∧ slots = (c :: constants).flatMap Constant.slots) := by
  split
  case isTrue wide =>
    have both : c.slots = [some c, none] := if_pos wide
    split
    case h_1 =>
      refine (Decodes.pure _).congr fun bytes slots => ?_
      constructor
      · rintro ⟨rfl, rfl⟩
        exact ⟨[], rfl, [], .nil, (fills_wide wide).mpr (.inl ⟨rfl, rfl⟩), by simp [both]⟩
      · rintro ⟨layouts, rfl, constants, described, filled, rfl⟩
        obtain ⟨-, rfl⟩ | ⟨more, none, -⟩ := (fills_wide wide).mp filled
        · obtain rfl := List.forall₂_nil_right_iff.mp described
          exact ⟨rfl, by simp [both]⟩
        · cases none
    case h_2 left =>
      refine (ih left (Nat.le_succ left) _).thenPure.congr fun bytes slots => ?_
      constructor
      · rintro ⟨layouts, rfl, _, ⟨constants, described, filled, rfl⟩, rfl⟩
        exact ⟨layouts, rfl, constants, described,
          (fills_wide wide).mpr (.inr ⟨left, rfl, filled⟩), by simp [both]⟩
      · rintro ⟨layouts, rfl, constants, described, filled, rfl⟩
        obtain ⟨none, -⟩ | ⟨more, same, filled⟩ := (fills_wide wide).mp filled
        · cases none
        · cases same
          exact ⟨layouts, rfl, _, ⟨constants, described, filled, rfl⟩, by simp [both]⟩
  case isFalse narrow =>
    have single : c.slots = [some c] := if_neg narrow
    have narrow := Bool.eq_false_iff.mpr narrow
    refine (ih left (Nat.le_refl left) _).thenPure.congr fun bytes slots => ?_
    constructor
    · rintro ⟨layouts, rfl, _, ⟨constants, described, filled, rfl⟩, rfl⟩
      exact ⟨layouts, rfl, constants, described, (fills_narrow narrow).mpr filled,
        by simp [single]⟩
    · rintro ⟨layouts, rfl, constants, described, filled, rfl⟩
      exact ⟨layouts, rfl, _, ⟨constants, described, (fills_narrow narrow).mp filled, rfl⟩,
        by simp [single]⟩

theorem decodes_slotsFrom (left index : Nat) :
    Decodes (ConstantPool.slotsFrom index left)
      (Written (List.flatMap ConstantLayout.encode) (SlotsMean left)) := by
  -- a wide constant takes two of the declared slots, so a step may lower the count by two
  induction left using Nat.strongRecOn generalizing index with
  | ind left ih =>
      cases left with
      | zero =>
          refine (Decodes.pure []).congr fun bytes slots => ?_
          constructor
          · rintro ⟨rfl, rfl⟩
            exact ⟨[], rfl, [], .nil, fills_zero.mpr rfl, rfl⟩
          · rintro ⟨layouts, rfl, constants, described, filled, rfl⟩
            obtain rfl := fills_zero.mp filled
            obtain rfl := List.forall₂_nil_right_iff.mp described
            exact ⟨rfl, rfl⟩
      | succ left =>
          unfold ConstantPool.slotsFrom
          refine ((decodes_constant index).andThen fun c => decodes_slotsAfter index left c
            fun fewer few => ih fewer (Nat.lt_succ_of_le few)).congr fun bytes slots => ?_
          constructor
          · rintro ⟨⟨layout, more⟩, rfl, c, means, constants, described, filled, rfl⟩
            exact ⟨layout :: more, rfl,
              slotsMean_succ.mpr ⟨_, _, c, constants, rfl, means, described, filled, rfl⟩⟩
          · rintro ⟨_, rfl, spelled⟩
            obtain ⟨layout, more, c, constants, rfl, means, described, filled, rfl⟩ :=
              slotsMean_succ.mp spelled
            exact ⟨(layout, more), rfl, c, means, constants, described, filled, rfl⟩

structure PoolLayout where
  declared : UInt16
  constants : List ConstantLayout

namespace PoolLayout

def encode (layout : PoolLayout) : List UInt8 :=
  word2 layout.declared ++ layout.constants.flatMap ConstantLayout.encode

/-- The declared count includes slot 0, which is empty. -/
def Means (layout : PoolLayout) (pool : ConstantPool) : Prop :=
  ∃ constants, List.Forall₂ ConstantLayout.Means layout.constants constants ∧
    Fills (layout.declared.toNat - 1) constants ∧
    pool.slots.toList = none :: constants.flatMap Constant.slots

end PoolLayout

theorem decodes_pool :
    Decodes ConstantPool.decode (Written PoolLayout.encode PoolLayout.Means) := by
  refine (Decodes.u2.andThen fun count => (decodes_slotsFrom (count - 1) 1).thenPure).congr
    fun bytes pool => ?_
  constructor
  · rintro ⟨⟨declared, constants⟩, rfl, _, rfl, _, ⟨values, described, filled, rfl⟩, rfl⟩
    exact ⟨⟨declared, constants⟩, rfl, values, described, filled, rfl⟩
  · rintro ⟨⟨declared, constants⟩, rfl, values, described, filled, slots⟩
    refine ⟨(declared, constants), rfl, _, rfl, _, ⟨values, described, filled, rfl⟩, ?_⟩
    rw [← slots]

end ClassAtlas.ClassFile

import ClassAtlas.Proofs.ClassFile.Operation
import Mathlib.Data.List.Basic

/-!
The walk over a code array finds exactly the operations that stand in it. The length function cuts
off one operation at a time, and the reference function reports what that operation refers to; the
walk is the induction over the operations.
-/

namespace ClassAtlas.ClassFile.Bytecode

theorem Plain.narrow {opcode : UInt8} {width : Nat} (legal : Plain opcode width) : width < 5 := by
  by_contra wide
  obtain ⟨range, listed, -⟩ := legal
  match width, wide with
  | _ + 5, _ => simp [plainRanges] at listed

/-- The length table gives each opcode that refers to no type its operand bytes. -/
theorem fixedLength?_of_plain {opcode : UInt8} {width : Nat} (legal : Plain opcode width) :
    fixedLength? opcode = some width := by
  have table : ∀ opcode : UInt8, ∀ width < 5, Plain opcode width →
      fixedLength? opcode = some width := by
    apply forall_byte
    decide +kernel
  exact table opcode width legal.narrow legal

/-- The opcodes of fixed length, by what they refer to. -/
theorem fixedLength?_cases {opcode : UInt8} {width : Nat} (fixed : fixedLength? opcode = some width) :
    Plain opcode width ∨ (width = 2 ∧ opcode ∈ [0xBB, 0xBD, 0xC0, 0xC1]) ∨
      (width = 2 ∧ opcode ∈ [0xB2, 0xB3, 0xB4, 0xB5]) ∨ (width = 2 ∧ opcode ∈ [0xB6, 0xB7, 0xB8]) ∨
      (width = 4 ∧ opcode = 0xB9) ∨ (width = 4 ∧ opcode = 0xBA) ∨ (width = 1 ∧ opcode = 0x12) ∨
      (width = 2 ∧ opcode = 0x13) ∨ (width = 3 ∧ opcode = 0xC5) := by
  have table : ∀ opcode : UInt8, ∀ width ∈ fixedLength? opcode,
      Plain opcode width ∨ (width = 2 ∧ opcode ∈ [0xBB, 0xBD, 0xC0, 0xC1]) ∨
        (width = 2 ∧ opcode ∈ [0xB2, 0xB3, 0xB4, 0xB5]) ∨
        (width = 2 ∧ opcode ∈ [0xB6, 0xB7, 0xB8]) ∨
        (width = 4 ∧ opcode = 0xB9) ∨ (width = 4 ∧ opcode = 0xBA) ∨ (width = 1 ∧ opcode = 0x12) ∨
        (width = 2 ∧ opcode = 0x13) ∨ (width = 3 ∧ opcode = 0xC5) := by
    apply forall_byte
    decide +kernel
  exact table opcode width fixed

theorem exists_signed_append (bytes : List UInt8) (enough : 4 ≤ bytes.length) :
    ∃ (value : Int32) (more : List UInt8), bytes = word4 value.toUInt32 ++ more := by
  obtain ⟨word, more, rfl⟩ := exists_word4_append bytes enough
  exact ⟨word.toInt32, more, by rw [UInt32.toUInt32_toInt32]⟩

theorem exists_pair {bytes : List UInt8} (eight : bytes.length = 8) :
    ∃ pair : UInt32 × UInt32, bytes = word4 pair.1 ++ word4 pair.2 := by
  have enough : 4 ≤ bytes.length := by omega
  obtain ⟨front, back, rfl, four⟩ := exists_append_of_le enough
  have remaining : back.length = 4 := by
    rw [List.length_append, four] at eight
    omega
  obtain ⟨key, rfl⟩ := exists_word4 four
  obtain ⟨target, rfl⟩ := exists_word4 remaining
  exact ⟨(key, target), rfl⟩

theorem wordAt_append (pc : Nat) {front word : List UInt8} {skip : Nat}
    (skipped : front.length = skip) (four : word.length = 4) (more : List UInt8) :
    wordAt pc (front ++ (word ++ more)) skip = .ok (twosComplement 32 (bigEndian word)) := by
  have taken : ((front ++ (word ++ more)).drop skip).take 4 = word := by
    rw [← skipped, List.drop_left, List.take_left' four]
  simp only [wordAt, taken]
  rw [if_neg (by omega)]

theorem wordAt_signed (pc : Nat) {front : List UInt8} {skip : Nat} (skipped : front.length = skip)
    (value : Int32) (more : List UInt8) :
    wordAt pc (front ++ (word4 value.toUInt32 ++ more)) skip = .ok value.toInt := by
  rw [wordAt_append pc skipped (length_word4 _), bigEndian_word4, twosComplement_toUInt32]

theorem aligned_iff (pc length : Nat) :
    length < 4 ∧ (pc + 1 + length) % 4 = 0 ↔ length = switchPadding pc := by
  unfold switchPadding
  omega

/-- The two bounds of a table switch, read where they stand. -/
theorem wordAt_bounds {pc : Nat} {padding : List UInt8} (aligned : padding.length = switchPadding pc)
    (fallback : UInt32) (low high : Int32) (more : List UInt8) :
    let operands := padding ++ (word4 fallback ++ (word4 low.toUInt32 ++
      (word4 high.toUInt32 ++ more)))
    wordAt pc operands (switchPadding pc + 4) = .ok low.toInt ∧
      wordAt pc operands (switchPadding pc + 8) = .ok high.toInt := by
  constructor
  · rw [← List.append_assoc]
    exact wordAt_signed pc (by simp [aligned]) low _
  · rw [← List.append_assoc (word4 fallback), ← List.append_assoc padding]
    exact wordAt_signed pc (by simp [aligned]) high _

/-- The number of pairs of a lookup switch, read where it stands. -/
theorem wordAt_count {pc : Nat} {padding : List UInt8} (aligned : padding.length = switchPadding pc)
    (fallback : UInt32) {word : List UInt8} (four : word.length = 4) (more : List UInt8) :
    wordAt pc (padding ++ (word4 fallback ++ (word ++ more))) (switchPadding pc + 4) =
      .ok (twosComplement 32 (bigEndian word)) := by
  rw [← List.append_assoc]
  exact wordAt_append pc (by simp [aligned]) four _

theorem tableSwitchLength_eq_ok_iff {pc : Nat} {operands : List UInt8} {length : Nat} :
    tableSwitchLength pc operands = .ok length ↔
      ∃ low high, wordAt pc operands (switchPadding pc + 4) = .ok low ∧
        wordAt pc operands (switchPadding pc + 8) = .ok high ∧ low ≤ high ∧
        length = switchPadding pc + 12 + (high - low + 1).toNat * 4 := by
  simp only [tableSwitchLength, bind_eq_ok_iff]
  constructor
  · rintro ⟨low, readLow, high, readHigh, matched⟩
    split at matched
    case isTrue reversed => cases matched
    case isFalse ordered =>
      cases matched
      exact ⟨low, high, readLow, readHigh, by omega, rfl⟩
  · rintro ⟨low, high, readLow, readHigh, ordered, rfl⟩
    refine ⟨low, readLow, high, readHigh, ?_⟩
    rw [if_neg (by omega)]
    rfl

theorem lookupSwitchLength_eq_ok_iff {pc : Nat} {operands : List UInt8} {length : Nat} :
    lookupSwitchLength pc operands = .ok length ↔
      ∃ pairs, wordAt pc operands (switchPadding pc + 4) = .ok pairs ∧ 0 ≤ pairs ∧
        length = switchPadding pc + 8 + pairs.toNat * 8 := by
  simp only [lookupSwitchLength, bind_eq_ok_iff]
  constructor
  · rintro ⟨pairs, read, matched⟩
    split at matched
    case isTrue negative => cases matched
    case isFalse nonnegative =>
      cases matched
      exact ⟨pairs, read, by omega, rfl⟩
  · rintro ⟨pairs, read, nonnegative, rfl⟩
    refine ⟨pairs, read, ?_⟩
    rw [if_neg (by omega)]
    rfl

/-- The operands of an operation are as many as the length function says, whatever follows them. -/
theorem Operation.operandLength_eq (op : Operation) {pc : Nat} (aligned : op.Aligned pc)
    (tail : List UInt8) :
    operandLength pc op.opcode (op.operands ++ tail) = .ok op.operands.length := by
  cases op with
  | plain opcode operands legal =>
      simp only [Operation.opcode, Operation.operands, operandLength, fixedLength?_of_plain legal]
  | type opcode index legal =>
      simp only [List.mem_cons, List.not_mem_nil, or_false] at legal
      rcases legal with rfl | rfl | rfl | rfl <;> rfl
  | field opcode index legal =>
      simp only [List.mem_cons, List.not_mem_nil, or_false] at legal
      rcases legal with rfl | rfl | rfl | rfl <;> rfl
  | method opcode index legal =>
      simp only [List.mem_cons, List.not_mem_nil, or_false] at legal
      rcases legal with rfl | rfl | rfl <;> rfl
  | invokeInterface index count zero => rfl
  | invokeDynamic index first second => rfl
  | loadConstant index => rfl
  | loadConstantWide index => rfl
  | multiANewArray index dimensions => rfl
  | tableSwitch padding fallback low high targets ordered counted =>
      have start := (aligned_iff pc padding.length).mp aligned
      change tableSwitchLength pc _ = _
      simp only [Operation.operands, List.append_assoc]
      obtain ⟨readLow, readHigh⟩ := wordAt_bounds start fallback low high (targets.flatMap word4 ++ tail)
      refine tableSwitchLength_eq_ok_iff.mpr ⟨_, _, readLow, readHigh, ordered, ?_⟩
      simp only [List.length_append, length_word4, length_flatMap length_word4]
      omega
  | lookupSwitch padding fallback pairs few =>
      have start := (aligned_iff pc padding.length).mp aligned
      change lookupSwitchLength pc _ = _
      simp only [Operation.operands, List.append_assoc]
      have read := wordAt_count start fallback (length_numeral 4 pairs.length)
        ((pairs.flatMap fun pair => word4 pair.1 ++ word4 pair.2) ++ tail)
      have small : pairs.length < Nat.pow 256 4 := Nat.lt_trans few (by decide)
      have value : twosComplement 32 (bigEndian (numeral 4 pairs.length)) = pairs.length := by
        rw [bigEndian_numeral, Nat.mod_eq_of_lt small]
        exact if_pos few
      rw [value] at read
      refine lookupSwitchLength_eq_ok_iff.mpr ⟨_, read, by omega, ?_⟩
      have sized (pair : UInt32 × UInt32) : (word4 pair.1 ++ word4 pair.2).length = 8 := by simp
      simp only [List.length_append, length_word4, length_numeral, length_flatMap sized]
      omega
  | wideIncrement index increment => rfl
  | wide opcode index other =>
      change wideLength pc (opcode :: (word2 index ++ tail)) = .ok (opcode :: word2 index).length
      simp [wideLength, other]

theorem index_word2 (index : UInt16) (more : List UInt8) :
    Bytecode.index (word2 index ++ more) = index.toNat := by
  rw [Bytecode.index, List.take_left' (length_word2 _), bigEndian_word2]

theorem index_eq (index : UInt16) : Bytecode.index (word2 index) = index.toNat := by
  simpa using index_word2 index []

theorem reference?_of_plain (pool : ConstantPool) (pc : Nat) {opcode : UInt8} {width : Nat}
    (legal : Plain opcode width) (operands : List UInt8) :
    reference? pool pc opcode operands = .ok none := by
  have table : ∀ opcode : UInt8, (∃ width < 5, Plain opcode width) →
      opcode.toNat ∉ [0xBB, 0xBD, 0xC0, 0xC1, 0xB2, 0xB3, 0xB4, 0xB5, 0xB6, 0xB7, 0xB8, 0xB9, 0xBA,
        0x12, 0x13, 0xC5] := by
    apply forall_byte
    decide +kernel
  have unlisted := table opcode ⟨width, legal.narrow, legal⟩
  unfold reference?
  split
  case h_17 => rfl
  all_goals simp_all

/-- The reference function reports exactly what an operation refers to. -/
theorem Operation.reference?_eq_ok_iff (op : Operation) (pool : ConstantPool) (pc : Nat)
    (found : Option Instruction) :
    reference? pool pc op.opcode op.operands = .ok found ↔ op.Refers pool pc found := by
  cases op with
  | plain opcode operands legal =>
      simp only [Operation.opcode, Operation.operands, reference?_of_plain pool pc legal]
      exact ⟨fun same => (Except.ok.inj same).symm, fun same => same ▸ rfl⟩
  | type opcode index legal =>
      have reduced : reference? pool pc opcode (word2 index) =
          (pool.className index.toNat >>= fun name => pure (some (.type opcode pc name))) := by
        rw [← index_eq index]
        simp only [List.mem_cons, List.not_mem_nil, or_false] at legal
        rcases legal with rfl | rfl | rfl | rfl <;> rfl
      simp only [Operation.opcode, Operation.operands, reduced, bind_pure_eq_ok_iff,
        ConstantPool.className_eq_ok_iff, Refers]
  | field opcode index legal =>
      have reduced : reference? pool pc opcode (word2 index) =
          (pool.memberRef index.toNat >>= fun target => pure (some (.field opcode pc target))) := by
        rw [← index_eq index]
        simp only [List.mem_cons, List.not_mem_nil, or_false] at legal
        rcases legal with rfl | rfl | rfl | rfl <;> rfl
      simp only [Operation.opcode, Operation.operands, reduced, bind_pure_eq_ok_iff,
        ConstantPool.memberRef_eq_ok_iff, Refers]
  | method opcode index legal =>
      have reduced : reference? pool pc opcode (word2 index) =
          (pool.memberRef index.toNat >>= fun target => pure (some (.method opcode pc target))) := by
        rw [← index_eq index]
        simp only [List.mem_cons, List.not_mem_nil, or_false] at legal
        rcases legal with rfl | rfl | rfl <;> rfl
      simp only [Operation.opcode, Operation.operands, reduced, bind_pure_eq_ok_iff,
        ConstantPool.memberRef_eq_ok_iff, Refers]
  | invokeInterface index count zero =>
      have reduced : reference? pool pc 0xB9 (word2 index ++ [count, zero]) =
          (pool.memberRef index.toNat >>= fun target => pure (some (.method 0xB9 pc target))) := by
        rw [← index_word2 index [count, zero]]
        rfl
      simp only [Operation.opcode, Operation.operands, reduced, bind_pure_eq_ok_iff,
        ConstantPool.memberRef_eq_ok_iff, Refers]
  | invokeDynamic index first second =>
      have reduced : reference? pool pc 0xBA (word2 index ++ [first, second]) =
          (pool.callSite index.toNat >>= fun site =>
            pure (some (.invokeDynamic pc site.1 site.2))) := by
        rw [← index_word2 index [first, second]]
        rfl
      simp only [Operation.opcode, Operation.operands, reduced, bind_pure_eq_ok_iff, Prod.exists,
        ConstantPool.callSite_eq_ok_iff, Refers]
  | loadConstant index =>
      have reduced : reference? pool pc 0x12 [index] =
          (pool.loadable? index.toNat >>= fun loaded => pure (loaded.map (.loadConstant pc))) := by
        have single : bigEndian [index] = index.toNat := by simp [bigEndian]
        rw [← single]
        rfl
      simp only [Operation.opcode, Operation.operands, reduced, bind_pure_eq_ok_iff,
        ConstantPool.loadable?_eq_ok_iff, Refers]
  | loadConstantWide index =>
      have reduced : reference? pool pc 0x13 (word2 index) =
          (pool.loadable? index.toNat >>= fun loaded => pure (loaded.map (.loadConstant pc))) := by
        rw [← index_eq index]
        rfl
      simp only [Operation.opcode, Operation.operands, reduced, bind_pure_eq_ok_iff,
        ConstantPool.loadable?_eq_ok_iff, Refers]
  | multiANewArray index dimensions =>
      have reduced : reference? pool pc 0xC5 (word2 index ++ [dimensions]) =
          (pool.className index.toNat >>= fun name =>
            pure (some (.multiANewArray pc name dimensions))) := by
        have last : ((word2 index ++ [dimensions]).drop 2).headD 0 = dimensions := by
          rw [List.drop_left' (length_word2 _)]
          rfl
        rw [← index_word2 index [dimensions]]
        conv_rhs => rw [← last]
        rfl
      simp only [Operation.opcode, Operation.operands, reduced, bind_pure_eq_ok_iff,
        ConstantPool.className_eq_ok_iff, Refers]
  | _ => exact ⟨fun same => (Except.ok.inj same).symm, fun same => same ▸ rfl⟩

/-- Some operation at `pc` has this opcode and the first `length` of the bytes as operands. -/
def Begins (pc : Nat) (opcode : UInt8) (length : Nat) (bytes : List UInt8) : Prop :=
  ∃ (op : Operation) (tail : List UInt8), op.Aligned pc ∧ op.opcode = opcode ∧
    bytes = op.operands ++ tail ∧ op.operands.length = length

theorem begins_tableSwitch {pc length : Nat} {bytes : List UInt8}
    (measured : tableSwitchLength pc bytes = .ok length) (enough : length ≤ bytes.length) :
    Begins pc 0xAA length bytes := by
  obtain ⟨low, high, readLow, readHigh, ordered, rfl⟩ := tableSwitchLength_eq_ok_iff.mp measured
  have reached : switchPadding pc ≤ bytes.length := by omega
  obtain ⟨padding, bytes, rfl, aligned⟩ := exists_append_of_le reached
  rw [List.length_append, aligned] at enough
  obtain ⟨fallback, bytes, rfl⟩ := exists_word4_append bytes (by omega)
  rw [List.length_append, length_word4] at enough
  obtain ⟨lowest, bytes, rfl⟩ := exists_signed_append bytes (by omega)
  rw [List.length_append, length_word4] at enough
  obtain ⟨highest, bytes, rfl⟩ := exists_signed_append bytes (by omega)
  rw [List.length_append, length_word4] at enough
  obtain ⟨foundLow, foundHigh⟩ := wordAt_bounds aligned fallback lowest highest bytes
  rw [foundLow, Except.ok.injEq] at readLow
  rw [foundHigh, Except.ok.injEq] at readHigh
  subst readLow readHigh
  have listed : (highest.toInt - lowest.toInt + 1).toNat * 4 ≤ bytes.length := by omega
  obtain ⟨words, tail, rfl, sized⟩ := exists_append_of_le listed
  obtain ⟨targets, counted, rfl⟩ := exists_flatMap (fun bytes => exists_word4) _ sized
  refine ⟨.tableSwitch padding fallback lowest highest targets ordered (by omega), tail,
    (aligned_iff pc _).mpr aligned, rfl, ?_, ?_⟩
  · simp only [Operation.operands, List.append_assoc]
  · simp only [Operation.operands, List.length_append, length_word4, sized]
    omega

theorem begins_lookupSwitch {pc length : Nat} {bytes : List UInt8}
    (measured : lookupSwitchLength pc bytes = .ok length) (enough : length ≤ bytes.length) :
    Begins pc 0xAB length bytes := by
  obtain ⟨count, read, nonnegative, rfl⟩ := lookupSwitchLength_eq_ok_iff.mp measured
  have reached : switchPadding pc ≤ bytes.length := by omega
  obtain ⟨padding, bytes, rfl, aligned⟩ := exists_append_of_le reached
  rw [List.length_append, aligned] at enough
  obtain ⟨fallback, bytes, rfl⟩ := exists_word4_append bytes (by omega)
  rw [List.length_append, length_word4] at enough
  have reached : 4 ≤ bytes.length := by omega
  obtain ⟨word, bytes, rfl, four⟩ := exists_append_of_le reached
  rw [List.length_append, four] at enough
  rw [wordAt_count aligned fallback four, Except.ok.injEq] at read
  subst read
  have small := bigEndian_lt word
  rw [four] at small
  obtain ⟨value, few⟩ := twosComplement_nonneg nonnegative small
  rw [value, Int.toNat_natCast] at enough ⊢
  have listed : bigEndian word * 8 ≤ bytes.length := by omega
  obtain ⟨words, tail, rfl, sized⟩ := exists_append_of_le listed
  obtain ⟨pairs, counted, rfl⟩ := exists_flatMap (fun bytes => exists_pair) _ sized
  have spelled : numeral 4 pairs.length = word := by
    rw [counted, ← four, numeral_bigEndian]
  refine ⟨.lookupSwitch padding fallback pairs (counted ▸ few), tail,
    (aligned_iff pc _).mpr aligned, rfl, ?_, ?_⟩
  · simp only [Operation.operands, spelled, List.append_assoc]
  · simp only [Operation.operands, List.length_append, length_word4, length_numeral, sized]
    omega

theorem begins_wide {pc length : Nat} {bytes : List UInt8}
    (measured : wideLength pc bytes = .ok length) (enough : length ≤ bytes.length) :
    Begins pc 0xC4 length bytes := by
  cases bytes with
  | nil => cases measured
  | cons widened bytes =>
      rw [wideLength, Except.ok.injEq] at measured
      subst measured
      by_cases increments : widened = 0x84
      · rw [if_pos increments, List.length_cons] at enough
        obtain ⟨index, bytes, rfl⟩ := exists_word2_append bytes (by omega)
        rw [List.length_append, length_word2] at enough
        obtain ⟨increment, tail, rfl⟩ := exists_word2_append bytes (by omega)
        refine ⟨.wideIncrement index increment, tail, trivial, rfl, ?_, ?_⟩
        · simp [Operation.operands, increments]
        · simp [Operation.operands, increments]
      · rw [if_neg increments, List.length_cons] at enough
        obtain ⟨index, tail, rfl⟩ := exists_word2_append bytes (by omega)
        refine ⟨.wide widened index increments, tail, trivial, rfl, rfl, ?_⟩
        simp [Operation.operands, increments]

/-- An opcode of fixed length with all its operand bytes is an operation. -/
theorem begins_fixed {pc length : Nat} {opcode : UInt8} {bytes : List UInt8}
    (fixed : fixedLength? opcode = some length) (enough : length ≤ bytes.length) :
    Begins pc opcode length bytes := by
  obtain ⟨operands, tail, rfl, sized⟩ := exists_append_of_le enough
  rcases fixedLength?_cases fixed with legal | ⟨rfl, legal⟩ | ⟨rfl, legal⟩ | ⟨rfl, legal⟩ |
    ⟨rfl, rfl⟩ | ⟨rfl, rfl⟩ | ⟨rfl, rfl⟩ | ⟨rfl, rfl⟩ | ⟨rfl, rfl⟩
  · exact ⟨.plain opcode operands (sized ▸ legal), tail, trivial, rfl, rfl, sized⟩
  · obtain ⟨index, rfl⟩ := exists_word2 sized
    exact ⟨.type opcode index legal, tail, trivial, rfl, rfl, sized⟩
  · obtain ⟨index, rfl⟩ := exists_word2 sized
    exact ⟨.field opcode index legal, tail, trivial, rfl, rfl, sized⟩
  · obtain ⟨index, rfl⟩ := exists_word2 sized
    exact ⟨.method opcode index legal, tail, trivial, rfl, rfl, sized⟩
  · obtain ⟨index, more, rfl⟩ := exists_word2_append operands (by omega)
    rw [List.length_append, length_word2] at sized
    obtain ⟨count, zero, rfl⟩ := List.length_eq_two.mp (Nat.add_left_cancel sized)
    exact ⟨.invokeInterface index count zero, tail, trivial, rfl, rfl, rfl⟩
  · obtain ⟨index, more, rfl⟩ := exists_word2_append operands (by omega)
    rw [List.length_append, length_word2] at sized
    obtain ⟨first, second, rfl⟩ := List.length_eq_two.mp (Nat.add_left_cancel sized)
    exact ⟨.invokeDynamic index first second, tail, trivial, rfl, rfl, rfl⟩
  · obtain ⟨index, rfl⟩ := List.length_eq_one_iff.mp sized
    exact ⟨.loadConstant index, tail, trivial, rfl, rfl, sized⟩
  · obtain ⟨index, rfl⟩ := exists_word2 sized
    exact ⟨.loadConstantWide index, tail, trivial, rfl, rfl, sized⟩
  · obtain ⟨index, more, rfl⟩ := exists_word2_append operands (by omega)
    rw [List.length_append, length_word2] at sized
    obtain ⟨dimensions, rfl⟩ := List.length_eq_one_iff.mp (Nat.add_left_cancel sized)
    exact ⟨.multiANewArray index dimensions, tail, trivial, rfl, rfl, rfl⟩

/-- Where a length is measured and that many bytes are left, an operation stands. -/
theorem begins_of_operandLength {pc length : Nat} {opcode : UInt8} {bytes : List UInt8}
    (measured : operandLength pc opcode bytes = .ok length) (enough : length ≤ bytes.length) :
    Begins pc opcode length bytes := by
  unfold operandLength at measured
  split at measured
  case h_1 width fixed =>
    cases measured
    exact begins_fixed fixed enough
  case h_2 varying =>
    split at measured
    case isTrue opcode => exact opcode ▸ begins_tableSwitch measured enough
    split at measured
    case isTrue opcode => exact opcode ▸ begins_lookupSwitch measured enough
    split at measured
    case isTrue opcode => exact opcode ▸ begins_wide measured enough
    case isFalse => cases measured

section Step

variable {pool : ConstantPool} {pc length : Nat} {opcode : UInt8} {rest : List UInt8}

theorem decodeFrom_unmeasured {base : Nat} {e : DecodeError}
    (unmeasured : operandLength pc opcode rest = .error e) :
    decodeFrom pool base pc (opcode :: rest) = .error e := by
  rw [decodeFrom, unmeasured]
  rfl

/-- The walk over an instruction of known length. -/
theorem decodeFrom_measured (base : Nat) (measured : operandLength pc opcode rest = .ok length) :
    decodeFrom pool base pc (opcode :: rest) =
      if rest.length < length then .error (.unexpectedEnd (base + pc) (length - rest.length))
      else do
        let found ← reference? pool pc opcode (rest.take length)
        let more ← decodeFrom pool base (pc + 1 + length) (rest.drop length)
        return found.toList ++ more := by
  have cut : (rest.take length).length < length ↔ rest.length < length := by
    rw [List.length_take]
    omega
  rw [decodeFrom, measured]
  change (if (rest.take length).length < length then _ else _ : Except DecodeError _) = _
  by_cases short : rest.length < length
  · have left : (rest.take length).length = rest.length := by
      rw [List.length_take]
      omega
    rw [if_pos (cut.mpr short), if_pos short, ← left]
    rfl
  · rw [if_neg (mt cut.mp short), if_neg short]

/-- A complete operation at the front is taken off. -/
theorem decodeFrom_operation (base : Nat) {op : Operation} (aligned : op.Aligned pc)
    (tail : List UInt8) :
    decodeFrom pool base pc (op.bytes ++ tail) = (do
      let found ← reference? pool pc op.opcode op.operands
      let more ← decodeFrom pool base (pc + op.bytes.length) tail
      return found.toList ++ more) := by
  have length : pc + op.bytes.length = pc + 1 + op.operands.length := by
    rw [Operation.bytes, List.length_cons, Nat.add_assoc, Nat.add_comm 1]
  have whole : ¬ (op.operands ++ tail).length < op.operands.length := by
    rw [List.length_append]
    omega
  rw [length, Operation.bytes, List.cons_append,
    decodeFrom_measured base (op.operandLength_eq aligned tail), if_neg whole, List.take_left,
    List.drop_left]

theorem decodeFrom_cons_eq_ok_iff {base : Nat} {found : List Instruction} :
    decodeFrom pool base pc (opcode :: rest) = .ok found ↔
      ∃ (op : Operation) (tail : List UInt8) (first : Option Instruction) (more : List Instruction),
        op.Aligned pc ∧ opcode :: rest = op.bytes ++ tail ∧ op.Refers pool pc first ∧
          decodeFrom pool base (pc + op.bytes.length) tail = .ok more ∧
          found = first.toList ++ more := by
  constructor
  · intro ran
    cases measured : operandLength pc opcode rest with
    | error e =>
        rw [decodeFrom_unmeasured measured] at ran
        cases ran
    | ok length =>
        by_cases cut : rest.length < length
        · rw [decodeFrom_measured base measured, if_pos cut] at ran
          cases ran
        · obtain ⟨op, tail, aligned, rfl, rfl, rfl⟩ :=
            begins_of_operandLength measured (Nat.le_of_not_lt cut)
          rw [← List.cons_append, ← Operation.bytes, decodeFrom_operation base aligned] at ran
          obtain ⟨first, referred, ran⟩ := bind_eq_ok_iff.mp ran
          obtain ⟨more, walked, rfl⟩ := bind_pure_eq_ok_iff.mp ran
          exact ⟨op, tail, first, more, aligned, rfl,
            (op.reference?_eq_ok_iff pool pc first).mp referred, walked, rfl⟩
  · rintro ⟨op, tail, first, more, aligned, written, refers, walked, rfl⟩
    rw [written, decodeFrom_operation base aligned]
    refine bind_eq_ok_iff.mpr ⟨first, (op.reference?_eq_ok_iff pool pc first).mpr refers, ?_⟩
    exact bind_pure_eq_ok_iff.mpr ⟨more, walked, rfl⟩

end Step

/-- The walk from `pc` on, as the operations it passes. -/
theorem decodeFrom_eq_ok_iff (pool : ConstantPool) (base pc : Nat) (code : List UInt8)
    (found : List Instruction) :
    decodeFrom pool base pc code = .ok found ↔
      ∃ program : List Operation, Placed pc program ∧ code = program.flatMap Operation.bytes ∧
        Lists pool pc program found := by
  -- the operations left to pass are as many bytes as the code left to walk
  induction sized : code.length using Nat.strongRecOn generalizing pc code found with
  | ind length ih =>
      cases code with
      | nil =>
          constructor
          · intro walked
            rw [decodeFrom, Except.ok.injEq] at walked
            exact ⟨[], trivial, rfl, walked.symm⟩
          · rintro ⟨program, -, written, listed⟩
            cases program with
            | nil =>
                rw [decodeFrom, Except.ok.injEq]
                exact listed.symm
            | cons op program => cases written
      | cons opcode rest =>
          rw [decodeFrom_cons_eq_ok_iff]
          constructor
          · rintro ⟨op, tail, first, more, aligned, written, refers, walked, rfl⟩
            have shorter : tail.length < length := by
              rw [← sized, written, Operation.bytes, List.length_append, List.length_cons]
              omega
            obtain ⟨program, placed, rfl, listed⟩ := (ih _ shorter _ tail more rfl).mp walked
            exact ⟨op :: program, ⟨aligned, placed⟩, written, first, more, refers, listed, rfl⟩
          · rintro ⟨program, placed, written, listed⟩
            cases program with
            | nil => cases written
            | cons op program =>
                obtain ⟨first, more, refers, listed, rfl⟩ := listed
                rw [List.flatMap_cons] at written
                have shorter : (program.flatMap Operation.bytes).length < length := by
                  rw [← sized, written, Operation.bytes, List.length_append, List.length_cons]
                  omega
                refine ⟨op, _, first, more, placed.1, written, refers, ?_, rfl⟩
                exact (ih _ shorter _ _ more rfl).mpr ⟨program, placed.2, rfl, listed⟩

/-- A code array is accepted exactly when complete instructions stand back to back in it, switches
aligned from its start, and all their operands resolve. The result is their type references, in
order and with their offsets. -/
theorem decode_eq_ok_iff_lists (pool : ConstantPool) (base : Nat) (code : List UInt8)
    (found : List Instruction) :
    decode pool base code = .ok found ↔
      ∃ program : List Operation, Placed 0 program ∧ code = program.flatMap Operation.bytes ∧
        Lists pool 0 program found :=
  decodeFrom_eq_ok_iff pool base 0 code found

end ClassAtlas.ClassFile.Bytecode

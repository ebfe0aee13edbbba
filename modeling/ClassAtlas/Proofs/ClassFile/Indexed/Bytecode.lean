import ClassAtlas.Proofs.ClassFile.Indexed.Annotations
import ClassAtlas.Proofs.ClassFile.Walk

/-!
The walk over a code array by position. Operands are taken from the array at places counted from the
opcode; that they lie inside it rests on the length of the instruction, which is checked first.
-/

namespace ClassAtlas.ClassFile.Indexed

open Checked

/-- The signed word at a place of the code array. -/
def wordAt (code : List UInt8) (place : Nat) : Attempt Int := do
  let stop ← sum UInt64.size place 4
  if stop ≤ code.length then
    let word ← slice code place stop
    return twosComplement 32
      (bigEndian [← byteAt word 0, ← byteAt word 1, ← byteAt word 2, ← byteAt word 3])
  else
    throw (.unexpectedEnd place (stop - code.length))

/-- The bytes of a table switch from its operands on. -/
def tableBody (code : List UInt8) (pc operands : Nat) : Attempt Int := do
  let low ← wordAt code (← sum UInt64.size operands 4)
  let high ← wordAt code (← sum UInt64.size operands 8)
  if high < low then
    throw (.invalidSwitch pc)
  else
    let span ← int64 (high - low)
    let entries ← int64 (span + 1)
    int64 (12 + (← int64 (entries * 4)))

/-- The bytes of a lookup switch from its operands on. -/
def lookupBody (code : List UInt8) (pc operands : Nat) : Attempt Int := do
  let pairs ← wordAt code (← sum UInt64.size operands 4)
  if pairs < 0 then
    throw (.invalidSwitch pc)
  else
    int64 (8 + (← int64 (pairs * 8)))

def switchLength (code : List UInt8) (pc : Nat) : Attempt Nat := do
  let padding := (← difference 4 ((← sum UInt64.size pc 1) % 4)) % 4
  let operands ← sum UInt64.size (← sum UInt64.size pc 1) padding
  let body ← if (← byteAt code pc) = 0xAA then tableBody code pc operands
    else lookupBody code pc operands
  sum UInt64.size (← sum UInt64.size 1 padding) (← natural body)

def wideLength (code : List UInt8) (pc : Nat) : Attempt Nat := do
  match code[← sum UInt64.size pc 1]? with
  | none => throw (.unexpectedEnd (← sum UInt64.size pc 1) 1)
  | some widened => return if widened = 0x84 then 6 else 4

/-- The whole length of the instruction at `pc`, its opcode included. -/
def instructionLength (code : List UInt8) (pc : Nat) : Attempt Nat := do
  let opcode ← byteAt code pc
  match Bytecode.fixedLength? opcode with
  | some operands => return operands + 1
  | none =>
    if opcode = 0xAA ∨ opcode = 0xAB then switchLength code pc
    else if opcode = 0xC4 then wideLength code pc
    else throw (.unknownOpcode opcode pc)

/-- The pool index in the first two operand bytes. -/
def operand (code : List UInt8) (pc : Nat) : Attempt Nat := do
  let first ← sum UInt64.size pc 1
  let second ← sum UInt64.size first 1
  return bigEndian [← byteAt code first, ← byteAt code second]

def reference? (pool : ConstantPool) (code : List UInt8) (pc : Nat) (opcode : UInt8) :
    Attempt (Option Instruction) := do
  match opcode.toNat with
  | 0xBB | 0xBD | 0xC0 | 0xC1 =>
    return some (.type opcode pc (← pool.className (← operand code pc)))
  | 0xB2 | 0xB3 | 0xB4 | 0xB5 =>
    return some (.field opcode pc (← pool.memberRef (← operand code pc)))
  | 0xB6 | 0xB7 | 0xB8 | 0xB9 =>
    return some (.method opcode pc (← pool.memberRef (← operand code pc)))
  | 0xBA =>
    let (name, descriptor) ← pool.callSite (← operand code pc)
    return some (.invokeDynamic pc name descriptor)
  | 0x12 =>
    let byte ← byteAt code (← sum UInt64.size pc 1)
    return (← pool.loadable? byte.toNat).map (.loadConstant pc)
  | 0x13 =>
    return (← pool.loadable? (← operand code pc)).map (.loadConstant pc)
  | 0xC5 =>
    let name ← pool.className (← operand code pc)
    return some (.multiANewArray pc name (← byteAt code (← sum UInt64.size pc 3)))
  | _ => return none

section

variable (pool : ConstantPool) (code : List UInt8) (base : Nat)

/-- The references from `pc` on, behind those found before. -/
def instructionsFrom : ReaderT Nat (ReaderT (List Instruction) Attempt) (List Instruction) :=
  fun pc found => do
    if pc < code.length then
      let opcode ← byteAt code pc
      let stop ← sum UInt64.size pc (← instructionLength code pc)
      if code.length < stop then
        throw (.unexpectedEnd (← sum UInt64.size base pc) (← difference stop code.length))
      else
        let next ← reference? pool code pc opcode
        (instructionsFrom.run stop).run (found ++ next.toList)
    else
      return found
partial_fixpoint

end

def IsInt32 (word : Int) : Prop :=
  Int32.minValue.toInt ≤ word ∧ word ≤ Int32.maxValue.toInt

theorem isInt32_iff {word : Int} : IsInt32 word ↔ -2147483648 ≤ word ∧ word ≤ 2147483647 :=
  Iff.rfl

theorem isInt32_twosComplement {n : Nat} (small : n < UInt32.size) :
    IsInt32 (twosComplement 32 n) := by
  change n < 4294967296 at small
  rw [isInt32_iff]
  change _ ≤ (if n < 2147483648 then _ else (n : Int) - (4294967296 : Nat)) ∧
    (if n < 2147483648 then _ else (n : Int) - (4294967296 : Nat)) ≤ _
  split <;> omega

theorem fixedLength?_lt {opcode : UInt8} {width : Nat}
    (fixed : Bytecode.fixedLength? opcode = some width) : width < 5 := by
  have table : ∀ opcode : UInt8, ∀ width ∈ Bytecode.fixedLength? opcode, width < 5 := by
    apply forall_byte
    decide +kernel
  exact table opcode width fixed

/-- What stands at `pc`: an opcode and the bytes after it, in an array of fewer bytes than a 32-bit
word counts. -/
structure Stands (code : List UInt8) (pc : Nat) (opcode : UInt8) (rest : List UInt8) : Prop where
  front : code.drop pc = opcode :: rest
  short : code.length < UInt32.size

namespace Stands

variable {code rest : List UInt8} {pc : Nat} {opcode : UInt8} (stands : Stands code pc opcode rest)
include stands

theorem opcode_eq : byteAt code pc = pure opcode :=
  byteAt_eq (getElem?_of_drop stands.front)

theorem after : code.drop (pc + 1) = rest :=
  drop_succ_of_drop stands.front

theorem length_eq : code.length = pc + 1 + rest.length := by
  have := lt_length_of_drop stands.front
  rw [← stands.after, List.length_drop]
  omega

theorem sum_eq {n : Nat} (small : n < UInt32.size) : sum UInt64.size pc n = pure (pc + n) := by
  have := stands.length_eq
  have := stands.short
  apply Checked.sum_eq
  change _ < 4294967296 at *
  change _ < 18446744073709551616
  omega

/-- A word is counted from the start of the array, or from the operands in what follows the opcode. -/
theorem settles_wordAt {skip : Nat} (small : skip < 16) :
    Settles IsInt32 (wordAt code (pc + 1 + skip)) (Bytecode.wordAt pc rest skip) := by
  have total := stands.length_eq
  have short := stands.short
  change _ < 4294967296 at short
  have stop : sum UInt64.size (pc + 1 + skip) 4 = pure (pc + 1 + skip + 4) := by
    apply Checked.sum_eq
    change _ < 18446744073709551616
    omega
  have place : code.drop (pc + 1 + skip) = rest.drop skip := by
    rw [← stands.after, List.drop_drop]
  unfold wordAt Bytecode.wordAt
  rw [stop, liftM_pure, pure_bind]
  simp only [List.length_take, List.length_drop]
  by_cases inside : pc + 1 + skip + 4 ≤ code.length
  · rw [if_pos inside, if_neg (by omega), slice_eq (Nat.le_add_right ..) inside, place,
      Nat.add_sub_cancel_left, liftM_pure, pure_bind]
    have four : ((rest.drop skip).take 4).length = 4 := by
      rw [List.length_take, List.length_drop]
      omega
    have value := bigEndian_lt ((rest.drop skip).take 4)
    rw [four] at value
    generalize (rest.drop skip).take 4 = word at four value
    match word, four with
    | [_, _, _, _], _ => exact .pure (isInt32_twosComplement value)
  · rw [if_neg inside, if_pos (by omega)]
    have missing : pc + 1 + skip + 4 - code.length = skip + 4 - rest.length := by omega
    rw [missing]
    exact .fail _

/-- Sums behind the padding of a switch stay far below the greatest word. -/
theorem sum_operands (padding : Nat) {n : Nat} (small : padding < 4) (few : n ≤ 8) :
    sum UInt64.size (pc + 1 + padding) n = pure (pc + 1 + (padding + n)) := by
  have total := stands.length_eq
  have short := stands.short
  rw [← Nat.add_assoc]
  apply Checked.sum_eq
  change _ < 4294967296 at short
  change _ < 18446744073709551616
  omega

theorem settles_tableSwitch {padding : Nat} (small : padding < 4)
    (aligned : padding = Bytecode.switchPadding pc) :
    Settles (· < UInt64.size / 2)
      (do
        let body ← tableBody code pc (pc + 1 + padding)
        sum UInt64.size (1 + padding) (← natural body))
      ((· + 1) <$> Bytecode.tableSwitchLength pc rest) := by
  unfold tableBody Bytecode.tableSwitchLength
  rw [← aligned, stands.sum_operands padding small (by decide), stands.sum_operands padding small (by decide)]
  simp only [liftM_pure, pure_bind, bind_assoc, map_bind]
  refine (stands.settles_wordAt (by omega)).bind fun low lowRange => ?_
  refine (stands.settles_wordAt (by omega)).bind fun high highRange => ?_
  rw [isInt32_iff] at lowRange highRange
  by_cases inverted : high < low
  · rw [if_pos inverted, if_pos inverted]
    exact .fail _
  · rw [if_neg inverted, if_neg inverted]
    have span : int64 (high - low) = pure (high - low) := int64_eq (by omega) (by omega)
    have entries : int64 (high - low + 1) = pure (high - low + 1) := int64_eq (by omega) (by omega)
    have words : int64 ((high - low + 1) * 4) = pure ((high - low + 1) * 4) :=
      int64_eq (by omega) (by omega)
    have body : int64 (12 + (high - low + 1) * 4) = pure (12 + (high - low + 1) * 4) :=
      int64_eq (by omega) (by omega)
    have size : natural (12 + (high - low + 1) * 4) = pure (12 + (high - low + 1) * 4).toNat :=
      natural_eq (by omega)
    have whole : sum UInt64.size (1 + padding) (12 + (high - low + 1) * 4).toNat =
        pure (padding + 12 + (high - low + 1).toNat * 4 + 1) := by
      rw [Checked.sum_eq (by change _ < 18446744073709551616; omega)]
      congr 1
      omega
    simp only [span, entries, words, body, size, whole, liftM_pure, pure_bind]
    exact .pure (by change _ < 9223372036854775808; omega)

theorem settles_lookupSwitch {padding : Nat} (small : padding < 4)
    (aligned : padding = Bytecode.switchPadding pc) :
    Settles (· < UInt64.size / 2)
      (do
        let body ← lookupBody code pc (pc + 1 + padding)
        sum UInt64.size (1 + padding) (← natural body))
      ((· + 1) <$> Bytecode.lookupSwitchLength pc rest) := by
  unfold lookupBody Bytecode.lookupSwitchLength
  rw [← aligned, stands.sum_operands padding small (by decide)]
  simp only [liftM_pure, pure_bind, bind_assoc, map_bind]
  refine (stands.settles_wordAt (by omega)).bind fun pairs range => ?_
  rw [isInt32_iff] at range
  by_cases negative : pairs < 0
  · rw [if_pos negative, if_pos negative]
    exact .fail _
  · rw [if_neg negative, if_neg negative]
    have words : int64 (pairs * 8) = pure (pairs * 8) := int64_eq (by omega) (by omega)
    have body : int64 (8 + pairs * 8) = pure (8 + pairs * 8) := int64_eq (by omega) (by omega)
    have size : natural (8 + pairs * 8) = pure (8 + pairs * 8).toNat := natural_eq (by omega)
    have whole : sum UInt64.size (1 + padding) (8 + pairs * 8).toNat =
        pure (padding + 8 + pairs.toNat * 8 + 1) := by
      rw [Checked.sum_eq (by change _ < 18446744073709551616; omega)]
      congr 1
      omega
    simp only [words, body, size, whole, liftM_pure, pure_bind]
    exact .pure (by change _ < 9223372036854775808; omega)

theorem switchLength_eq :
    switchLength code pc = (do
      let body ← if opcode = 0xAA then tableBody code pc (pc + 1 + Bytecode.switchPadding pc)
        else lookupBody code pc (pc + 1 + Bytecode.switchPadding pc)
      sum UInt64.size (1 + Bytecode.switchPadding pc) (← natural body)) := by
  have next := stands.sum_eq (n := 1) (by decide)
  have align : difference 4 ((pc + 1) % 4) = pure (4 - (pc + 1) % 4) := difference_eq (by omega)
  have operands : sum UInt64.size (pc + 1) ((4 - (pc + 1) % 4) % 4) =
      pure (pc + 1 + (4 - (pc + 1) % 4) % 4) := by
    have total := stands.length_eq
    have short := stands.short
    apply Checked.sum_eq
    change _ < 4294967296 at short
    change _ < 18446744073709551616
    omega
  have start : sum UInt64.size 1 ((4 - (pc + 1) % 4) % 4) = pure (1 + (4 - (pc + 1) % 4) % 4) :=
    Checked.sum_eq (by change _ < 18446744073709551616; omega)
  unfold switchLength Bytecode.switchPadding
  simp only [next, align, operands, start, stands.opcode_eq, liftM_pure, pure_bind]

theorem settles_wideLength :
    Settles (· < UInt64.size / 2) (wideLength code pc) ((· + 1) <$> Bytecode.wideLength pc rest) := by
  have next := stands.sum_eq (n := 1) (by decide)
  unfold wideLength
  simp only [next, liftM_pure, pure_bind]
  rw [← List.head?_drop, stands.after]
  cases rest with
  | nil => exact .fail _
  | cons widened more =>
      have length : (if widened = 0x84 then 6 else 4) = (if widened = 0x84 then 5 else 3) + 1 := by
        split <;> rfl
      change Settles _ (pure (if widened = 0x84 then 6 else 4)) _
      rw [length]
      exact .pure (by split <;> decide)

theorem settles_instructionLength :
    Settles (· < UInt64.size / 2) (instructionLength code pc)
      ((· + 1) <$> Bytecode.operandLength pc opcode rest) := by
  have padded : Bytecode.switchPadding pc < 4 := Nat.mod_lt _ (by decide)
  unfold instructionLength Bytecode.operandLength
  rw [stands.opcode_eq, liftM_pure, pure_bind]
  cases fixed : Bytecode.fixedLength? opcode with
  | some length =>
      have few := fixedLength?_lt fixed
      exact .pure (by change _ < 9223372036854775808; omega)
  | none =>
      simp only
      by_cases table : opcode = 0xAA
      · rw [if_pos (.inl table), if_pos table, stands.switchLength_eq, if_pos table]
        exact stands.settles_tableSwitch padded rfl
      · rw [if_neg table]
        by_cases lookup : opcode = 0xAB
        · rw [if_pos (.inr lookup), if_pos lookup, stands.switchLength_eq, if_neg table]
          exact stands.settles_lookupSwitch padded rfl
        · rw [if_neg (by simp [table, lookup]), if_neg lookup]
          by_cases wide : opcode = 0xC4
          · rw [if_pos wide, if_pos wide]
            exact stands.settles_wideLength
          · rw [if_neg wide, if_neg wide]
            exact .fail _

theorem byteAt_one {first : UInt8} {more : List UInt8} (starts : rest = first :: more) :
    byteAt code (pc + 1) = pure first :=
  byteAt_eq (getElem?_of_drop (stands.after.trans starts))

theorem operand_eq (enough : 2 ≤ rest.length) :
    operand code pc = pure (bigEndian (rest.take 2)) := by
  have add := stands.sum_operands 0 (n := 1) (by decide) (by decide)
  match rest, enough with
  | first :: second :: more, _ =>
      have secondAt := drop_succ_of_drop stands.after
      unfold operand
      simp [stands.sum_eq (n := 1) (by decide), add, byteAt_eq (getElem?_of_drop stands.after),
        byteAt_eq (getElem?_of_drop secondAt)]

end Stands

def InstructionFits (instruction : Instruction) : Prop :=
  ∀ m ∈ Mention.ofInstruction instruction, MentionFits m

theorem mentionFits_classConstant {name : String} (fits : Text.Fits name) (context : String) :
    MentionFits (Mention.classConstant name context) := by
  unfold Mention.classConstant
  split
  · exact fits
  · trivial

theorem instructionFits_member {instruction : Instruction} {owner descriptor context : String}
    (mentions : Mention.ofInstruction instruction = [.name owner, .strict descriptor context])
    (fits : Text.Fits descriptor) : InstructionFits instruction := by
  intro m member
  rw [mentions] at member
  rcases List.mem_pair.mp member with rfl | rfl
  · trivial
  · exact fits

theorem instructionFits_only {instruction : Instruction} {mention : Mention}
    (mentions : Mention.ofInstruction instruction = [mention]) (fits : MentionFits mention) :
    InstructionFits instruction := by
  intro m member
  rw [mentions, List.mem_singleton] at member
  exact member ▸ fits

theorem PoolFits.loaded {pool : ConstantPool} (fits : PoolFits pool) {index : Nat}
    {loaded : Option LoadableConstant} (found : pool.loadable? index = .ok loaded) (pc : Nat) :
    ∀ instruction ∈ loaded.map (Instruction.loadConstant pc), InstructionFits instruction := by
  cases ConstantPool.loadable?_eq_ok_iff.mp found with
  | classLiteral holds named =>
      rintro _ ⟨⟩
      exact instructionFits_only rfl (mentionFits_classConstant (fits _ _ named) _)
  | methodType holds described =>
      rintro _ ⟨⟩
      exact instructionFits_only rfl (fits _ _ described)
  | methodHandle holds refers =>
      rintro _ ⟨⟩
      exact instructionFits_member rfl (fits.member refers)
  | other => simp

theorem settles_reference? {pool : ConstantPool} (fits : PoolFits pool) {code rest : List UInt8}
    {pc length : Nat} {opcode : UInt8} (stands : Stands code pc opcode rest)
    (known : Bytecode.operandLength pc opcode rest = .ok length) (enough : length ≤ rest.length) :
    Settles (∀ instruction ∈ ·, InstructionFits instruction) (reference? pool code pc opcode)
      (Bytecode.reference? pool pc opcode (rest.take length)) := by
  have width {n : Nat} (fixed : Bytecode.fixedLength? opcode = some n) : length = n := by
    unfold Bytecode.operandLength at known
    rw [fixed] at known
    exact (Except.ok.inj known).symm
  have indexed {n : Nat} (fixed : Bytecode.fixedLength? opcode = some n) (two : 2 ≤ n) :
      operand code pc = pure (Bytecode.index (rest.take length)) := by
    have long := width fixed
    rw [stands.operand_eq (by omega), Bytecode.index, List.take_take, Nat.min_eq_left (by omega)]
  have member {n : Nat} {k : MemberRef → Instruction}
      (fit : ∀ target, Text.Fits target.descriptor → InstructionFits (k target))
      (fixed : Bytecode.fixedLength? opcode = some n) (two : 2 ≤ n) :
      Settles (∀ instruction ∈ ·, InstructionFits instruction)
        (do return some (k (← pool.memberRef (← operand code pc))))
        (do return some (k (← pool.memberRef (Bytecode.index (rest.take length))))) := by
    rw [indexed fixed two, pure_bind]
    refine Settles.bind (.resolve fun _ => fits.memberRef) fun target described => .pure ?_
    rintro _ ⟨⟩
    exact fit target described
  unfold reference? Bytecode.reference?
  generalize number : opcode.toNat = n
  split
  case h_1 | h_2 | h_3 | h_4 =>
    rw [indexed (n := 2) (by simp [Bytecode.fixedLength?, number]) (by decide), pure_bind]
    refine Settles.bind (.resolve fun _ => fits.className) fun name _ => .pure ?_
    rintro _ ⟨⟩
    exact instructionFits_only rfl trivial
  case h_5 | h_6 | h_7 | h_8 =>
    exact member (n := 2) (fun target described => instructionFits_member rfl described)
      (by simp [Bytecode.fixedLength?, number]) (by decide)
  case h_9 | h_10 | h_11 =>
    exact member (n := 2) (fun target described => instructionFits_member rfl described)
      (by simp [Bytecode.fixedLength?, number]) (by decide)
  case h_12 =>
    exact member (n := 4) (fun target described => instructionFits_member rfl described)
      (by simp [Bytecode.fixedLength?, number]) (by decide)
  case h_13 =>
    rw [indexed (n := 4) (by simp [Bytecode.fixedLength?, number]) (by decide), pure_bind]
    refine Settles.bind (.resolve fun _ => fits.callSite) fun site described => .pure ?_
    rintro _ ⟨⟩
    exact instructionFits_only rfl described
  case h_14 =>
    have one := width (n := 1) (by simp [Bytecode.fixedLength?, number])
    subst one
    cases rest with
    | nil => exact absurd enough (by decide)
    | cons byte more =>
        rw [stands.sum_eq (by decide), liftM_pure, pure_bind, stands.byteAt_one rfl, liftM_pure,
          pure_bind]
        have single : bigEndian (((byte :: more).take 1).take 1) = byte.toNat := Nat.zero_add _
        rw [single]
        exact Settles.bind (.resolve fun _ found => fits.loaded found pc) fun loaded fit => .pure fit
  case h_15 =>
    rw [indexed (n := 2) (by simp [Bytecode.fixedLength?, number]) (by decide), pure_bind]
    exact Settles.bind (.resolve fun _ found => fits.loaded found pc) fun loaded fit => .pure fit
  case h_16 =>
    have three := width (n := 3) (by simp [Bytecode.fixedLength?, number])
    rw [indexed (n := 3) (by simp [Bytecode.fixedLength?, number]) (by decide), pure_bind]
    refine Settles.bind (.resolve fun _ => fits.className) fun name named => ?_
    subst three
    rcases rest with _ | ⟨first, _ | ⟨second, _ | ⟨third, more⟩⟩⟩
    case cons.cons.cons =>
      have thirdAt := drop_succ_of_drop (drop_succ_of_drop stands.after)
      rw [stands.sum_eq (by decide), liftM_pure, pure_bind, byteAt_eq (getElem?_of_drop thirdAt),
        liftM_pure, pure_bind]
      refine .pure ?_
      rintro _ ⟨⟩
      exact instructionFits_only rfl (mentionFits_classConstant named _)
    all_goals exact absurd enough (by simp)
  case h_17 =>
    have nothing : Settles (∀ instruction ∈ ·, InstructionFits instruction) (pure none) (pure none) :=
      .pure (by simp)
    refine nothing.congr ?_
    simp_all only

/-- The walk goes on behind each instruction, and the bytes in front of it get fewer. -/
theorem settles_instructionsFrom {pool : ConstantPool} (fits : PoolFits pool) {code : List UInt8}
    {base : Nat} (short : code.length < UInt32.size) (inRecord : base + code.length < UInt64.size)
    (pc : Nat) (front : List UInt8) (found : List Instruction) (standing : code.drop pc = front)
    (fit : ∀ instruction ∈ found, InstructionFits instruction) :
    Settles (∀ instruction ∈ ·, InstructionFits instruction) (instructionsFrom pool code base pc found)
      ((found ++ ·) <$> Bytecode.decodeFrom pool base pc front) := by
  induction pc, front using Bytecode.decodeFrom.induct generalizing found with
  | case1 pc =>
      have ended : ¬ pc < code.length := Nat.not_lt.mpr (List.drop_eq_nil_iff.mp standing)
      rw [instructionsFrom, if_neg ended, Bytecode.decodeFrom]
      change Settles _ _ (.ok (found ++ []))
      rw [List.append_nil]
      exact .pure fit
  | case2 pc opcode rest ih =>
      have stands : Stands code pc opcode rest := ⟨standing, short⟩
      have settled := stands.settles_instructionLength
      have total := stands.length_eq
      rw [instructionsFrom, if_pos (lt_length_of_drop standing), stands.opcode_eq, liftM_pure, pure_bind]
      cases measured : Bytecode.operandLength pc opcode rest with
      | error e =>
          rw [measured] at settled
          rw [settled.same, Bytecode.decodeFrom_unmeasured measured]
          exact .fail e
      | ok length =>
          rw [measured] at settled
          have small : length + 1 < UInt64.size / 2 := settled.holds _ rfl
          have same : instructionLength code pc = pure (length + 1) := settled.same
          have stop : sum UInt64.size pc (length + 1) = pure (pc + 1 + length) := by
            rw [Checked.sum_eq, Nat.add_right_comm, Nat.add_assoc]
            change _ < 4294967296 at short
            change _ < 9223372036854775808 at small
            change _ < 18446744073709551616
            omega
          rw [same, pure_bind, stop, liftM_pure, pure_bind, Bytecode.decodeFrom_measured base measured]
          by_cases cut : rest.length < length
          · have offset : sum UInt64.size base pc = pure (base + pc) := Checked.sum_eq (by omega)
            have missing : difference (pc + 1 + length) code.length = pure (length - rest.length) := by
              rw [difference_eq (by omega)]
              congr 1
              omega
            rw [if_pos (by omega), if_pos cut, offset, missing]
            exact .fail _
          · rw [if_neg (by omega), if_neg cut, map_bind]
            refine (settles_reference? fits stands measured (by omega)).bind fun next nextFits => ?_
            rw [map_append_bind]
            refine ih length (found ++ next.toList) ?_ ?_
            · rw [← stands.after, List.drop_drop]
            · intro instruction member
              rcases List.mem_append.mp member with earlier | added
              · exact fit instruction earlier
              · exact nextFits instruction (Option.mem_toList.mp added)

theorem settles_instructions {pool : ConstantPool} (fits : PoolFits pool) {code : List UInt8}
    {base : Nat} (short : code.length < UInt32.size) (inRecord : base + code.length < UInt64.size) :
    Settles (∀ instruction ∈ ·, InstructionFits instruction) (instructionsFrom pool code base 0 [])
      (Bytecode.decode pool base code) := by
  have walk := settles_instructionsFrom fits short inRecord 0 code [] rfl (by simp)
  simp only [List.nil_append, id_map'] at walk
  exact walk

end ClassAtlas.ClassFile.Indexed

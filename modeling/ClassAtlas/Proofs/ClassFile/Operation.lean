import ClassAtlas.ClassFile.Bytecode
import ClassAtlas.Proofs.ClassFile.Numeral
import ClassAtlas.Proofs.ClassFile.Resolution

/-!
The instruction set as syntax: what each instruction looks like in bytes, where a switch may stand,
and what it refers to in a constant pool. An operation carries what the set demands of its operands,
so every operation is a complete instruction.
-/

namespace ClassAtlas.ClassFile.Bytecode

/-- The opcodes that refer to no type, as ranges, by the number of operand bytes. -/
def plainRanges : Nat → List (UInt8 × UInt8)
  -- constants, loads and stores with an implied index, array access, stack, arithmetic, conversion,
  -- comparison, return, array length, throw, monitors
  | 0 => [(0x00, 0x0F), (0x1A, 0x35), (0x3B, 0x83), (0x85, 0x98), (0xAC, 0xB1), (0xBE, 0xBF),
      (0xC2, 0xC3)]
  -- byte constant, loads and stores of a local variable, return from subroutine, primitive array
  | 1 => [(0x10, 0x10), (0x15, 0x19), (0x36, 0x3A), (0xA9, 0xA9), (0xBC, 0xBC)]
  -- short constant, load of a wide constant, increment, branches
  | 2 => [(0x11, 0x11), (0x14, 0x14), (0x84, 0x84), (0x99, 0xA8), (0xC6, 0xC7)]
  -- far branches
  | 4 => [(0xC8, 0xC9)]
  | _ => []

def Plain (opcode : UInt8) (width : Nat) : Prop :=
  ∃ range ∈ plainRanges width, range.1 ≤ opcode ∧ opcode ≤ range.2

instance (opcode : UInt8) (width : Nat) : Decidable (Plain opcode width) :=
  inferInstanceAs (Decidable (∃ range ∈ plainRanges width, range.1 ≤ opcode ∧ opcode ≤ range.2))

/-- One complete instruction. -/
inductive Operation where
  | plain (opcode : UInt8) (operands : List UInt8) (legal : Plain opcode operands.length)
  | type (opcode : UInt8) (index : UInt16) (legal : opcode ∈ [0xBB, 0xBD, 0xC0, 0xC1])
  | field (opcode : UInt8) (index : UInt16) (legal : opcode ∈ [0xB2, 0xB3, 0xB4, 0xB5])
  | method (opcode : UInt8) (index : UInt16) (legal : opcode ∈ [0xB6, 0xB7, 0xB8])
  | invokeInterface (index : UInt16) (count zero : UInt8)
  | invokeDynamic (index : UInt16) (first second : UInt8)
  | loadConstant (index : UInt8)
  | loadConstantWide (index : UInt16)
  | multiANewArray (index : UInt16) (dimensions : UInt8)
  | tableSwitch (padding : List UInt8) (fallback : UInt32) (low high : Int32) (targets : List UInt32)
      (ordered : low.toInt ≤ high.toInt)
      (counted : (targets.length : Int) = high.toInt - low.toInt + 1)
  | lookupSwitch (padding : List UInt8) (fallback : UInt32) (pairs : List (UInt32 × UInt32))
      (few : pairs.length < Nat.pow 2 31)
  | wideIncrement (index increment : UInt16)
  | wide (opcode : UInt8) (index : UInt16) (other : opcode ≠ 0x84)

namespace Operation

def opcode : Operation → UInt8
  | .plain opcode _ _ => opcode
  | .type opcode _ _ => opcode
  | .field opcode _ _ => opcode
  | .method opcode _ _ => opcode
  | .invokeInterface _ _ _ => 0xB9
  | .invokeDynamic _ _ _ => 0xBA
  | .loadConstant _ => 0x12
  | .loadConstantWide _ => 0x13
  | .multiANewArray _ _ => 0xC5
  | .tableSwitch _ _ _ _ _ _ _ => 0xAA
  | .lookupSwitch _ _ _ _ => 0xAB
  | .wideIncrement _ _ => 0xC4
  | .wide _ _ _ => 0xC4

def operands : Operation → List UInt8
  | .plain _ operands _ => operands
  | .type _ index _ => word2 index
  | .field _ index _ => word2 index
  | .method _ index _ => word2 index
  | .invokeInterface index count zero => word2 index ++ [count, zero]
  | .invokeDynamic index first second => word2 index ++ [first, second]
  | .loadConstant index => [index]
  | .loadConstantWide index => word2 index
  | .multiANewArray index dimensions => word2 index ++ [dimensions]
  | .tableSwitch padding fallback low high targets _ _ =>
    padding ++ (word4 fallback ++ (word4 low.toUInt32 ++ (word4 high.toUInt32 ++
      targets.flatMap word4)))
  | .lookupSwitch padding fallback pairs _ =>
    padding ++ (word4 fallback ++ (numeral 4 pairs.length ++
      pairs.flatMap fun pair => word4 pair.1 ++ word4 pair.2))
  | .wideIncrement index increment => 0x84 :: (word2 index ++ word2 increment)
  | .wide opcode index _ => opcode :: word2 index

def bytes (op : Operation) : List UInt8 :=
  op.opcode :: op.operands

/-- The operands of a switch at `pc` start at the next multiple of four. -/
def Aligned (pc : Nat) : Operation → Prop
  | .tableSwitch padding _ _ _ _ _ _ => padding.length < 4 ∧ (pc + 1 + padding.length) % 4 = 0
  | .lookupSwitch padding _ _ _ => padding.length < 4 ∧ (pc + 1 + padding.length) % 4 = 0
  | _ => True

/-- The operation at `pc` resolves in the pool, and this is the type reference it makes, if any. -/
def Refers (pool : ConstantPool) (pc : Nat) : Operation → Option Instruction → Prop
  | .type opcode index _, found =>
    ∃ name, pool.NamesClass index.toNat name ∧ found = some (.type opcode pc name)
  | .field opcode index _, found =>
    ∃ target, pool.NamesMember index.toNat target ∧ found = some (.field opcode pc target)
  | .method opcode index _, found =>
    ∃ target, pool.NamesMember index.toNat target ∧ found = some (.method opcode pc target)
  | .invokeInterface index _ _, found =>
    ∃ target, pool.NamesMember index.toNat target ∧ found = some (.method 0xB9 pc target)
  | .invokeDynamic index _ _, found =>
    ∃ name descriptor, pool.NamesCallSite index.toNat name descriptor ∧
      found = some (.invokeDynamic pc name descriptor)
  | .loadConstant index, found =>
    ∃ loaded, pool.Loads index.toNat loaded ∧ found = loaded.map (.loadConstant pc)
  | .loadConstantWide index, found =>
    ∃ loaded, pool.Loads index.toNat loaded ∧ found = loaded.map (.loadConstant pc)
  | .multiANewArray index dimensions, found =>
    ∃ name, pool.NamesClass index.toNat name ∧ found = some (.multiANewArray pc name dimensions)
  | _, found => found = none

end Operation

/-- The operations stand back to back from `pc` on, each switch aligned. -/
def Placed : Nat → List Operation → Prop
  | _, [] => True
  | pc, op :: program => op.Aligned pc ∧ Placed (pc + op.bytes.length) program

/-- The type references of the operations from `pc` on, in order and with their offsets. -/
def Lists (pool : ConstantPool) : Nat → List Operation → List Instruction → Prop
  | _, [], found => found = []
  | pc, op :: program, found =>
    ∃ first more, op.Refers pool pc first ∧ Lists pool (pc + op.bytes.length) program more ∧
      found = first.toList ++ more

end ClassAtlas.ClassFile.Bytecode

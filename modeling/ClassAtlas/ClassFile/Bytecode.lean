import ClassAtlas.ClassFile.ConstantPool

/-!
The walk over a code array. Instructions stand back to back, and only those that refer to types are
kept, with their offsets in the array. A switch is padded to a multiple of four counted from the
start of the array.
-/

namespace ClassAtlas.ClassFile

inductive Instruction where
  | type (opcode : UInt8) (offset : Nat) (className : String)
  | field (opcode : UInt8) (offset : Nat) (target : MemberRef)
  | method (opcode : UInt8) (offset : Nat) (target : MemberRef)
  | invokeDynamic (offset : Nat) (name descriptor : String)
  | loadConstant (offset : Nat) (constant : LoadableConstant)
  | multiANewArray (offset : Nat) (descriptor : String) (dimensions : UInt8)
  deriving Repr, DecidableEq

namespace Bytecode

/-- The signed word `skip` bytes into `operands`, which start at offset `pc + 1`. An end of data is
reported relative to the code array. -/
def wordAt (pc : Nat) (operands : List UInt8) (skip : Nat) : Except DecodeError Int :=
  let taken := (operands.drop skip).take 4
  if taken.length < 4 then
    .error (.unexpectedEnd (pc + 1 + skip) (skip + 4 - operands.length))
  else
    .ok (twosComplement 32 (bigEndian taken))

def switchPadding (pc : Nat) : Nat :=
  (4 - (pc + 1) % 4) % 4

def tableSwitchLength (pc : Nat) (operands : List UInt8) : Except DecodeError Nat := do
  let padding := switchPadding pc
  let low ← wordAt pc operands (padding + 4)
  let high ← wordAt pc operands (padding + 8)
  if high < low then
    throw (.invalidSwitch pc)
  else
    return padding + 12 + (high - low + 1).toNat * 4

def lookupSwitchLength (pc : Nat) (operands : List UInt8) : Except DecodeError Nat := do
  let padding := switchPadding pc
  let pairs ← wordAt pc operands (padding + 4)
  if pairs < 0 then
    throw (.invalidSwitch pc)
  else
    return padding + 8 + pairs.toNat * 8

/-- A widened increment has two wide operands, any other widened instruction one. -/
def wideLength (pc : Nat) : List UInt8 → Except DecodeError Nat
  | [] => .error (.unexpectedEnd (pc + 1) 1)
  | widened :: _ => .ok (if widened = 0x84 then 5 else 3)

/-- The operand bytes of each opcode whose length does not depend on the code around it. -/
def fixedLength? (opcode : UInt8) : Option Nat :=
  let op := opcode.toNat
  if op ≤ 0x0F then some 0
  else if op = 0x10 then some 1
  else if op = 0x11 then some 2
  else if op = 0x12 then some 1
  else if op ≤ 0x14 then some 2
  else if op ≤ 0x19 then some 1
  else if op ≤ 0x35 then some 0
  else if op ≤ 0x3A then some 1
  else if op ≤ 0x83 then some 0
  else if op = 0x84 then some 2
  else if op ≤ 0x98 then some 0
  else if op ≤ 0xA8 then some 2
  else if op = 0xA9 then some 1
  else if op ≤ 0xAB then none
  else if op ≤ 0xB1 then some 0
  else if op ≤ 0xB8 then some 2
  else if op ≤ 0xBA then some 4
  else if op = 0xBB then some 2
  else if op = 0xBC then some 1
  else if op = 0xBD then some 2
  else if op ≤ 0xBF then some 0
  else if op ≤ 0xC1 then some 2
  else if op ≤ 0xC3 then some 0
  else if op = 0xC4 then none
  else if op = 0xC5 then some 3
  else if op ≤ 0xC7 then some 2
  else if op ≤ 0xC9 then some 4
  else none

def operandLength (pc : Nat) (opcode : UInt8) (rest : List UInt8) : Except DecodeError Nat :=
  match fixedLength? opcode with
  | some length => .ok length
  | none =>
    if opcode = 0xAA then tableSwitchLength pc rest
    else if opcode = 0xAB then lookupSwitchLength pc rest
    else if opcode = 0xC4 then wideLength pc rest
    else .error (.unknownOpcode opcode pc)

def index (operands : List UInt8) : Nat :=
  bigEndian (operands.take 2)

def reference? (pool : ConstantPool) (pc : Nat) (opcode : UInt8) (operands : List UInt8) :
    Except DecodeError (Option Instruction) := do
  match opcode.toNat with
  | 0xBB | 0xBD | 0xC0 | 0xC1 =>
    return some (.type opcode pc (← pool.className (index operands)))
  | 0xB2 | 0xB3 | 0xB4 | 0xB5 =>
    return some (.field opcode pc (← pool.memberRef (index operands)))
  | 0xB6 | 0xB7 | 0xB8 | 0xB9 =>
    return some (.method opcode pc (← pool.memberRef (index operands)))
  | 0xBA =>
    let (name, descriptor) ← pool.callSite (index operands)
    return some (.invokeDynamic pc name descriptor)
  | 0x12 =>
    return (← pool.loadable? (bigEndian (operands.take 1))).map (.loadConstant pc)
  | 0x13 =>
    return (← pool.loadable? (index operands)).map (.loadConstant pc)
  | 0xC5 =>
    return some (.multiANewArray pc (← pool.className (index operands)) ((operands.drop 2).headD 0))
  | _ => return none

/-- The references of the code from `pc` on; `base` is the offset of the whole array in its record.
Only an instruction whose length is known is reported as cut off relative to the record. -/
def decodeFrom (pool : ConstantPool) (base pc : Nat) :
    List UInt8 → Except DecodeError (List Instruction)
  | [] => .ok []
  | opcode :: rest => do
    let length ← operandLength pc opcode rest
    let operands := rest.take length
    if operands.length < length then
      throw (.unexpectedEnd (base + pc) (length - operands.length))
    let found ← reference? pool pc opcode operands
    let more ← decodeFrom pool base (pc + 1 + length) (rest.drop length)
    return found.toList ++ more
termination_by code => code.length
decreasing_by simp only [List.length_cons, List.length_drop]; omega

def decode (pool : ConstantPool) (base : Nat) (code : List UInt8) :
    Except DecodeError (List Instruction) :=
  decodeFrom pool base 0 code

end Bytecode

end ClassAtlas.ClassFile

import ClassAtlas.ClassFile.Decoder
import ClassAtlas.ClassFile.ModifiedUtf8

/-!
The constant pool. Constants take consecutive slots from 1, and a long or double takes two, the
second of which cannot be used. Indices are resolved through the pool by what they must name.
-/

namespace ClassAtlas.ClassFile

inductive Constant where
  | utf8 (text : String)
  | integer (value : Int)
  | float (bits : Nat)
  | long (value : Int)
  | double (bits : Nat)
  | classInfo (nameIndex : Nat)
  | string (stringIndex : Nat)
  | fieldRef (classIndex nameAndTypeIndex : Nat)
  | methodRef (classIndex nameAndTypeIndex : Nat)
  | interfaceMethodRef (classIndex nameAndTypeIndex : Nat)
  | nameAndType (nameIndex descriptorIndex : Nat)
  | methodHandle (kind : UInt8) (referenceIndex : Nat)
  | methodType (descriptorIndex : Nat)
  | dynamic (bootstrapIndex nameAndTypeIndex : Nat)
  | invokeDynamic (bootstrapIndex nameAndTypeIndex : Nat)
  | moduleInfo (nameIndex : Nat)
  | packageInfo (nameIndex : Nat)
  deriving Repr, DecidableEq

def Constant.isWide : Constant → Bool
  | .long _ => true
  | .double _ => true
  | _ => false

structure MemberRef where
  owner : String
  name : String
  descriptor : String
  deriving Repr, DecidableEq

inductive LoadableConstant where
  | classLiteral (name : String)
  | methodType (descriptor : String)
  | methodHandle (kind : UInt8) (target : MemberRef)
  deriving Repr, DecidableEq

/-- The slots from 0 on; `none` is a slot that cannot be used. -/
structure ConstantPool where
  slots : Array (Option Constant)
  deriving Repr, DecidableEq

namespace ConstantPool

def constant (index : Nat) : Decoder Constant := do
  let tag ← Decoder.u1
  match tag.toNat with
  | 1 =>
    let raw ← Decoder.bytes (← Decoder.u2)
    match ModifiedUtf8.decode raw with
    | some text => return .utf8 text
    | none => Decoder.fail (.invalidUtf8 index)
  | 3 => return .integer (twosComplement 32 (← Decoder.u4))
  | 4 => return .float (← Decoder.u4)
  | 5 => return .long (twosComplement 64 (← Decoder.u8))
  | 6 => return .double (← Decoder.u8)
  | 7 => return .classInfo (← Decoder.u2)
  | 8 => return .string (← Decoder.u2)
  | 9 => return .fieldRef (← Decoder.u2) (← Decoder.u2)
  | 10 => return .methodRef (← Decoder.u2) (← Decoder.u2)
  | 11 => return .interfaceMethodRef (← Decoder.u2) (← Decoder.u2)
  | 12 => return .nameAndType (← Decoder.u2) (← Decoder.u2)
  | 15 => return .methodHandle (← Decoder.u1) (← Decoder.u2)
  | 16 => return .methodType (← Decoder.u2)
  | 17 => return .dynamic (← Decoder.u2) (← Decoder.u2)
  | 18 => return .invokeDynamic (← Decoder.u2) (← Decoder.u2)
  | 19 => return .moduleInfo (← Decoder.u2)
  | 20 => return .packageInfo (← Decoder.u2)
  | _ => Decoder.fail (.invalidConstantTag index tag)

/-- The slots from `index` on, `left` of which are declared. A wide constant in the last declared
slot brings its second half with it. -/
def slotsFrom (index : Nat) : Nat → Decoder (List (Option Constant))
  | 0 => return []
  | left + 1 => do
    let c ← constant index
    if c.isWide then
      match left with
      | 0 => return [some c, none]
      | left + 1 => return some c :: none :: (← slotsFrom (index + 2) left)
    else
      return some c :: (← slotsFrom (index + 1) left)

/-- The declared count includes slot 0, which holds nothing. -/
def decode : Decoder ConstantPool := do
  let count ← Decoder.u2
  let slots ← slotsFrom 1 (count - 1)
  return { slots := (none :: slots).toArray }

def size (pool : ConstantPool) : Nat :=
  pool.slots.size

def isEmpty (pool : ConstantPool) : Bool :=
  pool.size ≤ 1

def get (pool : ConstantPool) (index : Nat) : Except DecodeError Constant :=
  match pool.slots[index]? with
  | some (some c) => .ok c
  | _ => .error (.invalidConstantIndex index)

def utf8 (pool : ConstantPool) (index : Nat) : Except DecodeError String := do
  match ← pool.get index with
  | .utf8 text => return text
  | _ => throw (.wrongConstantKind index .utf8)

def className (pool : ConstantPool) (index : Nat) : Except DecodeError String := do
  match ← pool.get index with
  | .classInfo nameIndex => pool.utf8 nameIndex
  | _ => throw (.wrongConstantKind index .className)

/-- Index 0 stands for no class. -/
def className? (pool : ConstantPool) (index : Nat) : Except DecodeError (Option String) :=
  if index = 0 then .ok none else some <$> pool.className index

def nameAndType (pool : ConstantPool) (index : Nat) : Except DecodeError (String × String) := do
  match ← pool.get index with
  | .nameAndType nameIndex descriptorIndex =>
    let name ← pool.utf8 nameIndex
    let descriptor ← pool.utf8 descriptorIndex
    return (name, descriptor)
  | _ => throw (.wrongConstantKind index .nameAndType)

def memberIndices (pool : ConstantPool) (index : Nat) : Except DecodeError (Nat × Nat) := do
  match ← pool.get index with
  | .fieldRef c n => return (c, n)
  | .methodRef c n => return (c, n)
  | .interfaceMethodRef c n => return (c, n)
  | _ => throw (.wrongConstantKind index .memberReference)

def memberRef (pool : ConstantPool) (index : Nat) : Except DecodeError MemberRef := do
  let (classIndex, nameAndTypeIndex) ← pool.memberIndices index
  let (name, descriptor) ← pool.nameAndType nameAndTypeIndex
  let owner ← pool.className classIndex
  return { owner, name, descriptor }

/-- Other usable constants can be loaded too, but name no type. -/
def loadable? (pool : ConstantPool) (index : Nat) :
    Except DecodeError (Option LoadableConstant) := do
  match ← pool.get index with
  | .classInfo nameIndex => return some (.classLiteral (← pool.utf8 nameIndex))
  | .methodType descriptorIndex => return some (.methodType (← pool.utf8 descriptorIndex))
  | .methodHandle kind referenceIndex =>
    return some (.methodHandle kind (← pool.memberRef referenceIndex))
  | _ => return none

def callSite (pool : ConstantPool) (index : Nat) : Except DecodeError (String × String) := do
  match ← pool.get index with
  | .invokeDynamic _ nameAndTypeIndex => pool.nameAndType nameAndTypeIndex
  | _ => throw (.wrongConstantKind index .invokeDynamic)

end ConstantPool

end ClassAtlas.ClassFile

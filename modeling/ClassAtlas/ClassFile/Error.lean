import ClassAtlas.Descriptor.Error

/-!
Why a class record cannot be decoded.
-/

namespace ClassAtlas.ClassFile

inductive ConstantKind where
  | utf8
  | className
  | nameAndType
  | memberReference
  | invokeDynamic
  deriving Repr, DecidableEq

def ConstantKind.describe : ConstantKind → String
  | .utf8 => "Utf8"
  | .className => "Class"
  | .nameAndType => "NameAndType"
  | .memberReference => "member reference"
  | .invokeDynamic => "InvokeDynamic"

inductive DecodeError where
  | badMagic (found : Nat)
  /-- The data ends at `offset`, `needed` bytes short of what is being read. -/
  | unexpectedEnd (offset needed : Nat)
  | invalidConstantTag (index : Nat) (tag : UInt8)
  | invalidConstantIndex (index : Nat)
  | wrongConstantKind (index : Nat) (expected : ConstantKind)
  | invalidUtf8 (index : Nat)
  | unknownOpcode (opcode : UInt8) (offset : Nat)
  | invalidSwitch (offset : Nat)
  | invalidElementTag (tag : UInt8) (offset : Nat)
  | trailingBytes (name : String) (remaining : Nat)
  | descriptor (context : String) (cause : Descriptor.Error)
  deriving Repr, DecidableEq

def hexadecimal (width n : Nat) : String :=
  let digits := (Nat.toDigits 16 n).map Char.toUpper
  String.ofList (List.replicate (width - digits.length) '0' ++ digits)

def DecodeError.message : DecodeError → String
  | .badMagic found => "bad magic number 0x" ++ hexadecimal 8 found
  | .unexpectedEnd offset needed =>
    s!"unexpected end of data at offset {offset}: {needed} more bytes needed"
  | .invalidConstantTag index tag => s!"invalid constant pool tag {tag} at index {index}"
  | .invalidConstantIndex index => s!"invalid constant pool index {index}"
  | .wrongConstantKind index expected =>
    s!"constant pool index {index} is not a " ++ expected.describe ++ " entry"
  | .invalidUtf8 index => s!"constant pool index {index} holds invalid modified UTF-8"
  | .unknownOpcode opcode offset =>
    "unknown opcode 0x" ++ hexadecimal 2 opcode.toNat ++ s!" at bytecode offset {offset}"
  | .invalidSwitch offset => s!"invalid switch bounds at bytecode offset {offset}"
  | .invalidElementTag tag offset =>
    "invalid annotation element tag '" ++ Descriptor.byteChar tag ++ s!"' at offset {offset}"
  | .trailingBytes name remaining =>
    s!"{name} attribute has {remaining} trailing bytes"
  | .descriptor context cause => s!"invalid descriptor in {context}: " ++ cause.message

end ClassAtlas.ClassFile

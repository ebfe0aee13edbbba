/-!
Why a descriptor or signature cannot be read. Offsets count bytes of the text's UTF-8 form, and an
unexpected character is reported by its first byte there.
-/

namespace ClassAtlas.Descriptor

inductive Error where
  /-- The class type that starts here has no name or no closing semicolon. -/
  | unterminatedClass (start : Nat)
  | unexpected (found : UInt8) (offset : Nat)
  | unexpectedEnd (offset : Nat)
  deriving Repr, DecidableEq

def byteChar (byte : UInt8) : String :=
  String.singleton (Char.ofNat byte.toNat)

def Error.message : Error → String
  | .unterminatedClass start => s!"unterminated class type starting at offset {start}"
  | .unexpected found offset => "unexpected character '" ++ byteChar found ++ s!"' at offset {offset}"
  | .unexpectedEnd offset => s!"unexpected end of descriptor at offset {offset}"

end ClassAtlas.Descriptor

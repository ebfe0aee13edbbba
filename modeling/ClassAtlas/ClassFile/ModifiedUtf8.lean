/-!
The text encoding of class records. It is UTF-8, except that NUL takes two bytes and a character
beyond the basic plane is written as its two UTF-16 surrogates, three bytes each. Plain UTF-8
without NUL is accepted as well, four-byte sequences included.
-/

namespace ClassAtlas.ClassFile.ModifiedUtf8

def continuation? (byte : UInt8) : Option Nat :=
  if 0x80 ≤ byte ∧ byte ≤ 0xBF then some (byte.toNat % 64) else none

/-- The UTF-16 units of an encoded text. A zero byte is never part of one. -/
def units? : List UInt8 → Option (List Nat)
  | [] => some []
  | b0 :: rest =>
    if 0x01 ≤ b0 ∧ b0 ≤ 0x7F then do
      return b0.toNat :: (← units? rest)
    else if 0xC0 ≤ b0 ∧ b0 ≤ 0xDF then
      match rest with
      | b1 :: rest => do
        let x1 ← continuation? b1
        return (b0.toNat % 32 * 64 + x1) :: (← units? rest)
      | [] => none
    else if 0xE0 ≤ b0 ∧ b0 ≤ 0xEF then
      match rest with
      | b1 :: b2 :: rest => do
        let x1 ← continuation? b1
        let x2 ← continuation? b2
        return (b0.toNat % 16 * 4096 + x1 * 64 + x2) :: (← units? rest)
      | _ => none
    else none

def isHighSurrogate (unit : Nat) : Bool := 0xD800 ≤ unit && unit ≤ 0xDBFF

def isLowSurrogate (unit : Nat) : Bool := 0xDC00 ≤ unit && unit ≤ 0xDFFF

/-- The text of a sequence of UTF-16 units; surrogates must stand in pairs. -/
def ofUnits? : List Nat → Option (List Char)
  | [] => some []
  | unit :: rest =>
    if isHighSurrogate unit then
      match rest with
      | low :: rest =>
        if isLowSurrogate low then do
          let scalar := 0x10000 + (unit - 0xD800) * 0x400 + (low - 0xDC00)
          return Char.ofNat scalar :: (← ofUnits? rest)
        else none
      | [] => none
    else if isLowSurrogate unit then none
    else do return Char.ofNat unit :: (← ofUnits? rest)

def decodeUnits (bytes : List UInt8) : Option String := do
  let units ← units? bytes
  let text ← ofUnits? units
  return String.ofList text

def decodePlain (bytes : List UInt8) : Option String := do
  let text ← String.fromUTF8? ⟨bytes.toArray⟩
  if text.toList.contains '\x00' then none else some text

def decode (bytes : List UInt8) : Option String :=
  decodePlain bytes <|> decodeUnits bytes

end ClassAtlas.ClassFile.ModifiedUtf8

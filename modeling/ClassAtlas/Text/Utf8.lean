/-!
Reading bytes as UTF-8 where they may not be. Each longest start of a character that breaks off is
replaced by one replacement character.
-/

namespace ClassAtlas.Text

def replacement : Char := '�'

/-- For a first byte: how many bytes follow it, what it counts for, and the bounds of the second. -/
def leadByte? (byte : UInt8) : Option (Nat × Nat × UInt8 × UInt8) :=
  let n := byte.toNat
  if n < 0x80 then some (0, n, 0x80, 0xBF)
  else if 0xC2 ≤ n && n ≤ 0xDF then some (1, n - 0xC0, 0x80, 0xBF)
  else if n = 0xE0 then some (2, 0, 0xA0, 0xBF)
  else if n = 0xED then some (2, 0xD, 0x80, 0x9F)
  else if 0xE1 ≤ n && n ≤ 0xEF then some (2, n - 0xE0, 0x80, 0xBF)
  else if n = 0xF0 then some (3, 0, 0x90, 0xBF)
  else if n = 0xF4 then some (3, 4, 0x80, 0x8F)
  else if 0xF1 ≤ n && n ≤ 0xF3 then some (3, n - 0xF0, 0x80, 0xBF)
  else none

def tailBytes : Nat → Nat → UInt8 → UInt8 → List UInt8 → Option Char × Nat
  | 0, value, _, _, _ => (some (Char.ofNat value), 0)
  | _ + 1, _, _, _, [] => (none, 0)
  | count + 1, value, low, high, byte :: rest =>
    if low ≤ byte && byte ≤ high then
      let (c, taken) := tailBytes count (value * 64 + (byte.toNat - 0x80)) 0x80 0xBF rest
      (c, taken + 1)
    else (none, 0)

/-- The characters of the bytes; `skip` bytes at the front belong to the character before. -/
def lossyFrom : Nat → List UInt8 → List Char
  | _, [] => []
  | skip + 1, _ :: rest => lossyFrom skip rest
  | 0, byte :: rest =>
    match leadByte? byte with
    | none => replacement :: lossyFrom 0 rest
    | some (count, value, low, high) =>
      let (c, taken) := tailBytes count value low high rest
      c.getD replacement :: lossyFrom taken rest

def decodeLossy (bytes : List UInt8) : String :=
  String.ofList (lossyFrom 0 bytes)

end ClassAtlas.Text

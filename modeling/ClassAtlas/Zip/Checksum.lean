/-!
The cyclic checksum that guards the entries of an archive.
-/

namespace ClassAtlas.Zip

/-- The checksum polynomial with its lowest power first. -/
def polynomial : UInt32 := 0xEDB88320

def shiftBits : Nat → UInt32 → UInt32
  | 0, register => register
  | bits + 1, register =>
    shiftBits bits (if register &&& 1 = 1 then (register >>> 1) ^^^ polynomial else register >>> 1)

def stepByte (register : UInt32) (byte : UInt8) : UInt32 :=
  shiftBits 8 (register ^^^ byte.toUInt32)

def checksum (bytes : List UInt8) : UInt32 :=
  bytes.foldl stepByte 0xFFFFFFFF ^^^ 0xFFFFFFFF

end ClassAtlas.Zip

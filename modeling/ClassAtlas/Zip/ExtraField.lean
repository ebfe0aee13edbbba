import ClassAtlas.Zip.Checksum
import ClassAtlas.Zip.EntryName
import ClassAtlas.Zip.Fields

/-!
Extra fields of a directory entry. Some replace what the entry itself says: sizes and places that
are too wide for it, or its name in another encoding. Others only have to be well formed.
-/

namespace ClassAtlas.Zip

structure Header where
  rawName : List UInt8
  name : String
  comment : String
  encrypted : Bool
  keyed : Bool := false
  method : Nat
  crc : UInt32
  compressed : Nat
  uncompressed : Nat
  offset : Nat
  deriving Repr, DecidableEq

def widthLimit : Nat := 0xFFFFFFFF

/-- A wide number that takes the place of a value at its limit; gives also how many bytes it has. -/
def widened (always : Bool) (value : Nat) : Fields (Nat × Nat) := do
  if always || value == widthLimit then return (← Fields.number 8, 8) else return (value, 0)

/-- Sizes and place of a large entry. A field that has room for all three holds all of them. -/
def largeEntry (size : Nat) (h : Header) : Fields Header := do
  let always := 24 ≤ size
  let (uncompressed, first) ← widened always h.uncompressed
  let (compressed, second) ← widened always h.compressed
  let (offset, third) ← widened always h.offset
  let taken := first + second + third
  if taken > size then throw .extraField
  discard (Fields.take (size - taken))
  return { h with uncompressed, compressed, offset }

def fileTimes (size : Nat) : Fields Unit := do
  if size ≠ 32 then throw .extraField
  match ← Fields.numbers [4, 2, 2, 8, 8, 8] with
  | [_, tag, length, _, _, _] => if tag ≠ 1 || length ≠ 24 then throw .extraField
  | _ => throw .extraField

/-- Points in time that flags announce. The directory may give only the first of them. -/
def flaggedTimes (size : Nat) : Fields Unit := do
  let flags ← Fields.number 1
  let announced := ((List.range 8).filter flags.testBit).length
  if size ≠ 5 && size ≠ 1 + 4 * announced then throw .extraField
  if flags ≥ 8 then throw .extraField
  discard (Fields.take (size - 1))

def encryption (size : Nat) (h : Header) : Fields Header := do
  if size ≠ 7 then throw .extraField
  match ← Fields.numbers [2, 2, 1, 2] with
  | [version, vendor, strength, method] =>
    -- the vendor is the letters "AE"
    if vendor ≠ 0x4541 then throw .extraField
    if version ≠ 1 && version ≠ 2 then throw .extraField
    if !(1 ≤ strength && strength ≤ 3) then throw .extraField
    return { h with method, keyed := true }
  | _ => throw .extraField

def substitute (size : Nat) (old : List UInt8) : Fields (List UInt8 × String) := do
  discard (Fields.take 1)
  let crc ← Fields.number 4
  if size < 5 then throw .extraField
  let bytes ← Fields.take (size - 5)
  if (checksum old).toNat ≠ crc then throw .extraField
  match String.fromUTF8? ⟨bytes.toArray⟩ with
  | some text => return (bytes, text)
  | none => throw .extraField

def Header.withField (h : Header) : Fields Header := do
  let kind ← Fields.number 2
  let size ← Fields.number 2
  match kind with
  | 0x0001 => largeEntry size h
  | 0x000A => fileTimes size; return h
  | 0x5455 => flaggedTimes size; return h
  | 0x9901 => encryption size h
  | 0x6375 =>
    let (_, comment) ← substitute size h.comment.toUTF8.toList
    return { h with comment }
  | 0x7075 =>
    let (rawName, name) ← substitute size h.rawName
    return { h with rawName, name }
  | _ => discard (Fields.take size); return h

def Header.withFields (h : Header) : Nat → Fields Header
  | 0 => return h
  | fuel + 1 => do
    match ← get with
    | _ :: _ :: _ => (← h.withField).withFields fuel
    | _ => return h

end ClassAtlas.Zip

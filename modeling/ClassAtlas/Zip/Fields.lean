import ClassAtlas.Zip.Error

/-!
Records of an archive: numbers of fixed widths, the lowest byte first, and runs of bytes.
-/

namespace ClassAtlas.Zip

abbrev Fields := StateT (List UInt8) (Except Error)

namespace Fields

def take (count : Nat) : Fields (List UInt8) := do
  let bytes ← get
  let taken := bytes.take count
  if taken.length < count then throw .truncated
  set (bytes.drop count)
  return taken

def number (width : Nat) : Fields Nat := do
  return (← take width).foldr (fun digit rest => digit.toNat + 256 * rest) 0

/-- The numbers of a row of fields of these widths. -/
def numbers : List Nat → Fields (List Nat)
  | [] => return []
  | width :: widths => do
    let first ← number width
    return first :: (← numbers widths)

def mark (expected : List UInt8) : Fields Unit := do
  if (← take expected.length) ≠ expected then throw .header

end Fields

def readRecord {α : Type} (record : Fields α) (bytes : List UInt8) : Except Error α := do
  return (← record.run bytes).1

end ClassAtlas.Zip

import ClassAtlas.ClassFile.Error

/-!
Reading big-endian data from the front of a byte sequence. A decoder fails at the first read that
wants more bytes than are left, and says where and how many are missing.
-/

namespace ClassAtlas.ClassFile

/-- The bytes still to be read and the offset of the first of them in the whole record. -/
structure Cursor where
  rest : List UInt8
  offset : Nat
  deriving Repr, DecidableEq

abbrev Decoder := StateT Cursor (Except DecodeError)

def bigEndian (bytes : List UInt8) : Nat :=
  bytes.foldl (fun value byte => value * 256 + byte.toNat) 0

def twosComplement (bits value : Nat) : Int :=
  if value < Nat.pow 2 (bits - 1) then value else (value : Int) - (Nat.pow 2 bits : Nat)

namespace Decoder

def fail {α : Type} (e : DecodeError) : Decoder α :=
  throw e

def resolve {α : Type} (outcome : Except DecodeError α) : Decoder α :=
  liftM outcome

def offset : Decoder Nat :=
  return (← get).offset

def bytes (n : Nat) : Decoder (List UInt8) := do
  let c ← get
  let taken := c.rest.take n
  if taken.length < n then
    fail (.unexpectedEnd c.offset (n - taken.length))
  else
    set ({ rest := c.rest.drop n, offset := c.offset + n } : Cursor)
    return taken

def u1 : Decoder UInt8 :=
  return (← bytes 1).headD 0

def u2 : Decoder Nat :=
  return bigEndian (← bytes 2)

def u4 : Decoder Nat :=
  return bigEndian (← bytes 4)

/-- Eight bytes are read as two halves. -/
def u8 : Decoder Nat := do
  let high ← u4
  let low ← u4
  return high * Nat.pow 2 32 + low

/-- Splits off the next `n` bytes as data of their own. -/
def split (n : Nat) : Decoder Cursor := do
  let start ← offset
  let body ← bytes n
  return { rest := body, offset := start }

/-- Runs a decoder on other data and leaves the present position alone. -/
def within {α : Type} (body : Cursor) (d : Decoder α) : Decoder (α × Cursor) :=
  resolve (d.run body)

def times {α : Type} (d : Decoder α) : Nat → Decoder (List α)
  | 0 => return []
  | n + 1 => do
    let item ← d
    return item :: (← times d n)

def table {α : Type} (d : Decoder α) : Decoder (List α) := do
  times d (← u2)

end Decoder

end ClassAtlas.ClassFile

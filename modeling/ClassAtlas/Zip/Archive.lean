import ClassAtlas.Zip.Directory
import ClassAtlas.Zip.ExtraField
import ClassAtlas.Zip.Inflate

/-!
Archives. A directory lists the entries; each entry has a header of its own in front of its data,
which is looked at only when the entry is opened.
-/

namespace ClassAtlas.Zip

inductive Method where
  | stored
  | deflated (form : Inflate.Form)
  /-- One that can be named but whose data is not read. -/
  | other (code : Nat)
  | unknown (code : Nat)
  deriving Repr, DecidableEq

def Method.ofCode : Nat → Method
  | 0 => .stored
  | 8 => .deflated .plain
  | 9 => .deflated .wide
  | code => if [12, 14, 93, 95, 99].contains code then .other code else .unknown code

structure Entry where
  name : String
  encrypted : Bool
  method : Method
  crc : UInt32
  /-- The data as it stands in the archive, if a header stands in front of it. -/
  data : Option (List UInt8)
  deriving Repr, DecidableEq

structure Archive where
  entries : List Entry
  deriving Repr, DecidableEq

def entryMark : List UInt8 := [0x50, 0x4B, 3, 4]

def dataOffset : Fields Nat := do
  Fields.mark entryMark
  discard (Fields.take 22)
  match ← Fields.numbers [2, 2] with
  | [name, extra] => return 30 + name + extra
  | _ => throw .truncated

def dataAt (bytes : List UInt8) (place compressed : Nat) : Option (List UInt8) :=
  let rest := bytes.drop place
  (readRecord dataOffset rest).toOption.map fun offset => (rest.drop offset).take compressed

def Header.read : Fields Header := do
  Fields.mark directoryMark
  match ← Fields.numbers [2, 2, 2, 2, 2, 2, 4, 4, 4, 2, 2, 2, 2, 2, 4, 4] with
  | [_, _, flags, method, _, _, crc, compressed, uncompressed, name, extra, comment, _, _, _,
      offset] =>
    let rawName ← Fields.take name
    let extra ← Fields.take extra
    let comment ← Fields.take comment
    let unicode := flags.testBit 11
    let header : Header := {
      rawName, name := entryName unicode rawName, comment := entryName unicode comment
      encrypted := flags.testBit 0, method, crc := crc.toUInt32
      compressed, uncompressed, offset }
    readRecord (header.withFields extra.length) extra
  | _ => throw .truncated

def placeLimit : Nat := Nat.pow 2 64

def Header.entry (h : Header) (bytes : List UInt8) (shift : Nat) : Except Error Entry := do
  let place := h.offset + shift
  if place ≥ placeLimit then throw .header
  if h.method = 99 && !h.keyed then throw .extraField
  return {
    name := h.name, encrypted := h.encrypted || h.keyed, method := .ofCode h.method, crc := h.crc
    data := dataAt bytes place h.compressed }

def directoryEntries (bytes : List UInt8) (shift : Nat) : Nat → Fields (List Entry)
  | 0 => return []
  | count + 1 => do
    let first ← (← Header.read).entry bytes shift
    return first :: (← directoryEntries bytes shift count)

/-- An entry of a name that is there already takes the place of the earlier one. -/
def insertEntry (entries : List Entry) (entry : Entry) : List Entry :=
  if entries.any (·.name == entry.name) then
    entries.map fun old => if old.name == entry.name then entry else old
  else entries ++ [entry]

def readAt (bytes : List UInt8) (place : Nat) : Except Error Archive := do
  let directory ← Directory.endingAt bytes place
  let entries ← readRecord (directoryEntries bytes directory.shift directory.entryCount)
    (bytes.drop directory.start)
  return { entries := entries.foldl insertEntry [] }

def readAny (bytes : List UInt8) : List Nat → Except Error Archive
  | [] => .error .noDirectoryEnd
  | place :: places =>
    match readAt bytes place with
    | .ok archive => .ok archive
    | .error e =>
      match readAny bytes places with
      | .ok archive => .ok archive
      | .error _ => .error e

/-- Reads an archive; of several records that may end it the last good one counts. -/
def Archive.read (bytes : List UInt8) : Except Error Archive :=
  readAny bytes (marksFrom directoryEndMark 0 bytes).reverse

namespace Entry

/-- Names that end in a slash of either kind are directories. -/
def isDirectory (e : Entry) : Bool :=
  match e.name.toList.getLast? with
  | some c => c == '/' || c == '\\'
  | none => false

def opened (e : Entry) : Except Error (List UInt8) :=
  if e.encrypted then .error .passwordRequired
  else
    match e.data, e.method with
    | none, _ => .error .header
    | _, .unknown _ => .error .method
    | some data, _ => .ok data

def content (e : Entry) (data : List UInt8) : Except ReadError (List UInt8) := do
  let bytes ← match e.method with
    | .stored => pure data
    | .deflated form =>
      match inflate? form data with
      | some bytes => pure bytes
      | none => throw .corrupt
    | _ => throw .method
  if checksum bytes = e.crc then return bytes else throw .checksum

end Entry

end ClassAtlas.Zip

import ClassAtlas.Zip.Fields

/-!
Where an archive keeps its directory. A record behind the directory tells it; a large archive has a
wider record before that one, and a locator between the two. Bytes may stand in front of an
archive, which moves everything in it.
-/

namespace ClassAtlas.Zip

def directoryEndMark : List UInt8 := [0x50, 0x4B, 5, 6]
def largeEndMark : List UInt8 := [0x50, 0x4B, 6, 6]
def locatorMark : List UInt8 := [0x50, 0x4B, 6, 7]
def directoryMark : List UInt8 := [0x50, 0x4B, 1, 2]

def marksFrom (mark : List UInt8) (place : Nat) : List UInt8 → List Nat
  | [] => []
  | byte :: rest =>
    if mark.isPrefixOf (byte :: rest) then place :: marksFrom mark (place + 1) rest
    else marksFrom mark (place + 1) rest

def marksBetween (mark bytes : List UInt8) (first last : Nat) : List Nat :=
  marksFrom mark first ((bytes.take last).drop first)

structure Directory where
  disk : Nat
  directoryDisk : Nat
  entryCount : Nat
  /-- Where the directory starts, counted from the start of the archive. -/
  offset : Nat
  /-- How many bytes stand in front of the archive. -/
  shift : Nat
  deriving Repr, DecidableEq

def Directory.start (d : Directory) : Nat :=
  d.offset + d.shift

structure EndRecord where
  disk : Nat
  directoryDisk : Nat
  entriesHere : Nat
  entryCount : Nat
  directoryOffset : Nat
  deriving Repr, DecidableEq

def EndRecord.read : Fields EndRecord := do
  Fields.mark directoryEndMark
  match ← Fields.numbers [2, 2, 2, 2, 4, 4, 2] with
  | [disk, directoryDisk, entriesHere, entryCount, _, directoryOffset, comment] =>
    discard (Fields.take comment)
    return { disk, directoryDisk, entriesHere, entryCount, directoryOffset }
  | _ => throw .truncated

/-- Whether a field is at its limit, so that a wider record may hold its value. -/
def EndRecord.mayBeLarge (r : EndRecord) : Bool :=
  r.entryCount == 0xFFFF || r.directoryOffset == 0xFFFFFFFF

/-- The directory that an end record tells of. The first entry is looked for from the place that it
tells, and moves the archive if it is found later. -/
def EndRecord.directory (r : EndRecord) (bytes : List UInt8) (place : Nat) :
    Except Error Directory := do
  let shift ←
    if r.entryCount = 0 then pure (place - r.directoryOffset)
    else if r.directoryOffset ≥ place then throw .directoryOffset
    else
      match (marksBetween directoryMark bytes r.directoryOffset place).head? with
      | some found => pure (found - r.directoryOffset)
      | none => throw .noDirectory
  return {
    disk := r.disk, directoryDisk := r.directoryDisk, entryCount := r.entriesHere
    offset := r.directoryOffset, shift }

structure Locator where
  directoryDisk : Nat
  recordOffset : Nat
  diskCount : Nat
  deriving Repr, DecidableEq

def Locator.size : Nat := 20

def Locator.read : Fields Locator := do
  Fields.mark locatorMark
  match ← Fields.numbers [4, 8, 4] with
  | [directoryDisk, recordOffset, diskCount] => return { directoryDisk, recordOffset, diskCount }
  | _ => throw .truncated

def Locator.before? (bytes : List UInt8) (place : Nat) : Option Locator :=
  if place < size then none
  else (readRecord Locator.read (bytes.drop (place - size))).toOption

structure LargeRecord where
  size : Nat
  writtenBy : Nat
  neededVersion : Nat
  disk : Nat
  directoryDisk : Nat
  entriesHere : Nat
  entryCount : Nat
  directoryOffset : Nat
  deriving Repr, DecidableEq

def LargeRecord.read : Fields LargeRecord := do
  Fields.mark largeEndMark
  match ← Fields.numbers [8, 2, 2, 4, 4, 8, 8, 8, 8] with
  | [size, writtenBy, neededVersion, disk, directoryDisk, entriesHere, entryCount, _,
      directoryOffset] =>
    return {
      size, writtenBy, neededVersion, disk, directoryDisk, entriesHere, entryCount
      directoryOffset }
  | _ => throw .truncated

def directoryEntrySize : Nat := 46

/-- Whether a record fits its place: it reaches up to its locator, and the directory has room
before it. -/
def LargeRecord.fits (r : LargeRecord) (locator : Locator) (place locatorPlace : Nat) : Bool :=
  44 ≤ r.size && r.size + 12 == locatorPlace - place
    && r.directoryDisk == locator.directoryDisk
    && r.entryCount * directoryEntrySize + r.directoryOffset ≤ place

/-- The record that a locator points to; bytes in front of the archive move it to a later place. -/
def Locator.record? (locator : Locator) (bytes : List UInt8) (locatorPlace : Nat) :
    Option (Nat × LargeRecord) :=
  (marksBetween largeEndMark bytes locator.recordOffset locatorPlace).findSome? fun place =>
    match readRecord LargeRecord.read (bytes.drop place) with
    | .ok record => if record.fits locator place locatorPlace then some (place, record) else none
    | .error _ => none

def Locator.directory (locator : Locator) (bytes : List UInt8) (locatorPlace : Nat) :
    Except Error Directory := do
  if locator.diskCount > 1 then throw .severalDisks
  match locator.record? bytes locatorPlace with
  | none => throw .largeRecord
  | some (place, record) =>
    if record.entriesHere > record.entryCount || record.neededVersion > record.writtenBy then
      throw .largeRecord
    return {
      disk := record.disk, directoryDisk := record.directoryDisk, entryCount := record.entryCount
      offset := record.directoryOffset, shift := place - locator.recordOffset }

def Directory.endingAt (bytes : List UInt8) (place : Nat) : Except Error Directory := do
  let record ← readRecord EndRecord.read (bytes.drop place)
  let directory ←
    match if record.mayBeLarge then Locator.before? bytes place else none with
    | some locator => locator.directory bytes (place - Locator.size)
    | none => record.directory bytes place
  if directory.disk ≠ directory.directoryDisk then throw .severalDisks
  return directory

end ClassAtlas.Zip

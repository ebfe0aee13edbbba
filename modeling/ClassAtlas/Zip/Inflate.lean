/-!
Expansion of deflated data. A stream is a series of blocks, each stored, or coded with fixed or
described prefix codes. The wide form of it reaches farther back, repeats more at once and is less
strict.
-/

namespace ClassAtlas.Zip.Inflate

inductive Form where
  | plain
  | wide
  deriving Repr, DecidableEq

inductive Fault where
  | corrupt
  | truncated (output : Array UInt8)

structure State where
  bits : List Bool
  taken : Nat := 0
  output : Array UInt8 := #[]

abbrev Decode := StateT State (Except Fault)

def bitsOf (byte : UInt8) : List Bool :=
  (List.range 8).map fun i => byte.toNat.testBit i

def bit : Decode Nat := do
  match (← get).bits with
  | [] => throw (.truncated (← get).output)
  | b :: rest =>
    modify fun s => { s with bits := rest, taken := s.taken + 1 }
    return b.toNat

def number : Nat → Decode Nat
  | 0 => return 0
  | count + 1 => do
    let low ← bit
    let high ← number count
    return low + 2 * high

def align : Decode Unit :=
  modify fun s =>
    let skipped := (8 - s.taken % 8) % 8
    { s with bits := s.bits.drop skipped, taken := s.taken + skipped }

def emit (byte : UInt8) : Decode Unit :=
  modify fun s => { s with output := s.output.push byte }

/-- A prefix code: how many codewords there are of each length from one, and the symbols in the
order of their codewords. -/
structure PrefixCode where
  counts : List Nat
  symbols : Array Nat

def maxLength : Nat := 15

inductive Slack where
  | nothing
  /-- There may be a single codeword of one bit, or none. -/
  | single
  | anything
  deriving Repr, DecidableEq

/-- The code with these lengths, where zero stands for a symbol that is not used. -/
def PrefixCode.ofLengths (slack : Slack) (lengths : List Nat) : Decode PrefixCode := do
  let counts := (List.range maxLength).map fun i => lengths.count (i + 1)
  let used := lengths.zipIdx.filter (·.1 ≠ 0)
  let space := counts.zipIdx.foldl
    (fun total (count, i) => total + count * Nat.pow 2 (maxLength - 1 - i)) 0
  let full := Nat.pow 2 maxLength
  let allowed := space = full || match slack with
    | .nothing => false
    | .single => used.length ≤ 1 && used.all (·.1 = 1)
    | .anything => space < full
  unless allowed do throw .corrupt
  let symbols := (List.range maxLength).flatMap fun i => (used.filter (·.1 = i + 1)).map (·.2)
  return { counts, symbols := symbols.toArray }

/-- Takes a codeword bit by bit. At each length `first` is the first codeword of that length and
`index` the place of its symbol. -/
def symbolFrom (code : PrefixCode) : List Nat → Nat → Nat → Nat → Decode Nat
  | [], _, _, _ => throw .corrupt
  | count :: counts, word, first, index => do
    let word := 2 * word + (← bit)
    if word < first + count then
      match code.symbols[index + (word - first)]? with
      | some s => return s
      | none => throw .corrupt
    else symbolFrom code counts word (2 * (first + count)) (index + count)

def symbol (code : PrefixCode) : Decode Nat :=
  symbolFrom code code.counts 0 0 0

namespace Form

def lengthRanges (form : Form) : List (Nat × Nat) :=
  [(3, 0), (4, 0), (5, 0), (6, 0), (7, 0), (8, 0), (9, 0), (10, 0), (11, 1), (13, 1), (15, 1),
    (17, 1), (19, 2), (23, 2), (27, 2), (31, 2), (35, 3), (43, 3), (51, 3), (59, 3), (67, 4),
    (83, 4), (99, 4), (115, 4), (131, 5), (163, 5), (195, 5), (227, 5),
    match form with
    | .plain => (258, 0)
    | .wide => (3, 16)]

def nearDistances : List (Nat × Nat) :=
  [(1, 0), (2, 0), (3, 0), (4, 0), (5, 1), (7, 1), (9, 2), (13, 2), (17, 3), (25, 3), (33, 4),
    (49, 4), (65, 5), (97, 5), (129, 6), (193, 6), (257, 7), (385, 7), (513, 8), (769, 8),
    (1025, 9), (1537, 9), (2049, 10), (3073, 10), (4097, 11), (6145, 11), (8193, 12), (12289, 12),
    (16385, 13), (24577, 13)]

def distanceRanges : Form → List (Nat × Nat)
  | .plain => nearDistances
  | .wide => nearDistances ++ [(32769, 14), (49153, 14)]

/-- How many literal and length symbols a block may describe, whether they stand for something or
not. -/
def literalLimit : Form → Nat
  | .plain => 286
  | .wide => 288

end Form

def ranged (ranges : List (Nat × Nat)) (index : Nat) : Decode Nat := do
  match ranges[index]? with
  | some (least, extra) => return least + (← number extra)
  | none => throw .corrupt

/-- The byte at a distance back; before the start of the output there are zeros. -/
def byteBack (output : Array UInt8) (distance : Nat) : UInt8 :=
  if distance > output.size then 0 else (output[output.size - distance]?).getD 0

def copy (distance : Nat) : Nat → Decode Unit
  | 0 => pure ()
  | count + 1 => do
    emit (byteBack (← get).output distance)
    copy distance count

def endOfBlock : Nat := 256

def symbols (form : Form) (literals distances : PrefixCode) : Nat → Decode Unit
  | 0 => throw .corrupt
  | fuel + 1 => do
    let s ← symbol literals
    if s < endOfBlock then
      emit s.toUInt8
      symbols form literals distances fuel
    else if s = endOfBlock then pure ()
    else
      let length ← ranged form.lengthRanges (s - 257)
      let distance ← ranged form.distanceRanges (← symbol distances)
      copy distance length
      symbols form literals distances fuel

def storedBytes : Nat → Decode Unit
  | 0 => pure ()
  | count + 1 => do
    emit (← number 8).toUInt8
    storedBytes count

def stored : Decode Unit := do
  align
  let length ← number 16
  let complement ← number 16
  if length + complement ≠ 0xFFFF then throw .corrupt
  storedBytes length

def fixedLengths : List Nat :=
  List.replicate 144 8 ++ List.replicate 112 9 ++ List.replicate 24 7 ++ List.replicate 8 8

def lengthOrder : List Nat :=
  [16, 17, 18, 0, 8, 7, 9, 6, 10, 5, 11, 4, 12, 3, 13, 2, 14, 1, 15]

/-- Code lengths up to a total; three symbols stand for runs. -/
def codeLengths (code : PrefixCode) (total : Nat) : Nat → List Nat → Decode (List Nat)
  | 0, _ => throw .corrupt
  | fuel + 1, lengths => do
    if lengths.length = total then return lengths
    else if lengths.length > total then throw .corrupt
    else
      let s ← symbol code
      if s < 16 then codeLengths code total fuel (lengths ++ [s])
      else if s = 16 then
        match lengths.getLast? with
        | none => throw .corrupt
        | some last =>
          let count := 3 + (← number 2)
          codeLengths code total fuel (lengths ++ List.replicate count last)
      else
        let extra ← number (if s = 17 then 3 else 7)
        let count := (if s = 17 then 3 else 11) + extra
        codeLengths code total fuel (lengths ++ List.replicate count 0)

def orderedLengths (given : List Nat) : List Nat :=
  (List.range 19).map fun s => ((lengthOrder.zip given).lookup s).getD 0

def numbers (width : Nat) : Nat → Decode (List Nat)
  | 0 => return []
  | count + 1 => do
    let first ← number width
    return first :: (← numbers width count)

/-- Codes that the block describes. In the wide form it has to describe how a block ends. -/
def described (form : Form) : Decode (PrefixCode × PrefixCode) := do
  let literals := 257 + (← number 5)
  let distances := 1 + (← number 5)
  let given ← numbers 3 (4 + (← number 4))
  if literals > form.literalLimit || distances > form.distanceRanges.length then throw .corrupt
  let (slack, lengthSlack) := match form with
    | .plain => (Slack.single, Slack.nothing)
    | .wide => (.anything, .anything)
  let code ← PrefixCode.ofLengths lengthSlack (orderedLengths given)
  let lengths ← codeLengths code (literals + distances) (literals + distances + 1) []
  if form = .wide && lengths.getD endOfBlock 0 = 0 then throw .corrupt
  return (← PrefixCode.ofLengths slack (lengths.take literals),
    ← PrefixCode.ofLengths slack (lengths.drop literals))

def coded (form : Form) (codes : PrefixCode × PrefixCode) : Decode Unit := do
  symbols form codes.1 codes.2 ((← get).bits.length + 1)

def blocks (form : Form) : Nat → Decode Unit
  | 0 => throw .corrupt
  | fuel + 1 => do
    let last ← bit
    match ← number 2 with
    | 0 => stored
    | 1 =>
      coded form (← PrefixCode.ofLengths .nothing fixedLengths,
        ← PrefixCode.ofLengths .nothing (List.replicate 32 5))
    | 2 => coded form (← described form)
    | _ => throw .corrupt
    if last = 0 then blocks form fuel

end Inflate

/-- Expands deflated data; `none` if it is corrupt. Where it breaks off, the plain form has no
content and the wide one what was expanded up to there. -/
def inflate? (form : Inflate.Form) (bytes : List UInt8) : Option (List UInt8) :=
  let bits := bytes.flatMap Inflate.bitsOf
  match (Inflate.blocks form (bits.length + 1)).run { bits }, form with
  | .ok (_, state), _ => some state.output.toList
  | .error (.truncated output), .wide => some output.toList
  | .error _, _ => none

end ClassAtlas.Zip

import ClassAtlas.Shell.Token

/-!
Texts by lines, as bytes, and expressions that search them.
-/

namespace ClassAtlas.Shell

def linesOf : List UInt8 → List (List UInt8)
  | [] => []
  | byte :: rest =>
    if byte == 10 then [] :: linesOf rest
    else
      match rest, linesOf rest with
      | [], _ => [[byte]]
      | next :: _, first :: more => if next == 10 then [byte] :: more else (byte :: first) :: more
      | _, [] => [[byte]]

def withEnds (lines : List (List UInt8)) : List UInt8 :=
  lines.flatMap (· ++ [10])

def firstLines : Nat → List UInt8 → List UInt8
  | 0, _ => []
  | _ + 1, [] => []
  | count + 1, byte :: rest =>
    byte :: (if byte == 10 then firstLines count rest else firstLines (count + 1) rest)

def behindLines : Nat → List UInt8 → List UInt8
  | 0, bytes => bytes
  | _ + 1, [] => []
  | count + 1, byte :: rest =>
    if byte == 10 then behindLines count rest else behindLines (count + 1) rest

def lineEnds (bytes : List UInt8) : Nat :=
  bytes.count 10

def wordCount : Bool → List UInt8 → Nat
  | _, [] => 0
  | inWord, byte :: rest =>
    let blank := byte == 32 || (9 ≤ byte && byte ≤ 13)
    (if !blank && !inWord then 1 else 0) + wordCount (!blank) rest

def lineAtMost : List UInt8 → List UInt8 → Bool
  | [], _ => true
  | _ :: _, [] => false
  | a :: as, b :: bs => a < b || (a == b && lineAtMost as bs)

def dropRepeated : List (List UInt8) → List (List UInt8)
  | first :: second :: rest =>
    if first == second then dropRepeated (second :: rest)
    else first :: dropRepeated (second :: rest)
  | lines => lines

/-- The bytes of a set; a dash between two of them stands for all from one to the other. -/
def byteSet : List UInt8 → List UInt8
  | first :: 45 :: last :: rest =>
    ((List.range (last.toNat + 1 - first.toNat)).map fun i => first + i.toUInt8) ++ byteSet rest
  | byte :: rest => byte :: byteSet rest
  | [] => []

/-- Replaces the bytes of one set by those of another, whose last stands for all that follow. -/
def mapBytes (source target : List UInt8) (bytes : List UInt8) : List UInt8 :=
  bytes.map fun byte =>
    match source.idxOf? byte with
    | some i => target.getD i (target.getLastD byte)
    | none => byte

inductive SearchPart where
  | byte (b : UInt8)
  | anyByte
  | repeated (part : SearchPart)
  | lineStart
  | lineEnd
  deriving Repr, DecidableEq

/-- The parts of a search expression; in a fixed one each byte stands for itself. -/
def searchParts (fixed : Bool) : Bool → List UInt8 → List SearchPart
  | _, [] => []
  | first, byte :: rest =>
    if fixed then .byte byte :: searchParts fixed false rest
    else if byte == 94 && first then .lineStart :: searchParts fixed false rest
    else if byte == 36 && rest.isEmpty then [.lineEnd]
    else
      match rest with
      | 42 :: after =>
        .repeated (if byte == 46 then .anyByte else .byte byte) :: searchParts fixed false after
      | next :: after =>
        if byte == 92 then .byte next :: searchParts fixed false after
        else
          (if byte == 46 then .anyByte else .byte byte) :: searchParts fixed false (next :: after)
      | [] => [if byte == 46 then .anyByte else .byte byte]
termination_by _ bytes => bytes.length

def SearchPart.admits (b : UInt8) : SearchPart → Bool
  | .byte c => b == c
  | .anyByte => true
  | _ => false

/-- What is left behind the longest stretch from here on that an expression stands for. -/
def matchedHere (atStart : Bool) : List SearchPart → List UInt8 → Option (List UInt8)
  | [], bytes => some bytes
  | .lineStart :: parts, bytes => if atStart then matchedHere atStart parts bytes else none
  | .lineEnd :: parts, bytes => if bytes.isEmpty then matchedHere atStart parts bytes else none
  | .repeated _ :: parts, [] => matchedHere atStart parts []
  | .repeated part :: parts, b :: rest =>
    let longer := if part.admits b then matchedHere false (.repeated part :: parts) rest else none
    longer <|> matchedHere atStart parts (b :: rest)
  | _ :: _, [] => none
  | part :: parts, b :: rest => if part.admits b then matchedHere false parts rest else none
termination_by parts bytes => parts.length + bytes.length

def findsIn (fixed : Bool) (expression line : List UInt8) : Bool :=
  let parts := searchParts fixed true expression
  (List.range (line.length + 1)).any fun i => (matchedHere (i == 0) parts (line.drop i)).isSome

/-- A replacement in which an ampersand stands for what is replaced. -/
def filledIn (found : List UInt8) : List UInt8 → List UInt8
  | 92 :: b :: rest => b :: filledIn found rest
  | 38 :: rest => found ++ filledIn found rest
  | b :: rest => b :: filledIn found rest
  | [] => []

def replaceIn (parts : List SearchPart) (replacement : List UInt8) (all : Bool) :
    Nat → Bool → List UInt8 → List UInt8
  | 0, _, line => line
  | fuel + 1, atStart, line =>
    match matchedHere atStart parts line, line with
    | some rest, _ =>
      let found := line.take (line.length - rest.length)
      let new := filledIn found replacement
      if !all then new ++ rest
      else
        match found, rest with
        | [], b :: rest => new ++ b :: replaceIn parts replacement all fuel false rest
        | [], [] => new
        | _, [] => new
        | _, _ => new ++ replaceIn parts replacement all fuel false rest
    | none, [] => []
    | none, b :: rest => b :: replaceIn parts replacement all fuel false rest

def lowerByte (b : UInt8) : UInt8 :=
  if 65 ≤ b && b ≤ 90 then b + 32 else b

end ClassAtlas.Shell

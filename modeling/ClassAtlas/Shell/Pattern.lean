/-!
Patterns for texts: a star stands for any text, a question mark for any character, and brackets for
one of several characters. A character that was quoted stands for itself.
-/

namespace ClassAtlas.Shell

structure Glyph where
  char : Char
  quoted : Bool
  deriving Repr, DecidableEq

namespace Glyph

def ofText (quoted : Bool) (text : String) : List Glyph :=
  text.toList.map fun char => { char, quoted }

def text (glyphs : List Glyph) : String :=
  String.ofList (glyphs.map Glyph.char)

def isBare (g : Glyph) (c : Char) : Bool :=
  g.char == c && !g.quoted

end Glyph

inductive PatternPart where
  | anyText
  | anyCharacter
  | character (c : Char)
  | oneOf (negated : Bool) (ranges : List (Char × Char))
  deriving Repr, DecidableEq

abbrev Pattern := List PatternPart

def ranges? : List Glyph → Option (List (Char × Char) × List Glyph)
  | [] => none
  | first :: dash :: last :: rest =>
    if first.isBare ']' then some ([], dash :: last :: rest)
    else if dash.isBare '-' && !last.isBare ']' then
      (ranges? rest).map fun (more, rest) => ((first.char, last.char) :: more, rest)
    else
      (ranges? (dash :: last :: rest)).map fun (more, rest) =>
        ((first.char, first.char) :: more, rest)
  | first :: rest =>
    if first.isBare ']' then some ([], rest)
    else (ranges? rest).map fun (more, rest) => ((first.char, first.char) :: more, rest)

/-- The characters in brackets, of which the first may be a closing bracket itself. -/
def bracket? (glyphs : List Glyph) : Option (PatternPart × List Glyph) := do
  let negated := glyphs.head?.any (·.isBare '!')
  let inner := if negated then glyphs.tail else glyphs
  let (found, rest) ← match inner with
    | first :: rest =>
      if first.isBare ']' then (ranges? rest).map fun (more, rest) => ((']', ']') :: more, rest)
      else ranges? inner
    | [] => none
  return (.oneOf negated found, rest)

/-- The pattern of a text; `bound` is at least its length. -/
def patternWithin : Nat → List Glyph → Pattern
  | 0, _ => []
  | _, [] => []
  | bound + 1, g :: rest =>
    if g.isBare '*' then .anyText :: patternWithin bound rest
    else if g.isBare '?' then .anyCharacter :: patternWithin bound rest
    else
      match if g.isBare '[' then bracket? rest else none with
      | some (part, rest) => part :: patternWithin bound rest
      | none => .character g.char :: patternWithin bound rest

def Pattern.ofGlyphs (glyphs : List Glyph) : Pattern :=
  patternWithin glyphs.length glyphs

namespace PatternPart

def admits (c : Char) : PatternPart → Bool
  | .anyText | .anyCharacter => true
  | .character d => c == d
  | .oneOf negated ranges => ranges.any (fun (low, high) => low ≤ c && c ≤ high) != negated

def isLiteral : PatternPart → Bool
  | .character _ => true
  | _ => false

end PatternPart

namespace Pattern

def accepts : Pattern → List Char → Bool
  | [], chars => chars.isEmpty
  | .anyText :: parts, [] => accepts parts []
  | .anyText :: parts, c :: rest => accepts parts (c :: rest) || accepts (.anyText :: parts) rest
  | _ :: _, [] => false
  | part :: parts, c :: rest => part.admits c && accepts parts rest
termination_by parts chars => parts.length + chars.length

/-- Lengths of beginnings of a text, in the order in which they are tried. -/
def lengths (longest : Bool) (chars : List Char) : List Nat :=
  let ascending := List.range (chars.length + 1)
  if longest then ascending.reverse else ascending

def cutStart (pattern : Pattern) (longest : Bool) (chars : List Char) : List Char :=
  match (lengths longest chars).find? fun n => pattern.accepts (chars.take n) with
  | some n => chars.drop n
  | none => chars

def cutEnd (pattern : Pattern) (longest : Bool) (chars : List Char) : List Char :=
  match (lengths (!longest) chars).find? fun n => pattern.accepts (chars.drop n) with
  | some n => chars.take n
  | none => chars

end Pattern

end ClassAtlas.Shell

/-!
Numbers as they are written: digits, and the unsigned numbers of 64 bits that settings hold.
-/

namespace ClassAtlas.Text

def hexDigit? (c : Char) : Option Nat :=
  if c.isDigit then some (c.toNat - '0'.toNat)
  else if 'a' ≤ c ∧ c ≤ 'f' then some (c.toNat - 'a'.toNat + 10)
  else if 'A' ≤ c ∧ c ≤ 'F' then some (c.toNat - 'A'.toNat + 10)
  else none

def wordLimit : Nat := Nat.pow 2 64

/-- Digits with an optional plus sign in front, if the number fits in 64 bits. -/
def parseWord? (text : String) : Option Nat :=
  let digits := match text.toList with
    | '+' :: rest => rest
    | chars => chars
  if digits.isEmpty || !digits.all Char.isDigit then none
  else
    let value := digits.foldl (fun n c => n * 10 + (c.toNat - '0'.toNat)) 0
    if value < wordLimit then some value else none

def parseBool? (text : String) : Option Bool :=
  if text == "true" then some true
  else if text == "false" then some false
  else none

end ClassAtlas.Text

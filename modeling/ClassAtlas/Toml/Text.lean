import ClassAtlas.Text.Number
import ClassAtlas.Toml.Value

/-!
Quoted texts of a TOML document: basic ones, in which a backslash starts an escape, and literal
ones, in which it does not; either may span several lines.
-/

namespace ClassAtlas.Toml

def codePoint (width : Nat) : Reader Char := do
  let digits := (← get).take width
  let values := digits.filterMap Text.hexDigit?
  let code := values.foldl (fun n d => n * 16 + d) 0
  if values.length = width && code.isValidChar then
    modify (·.drop width)
    return Char.ofNat code
  else throw .escape

def escape : Reader Char := do
  match ← get with
  | c :: rest =>
    set rest
    match c with
    | 'b' => return '\x08'
    | 'e' => return '\x1B'
    | 't' => return '\t'
    | 'n' => return '\n'
    | 'f' => return '\x0C'
    | 'r' => return '\r'
    | '"' => return '"'
    | '\\' => return '\\'
    | 'x' => codePoint 2
    | 'u' => codePoint 4
    | 'U' => codePoint 8
    | _ => throw .escape
  | [] => throw .escape

def basicFrom : Nat → List Char → Reader String
  | 0, _ => throw (.expected "a closing quote")
  | fuel + 1, taken => do
    match ← get with
    | '"' :: rest => set rest; return String.ofList taken.reverse
    | '\\' :: rest => set rest; basicFrom fuel ((← escape) :: taken)
    | c :: rest =>
      if isControl c then throw (.control c.toNat)
      set rest
      basicFrom fuel (c :: taken)
    | [] => throw (.expected "a closing quote")

def literalFrom : Reader String := do
  let text ← Reader.takeWhile fun c => c != '\x27' && !isControl c
  Reader.expect "'"
  return String.ofList text

/-- Whether a backslash here ends its line, so that it hides the blanks that follow. -/
def endsLine (rest : List Char) : Bool :=
  match rest.dropWhile isInline with
  | '\n' :: _ => true
  | '\r' :: '\n' :: _ => true
  | _ => false

def skipHidden : Nat → Reader Unit
  | 0 => pure ()
  | fuel + 1 => do
    skipInline
    if ← newline? then skipHidden fuel

/-- The quotes that come next, at most five: three close the text and the others belong to it. -/
def closing? (quote : Char) : Reader (Option (List Char)) := do
  let quotes := ((← get).takeWhile (· == quote)).take 5
  if quotes.length < 3 then return none
  modify (·.drop quotes.length)
  return some (quotes.drop 3)

def linesFrom (quote : Char) (escapes : Bool) : Nat → List Char → Reader String
  | 0, _ => throw (.expected "closing quotes")
  | fuel + 1, taken => do
    match ← closing? quote with
    | some quotes => return String.ofList (taken.reverse ++ quotes)
    | none =>
      match ← get with
      | '\\' :: rest =>
        set rest
        if !escapes then linesFrom quote escapes fuel ('\\' :: taken)
        else if endsLine rest then
          skipHidden (rest.length + 1)
          linesFrom quote escapes fuel taken
        else linesFrom quote escapes fuel ((← escape) :: taken)
      | '\r' :: '\n' :: rest => set rest; linesFrom quote escapes fuel ('\n' :: '\r' :: taken)
      | '\n' :: rest => set rest; linesFrom quote escapes fuel ('\n' :: taken)
      | c :: rest =>
        if isControl c then throw (.control c.toNat)
        set rest
        linesFrom quote escapes fuel (c :: taken)
      | [] => throw (.expected "closing quotes")

/-- A line end right after the opening quotes does not count. -/
def lines (quote : Char) (escapes : Bool) : Reader String := do
  discard newline?
  linesFrom quote escapes ((← get).length + 1) []

def quotedLine? : Reader (Option String) := do
  if ← Reader.accept "\"" then return some (← basicFrom ((← get).length + 1) [])
  if ← Reader.accept "'" then return some (← literalFrom)
  return none

def quoted? : Reader (Option String) := do
  if ← Reader.accept "\"\"\"" then return some (← lines '"' true)
  if ← Reader.accept "'''" then return some (← lines '\x27' false)
  quotedLine?

def isBareKey (c : Char) : Bool :=
  (c.toNat < 0x80 && c.isAlphanum) || c == '_' || c == '-'

def simpleKey : Reader String := do
  let rest ← get
  if "\"\"\"".toList.isPrefixOf rest || "'''".toList.isPrefixOf rest then throw (.expected "a key")
  match ← quotedLine? with
  | some key => return key
  | none =>
    let key ← Reader.takeWhile isBareKey
    if key.isEmpty then throw (.expected "a key")
    return String.ofList key

def dottedRest : Nat → Reader (List String)
  | 0 => pure []
  | fuel + 1 => do
    skipInline
    if ← Reader.accept "." then
      skipInline
      let part ← simpleKey
      return part :: (← dottedRest fuel)
    else return []

/-- How deep values may be nested, and how many parts a key may have. -/
def maxNesting : Nat := 80

/-- A key with dots; the last part is given apart from those before it. -/
def key : Reader (List String × String) := do
  skipInline
  let first ← simpleKey
  let rest ← dottedRest ((← get).length + 1)
  if rest.length ≥ maxNesting then throw .nesting
  match rest.getLast? with
  | some last => return ((first :: rest).dropLast, last)
  | none => return ([], first)

end ClassAtlas.Toml

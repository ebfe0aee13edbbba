/-!
The values of a TOML document, and what can be wrong with one.
-/

namespace ClassAtlas.Toml

inductive Value where
  | string (text : String)
  | integer (value : Int)
  | float (text : String)
  | boolean (value : Bool)
  | datetime (text : String)
  | array (items : List Value)
  | table (members : List (String × Value))

inductive Error where
  | expected (what : String)
  | control (code : Nat)
  | escape
  | scalar (text : String)
  | nesting
  | duplicateKey (key : String)
  | notATable (key : String)
  | overflow (text : String)
  deriving Repr, DecidableEq

def Error.message : Error → String
  | .expected what => s!"expected {what}"
  | .control code => s!"invalid control character {code}"
  | .escape => "invalid escape sequence"
  | .scalar text => s!"invalid value {text}"
  | .nesting => "values are nested too deeply"
  | .duplicateKey key => s!"duplicate key {key}"
  | .notATable key => s!"key {key} is not a table that can be extended"
  | .overflow text => s!"number {text} is out of range"

abbrev Reader := StateT (List Char) (Except Error)

namespace Reader

def peek? : Reader (Option Char) := do
  return (← get).head?

def takeWhile (p : Char → Bool) : Reader (List Char) := do
  let taken := (← get).takeWhile p
  modify (·.drop taken.length)
  return taken

def skipWhile (p : Char → Bool) : Reader Unit :=
  modify (·.dropWhile p)

def accept (text : String) : Reader Bool := do
  if text.toList.isPrefixOf (← get) then
    modify (·.drop text.length)
    return true
  else return false

def expect (text : String) : Reader Unit := do
  if !(← accept text) then throw (.expected text)

end Reader

def isInline (c : Char) : Bool :=
  c == ' ' || c == '\t'

/-- Control characters other than the tab may not appear in a document, line ends apart. -/
def isControl (c : Char) : Bool :=
  (c.toNat < 0x20 && c != '\t') || c.toNat == 0x7F

def skipInline : Reader Unit :=
  Reader.skipWhile isInline

def comment : Reader Unit := do
  if (← Reader.peek?) == some '#' then
    let text ← Reader.takeWhile fun c => c != '\n' && c != '\r'
    match text.find? isControl with
    | some c => throw (.control c.toNat)
    | none => pure ()

def newline? : Reader Bool := do
  if ← Reader.accept "\n" then return true
  Reader.accept "\r\n"

/-- What may follow a statement on its line. -/
def endOfLine : Reader Unit := do
  skipInline
  comment
  if !(← newline?) && !(← get).isEmpty then throw (.expected "the end of the line")

/-- Skips blanks, comments and line ends; each turn but the last takes a line end. -/
def skipLines : Nat → Reader Unit
  | 0 => pure ()
  | fuel + 1 => do
    skipInline
    comment
    if ← newline? then skipLines fuel

def skipBlank : Reader Unit := do
  skipLines ((← get).length + 1)

end ClassAtlas.Toml

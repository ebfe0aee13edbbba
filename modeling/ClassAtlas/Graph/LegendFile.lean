import ClassAtlas.FileSystem.World
import ClassAtlas.Graph.Legend
import ClassAtlas.Failure
import ClassAtlas.Text.Number

/-!
Legends read from a file. The file holds one JSON object whose values are texts; of a key that is
repeated the last value counts.
-/

namespace ClassAtlas.Graph.LegendFile

abbrev Reader := StateT (List Char) Option

def isSpace (c : Char) : Bool :=
  c == ' ' || c == '\n' || c == '\t' || c == '\r'

def skipSpace : Reader Unit :=
  modify (·.dropWhile isSpace)

def expect (wanted : Char) : Reader Unit := do
  match ← get with
  | c :: rest => if c == wanted then set rest else failure
  | [] => failure

def codeUnit : Reader Nat := do
  match ← get with
  | a :: b :: c :: d :: rest =>
    set rest
    let digits ← [a, b, c, d].mapM (fun c => (Text.hexDigit? c : Option Nat))
    return digits.foldl (fun n d => n * 16 + d) 0
  | _ => failure

/-- A character given by code units; two surrogates have to make a pair. -/
def codePoint : Reader Char := do
  let unit ← codeUnit
  if 0xDC00 ≤ unit && unit ≤ 0xDFFF then failure
  else if 0xD800 ≤ unit && unit ≤ 0xDBFF then
    expect '\\'
    expect 'u'
    let low ← codeUnit
    if 0xDC00 ≤ low && low ≤ 0xDFFF then
      return Char.ofNat (0x10000 + (unit - 0xD800) * 0x400 + (low - 0xDC00))
    else failure
  else return Char.ofNat unit

def escape : Reader Char := do
  match ← get with
  | [] => failure
  | c :: rest =>
    set rest
    match c with
    | '"' => return '"'
    | '\\' => return '\\'
    | '/' => return '/'
    | 'b' => return '\x08'
    | 'f' => return '\x0C'
    | 'n' => return '\n'
    | 'r' => return '\r'
    | 't' => return '\t'
    | 'u' => codePoint
    | _ => failure

/-- A text after its opening quote; control characters have to be escaped. -/
def textFrom : Nat → List Char → Reader String
  | 0, _ => failure
  | fuel + 1, taken => do
    match ← get with
    | [] => failure
    | '"' :: rest => set rest; return String.ofList taken.reverse
    | '\\' :: rest => set rest; textFrom fuel ((← escape) :: taken)
    | c :: rest =>
      if c.toNat < 0x20 then failure
      set rest
      textFrom fuel (c :: taken)

def text : Reader String := do
  expect '"'
  textFrom ((← get).length + 1) []

/-- The members of an object, at least one, and its closing brace. -/
def members : Nat → Reader (List (String × String))
  | 0 => failure
  | fuel + 1 => do
    skipSpace
    let key ← text
    skipSpace
    expect ':'
    skipSpace
    let value ← text
    skipSpace
    match ← get with
    | ',' :: rest => set rest; return (key, value) :: (← members fuel)
    | '\x7d' :: rest => set rest; return [(key, value)]
    | _ => failure

def object : Reader (List (String × String)) := do
  skipSpace
  expect '\x7b'
  skipSpace
  let found ← match ← get with
    | '\x7d' :: rest => do set rest; pure []
    | rest => members (rest.length + 1)
  skipSpace
  if (← get).isEmpty then return found else failure

def parse? (content : String) : Option (List (String × String)) :=
  (object.run content.toList).map (·.1)

def load (w : World) (path : String) (resourceTypes : List String) : Except Failure Legend :=
  match w.readText path with
  | .error e => .error (.classification (s!"cannot read {path}: " ++ e.message))
  | .ok content =>
    match parse? content with
    | some entries => .ok (Legend.ofMap entries resourceTypes)
    | none => .error (.jsonMalformed path "malformed object of texts")

end ClassAtlas.Graph.LegendFile

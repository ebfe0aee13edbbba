import ClassAtlas.Text.Number

/-!
Arithmetic in scripts: whole numbers of 64 bits, names of variables, which may be assigned to, the
usual operators with brackets, and comparisons that give one or zero.
-/

namespace ClassAtlas.Shell.Arithmetic

inductive Fault where
  | divisionByZero
  | noOperand
  | leftOver
  | noNumber (text : String)
  deriving Repr, DecidableEq

def Fault.message (expression : String) : Fault → String
  | .divisionByZero => s!"arithmetic expression: division by zero: \"{expression}\""
  | .noOperand => s!"arithmetic expression: expecting primary: \"{expression}\""
  | .leftOver => s!"arithmetic expression: expecting EOF: \"{expression}\""
  | .noNumber text => s!"Illegal number: {text}"

structure State where
  rest : List Char
  /-- What has been assigned, the latest first. -/
  assigned : List (String × Int64) := []

abbrev Reader := StateT State (Except Fault)

/-- Operators between two values by how weakly they bind. -/
def levels : List (List String) :=
  [["||"], ["&&"], ["|"], ["^"], ["&"], ["==", "!="], ["<=", ">=", "<", ">"], ["<<", ">>"],
    ["+", "-"], ["*", "/", "%"]]

/-- Operators that assign, with the one that they apply first. -/
def assignments : List (String × String) :=
  [("<<=", "<<"), (">>=", ">>"), ("+=", "+"), ("-=", "-"), ("*=", "*"), ("/=", "/"), ("%=", "%"),
    ("&=", "&"), ("|=", "|"), ("^=", "^"), ("=", "")]

/-- All operators, the longer ones first. -/
def operators : List String :=
  ["<<=", ">>=", "+=", "-=", "*=", "/=", "%=", "&=", "|=", "^=", "||", "&&", "==", "!=", "<=", ">=",
    "<<", ">>", "|", "^", "&", "<", ">", "+", "-", "*", "/", "%", "="]

def truth (b : Bool) : Int64 :=
  if b then 1 else 0

def operate (op : String) (a b : Int64) : Except Fault Int64 :=
  match op with
  | "||" => .ok (truth (a != 0 || b != 0))
  | "&&" => .ok (truth (a != 0 && b != 0))
  | "|" => .ok (a ||| b)
  | "^" => .ok (a ^^^ b)
  | "&" => .ok (a &&& b)
  | "==" => .ok (truth (a == b))
  | "!=" => .ok (truth (a != b))
  | "<=" => .ok (truth (a ≤ b))
  | ">=" => .ok (truth (a ≥ b))
  | "<" => .ok (truth (a < b))
  | ">" => .ok (truth (a > b))
  | "<<" => .ok (a <<< b)
  | ">>" => .ok (a >>> b)
  | "+" => .ok (a + b)
  | "-" => .ok (a - b)
  | "*" => .ok (a * b)
  | "/" => if b == 0 then .error .divisionByZero else .ok (a / b)
  | "%" => if b == 0 then .error .divisionByZero else .ok (a % b)
  | _ => .ok b

def isBlank (c : Char) : Bool :=
  c == ' ' || c == '\t' || c == '\n'

def numberIn? (base : Nat) (digits : List Char) : Option Nat := do
  if digits.isEmpty then none
  digits.foldlM (fun total c => do
    let d ← Text.hexDigit? c
    if d < base then return total * base + d else none) 0

/-- A number that may start with a mark of its base. -/
def number? (text : String) : Option Nat :=
  match text.toList with
  | '0' :: 'x' :: digits | '0' :: 'X' :: digits => numberIn? 16 digits
  | '0' :: digits => if digits.isEmpty then some 0 else numberIn? 8 digits
  | digits => numberIn? 10 digits

def signed? (text : String) : Option Int64 :=
  match text.toList with
  | '-' :: digits => (number? (String.ofList digits)).map fun n => Int64.ofInt (-Int.ofNat n)
  | '+' :: digits => (number? (String.ofList digits)).map fun n => Int64.ofInt (Int.ofNat n)
  | _ => (number? text).map fun n => Int64.ofInt (Int.ofNat n)

def variableValue (value? : String → Option String) (name : String) : Reader Int64 := do
  match (← get).assigned.lookup name with
  | some n => return n
  | none =>
    let text := (value? name).getD ""
    if text == "" then return 0
    match signed? text with
    | some n => return n
    | none => throw (.noNumber text)

def skipBlanks : Reader Unit :=
  modify fun s => { s with rest := s.rest.dropWhile isBlank }

def operator? : Reader (Option String) := do
  skipBlanks
  let chars := (← get).rest
  return operators.find? fun op => op.toList.isPrefixOf chars

def take (count : Nat) : Reader Unit :=
  modify fun s => { s with rest := s.rest.drop count }

def accept (c : Char) : Reader Bool := do
  skipBlanks
  if (← get).rest.head? == some c then
    take 1
    return true
  else return false

def isWordChar (c : Char) : Bool :=
  c.isAlphanum || c == '_'

mutual

def expression (value? : String → Option String) : Nat → Reader Int64
  | 0 => throw .noOperand
  | fuel + 1 => do
    let condition ← level value? fuel levels
    if ← accept '?' then
      let first ← expression value? fuel
      if !(← accept ':') then throw .leftOver
      let second ← expression value? fuel
      return if condition != 0 then first else second
    else return condition

def level (value? : String → Option String) : Nat → List (List String) → Reader Int64
  | 0, _ => throw .noOperand
  | fuel + 1, [] => operand value? fuel
  | fuel + 1, ops :: inner => do continued value? fuel ops inner (← level value? fuel inner)

/-- Operators of one level, from the left. -/
def continued (value? : String → Option String) :
    Nat → List String → List (List String) → Int64 → Reader Int64
  | 0, _, _, _ => throw .noOperand
  | fuel + 1, ops, inner, sum => do
    match (← operator?).filter ops.contains with
    | none => return sum
    | some op =>
      take op.length
      let next ← level value? fuel inner
      continued value? fuel ops inner (← operate op sum next)

def operand (value? : String → Option String) : Nat → Reader Int64
  | 0 => throw .noOperand
  | fuel + 1 => do
    if ← accept '(' then
      let inner ← expression value? fuel
      if ← accept ')' then return inner else throw .noOperand
    if ← accept '-' then return -(← operand value? fuel)
    if ← accept '+' then return ← operand value? fuel
    if ← accept '!' then return truth ((← operand value? fuel) == 0)
    if ← accept '~' then return ~~~(← operand value? fuel)
    let word := (← get).rest.takeWhile isWordChar
    if word.isEmpty then throw .noOperand
    take word.length
    let text := String.ofList word
    if word.head?.any Char.isDigit then
      match number? text with
      | some n => return Int64.ofInt (Int.ofNat n)
      | none => throw .leftOver
    match (← operator?).bind fun op => (assignments.find? (·.1 == op)) with
    | none => variableValue value? text
    | some (op, first) =>
      take op.length
      let next ← expression value? fuel
      let old ← if first == "" then pure 0 else variableValue value? text
      let new ← operate first old next
      modify fun s => { s with assigned := (text, new) :: s.assigned }
      return new

end

def evaluate (value? : String → Option String) (text : String) :
    Except Fault (Int64 × List (String × Int64)) := do
  let chars := text.toList
  if chars.all isBlank then return (0, [])
  let (result, state) ← (expression value? (32 * (chars.length + 2))).run { rest := chars }
  if state.rest.all isBlank then return (result, state.assigned) else throw .leftOver

end ClassAtlas.Shell.Arithmetic

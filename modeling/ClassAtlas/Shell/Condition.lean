import ClassAtlas.FileSystem.World

/-!
Conditions about texts, numbers and files, given as lists of words.
-/

namespace ClassAtlas.Shell.Condition

/-- Reading a condition from the left; a failure tells what is wrong. -/
structure State where
  rest : List String
  last : String := ""

abbrev Reader := StateT State (Except String)

def numberOperators : List (String × (Int → Int → Bool)) :=
  [("-eq", fun a b => a == b), ("-ne", fun a b => a != b), ("-lt", fun a b => a < b),
    ("-le", fun a b => a ≤ b), ("-gt", fun a b => a > b), ("-ge", fun a b => a ≥ b)]

def textOperators : List (String × (String → String → Bool)) :=
  [("=", fun a b => a == b), ("!=", fun a b => a != b), ("<", fun a b => a < b),
    (">", fun a b => b < a), ("-nt", fun _ _ => false), ("-ot", fun _ _ => false)]

def isBinary (word : String) : Bool :=
  (numberOperators.lookup word).isSome || (textOperators.lookup word).isSome

def isUnary (word : String) : Bool :=
  match word.toList with
  | ['-', c] => "bcdefghkLnprsStuwxzOG".toList.contains c
  | _ => false

def isSign (c : Char) : Bool :=
  c == '-' || c == '+'

def number (text : String) : Except String Int :=
  let trimmed := (text.toList.dropWhile (· == ' ')).reverse.dropWhile (· == ' ') |>.reverse
  let digits := if trimmed.head?.any isSign then trimmed.tail else trimmed
  if digits.isEmpty || !digits.all Char.isDigit then .error s!"Illegal number: {text}"
  else
    let n := Int.ofNat (digits.foldl (fun n c => n * 10 + (c.toNat - '0'.toNat)) 0)
    .ok (if trimmed.head? == some '-' then -n else n)

def isLink (w : World) (path : String) : Bool :=
  match FileSystem.resolve w.root w.here .findItself path with
  | .ok (.found _ (.link _)) => true
  | _ => false

def isDevice (w : World) (path : String) : Bool :=
  match w.stat path with
  | .ok (_, .device _) => true
  | _ => false

def unary (w : World) (op operand : String) : Bool :=
  match op with
  | "-z" => operand == ""
  | "-n" => operand != ""
  | "-e" | "-r" | "-w" | "-O" | "-G" => w.pathExists operand
  | "-f" => w.isFile operand
  | "-d" => w.isDirectory operand
  | "-s" => w.isDirectory operand || (w.readFile operand).toOption.any (!·.isEmpty)
  | "-x" => (w.stat operand).toOption.any fun (_, node) => node.isExecutable
  | "-h" | "-L" => isLink w operand
  | "-c" => isDevice w operand
  | _ => false

def binary (a op b : String) : Except String Bool :=
  match textOperators.lookup op, numberOperators.lookup op with
  | some compare, _ => .ok (compare a b)
  | none, some compare => do return compare (← number a) (← number b)
  | none, none => .error s!"{op}: unexpected operator"

def take : Reader String := do
  match (← get).rest with
  | word :: rest => set { rest, last := word : State }; return word
  | [] => throw s!"{(← get).last}: argument expected"

def accept (word : String) : Reader Bool := do
  if (← get).rest.head? == some word then
    discard take
    return true
  else return false

mutual

def oneOf (w : World) : Nat → Reader Bool
  | 0 => return false
  | fuel + 1 => do
    let first ← allOf w fuel
    if ← accept "-o" then
      let rest ← oneOf w fuel
      return first || rest
    else return first

def allOf (w : World) : Nat → Reader Bool
  | 0 => return false
  | fuel + 1 => do
    let first ← negated w fuel
    if ← accept "-a" then
      let rest ← allOf w fuel
      return first && rest
    else return first

def negated (w : World) : Nat → Reader Bool
  | 0 => return false
  | fuel + 1 => do
    match (← get).rest with
    | "!" :: _ :: _ =>
      discard take
      return !(← negated w fuel)
    | _ => primary w fuel

def primary (w : World) : Nat → Reader Bool
  | 0 => return false
  | fuel + 1 => do
    match (← get).rest with
    | "(" :: _ :: _ =>
      discard take
      let inner ← oneOf w fuel
      if ← accept ")" then return inner else throw "closing paren expected"
    | a :: op :: _ =>
      if isBinary op then
        discard take
        discard take
        let b ← take
        binary a op b
      else if isUnary a then
        discard take
        return unary w a (← take)
      else
        discard take
        return a != ""
    | _ => return (← take) != ""

end

def evaluate (w : World) (words : List String) : Except String Bool :=
  match words with
  | [] => .ok false
  | [text] => .ok (text != "")
  | [a, op, b] =>
    if isBinary op then binary a op b else general words
  | _ => general words
where
  general (words : List String) : Except String Bool := do
    let (holds, state) ← (oneOf w (4 * (words.length + 2))).run { rest := words }
    if state.rest.isEmpty then return holds else throw s!"{state.last}: unexpected operator"

end ClassAtlas.Shell.Condition

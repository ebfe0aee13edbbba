import ClassAtlas.Shell.Machine

/-!
Programs of the system that scripts use. Each knows its options, and refuses others.
-/

namespace ClassAtlas.Shell

structure Given where
  flags : List Char := []
  values : List (Char × String) := []
  operands : List String := []

namespace Given

def has (g : Given) (flag : Char) : Bool :=
  g.flags.contains flag

def value? (g : Given) (flag : Char) : Option String :=
  g.values.lookup flag

end Given

/-- A program. One without options takes its arguments as they are. -/
structure Tool where
  name : String
  flags : Option String := some ""
  valued : String := ""
  /-- The status if an option is refused, and what is said before the help is pointed to. -/
  refusal : Nat := 1
  usage : String := ""
  run : Given → Run Unit

inductive OptionFault where
  | unknown (flag : Char)
  | unknownName (word : String)
  | noValue (flag : Char)
  deriving Repr, DecidableEq

def OptionFault.message : OptionFault → String
  | .unknown flag => s!"invalid option -- '{flag}'"
  | .unknownName word => s!"unrecognized option '{word}'"
  | .noValue flag => s!"option requires an argument -- '{flag}'"

def readLetters (flags valued : List Char) (next : Option String) :
    List Char → Given → Except OptionFault (Given × Bool)
  | [], g => .ok (g, false)
  | c :: rest, g =>
    if valued.contains c then
      if !rest.isEmpty then .ok ({ g with values := (c, String.ofList rest) :: g.values }, false)
      else
        match next with
        | some value => .ok ({ g with values := (c, value) :: g.values }, true)
        | none => .error (.noValue c)
    else if flags.contains c then
      readLetters flags valued next rest { g with flags := c :: g.flags }
    else .error (.unknown c)

/-- Options may stand anywhere before a double dash. -/
def readOptions (flags valued : List Char) : List String → Given → Except OptionFault Given
  | [], g => .ok g
  | word :: rest, g =>
    match word.toList with
    | ['-', '-'] => .ok { g with operands := g.operands ++ rest }
    | '-' :: '-' :: _ => .error (.unknownName word)
    | '-' :: c :: letters =>
      match readLetters flags valued rest.head? (c :: letters) g, rest with
      | .error fault, _ => .error fault
      | .ok (g, true), _ :: rest => readOptions flags valued rest g
      | .ok (g, _), rest => readOptions flags valued rest g
    | _ => readOptions flags valued rest { g with operands := g.operands ++ [word] }

def fail (text : String) (code : Nat) : Run Unit := do
  sayError ((← get).program ++ ": " ++ text)
  setStatus code

def misuse (text : String) (code : Nat) : Run Unit := do
  let program := (← get).program
  fail (text ++ s!"\nTry '{program} --help' for more information.") code

/-- Numbers as options of their own stand for a number of lines. -/
def withLineCount (args : List String) : List String :=
  args.flatMap fun word =>
    match word.toList with
    | '-' :: digits =>
      if !digits.isEmpty && digits.all Char.isDigit then ["-n", String.ofList digits] else [word]
    | _ => [word]

def Tool.start (tool : Tool) (called : String) (args : List String) : Run Unit := do
  modify fun m => { m with program := called, status := 0 }
  match tool.flags with
  | none => tool.run { operands := args }
  | some flags =>
    let args := if ["head", "tail"].contains tool.name then withLineCount args else args
    match readOptions flags.toList tool.valued.toList args {} with
    | .ok given => tool.run given
    | .error fault => misuse (fault.message ++ tool.usage) tool.refusal

def endlessBytes : Nat := 262144

def contentAt (path : String) : Run (Except OsError (List UInt8)) := do
  if path == "/dev/zero" then return .ok (List.replicate endlessBytes 0)
  return (← get).world.readFile path

def eachContent (g : Given) (missing : String → OsError → Run Unit)
    (action : Option String → List UInt8 → Run Unit) : Run Unit := do
  if g.operands.isEmpty then action none (← takeInput)
  for path in g.operands do
    if path == "-" then action (some path) (← takeInput)
    else
      match ← contentAt path with
      | .ok bytes => action (some path) bytes
      | .error e => missing path e

end ClassAtlas.Shell

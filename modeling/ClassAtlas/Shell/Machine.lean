import ClassAtlas.FileSystem.World
import ClassAtlas.Shell.Script
import ClassAtlas.Process

/-!
The state of a script that runs, and what every command may do: print, complain, let time pass and
end.
-/

namespace ClassAtlas.Shell

inductive Channel where
  | stdout
  | stderr
  | file (path : String)
  | input (number : Nat)
  deriving Repr, DecidableEq

structure Options where
  endOnFailure : Bool := false
  refuseUnset : Bool := false
  trace : Bool := false
  deriving Repr, DecidableEq

structure Job where
  id : Nat
  status : Nat
  /-- When it ends, or nothing if it never does. -/
  endsAt : Option Nat
  deriving Repr, DecidableEq

structure Machine where
  world : World
  name : String
  arguments : List String
  bindings : List (String × String)
  exported : List String := []
  readOnly : List String := []
  functions : List (String × Command) := []
  /-- What is run on a signal; zero stands for the end of the script. -/
  traps : List (Nat × String) := []
  options : Options := {}
  status : Nat := 0
  /-- The status of what was run last to put its output into a word. -/
  outputStatus : Option Nat := none
  line : Nat := 0
  context : Option String := none
  program : String := ""
  streams : List (Nat × Channel) := [(0, .input 0), (1, .stdout), (2, .stderr)]
  inputs : List (List UInt8) := [[]]
  /-- What has been printed, in pieces of which the latest comes first. -/
  stdout : List (List UInt8) := []
  stderr : List (List UInt8) := []
  elapsedMillis : Nat := 0
  limitMillis : Nat
  jobs : List Job := []
  /-- A signal on which something is to be run when the current command is done. -/
  pending : Option Nat := none
  loops : Nat := 0
  calls : Nat := 0
  /-- The values that local variables of the current function had before, or nothing outside. -/
  hidden : Option (List (String × Option String)) := none
  tested : Bool := false

inductive Halt where
  | exit (code : Nat)
  | refused
  | signal (number : Nat)
  | timeout
  | leave
  | leaveLoops (count : Nat) (again : Bool)
  deriving Repr, DecidableEq

abbrev Run := ExceptT Halt (StateM Machine)

def processId : Nat := 4711

def bytesOf (text : String) : List UInt8 :=
  text.toUTF8.toList

def setStatus (code : Nat) : Run Unit :=
  modify fun m => { m with status := code }

def appendFile (w : World) (path : String) (bytes : List UInt8) : Except OsError World := do
  match w.readFile path with
  | .ok old => w.writeFile path (old ++ bytes)
  | .error .notFound => w.writeFile path bytes
  | .error e => throw e

def channel? (stream : Nat) : Run (Option Channel) := do
  return (← get).streams.lookup stream

/-- Prints on a stream; tells whether that could be done. -/
def emitOn (stream : Nat) (bytes : List UInt8) : Run Bool := do
  let m ← get
  match m.streams.lookup stream with
  | some .stdout => set { m with stdout := bytes :: m.stdout }; return true
  | some .stderr => set { m with stderr := bytes :: m.stderr }; return true
  | some (.file path) =>
    match appendFile m.world path bytes with
    | .ok world => set { m with world }; return true
    | .error _ => return bytes.isEmpty
  | some (.input _) | none => return bytes.isEmpty

def emit (bytes : List UInt8) : Run Unit :=
  discard (emitOn 1 bytes)

def sayError (text : String) : Run Unit :=
  discard (emitOn 2 (bytesOf (text ++ "\n")))

def complain (code : Nat) (text : String) : Run Unit := do
  let m ← get
  let context := match m.context with
    | some name => name ++ ": "
    | none => ""
  sayError (m.name ++ s!": {m.line}: " ++ context ++ text)
  setStatus code

def giveUp {α : Type} (text : String) : Run α := do
  complain 2 text
  throw .refused

def takeInput : Run (List UInt8) := do
  let m ← get
  match m.streams.lookup 0 with
  | some (.input number) =>
    set { m with inputs := m.inputs.set number [] }
    return m.inputs.getD number []
  | _ => return []

def takeLine : Run (List UInt8 × Bool) := do
  let m ← get
  match m.streams.lookup 0 with
  | some (.input number) =>
    let bytes := m.inputs.getD number []
    let line := bytes.takeWhile (· != 10)
    set { m with inputs := m.inputs.set number (bytes.drop (line.length + 1)) }
    return (line, line.length < bytes.length)
  | _ => return ([], false)

def newInput (bytes : List UInt8) : Run Channel := do
  let m ← get
  set { m with inputs := m.inputs ++ [bytes] }
  return .input m.inputs.length

def connect (stream : Nat) (channel : Option Channel) : Run Unit :=
  modify fun m =>
    let others := m.streams.filter (·.1 != stream)
    { m with streams := (channel.toList.map (stream, ·)) ++ others }

/-- Does something and then sets back a part of the state, however it ends. -/
def restoring (back : Machine → Machine → Machine) (action : Run Unit) : Run Unit := do
  let before ← get
  try action finally modify (back before)

def textLimit : Nat := 1048576

def setVariable (name value : String) : Run Unit := do
  if value.utf8ByteSize > textLimit then throw .timeout
  if (← get).readOnly.contains name then giveUp s!"{name}: is read only"
  modify fun m => { m with bindings := (name, value) :: m.bindings.filter (·.1 != name) }

def pause (millis : Nat) : Run Unit := do
  let m ← get
  if m.elapsedMillis + millis ≥ m.limitMillis then throw .timeout
  set { m with elapsedMillis := m.elapsedMillis + millis }

/-- An exit ends only this part, and loops around it do not reach into it. -/
def contained (action : Run Unit) : Run Unit :=
  tryCatch action fun halt =>
    match halt with
    | .exit code => setStatus code
    | .refused => setStatus 2
    | .leave | .leaveLoops _ _ => pure ()
    | other => throw other

def apart (action : Run Unit) : Run Unit :=
  restoring
    (fun before after => { after with
      world := { after.world with here := before.world.here }
      name := before.name, arguments := before.arguments, bindings := before.bindings
      exported := before.exported, readOnly := before.readOnly
      functions := before.functions, traps := before.traps
      options := before.options, context := before.context, streams := before.streams
      jobs := before.jobs, loops := before.loops, calls := before.calls, hidden := before.hidden
      tested := before.tested })
    (contained action)

def captured (action : Run Unit) : Run (List UInt8) := do
  let before := (← get).stdout
  modify fun m => { m with stdout := [] }
  restoring (fun before after => { after with streams := before.streams }) do
    connect 1 (some .stdout)
    action
  let pieces := (← get).stdout
  modify fun m => { m with stdout := before }
  return pieces.reverse.flatten

end ClassAtlas.Shell

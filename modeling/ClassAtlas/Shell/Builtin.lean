import ClassAtlas.Shell.Expansion
import ClassAtlas.Shell.Program

/-!
Commands of the interpreter that run no others.
-/

namespace ClassAtlas.Shell

/-- Commands that end the script if they are misused, and come before functions. -/
def specialCommands : List String :=
  [":", ".", "break", "continue", "eval", "exec", "exit", "export", "readonly", "return", "set",
    "shift", "times", "trap", "unset"]

def otherCommands : List String :=
  ["[", "alias", "bg", "cd", "command", "echo", "false", "fg", "getopts", "hash", "jobs", "kill",
    "local", "printf", "pwd", "read", "test", "true", "type", "ulimit", "umask", "unalias", "wait"]

def inContext (name : String) (action : Run Unit) : Run Unit :=
  restoring (fun before after => { after with context := before.context }) do
    modify fun m => { m with context := some name }
    action

def numberLimit : Nat := 2147483647

def wholeNumber (text : String) : Run Nat := do
  match text.toNat? with
  | some n =>
    if text.toList.all Char.isDigit && n ≤ numberLimit then return n
    else giveUp s!"Illegal number: {text}"
  | none => giveUp s!"Illegal number: {text}"

def lastSignal : Nat := 64

def signalNumber? (name : String) : Option Nat :=
  (Process.signalNames.idxOf? name).map (· + 1)

/-- The number of a signal that is given by name or number. One signal has no name here. -/
def signalOf? (text : String) : Option Nat :=
  if text.toUpper == "EXIT" then some 0
  else if text.toUpper == "STKFLT" then none
  else text.toNat?.filter (· ≤ lastSignal) <|> signalNumber? text.toUpper

/-- Signals that stop the script, so that it does not end. -/
def stopSignals : List Nat := [19, 20, 21, 22]

def quietSignals : List Nat := [0, 17, 18, 23, 28]

def receive (signal : Nat) : Run Unit := do
  let m ← get
  if quietSignals.contains signal then pure ()
  else if stopSignals.contains signal then throw .timeout
  else
    match if signal = 9 then none else m.traps.lookup signal with
    | some "" => pure ()
    | some _ => set { m with pending := some signal }
    | none => throw (.signal signal)

def killUsage : String :=
  "Usage: kill [-s sigspec | -signum | -sigspec] [pid | job]... or\nkill -l [exitstatus]"

def killTarget (args : List String) : Run (Nat × List String) := do
  match args with
  | "-s" :: name :: ids =>
    match signalOf? name with
    | some signal => return (signal, ids)
    | none => giveUp s!"invalid signal number or name: {name}"
  | "--" :: ids => return (15, ids)
  | word :: ids =>
    match word.toList with
    | '-' :: name =>
      match signalOf? (String.ofList name) with
      | some signal => return (signal, ids)
      | none => giveUp ("Illegal option " ++ String.ofList (word.toList.take 2))
    | _ => return (15, args)
  | [] => return (15, [])

def kill (args : List String) : Run Unit := do
  let (signal, ids) ← killTarget args
  if ids.isEmpty then giveUp killUsage
  setStatus 0
  for id in ids do
    if id == toString processId then receive signal
    else if (← get).jobs.any fun job => toString job.id == id then pure ()
    else
      discard (wholeNumber id)
      complain 1 "No such process\n"

def conditionCommand (name : String) (args : List String) : Run Unit := do
  if name == "[" && args.getLast? != some "]" then complain 2 "missing ]"
  else
    match Condition.evaluate (← get).world (if name == "[" then args.dropLast else args) with
    | .ok holds => setStatus (if holds then 0 else 1)
    | .error text => complain 2 text

/-- The options that letters stand for; others have no effect. -/
def setOption (on : Bool) (o : Options) : Char → Option Options
  | 'e' => some { o with endOnFailure := on }
  | 'u' => some { o with refuseUnset := on }
  | 'x' => some { o with trace := on }
  | c => if "fImnsvVEbCai".toList.contains c then some o else none

def optionNames : List (String × Char) :=
  [("errexit", 'e'), ("nounset", 'u'), ("xtrace", 'x'), ("noglob", 'f'), ("verbose", 'v')]

def setOptions : List String → Run Unit
  | [] => pure ()
  | "--" :: rest => modify fun m => { m with arguments := rest }
  | "-o" :: name :: rest => do
    match optionNames.lookup name with
    | some letter =>
      modify fun m => { m with options := (setOption true m.options letter).getD m.options }
      setOptions rest
    | none => giveUp s!"Illegal option -o {name}"
  | word :: rest =>
    match word.toList with
    | sign :: c :: letters => do
      if sign == '-' || sign == '+' then
        for letter in c :: letters do
          match setOption (sign == '-') (← get).options letter with
          | some options => modify fun m => { m with options }
          | none => giveUp s!"Illegal option -{letter}"
        setOptions rest
      else modify fun m => { m with arguments := word :: rest }
    | _ => modify fun m => { m with arguments := word :: rest }

def dropVariable (name : String) : Run Unit := do
  if (← get).readOnly.contains name then giveUp s!"{name}: is read only"
  modify fun m => { m with bindings := m.bindings.filter (·.1 != name) }

def unset (args : List String) : Run Unit := do
  match args.find? fun word => word.startsWith "-" && word != "-f" && word != "-v" with
  | some word => giveUp ("Illegal option " ++ String.ofList (word.toList.take 2))
  | none =>
    for name in args.filter (!·.startsWith "-") do
      if args.contains "-f" then
        modify fun m => { m with functions := m.functions.filter (·.1 != name) }
      else if isName name then dropVariable name
      else giveUp s!"{name}: bad variable name"
    setStatus 0

def declaration (word : String) : Run (String × Option String) := do
  let name := String.ofList (word.toList.takeWhile (· != '='))
  if !isName name then giveUp s!"{name}: bad variable name"
  if name.length = word.length then return (name, none)
  return (name, some (String.ofList (word.toList.drop (name.length + 1))))

def declare (note : String → Machine → Machine) (args : List String) : Run Unit := do
  for word in args.filter fun word => !word.startsWith "-" do
    let (name, value) ← declaration word
    modify (note name)
    match value with
    | some text => setVariable name text
    | none => pure ()
  setStatus 0

def declareLocal (args : List String) : Run Unit := do
  if (← get).hidden.isNone then giveUp "not in a function"
  declare
    (fun name m => { m with hidden := m.hidden.map ((name, m.bindings.lookup name) :: ·) }) args

def declareReadOnly (args : List String) : Run Unit := do
  declare (fun _ m => m) args
  let names := args.map fun word => String.ofList (word.toList.takeWhile (· != '='))
  modify fun m => { m with readOnly := names ++ m.readOnly }

def changeDirectory (args : List String) : Run Unit := do
  let m ← get
  let target := match (args.filter (· != "--")).head? with
    | none => (m.bindings.lookup "HOME").getD ""
    | some "-" => (m.bindings.lookup "OLDPWD").getD ""
    | some path => path
  match m.world.stat target with
  | .ok (place, .directory _) =>
    let before := m.world.currentDirectory
    set { m with world := { m.world with here := place } }
    let here := (← get).world.currentDirectory
    setVariable "OLDPWD" before
    setVariable "PWD" here
    if args.head? == some "-" then emit (bytesOf (here ++ "\n"))
    setStatus 0
  | _ => complain 2 s!"can't cd to {target}"

/-- A backslash takes away the meaning of the next character. -/
def dropBackslashes : List Char → List Char
  | '\\' :: c :: rest => c :: dropBackslashes rest
  | c :: rest => c :: dropBackslashes rest
  | [] => []

/-- Gives the fields of a line to variables; the last gets all that is left. -/
def assignFields (between : List Char) : List String → List Char → Run Unit
  | [], _ => pure ()
  | [name], chars => do
    let blank := fun c => between.contains c && Arithmetic.isBlank c
    let text := ((chars.dropWhile blank).reverse.dropWhile blank).reverse
    setVariable name (String.ofList text)
  | name :: rest, chars => do
    let chars := chars.dropWhile fun c => between.contains c && Arithmetic.isBlank c
    setVariable name (String.ofList (chars.takeWhile (!between.contains ·)))
    assignFields between rest ((chars.dropWhile (!between.contains ·)).drop 1)

def readLine (args : List String) : Run Unit := do
  let names := args.filter (· != "-r")
  if names.isEmpty then giveUp "arg count"
  match names.find? (!isName ·) with
  | some name => giveUp s!"{name}: bad variable name"
  | none =>
    let (bytes, ended) ← takeLine
    let chars := ((String.fromUTF8? ⟨bytes.toArray⟩).getD "").toList
    assignFields (← separators) names (if args.contains "-r" then chars else dropBackslashes chars)
    setStatus (if ended then 0 else 1)

def setTraps (args : List String) : Run Unit := do
  setStatus 0
  match args with
  | [] => pure ()
  | [only] =>
    modify fun m => { m with traps := m.traps.filter fun (n, _) => some n != signalOf? only }
  | action :: signals =>
    for text in signals do
      match signalOf? text with
      | none =>
        sayError s!"trap: {text}: bad trap"
        setStatus 1
      | some signal =>
        modify fun m =>
          let others := m.traps.filter (·.1 != signal)
          { m with traps := if action == "-" then others else (signal, action) :: others }

def waitFor (job : Job) : Run Unit := do
  match job.endsAt with
  | none => throw .timeout
  | some time => pause (time - (← get).elapsedMillis)

def wait (args : List String) : Run Unit := do
  setStatus 0
  if args.isEmpty then
    for job in (← get).jobs do waitFor job
  for id in args do
    match (← get).jobs.find? fun job => toString job.id == id with
    | some job =>
      waitFor job
      setStatus job.status
    | none => setStatus 127

def searchPath : Run String := do
  return ((← get).bindings.lookup "PATH").getD "/bin:/usr/bin"

/-- Where a command is found: it is one of the interpreter's, a function, or a program. -/
def placeOf? (name : String) : Run (Option String) := do
  let m ← get
  if specialCommands.contains name || otherCommands.contains name
      || (m.functions.lookup name).isSome then return some name
  match findProgram m.world (← searchPath) name with
  | .ok (.script path _) | .ok (.unnamed path _) => return some path
  | .ok _ => return some (if name.toList.contains '/' then name else "/usr/bin/" ++ name)
  | .error _ => return none

def typeOf (names : List String) : Run Unit := do
  setStatus 0
  for name in names do
    match ← placeOf? name with
    | some path =>
      let kind := if specialCommands.contains name then "is a special shell builtin"
        else if otherCommands.contains name then "is a shell builtin"
        else if path == name then "is a shell function"
        else s!"is {path}"
      emit (bytesOf s!"{name} {kind}\n")
    | none =>
      emit (bytesOf s!"{name}: not found\n")
      setStatus 127

def shiftArguments (args : List String) : Run Unit := do
  let count ← match args with
    | text :: _ => wholeNumber text
    | [] => pure 1
  if count > (← get).arguments.length then giveUp "can't shift that many"
  modify fun m => { m with arguments := m.arguments.drop count, status := 0 }

def leaveLoops (again : Bool) (args : List String) : Run Unit := do
  let count ← match args with
    | text :: _ => wholeNumber text
    | [] => pure 1
  if count = 0 then giveUp "Illegal number: 0"
  setStatus 0
  let loops := (← get).loops
  if loops > 0 then throw (.leaveLoops (min count loops) again)

def givenStatus (args : List String) : Run Nat := do
  match args with
  | text :: _ => return (← wholeNumber text) % 256
  | [] => return (← get).status

def runCommand (name : String) (args : List String) : Run Unit := do
  match name with
  | "echo" => echo args
  | "printf" => printf args
  | "exit" => throw (.exit (← givenStatus args))
  | "return" =>
    setStatus (← givenStatus args)
    throw .leave
  | "break" => leaveLoops false args
  | "continue" => leaveLoops true args
  | "false" => setStatus 1
  | "kill" => kill args
  | "test" | "[" => conditionCommand name args
  | "shift" => shiftArguments args
  | "set" =>
    setOptions args
    setStatus 0
  | "unset" => unset args
  | "export" => declare (fun name m => { m with exported := name :: m.exported }) args
  | "readonly" => declareReadOnly args
  | "local" => declareLocal args
  | "cd" => changeDirectory args
  | "pwd" =>
    emit (bytesOf ((← get).world.currentDirectory ++ "\n"))
    setStatus 0
  | "read" => readLine args
  | "trap" => setTraps args
  | "wait" => wait args
  | "umask" =>
    if args.isEmpty then emit (bytesOf "0022\n")
    setStatus 0
  | "type" => typeOf args
  | _ => setStatus 0

end ClassAtlas.Shell

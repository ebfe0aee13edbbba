import ClassAtlas.Shell.Builtin
import ClassAtlas.Shell.Redirection
import ClassAtlas.Shell.Scope
import ClassAtlas.Text.Blank

/-!
The command interpreter: it runs scripts in a world. Running takes fuel, and a script that uses it
up counts as one that does not end in time.
-/

namespace ClassAtlas.Shell

def firstMatch (expand : Word → Run Pattern) (subject : List Char) :
    List (List Word × Command) → Run (Option Command)
  | [] => return none
  | (patterns, body) :: rest => do
    let found ← patterns.anyM fun word => return (← expand word).accepts subject
    if found then return some body else firstMatch expand subject rest

/-- The command whose search a word asks for, and what is printed instead of running it. -/
def describeCommand (names : List String) : Run Unit := do
  match names with
  | [] => setStatus 0
  | name :: _ =>
    match ← placeOf? name with
    | some path =>
      emit (bytesOf (path ++ "\n"))
      setStatus 0
    | none => setStatus 127

def traceLine (words : List String) : Run Unit := do
  if (← get).options.trace then sayError ("+ " ++ " ".intercalate words)

inductive Start where
  | source (text name : String) (arguments : List String)
  | file (path : String) (arguments : List String)
  | input

def readStart (name : String) : List String → Options → Except Char (Start × Options)
  | [], o => .ok (.input, o)
  | "-c" :: text :: rest, o => .ok (.source text (rest.headD name) rest.tail, o)
  | word :: rest, o =>
    match word.toList with
    | ['-', letter] =>
      match setOption true o letter with
      | some o => readStart name rest o
      | none => .error letter
    | '-' :: letter :: _ => .error letter
    | _ => .ok (.file word rest, o)

mutual

def execute : Nat → Command → Run Unit
  | 0, _ => throw .timeout
  | _ + 1, .nothing => setStatus 0
  | fuel + 1, .sequence first second => do
    execute fuel first
    execute fuel second
  | fuel + 1, .both first second => do
    testing (execute fuel first)
    if (← get).status = 0 then execute fuel second
  | fuel + 1, .either first second => do
    testing (execute fuel first)
    if (← get).status ≠ 0 then execute fuel second
  | fuel + 1, .conditional condition body otherwise => do
    testing (execute fuel condition)
    if (← get).status = 0 then execute fuel body else execute fuel otherwise
  | fuel + 1, .loop wanted condition body => insideLoop (rounds fuel wanted condition body 0)
  | fuel + 1, .each line name words body => do
    modify fun m => { m with line }
    let values ← expandWords (outputOf fuel) fuel words
    setStatus 0
    insideLoop (eachValue fuel name body values)
  | fuel + 1, .choice line subject branches => do
    modify fun m => { m with line }
    let text ← expandWhole (outputOf fuel) fuel subject
    match ← firstMatch (expandPattern (outputOf fuel) fuel) text.toList branches with
    | some body => execute fuel body
    | none => setStatus 0
  | fuel + 1, .redirected line body targets => do
    modify fun m => { m with line }
    withStreams do
      if ← redirectAll (expandWhole (outputOf fuel) fuel) targets then execute fuel body
  | fuel + 1, .subshell body => do
    subshell fuel ([body], none)
    endIfFailed
  | fuel + 1, .background body => do
    let before ← get
    tryCatch
      (do
        withStreams do
          connect 0 (some (← newInput []))
          subshell fuel ([body], none)
        noteJob before (some (← get).elapsedMillis))
      fun halt =>
        match halt with
        | .timeout => noteJob before none
        | other => throw other
  | fuel + 1, .pipeline negated parts => do
    if negated then
      testing (executePipe fuel parts)
      setStatus (if (← get).status = 0 then 1 else 0)
    else
      executePipe fuel parts
      endIfFailed
  | _ + 1, .define name body => do
    modify fun m => { m with functions := (name, body) :: m.functions.filter (·.1 != name) }
    setStatus 0
  | fuel + 1, .simple line words targets => do
    modify fun m => { m with line, outputStatus := none }
    simple fuel words targets
    endIfFailed

/-- Rounds of a loop; `last` is the status of the round before. -/
def rounds : Nat → Bool → Command → Command → Nat → Run Unit
  | 0, _, _, _, _ => throw .timeout
  | fuel + 1, wanted, condition, body, last => do
    let again ← oneRound do
      testing (execute fuel condition)
      if ((← get).status == 0) == wanted then execute fuel body
      else
        setStatus last
        throw (.leaveLoops 1 false)
    if again then rounds fuel wanted condition body (← get).status

def eachValue : Nat → String → Command → List String → Run Unit
  | 0, _, _, _ => throw .timeout
  | _ + 1, _, _, [] => pure ()
  | fuel + 1, name, body, value :: rest => do
    setVariable name value
    if ← oneRound (execute fuel body) then eachValue fuel name body rest

def executePipe : Nat → List Command → Run Unit
  | 0, _ => throw .timeout
  | _ + 1, [] => pure ()
  | fuel + 1, [last] => subshell fuel ([last], none)
  | fuel + 1, first :: rest => do
    let bytes ← captured (subshell fuel ([first], none))
    withStreams do
      connect 0 (some (← newInput bytes))
      executePipe fuel rest

def simple : Nat → List Word → List Redirect → Run Unit
  | 0, _, _ => throw .timeout
  | fuel + 1, words, targets => do
    let (assigned, rest) := words.span fun word => (assignment? word).isSome
    let whole := expandWhole (outputOf fuel) fuel
    let fields ← expandWords (outputOf fuel) fuel rest
    match fields with
    | [] =>
      withStreams do
        if ← redirectAll whole targets then
          for (name, value) in assigned.filterMap assignment? do
            let text ← whole value
            traceLine [name ++ "=" ++ text]
            setVariable name text
          setStatus ((← get).outputStatus.getD 0)
    | ["exec"] =>
      if !(← redirectAll whole targets) then throw .refused
      setStatus 0
    | name :: args =>
      traceLine fields
      withStreams do
        if ← redirectAll whole targets then
          let given ← (assigned.filterMap assignment?).mapM fun (name, value) =>
            return (name, ← whole value)
          if specialCommands.contains name then
            for (name, value) in given do setVariable name value
            invoke fuel name args
          else withVariables given (invoke fuel name args)
        else if specialCommands.contains name then throw .refused

def invoke : Nat → String → List String → Run Unit
  | 0, _, _ => throw .timeout
  | fuel + 1, name, args => do
    match name, (← get).functions.lookup name with
    | "eval", _ => inContext name (executeAll fuel (readScript 1 (" ".intercalate args)))
    | "exec", _ => inContext name do
      startNamed fuel (args.headD "") args.tail
      throw (.exit (← get).status)
    | ".", _ =>
      match args with
      | [] => setStatus 0
      | path :: _ => includeFile fuel path
    | _, function? =>
      if specialCommands.contains name then inContext name (runCommand name args)
      else
        match function? with
        | some body => calling args (execute fuel body)
        | none =>
          if name == "command" then
            match args with
            | "-v" :: names | "-V" :: names => describeCommand names
            | other :: rest =>
              if otherCommands.contains other then
                forgiving (inContext other (runCommand other rest))
              else startNamed fuel other rest
            | [] => setStatus 0
          else if otherCommands.contains name then
            forgiving (inContext name (runCommand name args))
            runPending fuel
          else startNamed fuel name args

def runPending : Nat → Run Unit
  | 0 => throw .timeout
  | fuel + 1 => do
    let m ← get
    set { m with pending := none }
    match m.pending.bind fun signal => m.traps.lookup signal with
    | some action =>
      executeAll fuel (readScript 1 action)
      setStatus m.status
    | none => pure ()

/-- Runs the commands of a file as if they stood in the script. -/
def includeFile : Nat → String → Run Unit
  | 0, _ => throw .timeout
  | fuel + 1, path => do
    let m ← get
    let directories := (← searchPath).splitOn ":"
    let candidates := if path.toList.contains '/' then [path]
      else directories.map fun directory => Path.join directory path
    match candidates.find? m.world.isFile with
    | none =>
      inContext "." (giveUp (if path.toList.contains '/' then s!"cannot open {path}: No such file"
        else s!"{path}: not found"))
    | some found =>
      match m.world.readText found with
      | .ok source => inContext path (untilLeft (executeAll fuel (readScript 1 source)))
      | .error e => inContext "." (giveUp (s!"cannot open {path}: " ++ e.message))

def startNamed : Nat → String → List String → Run Unit
  | 0, _, _ => throw .timeout
  | fuel + 1, name, args => do
    match findProgram (← get).world (← searchPath) name with
    | .error .permissionDenied => complain 126 s!"{name}: Permission denied"
    | .error .execFormat => complain 126 s!"{name}: Exec format error"
    | .error _ => complain 127 s!"{name}: not found"
    | .ok (.tool found) => found.start name args
    | .ok (.script path source) | .ok (.unnamed path source) =>
      asChild do
        modify (startedBy · path args)
        toItsEnd fuel (readScript 1 source)
    | .ok (.shell shell) => startShell fuel shell args

def startShell : Nat → String → List String → Run Unit
  | 0, _, _ => throw .timeout
  | fuel + 1, shell, args => do
    match readStart shell args {} with
    | .error letter =>
      sayError s!"{shell}: 0: Illegal option -{letter}"
      setStatus 2
    | .ok (start, options) =>
      match start with
      | .source text name rest =>
        asChild do
          modify fun m => { startedBy m name rest with options }
          toItsEnd fuel (readScript 1 text)
      | .file path rest =>
        match (← get).world.readText path with
        | .error _ =>
          sayError s!"{shell}: 0: cannot open {path}: No such file"
          setStatus 2
        | .ok text =>
          asChild do
            modify fun m => { startedBy m path rest with options }
            toItsEnd fuel (readScript 1 text)
      | .input =>
        let text := (String.fromUTF8? ⟨(← takeInput).toArray⟩).getD ""
        asChild do
          modify fun m => { startedBy m shell [] with options }
          toItsEnd fuel (readScript 1 text)

def outputOf : Nat → String → Run String
  | 0, _ => throw .timeout
  | fuel + 1, source => do
    let before ← get
    let bytes ← captured (subshell fuel (readScript before.line source))
    modify fun m => { m with outputStatus := some m.status, status := before.status }
    let text := (String.fromUTF8? ⟨bytes.toArray⟩).getD ""
    return String.ofList (Text.dropEndWhile (· == '\n') text.toList)

/-- Runs commands in turn, up to the place that makes no sense. -/
def executeAll : Nat → List Command × Option SyntaxFault → Run Unit
  | 0, _ => throw .timeout
  | fuel + 1, (commands, fault) => do
    if commands.isEmpty then setStatus 0
    for command in commands do execute fuel command
    match fault with
    | some fault =>
      modify fun m => { m with line := fault.line }
      giveUp ("Syntax error: " ++ fault.text)
    | none => pure ()

def toItsEnd : Nat → List Command × Option SyntaxFault → Run Unit
  | 0, _ => throw .timeout
  | fuel + 1, script => do
    contained (executeAll fuel script)
    let m ← get
    match m.traps.lookup 0 with
    | some action =>
      set { m with traps := m.traps.filter (·.1 != 0) }
      executeAll fuel (readScript 1 action)
      setStatus m.status
    | none => pure ()

/-- Runs commands of which the script only sees what they do outside of it. -/
def subshell : Nat → List Command × Option SyntaxFault → Run Unit
  | 0, _ => throw .timeout
  | fuel + 1, script =>
    apart do
      modify fun m => { m with traps := m.traps.filter (·.1 != 0) }
      toItsEnd fuel script

end

/-- How many steps a script may take in the time it has. -/
def stepLimit : Nat := 100000

def runIn (w : World) (name : String) (arguments : List String) (limitMillis : Nat)
    (action : Run Unit) : Process.Finish :=
  let start : Machine := {
    world := w, name, arguments, limitMillis
    bindings := ("PWD", w.currentDirectory) :: w.environment
    exported := "PWD" :: w.environment.map (·.1) }
  let (result, m) := (contained action).run.run start
  let ending := match result with
    | .ok () => .finished (.exited m.status)
    | .error (.signal number) => .finished (.signaled number)
    | .error (.exit code) => .finished (.exited code)
    | .error .refused => .finished (.exited 2)
    | .error .timeout => .timedOut
    | .error _ => .finished (.exited m.status)
  { root := m.world.root, stderr := m.stderr.reverse.flatten, ending }

def Program.run (w : World) (program : Program) (command : String) (arguments : List String)
    (limitMillis : Nat) : Process.Finish :=
  match program with
  | .script path source | .unnamed path source =>
    runIn w path arguments limitMillis (toItsEnd stepLimit (readScript 1 source))
  | .tool found => runIn w command arguments limitMillis (found.start command arguments)
  | .shell name => runIn w command arguments limitMillis (startShell stepLimit name arguments)

def runner : Process.Runner where
  start w command arguments limitMillis := do
    let program ← startable w command
    return program.run w command arguments limitMillis

end ClassAtlas.Shell

import ClassAtlas.Shell.Machine

/-!
Running a part of a script: what it may end, and what of the state is set back after it.
-/

namespace ClassAtlas.Shell

/-- Runs something whose status is looked at, so that it may fail. -/
def testing (action : Run Unit) : Run Unit :=
  restoring (fun before after => { after with tested := before.tested }) do
    modify fun m => { m with tested := true }
    action

def endIfFailed : Run Unit := do
  let m ← get
  if m.status ≠ 0 && m.options.endOnFailure && !m.tested then throw (.exit m.status)

def oneRound (action : Run Unit) : Run Bool :=
  tryCatch (do action; return true) fun halt =>
    match halt with
    | .leaveLoops count again =>
      if count > 1 then throw (.leaveLoops (count - 1) again) else return again
    | other => throw other

def insideLoop (action : Run Unit) : Run Unit :=
  restoring (fun before after => { after with loops := before.loops }) do
    modify fun m => { m with loops := m.loops + 1 }
    action

def giveBack (old : List (String × Option String)) (bindings : List (String × String)) :
    List (String × String) :=
  old.foldl
    (fun bindings (name, value) => value.toList.map (name, ·) ++ bindings.filter (·.1 != name))
    bindings

def untilLeft (action : Run Unit) : Run Unit :=
  tryCatch action fun halt =>
    match halt with
    | .leave => pure ()
    | other => throw other

def callLimit : Nat := 1000

def calling (args : List String) (action : Run Unit) : Run Unit := do
  if (← get).calls ≥ callLimit then
    giveUp s!"Maximum function recursion depth ({callLimit}) reached"
  restoring
    (fun before after => { after with
      arguments := before.arguments, loops := before.loops, calls := before.calls
      hidden := before.hidden, bindings := giveBack (after.hidden.getD []) after.bindings })
    (do
      modify fun m => { m with arguments := args, loops := 0, calls := m.calls + 1, hidden := some [] }
      untilLeft action)

def withVariables (given : List (String × String)) (action : Run Unit) : Run Unit := do
  let m ← get
  let old := given.map fun (name, _) => (name, m.bindings.lookup name)
  restoring
    (fun before after =>
      { after with bindings := giveBack old after.bindings, exported := before.exported }) do
    for (name, value) in given do setVariable name value
    modify fun m => { m with exported := given.map (·.1) ++ m.exported }
    action

/-- A misused command of the interpreter fails and the script goes on. -/
def forgiving (action : Run Unit) : Run Unit :=
  tryCatch action fun halt =>
    match halt with
    | .refused => pure ()
    | other => throw other

/-- What is said when a program that the script started is ended by a signal. -/
def deathNotices : List (Nat × String) :=
  [(1, "Hangup"), (3, "Quit"), (4, "Illegal instruction"), (6, "Aborted"), (7, "Bus error"),
    (8, "Floating point exception"), (9, "Killed"), (10, "User defined signal 1"),
    (11, "Segmentation fault"), (12, "User defined signal 2"), (14, "Alarm clock"),
    (15, "Terminated")]

/-- Runs a program of its own, which does not take the script with it when it is killed. -/
def asChild (action : Run Unit) : Run Unit :=
  tryCatch (apart action) fun halt =>
    match halt with
    | .signal number => do
      match deathNotices.lookup number with
      | some notice => sayError notice
      | none => pure ()
      setStatus (128 + number)
    | other => throw other

def startedBy (m : Machine) (name : String) (arguments : List String) : Machine :=
  { m with
    name, arguments, context := none, functions := [], traps := [], readOnly := [], options := {}
    jobs := [], loops := 0, calls := 0, hidden := none, tested := false, status := 0
    bindings := m.bindings.filter fun (bound, _) => m.exported.contains bound }

def noteJob (before : Machine) (endsAt : Option Nat) : Run Unit :=
  modify fun m =>
    let id := processId + 1 + before.jobs.length
    { m with
      jobs := { id, status := m.status, endsAt } :: before.jobs
      elapsedMillis := before.elapsedMillis, status := 0 }

end ClassAtlas.Shell

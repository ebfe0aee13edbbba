import ClassAtlas.FileSystem.World

/-!
Programs as a run sees them. A machine starts a command, which changes files, says something on its
error stream and ends; how the machine does that is left to its runner.
-/

namespace ClassAtlas.Process

inductive Status where
  | exited (code : Nat)
  | signaled (number : Nat)
  deriving Repr, DecidableEq

def signalNames : List String :=
  ["HUP", "INT", "QUIT", "ILL", "TRAP", "ABRT", "BUS", "FPE", "KILL", "USR1", "SEGV", "USR2",
    "PIPE", "ALRM", "TERM", "STKFLT", "CHLD", "CONT", "STOP", "TSTP", "TTIN", "TTOU", "URG", "XCPU",
    "XFSZ", "VTALRM", "PROF", "WINCH", "IO", "PWR", "SYS"]

namespace Status

def isSuccess (s : Status) : Bool :=
  s == .exited 0

def describe : Status → String
  | .exited code => s!"exit status: {code}"
  | .signaled number =>
    match signalNames[number - 1]? with
    | some name => s!"signal: {number} (SIG{name})"
    | none => s!"signal: {number}"

end Status

inductive Ending where
  | finished (status : Status)
  | timedOut
  deriving Repr, DecidableEq

structure Finish where
  root : FileSystem.Node
  stderr : List UInt8
  ending : Ending

/-- What starts programs: a command with its arguments, for a time in milliseconds. -/
structure Runner where
  start (w : World) (command : String) (arguments : List String) (limitMillis : Nat) :
    Except OsError Finish

/-- Rounds a quotient, a half going to the even neighbour. -/
def roundHalfEven (n d : Nat) : Nat :=
  let q := n / d
  if 2 * (n % d) > d || (2 * (n % d) = d && q % 2 = 1) then q + 1 else q

def oneDecimal (thousandths : Nat) (unit : String) : String :=
  let tenths := roundHalfEven thousandths 100
  s!"{tenths / 10}.{tenths % 10}" ++ unit

/-- A time limit in the largest unit that it fills, with one place. -/
def describeLimit (millis : Nat) : String :=
  if millis ≥ 1000 then oneDecimal millis "s"
  else if millis ≥ 1 then oneDecimal (millis * 1000) "ms"
  else oneDecimal 0 "ns"

end ClassAtlas.Process

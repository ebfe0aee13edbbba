import ClassAtlas.Text.Blank

/-!
Points in time and spans of it. A point in time is written as a date and time of day in universal
time, with as many fraction digits, in steps of three, as make it exact.
-/

namespace ClassAtlas

structure Duration where
  seconds : Nat := 0
  nanos : Nat := 0
  deriving Repr, DecidableEq

def padNat (width n : Nat) : String :=
  let digits := toString n
  String.ofList (List.replicate (width - digits.length) '0') ++ digits

/-- Milliseconds below a second, seconds with three places below a minute, else minutes and
seconds. -/
def Duration.render (d : Duration) : String :=
  let millis := d.nanos / 1000000
  if d.seconds = 0 then s!"{millis}ms"
  else if d.seconds < 60 then s!"{d.seconds}." ++ padNat 3 millis ++ "s"
  else s!"{d.seconds / 60}m {d.seconds % 60}s"

/-- Seconds since the start of 1970 and nanoseconds. In a leap second the nanoseconds exceed one
second. -/
structure Timestamp where
  seconds : Int := 0
  nanos : Nat := 0
  deriving Repr, DecidableEq

structure Date where
  year : Int
  month : Nat
  day : Nat
  deriving Repr, DecidableEq

namespace Date

def isLeap (year : Int) : Bool :=
  year % 4 == 0 && (year % 100 != 0 || year % 400 == 0)

def daysInMonth (year : Int) (month : Nat) : Nat :=
  if month = 2 then (if isLeap year then 29 else 28)
  else if [4, 6, 9, 11].contains month then 30
  else 31

def yearInRange (year : Int) : Bool :=
  -262143 ≤ year && year ≤ 262142

def isValid (d : Date) : Bool :=
  yearInRange d.year && 1 ≤ d.month && d.month ≤ 12 && 1 ≤ d.day
    && d.day ≤ daysInMonth d.year d.month

/-- Days since the start of 1970. Years are counted from March, so that a leap day comes last. -/
def toDays (d : Date) : Int :=
  let year := if d.month ≤ 2 then d.year - 1 else d.year
  let era := year / 400
  let yearOfEra := year % 400
  let month : Int := if d.month > 2 then d.month - 3 else d.month + 9
  let dayOfYear := (153 * month + 2) / 5 + d.day - 1
  let dayOfEra := yearOfEra * 365 + yearOfEra / 4 - yearOfEra / 100 + dayOfYear
  era * 146097 + dayOfEra - 719468

def ofDays (days : Int) : Date :=
  let shifted := days + 719468
  let era := shifted / 146097
  let dayOfEra := shifted % 146097
  let yearOfEra := (dayOfEra - dayOfEra / 1460 + dayOfEra / 36524 - dayOfEra / 146096) / 365
  let dayOfYear := dayOfEra - (365 * yearOfEra + yearOfEra / 4 - yearOfEra / 100)
  let month := (5 * dayOfYear + 2) / 153
  let day := dayOfYear - (153 * month + 2) / 5 + 1
  let monthOfYear := if month < 10 then month + 3 else month - 9
  let year := yearOfEra + era * 400
  { year := if monthOfYear ≤ 2 then year + 1 else year
    month := monthOfYear.toNat
    day := day.toNat }

end Date

namespace Timestamp

abbrev Reader := StateT (List Char) Option

def readNatOf (digits : List Char) : Nat :=
  digits.foldl (fun n c => n * 10 + (c.toNat - '0'.toNat)) 0

def skipBlanks : Reader Unit :=
  modify (·.dropWhile Text.isBlank)

def readNumber (width : Nat) : Reader Nat := do
  let digits := ((← get).takeWhile Char.isDigit).take width
  if digits.isEmpty then failure
  modify (·.drop digits.length)
  return readNatOf digits

def readSign? : Reader (Option Char) := do
  match ← get with
  | '-' :: rest => set rest; return some '-'
  | '+' :: rest => set rest; return some '+'
  | _ => return none

/-- A year has four digits unless it has a sign. -/
def readYear : Reader Int := do
  match ← readSign? with
  | some sign =>
    let n ← readNumber (← get).length
    return if sign == '-' then -(n : Int) else n
  | none => return (← readNumber 4)

def expect (accepted : Char → Bool) : Reader Unit := do
  match ← get with
  | c :: rest => if accepted c then set rest else failure
  | [] => failure

def readField (separator : Char) : Reader Nat := do
  skipBlanks
  let n ← readNumber 2
  skipBlanks
  expect (· == separator)
  return n

/-- Digits after the ninth are ignored. -/
def readNanos : Reader Nat := do
  match ← get with
  | '.' :: rest =>
    let digits := rest.takeWhile Char.isDigit
    if digits.isEmpty then failure
    set (rest.drop digits.length)
    let kept := digits.take 9
    return readNatOf kept * Nat.pow 10 (9 - kept.length)
  | _ => return 0

def readPair : Reader Nat := do
  match ← get with
  | a :: b :: rest =>
    if a.isDigit && b.isDigit then
      set rest
      return readNatOf [a, b]
    else failure
  | _ => failure

def readOffset : Reader Int := do
  skipBlanks
  let chars ← get
  if ((chars.take 3).map Char.toUpper) == ['U', 'T', 'C'] then
    set (chars.drop 3)
    return 0
  match chars with
  | 'Z' :: rest => set rest; return 0
  | 'z' :: rest => set rest; return 0
  | sign :: rest =>
    unless ['+', '-', '−'].contains sign do failure
    set rest
    let hours ← readPair
    modify (·.dropWhile fun c => c == ':' || Text.isBlank c)
    let minutes ← readPair
    if minutes > 59 then failure
    let seconds : Int := hours * 3600 + minutes * 60
    if seconds ≥ 86400 then failure
    return if sign == '+' then seconds else -seconds
  | [] => failure

def readAll : Reader Timestamp := do
  skipBlanks
  let year ← readYear
  skipBlanks
  expect (· == '-')
  let month ← readField '-'
  skipBlanks
  let day ← readNumber 2
  let date : Date := { year, month, day }
  if !date.isValid then failure
  expect fun c => c == 'T' || c == 't' || c == ' '
  let hour ← readField ':'
  let minute ← readField ':'
  skipBlanks
  let second ← readNumber 2
  if hour > 23 || minute > 59 || second > 60 then failure
  let nanos ← readNanos
  let offset ← readOffset
  skipBlanks
  if !(← get).isEmpty then failure
  -- a leap second is counted within the second before it
  let leap : Nat := if second = 60 then 1 else 0
  let time : Int := hour * 3600 + minute * 60 + (second - leap)
  let seconds := date.toDays * 86400 + time - offset
  if !Date.yearInRange (Date.ofDays (seconds / 86400)).year then failure
  return { seconds, nanos := nanos + leap * 1000000000 }

def parse? (text : String) : Option Timestamp :=
  (readAll.run text.toList).map (·.1)

def fraction (nanos : Nat) : String :=
  if nanos = 0 then ""
  else if nanos % 1000000 = 0 then "." ++ padNat 3 (nanos / 1000000)
  else if nanos % 1000 = 0 then "." ++ padNat 6 (nanos / 1000)
  else "." ++ padNat 9 nanos

/-- Years beyond four digits have a sign. -/
def renderYear (year : Int) : String :=
  if 0 ≤ year ∧ year ≤ 9999 then padNat 4 year.toNat
  else (if year < 0 then "-" else "+") ++ padNat 4 year.natAbs

def render (t : Timestamp) : String :=
  let leap := t.nanos / 1000000000
  let date := Date.ofDays (t.seconds / 86400)
  let time := (t.seconds % 86400).toNat
  renderYear date.year ++ "-" ++ padNat 2 date.month ++ "-" ++ padNat 2 date.day
    ++ "T" ++ padNat 2 (time / 3600) ++ ":" ++ padNat 2 (time / 60 % 60) ++ ":"
    ++ padNat 2 (time % 60 + leap) ++ fraction (t.nanos % 1000000000) ++ "Z"

end Timestamp

end ClassAtlas

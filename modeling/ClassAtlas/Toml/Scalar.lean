import ClassAtlas.Time
import ClassAtlas.Toml.Text

/-!
Unquoted values of a TOML document: truth values, numbers, dates and times.
-/

namespace ClassAtlas.Toml

/-- Digits with single underscores between them. -/
def digits? (isDigit : Char → Bool) : List Char → Option (List Char)
  | [] => none
  | [c] => if isDigit c then some [c] else none
  | c :: '_' :: rest =>
    if isDigit c then (digits? isDigit rest).map (c :: ·) else none
  | c :: d :: rest =>
    if isDigit c then (digits? isDigit (d :: rest)).map (c :: ·) else none

def numberOf (base : Nat) (digits : List Char) : Nat :=
  digits.foldl (fun n c => n * base + (Text.hexDigit? c).getD 0) 0

def radixed? (base : Nat) (text : List Char) : Option Nat :=
  (digits? (fun c => (Text.hexDigit? c).any (· < base)) text).map (numberOf base)

/-- Decimal digits that do not start with a needless zero. -/
def plainDigits? (text : List Char) : Option (List Char) := do
  let digits ← digits? Char.isDigit text
  if text.head? == some '0' && text.length > 1 then none
  return digits

def unsigned : List Char → Bool × List Char
  | '-' :: rest => (true, rest)
  | '+' :: rest => (false, rest)
  | text => (false, text)

def integer? (text : List Char) : Option Int :=
  match text with
  | '0' :: 'x' :: rest => (radixed? 16 rest).map Int.ofNat
  | '0' :: 'o' :: rest => (radixed? 8 rest).map Int.ofNat
  | '0' :: 'b' :: rest => (radixed? 2 rest).map Int.ofNat
  | _ =>
    let (negative, rest) := unsigned text
    (plainDigits? rest).map fun digits =>
      if negative then -(numberOf 10 digits : Int) else numberOf 10 digits

/-- A decimal number is its digits times a power of ten. -/
structure Decimal where
  digits : Nat
  exponent : Int
  deriving Repr, DecidableEq

def decimal? (text : List Char) : Option Decimal := do
  let (mantissa, exponent?) := match text.span fun c => c != 'e' && c != 'E' with
    | (mantissa, _ :: exponent) => (mantissa, some exponent)
    | (mantissa, []) => (mantissa, none)
  let exponent ← match exponent? with
    | none => some 0
    | some exponent =>
      let (negative, rest) := unsigned exponent
      (digits? Char.isDigit rest).map fun digits =>
        if negative then -(numberOf 10 digits : Int) else numberOf 10 digits
  match mantissa.span (· != '.') with
  | (whole, _ :: fraction) =>
    let whole ← plainDigits? whole
    let fraction ← digits? Char.isDigit fraction
    return ⟨numberOf 10 (whole ++ fraction), exponent - fraction.length⟩
  | (whole, []) =>
    if exponent?.isNone then none
    return ⟨numberOf 10 (← plainDigits? whole), exponent⟩

/-- The least number that a double rounds to infinity. -/
def doubleLimit : Nat := Nat.pow 2 1024 - Nat.pow 2 970

def Decimal.inRange (d : Decimal) : Bool :=
  if d.digits = 0 then true
  else
    let size : Int := (Nat.toDigits 10 d.digits).length + d.exponent
    if size < 300 then true
    else if size > 320 then false
    else if d.exponent ≥ 0 then d.digits * Nat.pow 10 d.exponent.toNat < doubleLimit
    else d.digits < doubleLimit * Nat.pow 10 (-d.exponent).toNat

def float? (text : List Char) : Option (Except Error Value) :=
  let (_, rest) := unsigned text
  if rest == "inf".toList || rest == "nan".toList then some (.ok (.float (String.ofList text)))
  else
    (decimal? rest).map fun decimal =>
      if decimal.inRange then .ok (.float (String.ofList text))
      else .error (.overflow (String.ofList text))

def fixed? (width : Nat) (text : List Char) : Option (Nat × List Char) :=
  let digits := text.take width
  if digits.length = width && digits.all Char.isDigit then
    some (numberOf 10 digits, text.drop width)
  else none

def mark? (accepted : List Char) : List Char → Option (List Char)
  | c :: rest => if accepted.contains c then some rest else none
  | [] => none

def date? (text : List Char) : Option (List Char) := do
  let (year, rest) ← fixed? 4 text
  let (month, rest) ← fixed? 2 (← mark? ['-'] rest)
  let (day, rest) ← fixed? 2 (← mark? ['-'] rest)
  if Date.isValid { year := year, month, day } then some rest else none

def seconds? (text : List Char) : Option (List Char) := do
  let (second, rest) ← fixed? 2 text
  if second > 60 then none
  match rest with
  | '.' :: fraction =>
    let digits := fraction.takeWhile Char.isDigit
    if digits.isEmpty then none else some (fraction.drop digits.length)
  | _ => some rest

/-- Takes a time of day off the front; it may leave out its seconds. -/
def time? (text : List Char) : Option (List Char) := do
  let (hour, rest) ← fixed? 2 text
  let (minute, rest) ← fixed? 2 (← mark? [':'] rest)
  if hour > 23 || minute > 59 then none
  match rest with
  | ':' :: rest => seconds? rest
  | _ => some rest

def offset? (text : List Char) : Option (List Char) :=
  match text with
  | [] => some []
  | 'Z' :: rest => some rest
  | 'z' :: rest => some rest
  | _ => do
    let (hour, rest) ← fixed? 2 (← mark? ['+', '-'] text)
    let (minute, rest) ← fixed? 2 (← mark? [':'] rest)
    if hour ≤ 23 && minute ≤ 59 then some rest else none

def isDatetime (text : List Char) : Bool :=
  match date? text with
  | some [] => true
  | some rest => ((mark? ['T', 't', ' '] rest).bind time?).bind offset? == some []
  | none => time? text == some []

def integerInRange (n : Int) : Bool :=
  -(Nat.pow 2 127 : Nat) ≤ n && n < (Nat.pow 2 128 : Nat)

def scalar (text : List Char) : Except Error Value :=
  if text == "true".toList then .ok (.boolean true)
  else if text == "false".toList then .ok (.boolean false)
  else
    match integer? text with
    | some n => if integerInRange n then .ok (.integer n) else .error (.overflow (String.ofList text))
    | none =>
      match float? text with
      | some outcome => outcome
      | none =>
        if isDatetime text then .ok (.datetime (String.ofList text))
        else .error (.scalar (String.ofList text))

def isEnd (c : Char) : Bool :=
  ['=', ',', '[', ']', '\x7b', '\x7d', ' ', '\t', '#', '\r', '\n'].contains c

/-- An unquoted value; a date may have a time of day behind a space. -/
def unquoted : Reader Value := do
  let text ← Reader.takeWhile (!isEnd ·)
  if text.isEmpty then throw (.expected "a value")
  match date? text, ← get with
  | some [], ' ' :: c :: rest =>
    if c.isDigit then
      set (c :: rest)
      let time ← Reader.takeWhile (!isEnd ·)
      scalar (text ++ ' ' :: time)
    else scalar text
  | _, _ => scalar text

end ClassAtlas.Toml

import ClassAtlas.Shell.Arithmetic
import ClassAtlas.Shell.Machine

/-!
Printing with escapes and formats.
-/

namespace ClassAtlas.Shell

def letterEscapes : List (Char × UInt8) :=
  [('n', 10), ('t', 9), ('r', 13), ('\\', 92), ('a', 7), ('b', 8), ('f', 12), ('v', 11), ('e', 27)]

def isOctal (c : Char) : Bool :=
  '0' ≤ c && c ≤ '7'

/-- The byte that an escape stands for, and how many characters it has. Up to three octal digits
tell a byte; in a text, as opposed to a format, a zero may stand in front of them. -/
def escape? (inText : Bool) (chars : List Char) : Option (UInt8 × Nat) :=
  match chars.head?.bind fun c => letterEscapes.lookup c with
  | some byte => some (byte, 1)
  | none =>
    let lead := if inText && chars.head? == some '0' then 1 else 0
    let digits := ((chars.drop lead).takeWhile isOctal).take 3
    if lead + digits.length = 0 then none
    else
      let value := digits.foldl (fun n c => n * 8 + (c.toNat - '0'.toNat)) 0
      some (value.toUInt8, lead + digits.length)

/-- A text with its escapes replaced; also tells whether one of them ends all printing. -/
def unescape : List Char → List UInt8 × Bool
  | [] => ([], false)
  | c :: rest =>
    if c != '\\' then
      let (more, stops) := unescape rest
      (bytesOf (String.singleton c) ++ more, stops)
    else if rest.head? == some 'c' then ([], true)
    else
      match escape? true rest with
      | some (byte, used) =>
        let (more, stops) := unescape (rest.drop used)
        (byte :: more, stops)
      | none =>
        let (more, stops) := unescape rest
        (92 :: more, stops)
termination_by chars => chars.length
decreasing_by all_goals simp only [List.length_cons, List.length_drop]; omega

def echo (args : List String) : Run Unit := do
  let silent := args.head? == some "-n"
  let words := if silent then args.tail else args
  let (bytes, stops) := unescape (" ".intercalate words).toList
  if ← emitOn 1 (bytes ++ (if silent || stops then [] else [10])) then setStatus 0
  else complain 1 "echo: I/O error"

structure Directive where
  flags : List Char
  width : Nat
  precision : Option Nat
  kind : Char
  deriving Repr, DecidableEq

namespace Directive

def has (d : Directive) (c : Char) : Bool :=
  d.flags.contains c

def pad (d : Directive) (zeros : Bool) (sign body : String) : String :=
  let missing := d.width - (sign.length + body.length)
  let fill (c : Char) := String.ofList (List.replicate missing c)
  if d.has '-' then sign ++ body ++ fill ' '
  else if zeros then sign ++ fill '0' ++ body
  else fill ' ' ++ sign ++ body

def text (d : Directive) (value : String) : String :=
  d.pad false "" (match d.precision with
    | some n => String.ofList (value.toList.take n)
    | none => value)

def digits (d : Directive) (base : Nat) (n : Nat) : String :=
  let plain := if d.precision == some 0 && n = 0 then [] else Nat.toDigits base n
  let missing := d.precision.getD 1 - plain.length
  String.ofList (List.replicate missing '0' ++ plain)

def number (d : Directive) (value : Int64) : String :=
  let n := value.toInt
  let zeros := d.has '0' && d.precision.isNone
  let unsigned := value.toUInt64.toNat
  let mark (text : String) := if d.has '#' && unsigned != 0 then text else ""
  match d.kind with
  | 'u' => d.pad zeros "" (d.digits 10 unsigned)
  | 'o' => d.pad zeros (mark "0") (d.digits 8 unsigned)
  | 'x' => d.pad zeros (mark "0x") (d.digits 16 unsigned)
  | 'X' => d.pad zeros (mark "0X") (d.digits 16 unsigned).toUpper
  | _ =>
    let sign := if n < 0 then "-" else if d.has '+' then "+" else if d.has ' ' then " " else ""
    d.pad zeros sign (d.digits 10 n.natAbs)

end Directive

structure Filling where
  args : List String
  bytes : List UInt8 := []
  status : Nat := 0
  stops : Bool := false

def Filling.print (f : Filling) (text : String) : Filling :=
  { f with bytes := f.bytes ++ bytesOf text }

def leadingNumber (chars : List Char) : List Char :=
  let (sign, rest) := chars.span fun c => c == '-' || c == '+'
  let body := match rest with
    | '0' :: 'x' :: more => '0' :: 'x' :: more.takeWhile fun c => (Text.hexDigit? c).isSome
    | '0' :: _ => rest.takeWhile isOctal
    | _ => rest.takeWhile Char.isDigit
  if sign.length ≤ 1 && !body.isEmpty then sign ++ body else []

/-- The number that an argument stands for; a quote in front stands for a character's number. -/
def numericArgument (f : Filling) : Run (Int64 × Filling) := do
  match f.args with
  | [] => return (0, f)
  | text :: args =>
    let f := { f with args }
    match text.toList with
    | '\x27' :: c :: _ | '"' :: c :: _ => return (Int64.ofInt (Int.ofNat c.toNat), f)
    | chars =>
      let found := leadingNumber chars
      let value := (Arithmetic.signed? (String.ofList found)).getD 0
      if found.length = chars.length && !chars.isEmpty then return (value, f)
      complain 1 (text
        ++ if found.isEmpty then ": expected numeric value" else ": not completely converted")
      return (value, { f with status := 1 })

/-- A width or precision: digits, or a star for the next argument. -/
def measure (chars : List Char) (f : Filling) : Run (Option Nat × List Char × Filling) := do
  match chars with
  | '*' :: rest =>
    let (n, f) ← numericArgument f
    return (some n.toInt.toNat, rest, f)
  | _ =>
    let digits := chars.takeWhile Char.isDigit
    return ((String.ofList digits).toNat?, chars.drop digits.length, f)

def fillDirective (d : Directive) (f : Filling) : Run Filling := do
  let text := f.args.headD ""
  match d.kind with
  | 's' => return { f with args := f.args.tail }.print (d.text text)
  | 'b' =>
    let (bytes, stops) := unescape text.toList
    return { f with args := f.args.tail, bytes := f.bytes ++ bytes, stops }
  | 'c' => return { f with args := f.args.tail }.print (d.text (String.ofList (text.toList.take 1)))
  | _ =>
    let (n, f) ← numericArgument f
    return f.print (d.number n)

def fillFormat : Nat → List Char → Filling → Run Filling
  | 0, _, f => return f
  | _ + 1, [], f => return f
  | fuel + 1, c :: rest, f => do
    if f.stops then return f
    match c, rest with
    | '%', '%' :: rest => fillFormat fuel rest (f.print "%")
    | '%', _ =>
      let (flags, rest) := rest.span ['#', '-', '+', ' ', '0'].contains
      let (width, rest, f) ← measure rest f
      let (precision, rest, f) ← match rest with
        | '.' :: rest => do
          let (n, rest, f) ← measure rest f
          pure (some (n.getD 0), rest, f)
        | _ => pure (none, rest, f)
      match rest with
      | [] =>
        complain 2 "missing format character"
        return { f with status := 2, stops := true }
      | kind :: rest =>
        if ['s', 'b', 'c', 'd', 'i', 'u', 'o', 'x', 'X'].contains kind then
          fillFormat fuel rest (← fillDirective { flags, width := width.getD 0, precision, kind } f)
        else
          complain 2 s!"%{kind}: invalid directive"
          return { f with status := 2, stops := true }
    | '\\', _ =>
      match escape? false rest with
      | some (byte, used) => fillFormat fuel (rest.drop used) { f with bytes := f.bytes ++ [byte] }
      | none => fillFormat fuel rest (f.print "\\")
    | _, _ => fillFormat fuel rest (f.print (String.singleton c))

/-- A format is used again as long as arguments are left. -/
def fillAgain (form : List Char) : Nat → Filling → Run Filling
  | 0, f => return f
  | fuel + 1, f => do
    let filled ← fillFormat (form.length + 1) form f
    if filled.stops || filled.args.isEmpty || filled.args.length = f.args.length then return filled
    else fillAgain form fuel filled

def printf (args : List String) : Run Unit := do
  let args := if args.head? == some "--" then args.tail else args
  match args with
  | [] => giveUp "usage: printf format [arg ...]"
  | form :: args =>
    let filled ← fillAgain form.toList (args.length + 1) { args }
    emit filled.bytes
    setStatus filled.status

end ClassAtlas.Shell

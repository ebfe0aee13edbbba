import ClassAtlas.Shell.Condition
import ClassAtlas.Shell.FileTools
import ClassAtlas.Shell.TextTools

/-!
All programs of the system, by their names.
-/

namespace ClassAtlas.Shell

def millis? (text : String) : Option Nat :=
  match text.splitOn "." with
  | [whole] => whole.toNat?.map (· * 1000)
  | [whole, fraction] => do
    let seconds ← if whole == "" then some 0 else whole.toNat?
    let part ← (String.ofList ((fraction.toList ++ ['0', '0', '0']).take 3)).toNat?
    return seconds * 1000 + part
  | _ => none

/-- A time with a unit behind it, or in seconds. -/
def interval? (text : String) : Option Nat :=
  let chars := text.toList
  let units := [('s', 1), ('m', 60), ('h', 3600), ('d', 86400)]
  match chars.getLast?.bind fun c => units.lookup c with
  | some factor => (millis? (String.ofList chars.dropLast)).map (· * factor)
  | none => if text == "infinity" then some 4294967296000 else millis? text

def sleep : Tool where
  name := "sleep"
  run g :=
    match g.operands.find? fun text => (interval? text).isNone with
    | some text => misuse s!"invalid time interval '{text}'" 1
    | none => do
      if g.operands.isEmpty then misuse "missing operand" 1
      for text in g.operands do pause ((interval? text).getD 0)

def seq : Tool where
  name := "seq"
  flags := none
  run g :=
    match g.operands.find? fun text => text.toInt?.isNone with
    | some text =>
      match text.toList with
      | '-' :: c :: _ => misuse s!"invalid option -- '{c}'" 1
      | _ => misuse s!"invalid floating point argument: '{text}'" 1
    | none =>
      match g.operands.filterMap String.toInt? with
      | [last] => emit (series 1 1 last)
      | [first, last] => emit (series first 1 last)
      | [first, step, last] => emit (series first step last)
      | _ => misuse "missing operand" 1
where
  series (first step last : Int) : List UInt8 :=
    let count := if step = 0 then 0 else (Int.tdiv (last - first) step + 1).toNat
    (List.range count).flatMap fun (i : Nat) =>
      bytesOf (toString (first + step * Int.ofNat i) ++ "\n")

def yes : Tool where
  name := "yes"
  run g := do
    let line := (if g.operands.isEmpty then "y" else " ".intercalate g.operands) ++ "\n"
    match ← channel? 1 with
    | some .stdout =>
      emit (List.replicate (endlessBytes / line.utf8ByteSize) (bytesOf line)).flatten
    | _ => throw .timeout

def basename : Tool where
  name := "basename"
  flags := some "az"
  valued := "s"
  run g :=
    match g.operands with
    | [] => misuse "missing operand" 1
    | path :: rest =>
      let names := (path.splitOn "/").filter (· != "")
      let name := names.getLast?.getD (if path == "" then "" else "/")
      let suffix := (rest.head? <|> g.value? 's').getD ""
      let cut := if name.endsWith suffix && name != suffix then
          String.ofList (name.toList.take (name.length - suffix.length))
        else name
      emit (bytesOf (cut ++ "\n"))

def dirname : Tool where
  name := "dirname"
  flags := some "z"
  run g := do
    if g.operands.isEmpty then misuse "missing operand" 1
    for path in g.operands do
      let names := (path.splitOn "/").filter (· != "")
      let lead := if path.startsWith "/" then "/" else ""
      let inner := "/".intercalate names.dropLast
      emit (bytesOf ((if lead ++ inner == "" then "." else lead ++ inner) ++ "\n"))

def saying (name flags : String) (line : Machine → String) : Tool where
  name := name
  flags := some flags
  run _ := do emit (bytesOf (line (← get) ++ "\n"))

def idle (name : String) (code : Nat) : Tool where
  name := name
  flags := none
  run _ := setStatus code

def condition (name : String) : Tool where
  name := name
  flags := none
  run g := do
    match Condition.evaluate (← get).world g.operands with
    | .ok holds => setStatus (if holds then 0 else 1)
    | .error _ =>
      let other := g.operands.getD 1 ""
      fail s!"extra argument '{other}'" 2

/-- A program of which only is known which options it does not have. -/
def silent (refusal : Nat) (name : String) : Tool where
  name := name
  refusal := refusal
  run _ := pure ()

def silentTools : List Tool :=
  (["cksum", "cut", "date", "dd", "md5sum", "od", "stat", "sync", "truncate", "xargs"].map
      (silent 1))
    ++ ["env", "nice", "nohup", "timeout"].map (silent 125)

def tools : List Tool :=
  [cat, copying "cp" "abdfHilnLPRrsTuvxZp" false, copying "mv" "bfinTuvZ" true, rm, touch, sleep,
    head, tail, tr, wc, seq, yes, mkdir, rmdir, ls, sort, uniq, tac, basename, dirname, grep, sed,
    tee, ln, chmod, idle "true" 0, idle "false" 1, condition "test",
    { name := "echo", flags := none, run := fun g => echo g.operands },
    { name := "printf", flags := none, run := fun g => printf g.operands },
    saying "pwd" "LP" (·.world.currentDirectory), saying "uname" "asnrvmpio" fun _ => "Linux",
    saying "id" "aZgGnruz" fun _ => "0"] ++ silentTools

def tool? (name : String) : Option Tool :=
  tools.find? (·.name == name)

end ClassAtlas.Shell

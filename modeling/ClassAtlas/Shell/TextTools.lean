import ClassAtlas.Shell.Lines
import ClassAtlas.Shell.Printing
import ClassAtlas.Shell.Tool

/-!
Programs that print parts of texts, or change and count them.
-/

namespace ClassAtlas.Shell

def cat : Tool where
  name := "cat"
  flags := some "AbeEnstTuv"
  run g :=
    eachContent g (fun path e => fail (path ++ ": " ++ e.description) 1) fun _ bytes => do
      if g.has 'n' then
        let numbered := (linesOf bytes).zipIdx.map fun (line, i) =>
          bytesOf (({ flags := [], width := 6, precision := none, kind := 'd' : Directive }).text
            (toString (i + 1)) ++ "\t") ++ line
        emit (withEnds numbered)
      else emit bytes

def sliced (name flags : String) (lines bytes : String → List UInt8 → List UInt8) : Tool where
  name := name
  flags := some flags
  valued := "cns"
  run g := do
    let count := (g.value? 'c' <|> g.value? 'n').getD "10"
    let number := String.ofList (count.toList.dropWhile fun c => c == '+' || c == '-')
    let kind := if (g.value? 'c').isSome then "bytes" else "lines"
    if number.toNat?.isNone then fail s!"invalid number of {kind}: '{count}'" 1
    else
      let missing (path : String) (e : OsError) :=
        if e == .isADirectory then fail (s!"error reading '{path}': " ++ e.description) 1
        else fail (s!"cannot open '{path}' for reading: " ++ e.description) 1
      eachContent g missing fun path content => do
        if g.operands.length > 1 then emit (bytesOf ("==> " ++ path.getD "" ++ " <==\n"))
        emit ((if (g.value? 'c').isSome then bytes else lines) count content)

def numberOf (count : String) : Nat :=
  (String.ofList (count.toList.dropWhile fun c => c == '+' || c == '-')).toNat?.getD 0

def head : Tool :=
  sliced "head" "qvz"
    (fun count content =>
      let n := numberOf count
      firstLines (if count.startsWith "-" then (linesOf content).length - n else n) content)
    (fun count content =>
      let n := numberOf count
      content.take (if count.startsWith "-" then content.length - n else n))

def tail : Tool :=
  sliced "tail" "fFqvz"
    (fun count content =>
      let n := numberOf count
      behindLines (if count.startsWith "+" then n - 1 else (linesOf content).length - n) content)
    (fun count content =>
      let n := numberOf count
      content.drop (if count.startsWith "+" then n - 1 else content.length - n))

def tr : Tool where
  name := "tr"
  flags := some "cCdst"
  run g :=
    let bytes := fun (text : String) => byteSet (unescape text.toList).1
    match g.operands with
    | [] => misuse "missing operand" 1
    | [source] => do
      if g.has 'd' then
        let drops := bytes source
        emit ((← takeInput).filter fun b => drops.contains b == (g.has 'c' || g.has 'C'))
      else
        misuse s!"missing operand after '{source}'" 1
    | [source, target] => do emit (mapBytes (bytes source) (bytes target) (← takeInput))
    | _ :: _ :: other :: _ => misuse s!"extra operand '{other}'" 1

def counts (g : Given) (bytes : List UInt8) : List Nat :=
  let all := !(g.has 'l' || g.has 'w' || g.has 'c' || g.has 'm')
  (if all || g.has 'l' then [lineEnds bytes] else [])
    ++ (if all || g.has 'w' then [wordCount false bytes] else [])
    ++ (if all || g.has 'c' || g.has 'm' then [bytes.length] else [])

def countLine (width : Nat) (numbers : List Nat) (name : Option String) : List UInt8 :=
  let form : Directive := { flags := [], width, precision := none, kind := 'd' }
  let behind := match name with
    | some name => " " ++ name
    | none => ""
  bytesOf (" ".intercalate (numbers.map fun n => form.text (toString n)) ++ behind ++ "\n")

/-- How wide counts are printed: as wide as the size of all files. -/
def countWidth (w : World) (g : Given) : Nat :=
  let sizes := g.operands.map fun path => ((w.readFile path).toOption.getD []).length
  if (counts g []).length = 1 && g.operands.length ≤ 1 then 1
  else if g.operands.isEmpty then 7
  else (toString (sizes.foldl (· + ·) 0)).length

def wc : Tool where
  name := "wc"
  flags := some "clLmw"
  run g := do
    let width := countWidth (← get).world g
    eachContent g (fun path e => fail (path ++ ": " ++ e.description) 1) fun path bytes =>
      emit (countLine width (counts g bytes) path)
    if g.operands.length > 1 then
      let w := (← get).world
      let all := g.operands.filterMap fun path => ((w.readFile path).toOption.map (counts g))
      let zeros := (counts g []).map fun _ => 0
      let totals := all.foldl (fun sums numbers => sums.zipWith (· + ·) numbers) zeros
      emit (countLine width totals (some "total"))

def lineNumber (line : List UInt8) : Int :=
  let body := line.dropWhile (· == 32)
  let digits := fun (bytes : List UInt8) =>
    (bytes.takeWhile fun b => 48 ≤ b && b ≤ 57).foldl (fun n b => n * 10 + (b.toNat - 48)) 0
  match body with
  | 45 :: rest => -Int.ofNat (digits rest)
  | _ => Int.ofNat (digits body)

def sort : Tool where
  name := "sort"
  flags := some "bCcdfghimMnrRsuVz"
  valued := "koStT"
  refusal := 2
  run g := do
    let mut lines : List (List UInt8) := []
    let mut failed := false
    for path in (if g.operands.isEmpty then ["-"] else g.operands) do
      if path == "-" then lines := lines ++ linesOf (← takeInput)
      else
        match (← get).world.readFile path with
        | .ok bytes => lines := lines ++ linesOf bytes
        | .error e =>
          fail (s!"cannot read: {path}: " ++ e.description) 2
          failed := true
    if !failed then
      let atMost := fun (a b : List UInt8) =>
        if g.has 'n' && lineNumber a != lineNumber b then decide (lineNumber a < lineNumber b)
        else lineAtMost a b
      let ordered := lines.mergeSort atMost
      let ordered := if g.has 'r' then ordered.reverse else ordered
      let bytes := withEnds (if g.has 'u' then dropRepeated ordered else ordered)
      match g.value? 'o' with
      | none => emit bytes
      | some path =>
        let m ← get
        match m.world.writeFile path bytes with
        | .ok world => set { m with world }
        | .error e => fail (s!"open failed: {path}: " ++ e.description) 2

def uniq : Tool where
  name := "uniq"
  flags := some "cdDiuz"
  valued := "fsw"
  run g :=
    eachContent { g with operands := g.operands.take 1 }
      (fun path e => fail (path ++ ": " ++ e.description) 1)
      fun _ bytes => emit (withEnds (dropRepeated (linesOf bytes)))

def tac : Tool where
  name := "tac"
  flags := some "br"
  valued := "s"
  run g :=
    eachContent g
      (fun path e => fail (s!"failed to open '{path}' for reading: " ++ e.description) 1)
      fun _ bytes => emit (withEnds (linesOf bytes).reverse)

def grepUsage : String :=
  "Usage: grep [OPTION]... PATTERNS [FILE]..."

def grep : Tool where
  name := "grep"
  usage := "\n" ++ grepUsage
  flags := some "EFGPaHhLlUVbcinoqrRsTuvwxyzZ"
  valued := "ABCDdefm"
  refusal := 2
  run g := do
    let (expression?, operands) := match g.value? 'e' with
      | some text => (some text, g.operands)
      | none => (g.operands.head?, g.operands.tail)
    match expression? with
    | none =>
      sayError (grepUsage ++ "\nTry 'grep --help' for more information.")
      setStatus 2
    | some expression =>
      let fold := fun (bytes : List UInt8) => if g.has 'i' then bytes.map lowerByte else bytes
      let wanted := fold (bytesOf expression)
      let found := fun (line : List UInt8) =>
        let found := if g.has 'x' then fold line == wanted
          else findsIn (g.has 'F') wanted (fold line)
        found != g.has 'v'
      setStatus 1
      let missing := fun (path : String) (e : OsError) => do
        if g.has 's' then setStatus 2 else fail (path ++ ": " ++ e.description) 2
      eachContent { g with operands } missing fun path bytes => do
        let lines := (linesOf bytes).zipIdx.filter fun (line, _) => found line
        if !lines.isEmpty && (← get).status = 1 then setStatus 0
        let named := operands.length > 1 && !g.has 'h' || g.has 'H'
        let lead := if named then bytesOf (path.getD "(standard input)" ++ ":") else []
        if g.has 'q' then pure ()
        else if g.has 'l' then
          if !lines.isEmpty then emit (bytesOf (path.getD "(standard input)" ++ "\n"))
        else if g.has 'c' then emit (lead ++ bytesOf s!"{lines.length}\n")
        else
          for (line, i) in lines do
            emit (lead ++ (if g.has 'n' then bytesOf s!"{i + 1}:" else []) ++ line ++ [10])

/-- A replacement that a text asks for: it starts with a letter and the sign that separates its
parts. -/
structure Replacement where
  parts : List SearchPart
  new : List UInt8
  all : Bool

def Replacement.read? (text : String) : Option Replacement :=
  match bytesOf text with
  | 115 :: sign :: rest =>
    let old := rest.takeWhile (· != sign)
    let behind := rest.drop (old.length + 1)
    let new := behind.takeWhile (· != sign)
    let options := behind.drop new.length
    if options.head? == some sign && options.tail.all (· == 103) then
      some { parts := searchParts false true old, new, all := !options.tail.isEmpty }
    else none
  | _ => none

def Replacement.apply (r : Replacement) (line : List UInt8) : List UInt8 :=
  replaceIn r.parts r.new r.all (line.length + 1) true line

def sed : Tool where
  name := "sed"
  flags := some "bEnrsuz"
  valued := "efil"
  run g := do
    let (text?, operands) := match g.value? 'e' with
      | some text => (some text, g.operands)
      | none => (g.operands.head?, g.operands.tail)
    match text?.bind Replacement.read? with
    | none => fail "-e expression #1, char 1: unknown command" 1
    | some replacement =>
      eachContent { g with operands }
        (fun path e => fail (s!"can't read {path}: " ++ e.description) 2)
        fun _ bytes => do
          let lines := (linesOf bytes).map replacement.apply
          let changed := withEnds lines
          emit (if bytes.getLast? == some 10 then changed else changed.dropLast)

end ClassAtlas.Shell

import ClassAtlas.Shell.Token

/-!
Scripts for the command interpreter. A script is read one complete command after the other, so
that all commands before a place that makes no sense can be run.
-/

namespace ClassAtlas.Shell

inductive Redirect where
  | toFile (stream : Nat) (append : Bool) (target : Word)
  | toStream (stream : Nat) (target : Word)
  | fromFile (stream : Nat) (target : Word)
  | fromText (stream : Nat) (body : Word)
  deriving Repr, DecidableEq

inductive Command where
  | simple (line : Nat) (words : List Word) (redirects : List Redirect)
  | pipeline (negated : Bool) (parts : List Command)
  | sequence (first second : Command)
  | both (first second : Command)
  | either (first second : Command)
  | conditional (condition body otherwise : Command)
  /-- Runs the body as long as the condition has the wanted outcome. -/
  | loop (wanted : Bool) (condition body : Command)
  | each (line : Nat) (name : String) (words : List Word) (body : Command)
  /-- Runs the body of the first branch that has a pattern for the subject. -/
  | choice (line : Nat) (subject : Word) (branches : List (List Word × Command))
  | redirected (line : Nat) (body : Command) (redirects : List Redirect)
  | subshell (body : Command)
  | background (body : Command)
  | define (name : String) (body : Command)
  | nothing
  deriving Repr

structure SyntaxFault where
  line : Nat
  text : String
  deriving Repr, DecidableEq

abbrev Parser := StateT (List Token) (Except SyntaxFault)

namespace Parser

def reservedWords : List String :=
  ["!", "case", "do", "done", "elif", "else", "esac", "fi", "for", "if", "in", "then", "until",
    "while", "\x7b", "\x7d"]

def next : Parser Token := do
  return (← get).headD (.finish 0)

def skip : Parser Unit :=
  modify fun found =>
    match found with
    | .finish line :: _ => [.finish line]
    | found => found.drop 1

def quote (text : String) : String :=
  "\"" ++ text ++ "\""

def describe (keyword : Bool) : Token → String
  | .word word _ =>
    match plainText? word with
    | some text => if keyword && reservedWords.contains text then quote text else "word"
    | none => "word"
  | .operator "\n" _ => "newline"
  | .operator text _ => quote text
  | .redirect _ _ _ | .document _ _ _ => "redirection"
  | .fault fault _ => fault.message
  | .finish _ => "end of file"

/-- Refuses the next token, in a place where `wanted` was to stand and where reserved words count
or not. -/
def refuse {α : Type} (keyword : Bool) (wanted : Option String) : Parser α := do
  let token ← next
  match token with
  | .fault fault line => throw { line, text := fault.message }
  | _ =>
    let reason := match wanted with
      | some text => s!" (expecting {quote text})"
      | none => ""
    throw { line := token.line, text := describe keyword token ++ " unexpected" ++ reason }

def unexpected {α : Type} (wanted : Option String) : Parser α :=
  refuse true wanted

/-- The text of the next token if it is an operator or a word without quotes. -/
def text? : Parser (Option String) := do
  match ← next with
  | .word word _ => return plainText? word
  | .operator op _ => return some op
  | _ => return none

def accept (text : String) : Parser Bool := do
  if (← text?) == some text then
    skip
    return true
  else return false

def expect (text : String) : Parser Unit := do
  if !(← accept text) then unexpected (some text)

def isNewline : Token → Bool
  | .operator "\n" _ => true
  | _ => false

def skipNewlines : Parser Unit :=
  modify (·.dropWhile isNewline)

def target : Parser Word := do
  match ← next with
  | .word word _ => skip; return word
  | _ => refuse false none

def redirect? : Parser (Option Redirect) := do
  match ← next with
  | .redirect stream op _ =>
    skip
    let word ← target
    match op with
    | ">&" => return some (.toStream (stream.getD 1) word)
    | "<&" => return some (.toStream (stream.getD 0) word)
    | "<" => return some (.fromFile (stream.getD 0) word)
    | "<>" => return some (.fromFile (stream.getD 0) word)
    | _ => return some (.toFile (stream.getD 1) (op == ">>") word)
  | .document stream body _ =>
    skip
    return some (.fromText (stream.getD 0) body)
  | _ => return none

def items : Nat → Parser (List Word × List Redirect)
  | 0 => return ([], [])
  | fuel + 1 => do
    match ← redirect? with
    | some redirect =>
      let (words, redirects) ← items fuel
      return (words, redirect :: redirects)
    | none =>
      match ← next with
      | .word word _ =>
        skip
        let (words, redirects) ← items fuel
        return (word :: words, redirects)
      | _ => return ([], [])

def redirects : Nat → Parser (List Redirect)
  | 0 => return []
  | fuel + 1 => do
    match ← redirect? with
    | some redirect => return redirect :: (← redirects fuel)
    | none => return []

/-- Words and operators that end a list of commands. -/
def closers : List String :=
  ["then", "else", "elif", "fi", "do", "done", "esac", "\x7d", ")", ";;"]

def wordsUntilEnd : Nat → Parser (List Word)
  | 0 => return []
  | fuel + 1 => do
    match ← next with
    | .word word _ =>
      skip
      return word :: (← wordsUntilEnd fuel)
    | _ => return []

def patterns : Nat → Parser (List Word)
  | 0 => unexpected (some ")")
  | fuel + 1 => do
    match ← next with
    | .word word _ =>
      skip
      if ← accept "|" then return word :: (← patterns fuel)
      if ← accept ")" then return [word]
      unexpected (some ")")
    | _ => unexpected (some ")")

def defined? : Parser (Option String) := do
  match ← get with
  | .word word _ :: .operator "(" _ :: rest =>
    match plainText? word with
    | none => return none
    | some name =>
      set rest
      expect ")"
      if isName name then return some name
      throw { line := (← next).line, text := "Bad function name" }
  | _ => return none

def endsScript : Token → Bool
  | .finish _ => true
  | _ => false

def followedBy (before : Option Command) (command : Command) : Command :=
  match before with
  | some first => .sequence first command
  | none => command

mutual

/-- Commands up to a word that closes them, at least one unless they may be missing. -/
def list (optional : Bool) : Nat → Option Command → Parser Command
  | 0, _ => unexpected none
  | fuel + 1, before => do
    skipNewlines
    let closing := (← text?).any closers.contains && (optional || before.isSome)
    if endsScript (← next) || closing then return before.getD .nothing
    let command ← andOr fuel
    let separated := (← text?).any [";", "&", "\n"].contains
    let command := if (← text?) == some "&" then .background command else command
    if separated then
      skip
      list optional fuel (some (followedBy before command))
    else return followedBy before command

def andOr : Nat → Parser Command
  | 0 => unexpected none
  | fuel + 1 => do andOrFrom fuel (← pipeline fuel)

def andOrFrom : Nat → Command → Parser Command
  | 0, _ => unexpected none
  | fuel + 1, first => do
    if ← accept "&&" then
      skipNewlines
      let second ← pipeline fuel
      andOrFrom fuel (.both first second)
    else if ← accept "||" then
      skipNewlines
      let second ← pipeline fuel
      andOrFrom fuel (.either first second)
    else return first

def pipeline : Nat → Parser Command
  | 0 => unexpected none
  | fuel + 1 => do
    let negated ← accept "!"
    let first ← command fuel
    let rest ← pipelineRest fuel
    if rest.isEmpty && !negated then return first else return .pipeline negated (first :: rest)

def pipelineRest : Nat → Parser (List Command)
  | 0 => unexpected none
  | fuel + 1 => do
    if ← accept "|" then
      skipNewlines
      let next ← command fuel
      return next :: (← pipelineRest fuel)
    else return []

def command : Nat → Parser Command
  | 0 => unexpected none
  | fuel + 1 => do
    let line := (← next).line
    match ← compound? fuel with
    | some body =>
      let targets ← redirects fuel
      if targets.isEmpty then return body else return .redirected line body targets
    | none =>
      if (← text?).any reservedWords.contains then unexpected none
      match ← defined? with
      | some name =>
        skipNewlines
        return .define name (← command fuel)
      | none =>
        let (words, targets) ← items fuel
        if words.isEmpty && targets.isEmpty then unexpected none
        return .simple line words targets

def compound? : Nat → Parser (Option Command)
  | 0 => unexpected none
  | fuel + 1 => do
    let line := (← next).line
    if ← accept "if" then return some (← conditional fuel)
    if ← accept "while" then return some (← loop fuel true)
    if ← accept "until" then return some (← loop fuel false)
    if ← accept "for" then return some (← each fuel line)
    if ← accept "case" then
      let subject ← match ← next with
        | .word word _ => skip; pure word
        | _ => unexpected (some "word")
      skipNewlines
      expect "in"
      return some (.choice line subject (← branches fuel))
    if ← accept "\x7b" then
      let body ← list false fuel none
      expect "\x7d"
      return some body
    if ← accept "(" then
      let body ← list false fuel none
      expect ")"
      return some (.subshell body)
    return none

def each : Nat → Nat → Parser Command
  | 0, _ => unexpected none
  | fuel + 1, line => do
    let name? := match ← next with
      | .word word _ => (plainText? word).filter isName
      | _ => none
    match name? with
    | none => throw { line := (← next).line, text := "Bad for loop variable" }
    | some name =>
      skip
      skipNewlines
      let words ←
        if ← accept "in" then
          let words ← wordsUntilEnd fuel
          if !((← accept ";") || (← accept "\n")) then unexpected none
          pure words
        else
          discard (accept ";")
          pure [[.parameter "@" true]]
      skipNewlines
      expect "do"
      let body ← list false fuel none
      expect "done"
      return .each line name words body

def branches : Nat → Parser (List (List Word × Command))
  | 0 => unexpected none
  | fuel + 1 => do
    skipNewlines
    if ← accept "esac" then return []
    discard (accept "(")
    let alternatives ← patterns fuel
    let body ← list true fuel none
    if ← accept "esac" then return [(alternatives, body)]
    expect ";;"
    return (alternatives, body) :: (← branches fuel)

def conditional : Nat → Parser Command
  | 0 => unexpected none
  | fuel + 1 => do
    let condition ← list false fuel none
    expect "then"
    let body ← list false fuel none
    if ← accept "elif" then return .conditional condition body (← conditional fuel)
    let otherwise ← if ← accept "else" then list false fuel none else pure .nothing
    expect "fi"
    return .conditional condition body otherwise

def loop : Nat → Bool → Parser Command
  | 0, _ => unexpected none
  | fuel + 1, wanted => do
    let condition ← list false fuel none
    expect "do"
    let body ← list false fuel none
    expect "done"
    return .loop wanted condition body

end

/-- A complete command, which ends with its line. -/
def complete (bound : Nat) : Nat → Option Command → Parser Command
  | 0, _ => unexpected none
  | fuel + 1, before => do
    let command ← andOr bound
    let command := if (← text?) == some "&" then .background command else command
    let soFar := followedBy before command
    if (← text?).any [";", "&"].contains then
      skip
      if isNewline (← next) || endsScript (← next) then
        skip
        return soFar
      complete bound fuel (some soFar)
    else if isNewline (← next) || endsScript (← next) then
      skip
      return soFar
    else unexpected none

end Parser

def readCommands (bound : Nat) : Nat → List Token → List Command × Option SyntaxFault
  | 0, _ => ([], none)
  | fuel + 1, found =>
    match found.dropWhile Parser.isNewline with
    | [] | [.finish _] => ([], none)
    | found =>
      match (Parser.complete bound bound none).run found with
      | .ok (command, rest) =>
        let (more, fault) := readCommands bound fuel rest
        (command :: more, fault)
      | .error fault => ([], some fault)

/-- The complete commands of a script, up to a place that makes no sense. -/
def readScript (firstLine : Nat) (source : String) : List Command × Option SyntaxFault :=
  let chars := source.toList
  let found := tokens (chars.length + 1) { line := firstLine } chars
  readCommands (8 * (found.length + 2)) (found.length + 1) found

end ClassAtlas.Shell

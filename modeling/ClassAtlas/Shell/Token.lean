import ClassAtlas.Shell.Word

/-!
The tokens of a script, each with its line. A document that a script carries for the input of a
command stands behind the line that announces it, and belongs to the token there.
-/

namespace ClassAtlas.Shell

inductive Token where
  | word (word : Word) (line : Nat)
  | operator (text : String) (line : Nat)
  | redirect (stream : Option Nat) (text : String) (line : Nat)
  | document (stream : Option Nat) (body : Word) (line : Nat)
  | fault (fault : ScanFault) (line : Nat)
  | finish (line : Nat)
  deriving Repr, DecidableEq

/-- The line that is reported for a token; a line end is reported on the next line. -/
def Token.line : Token → Nat
  | .word _ line | .redirect _ _ line | .document _ _ line | .fault _ line | .finish line => line
  | .operator text line => if text == "\n" then line + 1 else line

def operators : List String :=
  ["<<-", "&&", "||", ";;", ">>", ">&", ">|", "<<", "<&", "<>", ";", "&", "|", "(", ")", "<", ">",
    "\n"]

def redirections : List String := [">>", ">&", ">|", "<&", "<>", "<", ">"]

def endsWord (c : Char) : Bool :=
  [' ', '\t', '\n', ';', '&', '|', '(', ')', '<', '>'].contains c

/-- A number right before a redirection tells the stream. -/
def streamOf? (word : Word) (rest : List Char) : Option Nat := do
  let text ← plainText? word
  if text.toList.all Char.isDigit && (rest.head? == some '>' || rest.head? == some '<') then
    text.toNat?
  else none

structure Cursor where
  line : Nat := 1
  /-- How many lines of documents stand behind this line. -/
  documentLines : Nat := 0
  stream : Option Nat := none

def lineCount (chars : List Char) : Nat :=
  chars.count '\n'

def splitLines : List Char → List (List Char)
  | [] => [[]]
  | '\n' :: rest => [] :: splitLines rest
  | c :: rest =>
    match splitLines rest with
    | first :: more => (c :: first) :: more
    | [] => [[c]]

def joinLines : List (List Char) → List Char
  | [] => []
  | [last] => last
  | first :: rest => first ++ '\n' :: joinLines rest

def Piece.text : Piece → String
  | .literal text | .bare text | .parameter text _ | .arithmetic text _ | .output text _ => text

structure Taken where
  body : List Char
  rest : List Char
  lines : Nat

/-- Takes the document that ends in a line of its own out of the lines behind the current one. -/
def takeDocument (tabs : Bool) (delimiter : List Char) (chars : List Char) : Taken :=
  let line := chars.takeWhile (· != '\n')
  let behind := splitLines (chars.drop (line.length + 1))
  let strip (text : List Char) := if tabs then text.dropWhile (· == '\t') else text
  let body := behind.takeWhile fun text => strip text != delimiter
  let after := behind.drop (body.length + 1)
  let closed := body.length < behind.length
  let kept := if closed then body else body.filter (!·.isEmpty)
  { body := kept.flatMap fun text => strip text ++ ['\n']
    rest := if after.isEmpty then line else line ++ '\n' :: joinLines after
    lines := min (body.length + 1) (behind.length) }

def tokens : Nat → Cursor → List Char → List Token
  | 0, _, _ => []
  | _ + 1, cursor, [] => [.finish cursor.line]
  | fuel + 1, cursor, c :: rest =>
    let plain := { cursor with stream := none }
    if c == ' ' || c == '\t' then tokens fuel plain rest
    else if c == '#' then tokens fuel plain (rest.dropWhile (· != '\n'))
    else if c == '\\' && rest.head? == some '\n' then
      tokens fuel { plain with line := cursor.line + 1 } (rest.drop 1)
    else
      let line := cursor.line
      match operators.find? fun op => op.toList.isPrefixOf (c :: rest) with
      | some op =>
        let after := (c :: rest).drop op.length
        if op == "\n" then
          .operator op line :: tokens fuel { line := line + 1 + cursor.documentLines } after
        else if op == "<<" || op == "<<-" then
          let after := after.dropWhile fun c => c == ' ' || c == '\t'
          match (scanWord endsWord (after.length + 1)).run after with
          | .error fault => [.fault fault (line + lineCount after)]
          | .ok ([], after) => .redirect cursor.stream op line :: tokens fuel plain after
          | .ok (word, after) =>
            let delimiter := (String.join (word.map Piece.text)).toList
            let taken := takeDocument (op == "<<-") delimiter after
            let text := String.ofList taken.body
            let body := if (plainText? word).isSome then readQuoted text else .ok [.literal text]
            match body with
            | .error fault => [.fault fault (line + lineCount after)]
            | .ok body =>
              .document cursor.stream body line ::
                tokens fuel { plain with documentLines := cursor.documentLines + taken.lines }
                  taken.rest
        else if redirections.contains op then
          .redirect cursor.stream op line :: tokens fuel plain after
        else .operator op line :: tokens fuel plain after
      | none =>
        match (scanWord endsWord (rest.length + 2)).run (c :: rest) with
        | .error .brace => [.fault .brace line]
        | .error fault => [.fault fault (line + lineCount rest)]
        | .ok (word, after) =>
          match streamOf? word after with
          | some n => tokens fuel { cursor with stream := some n } after
          | none =>
            let used := (c :: rest).take (rest.length + 1 - after.length)
            let next := { plain with line := line + lineCount used }
            if word.isEmpty then tokens fuel next after
            else .word word (line + lineCount used) :: tokens fuel next after

end ClassAtlas.Shell

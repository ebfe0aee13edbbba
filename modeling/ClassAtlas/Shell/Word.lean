/-!
Words of a script: text, quoted or not, with places where something is put in when the script runs.
What is put in stays a source text until then.
-/

namespace ClassAtlas.Shell

inductive Piece where
  | literal (text : String)
  | bare (text : String)
  /-- The value of a parameter; the source may also tell what to do with it. -/
  | parameter (source : String) (quoted : Bool)
  | arithmetic (expression : String) (quoted : Bool)
  | output (source : String) (quoted : Bool)
  deriving Repr, DecidableEq

abbrev Word := List Piece

def Piece.bareText? : Piece → Option String
  | .bare text => some text
  | _ => none

/-- The text of a word that is not quoted and has nothing put in. -/
def plainText? (word : Word) : Option String :=
  (word.mapM Piece.bareText?).map String.join

def isNameStart (c : Char) : Bool :=
  c.isAlpha || c == '_'

def isNameChar (c : Char) : Bool :=
  c.isAlphanum || c == '_'

def isName (text : String) : Bool :=
  text.toList.head?.any isNameStart && text.toList.all isNameChar

inductive ScanFault where
  | quote
  | brace
  | bracket
  | backquote
  | arithmetic
  deriving Repr, DecidableEq

def ScanFault.message : ScanFault → String
  | .quote => "Unterminated quoted string"
  | .brace => "Missing '\x7d'"
  | .bracket => "end of file unexpected (expecting \")\")"
  | .backquote => "EOF in backquote substitution"
  | .arithmetic => "Missing '))'"

abbrev Scanner := StateT (List Char) (Except ScanFault)

abbrev Enclosed := Option (List Char × List Char)

def Enclosed.cons (c : Char) (found : Enclosed) : Enclosed :=
  found.map fun (inner, rest) => (c :: inner, rest)

/-- Text up to the bracket that closes it; brackets in quotes do not count. -/
def untilClosed : Nat → Option Char → List Char → Enclosed
  | _, _, [] => none
  | depth, quote, '\\' :: c :: rest =>
    if quote == some '\x27' then Enclosed.cons '\\' (untilClosed depth quote (c :: rest))
    else Enclosed.cons '\\' (Enclosed.cons c (untilClosed depth quote rest))
  | depth, some quote, c :: rest =>
    Enclosed.cons c (untilClosed depth (if c == quote then none else some quote) rest)
  | depth, none, c :: rest =>
    if c == '\x27' || c == '"' then Enclosed.cons c (untilClosed depth (some c) rest)
    else if c == '(' then Enclosed.cons c (untilClosed (depth + 1) none rest)
    else if c == ')' then
      match depth with
      | 0 => some ([], rest)
      | depth + 1 => Enclosed.cons c (untilClosed depth none rest)
    else Enclosed.cons c (untilClosed depth none rest)

def untilBrace : Nat → List Char → Enclosed
  | _, [] => none
  | depth, '\\' :: c :: rest => Enclosed.cons '\\' (Enclosed.cons c (untilBrace depth rest))
  | depth, '$' :: '\x7b' :: rest =>
    Enclosed.cons '$' (Enclosed.cons '\x7b' (untilBrace (depth + 1) rest))
  | 0, '\x7d' :: rest => some ([], rest)
  | depth + 1, '\x7d' :: rest => Enclosed.cons '\x7d' (untilBrace depth rest)
  | depth, c :: rest => Enclosed.cons c (untilBrace depth rest)

/-- Text up to a backquote. A backslash takes away the meaning of what follows it. -/
def untilBackquote (escapable : List Char) : List Char → Enclosed
  | [] => none
  | '\x60' :: rest => some ([], rest)
  | '\\' :: c :: rest =>
    if escapable.contains c then Enclosed.cons c (untilBackquote escapable rest)
    else Enclosed.cons '\\' (Enclosed.cons c (untilBackquote escapable rest))
  | c :: rest => Enclosed.cons c (untilBackquote escapable rest)

def enclosed (fault : ScanFault) (found : Enclosed) : Scanner String := do
  match found with
  | some (inner, rest) => set rest; return String.ofList inner
  | none => throw fault

def signParameters : List Char := ['#', '@', '*', '?', '$', '!', '-']

def dollar (quoted : Bool) : Scanner Piece := do
  match ← get with
  | '(' :: '(' :: rest =>
    match untilClosed 0 none rest with
    | some (inner, ')' :: rest) => set rest; return .arithmetic (String.ofList inner) quoted
    | some _ => return .output (← enclosed .arithmetic (untilClosed 0 none ('(' :: rest))) quoted
    | none => throw .arithmetic
  | '(' :: rest => return .output (← enclosed .bracket (untilClosed 0 none rest)) quoted
  | '\x7b' :: rest => return .parameter (← enclosed .brace (untilBrace 0 rest)) quoted
  | c :: rest =>
    if isNameStart c then
      set (rest.dropWhile isNameChar)
      return .parameter (String.ofList (c :: rest.takeWhile isNameChar)) quoted
    else if c.isDigit || signParameters.contains c then
      set rest
      return .parameter (String.singleton c) quoted
    else return .literal "$"
  | [] => return .literal "$"

def backquoted (quoted : Bool) : Scanner Piece := do
  let escapable := ['$', '\\', '\x60'] ++ if quoted then ['"'] else []
  return .output (← enclosed .backquote (untilBackquote escapable (← get))) quoted

/-- Text in which only what is put in keeps its meaning. It goes up to a closing quote, or else to
the end, and then a quote is text too. -/
def quotedText (closing : Bool) : Nat → Scanner Word
  | 0 => return []
  | fuel + 1 => do
    match ← get with
    | [] => if closing then throw .quote else return []
    | c :: rest =>
      set rest
      if closing && c == '"' then return []
      let piece ←
        if c == '$' then dollar true
        else if c == '\x60' then backquoted true
        else
          match c, rest with
          | '\\', d :: after =>
            if ['$', '\\', '\x60'].contains d || (closing && d == '"') then
              set after
              pure (.literal (String.singleton d))
            else if d == '\n' then
              set after
              pure (.literal "")
            else pure (.literal "\\")
          | _, _ => pure (.literal (String.singleton c))
      return piece :: (← quotedText closing fuel)

def readQuoted (text : String) : Except ScanFault Word := do
  let chars := text.toList
  return (← (quotedText false (chars.length + 1)).run chars).1

def singleQuoted : Scanner Piece := do
  let chars ← get
  match chars.dropWhile (· != '\x27') with
  | _ :: rest => set rest; return .literal (String.ofList (chars.takeWhile (· != '\x27')))
  | [] => throw .quote

/-- Whether a word stands for all arguments, so that it may vanish. -/
def hasAllArguments (word : Word) : Bool :=
  word.any fun piece => piece == .parameter "@" true

def scanWord (ends : Char → Bool) : Nat → Scanner Word
  | 0 => return []
  | fuel + 1 => do
    match ← get with
    | [] => return []
    | c :: rest =>
      if ends c then return []
      set rest
      let pieces ←
        if c == '\x27' then pure [← singleQuoted]
        else if c == '"' then
          let inner ← quotedText true (rest.length + 1)
          pure (if hasAllArguments inner then inner else .literal "" :: inner)
        else if c == '\x60' then pure [← backquoted false]
        else if c == '$' then pure [← dollar false]
        else if c == '\\' then
          match rest with
          | '\n' :: after => set after; pure []
          | d :: after => set after; pure [.literal (String.singleton d)]
          | [] => pure [.literal "\\"]
        else pure [.bare (String.singleton c)]
      return pieces ++ (← scanWord ends fuel)

def readWhole (text : String) : Except ScanFault Word := do
  let chars := text.toList
  return (← (scanWord (fun _ => false) (chars.length + 1)).run chars).1

end ClassAtlas.Shell

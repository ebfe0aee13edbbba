import ClassAtlas.Shell.Arithmetic
import ClassAtlas.Shell.Machine
import ClassAtlas.Shell.Pattern

/-!
What a word stands for when a script runs: values are put in, those without quotes are split into
fields, and a field with a pattern in it becomes the names of the files that it stands for.
-/

namespace ClassAtlas.Shell

/-- What is done to the value of a parameter. Where `filled` is set, an empty value counts as
none. -/
inductive Change where
  | nothing
  | length
  | orElse (filled : Bool) (text : String)
  | orAssign (filled : Bool) (text : String)
  | orGiveUp (filled : Bool) (text : String)
  | replace (filled : Bool) (text : String)
  | cutStart (longest : Bool) (pattern : String)
  | cutEnd (longest : Bool) (pattern : String)
  deriving Repr, DecidableEq

structure Reference where
  name : String
  change : Change
  deriving Repr, DecidableEq

def referenceName (chars : List Char) : List Char :=
  match chars with
  | c :: _ =>
    if isNameStart c then chars.takeWhile isNameChar
    else if c.isDigit then chars.takeWhile Char.isDigit
    else if signParameters.contains c then [c]
    else []
  | [] => []

def Change.read? (chars : List Char) : Option Change :=
  match chars with
  | [] => some .nothing
  | ':' :: '-' :: text => some (.orElse true (String.ofList text))
  | '-' :: text => some (.orElse false (String.ofList text))
  | ':' :: '=' :: text => some (.orAssign true (String.ofList text))
  | '=' :: text => some (.orAssign false (String.ofList text))
  | ':' :: '?' :: text => some (.orGiveUp true (String.ofList text))
  | '?' :: text => some (.orGiveUp false (String.ofList text))
  | ':' :: '+' :: text => some (.replace true (String.ofList text))
  | '+' :: text => some (.replace false (String.ofList text))
  | '#' :: '#' :: text => some (.cutStart true (String.ofList text))
  | '#' :: text => some (.cutStart false (String.ofList text))
  | '%' :: '%' :: text => some (.cutEnd true (String.ofList text))
  | '%' :: text => some (.cutEnd false (String.ofList text))
  | _ => none

def Reference.read? (source : String) : Option Reference :=
  let chars := source.toList
  match chars with
  | '#' :: c :: rest =>
    let name := referenceName (c :: rest)
    if !name.isEmpty && name.length = rest.length + 1 then
      some { name := String.ofList name, change := .length }
    else (Change.read? (c :: rest)).map fun change => { name := "#", change }
  | _ =>
    let name := referenceName chars
    if name.isEmpty then none
    else
      (Change.read? (chars.drop name.length)).map fun change =>
        { name := String.ofList name, change }

def Options.letters (o : Options) : String :=
  (if o.endOnFailure then "e" else "") ++ (if o.refuseUnset then "u" else "")
    ++ (if o.trace then "x" else "")

def separators : Run (List Char) := do
  return ((← get).bindings.lookup "IFS").elim [' ', '\t', '\n'] String.toList

def value? (name : String) : Run (Option String) := do
  let m ← get
  match name with
  | "#" => return some (toString m.arguments.length)
  | "?" => return some (toString m.status)
  | "$" => return some (toString processId)
  | "!" => return m.jobs.head?.map fun job => toString job.id
  | "-" => return some m.options.letters
  | "0" => return some m.name
  | "@" => return if m.arguments.isEmpty then none else some (" ".intercalate m.arguments)
  | "*" =>
    let between := (← separators).head?.elim "" String.singleton
    return if m.arguments.isEmpty then none else some (between.intercalate m.arguments)
  | _ =>
    match name.toNat? with
    | some n => return m.arguments[n - 1]?
    | none => return m.bindings.lookup name

/-- The fields of a word while it is put together: those that are complete, and the open one, all
with what was added last in front. -/
structure Fields where
  complete : List (List Glyph) := []
  current : Option (List Glyph) := none

namespace Fields

def join (f : Fields) (quoted : Bool) (text : String) : Fields :=
  { f with current := some ((Glyph.ofText quoted text).reverse ++ f.current.getD []) }

def add (f : Fields) (g : Glyph) : Fields :=
  { f with current := some (g :: f.current.getD []) }

def close (f : Fields) : Fields :=
  { complete := f.current.toList ++ f.complete, current := none }

def finish (f : Fields) : Fields :=
  { complete := f.current.getD [] :: f.complete, current := none }

/-- Adds a text that is split at separators. Of those that are no blanks each ends a field. -/
def split (between : List Char) (f : Fields) : List Char → Fields
  | [] => f
  | c :: rest =>
    if !between.contains c then split between (f.add { char := c, quoted := false }) rest
    else if Arithmetic.isBlank c then split between f.close rest
    else split between f.finish rest

def toList (f : Fields) : List (List Glyph) :=
  (f.close.complete.map List.reverse).reverse

def joinEach (f : Fields) (add : Fields → String → Fields) : List String → Fields
  | [] => f
  | [last] => add f last
  | text :: rest => joinEach (add f text).close add rest

end Fields

/-- How words are expanded: how the output of a script is found, and what separates fields. -/
structure Expander where
  output : String → Run String
  between : List Char

def Expander.add (x : Expander) (quoted : Bool) (f : Fields) (text : String) : Fields :=
  if quoted then f.join true text else f.split x.between text.toList

def evaluate (text : String) : Run String := do
  let m ← get
  match Arithmetic.evaluate (fun name => m.bindings.lookup name) text with
  | .error fault => giveUp (fault.message text)
  | .ok (value, assigned) =>
    for (name, n) in assigned.reverse do setVariable name (toString n.toInt)
    return toString value.toInt

def readWithin (quoted : Bool) (text : String) : Run Word :=
  match if quoted then readQuoted text else readWhole text with
  | .ok word => return word
  | .error _ => giveUp "Bad substitution"

def glyphsText (fields : List (List Glyph)) : String :=
  " ".intercalate (fields.map Glyph.text)

/-- Whether a parameter without a value may be asked for in spite of the option against it. -/
def alwaysAllowed (name : String) : Bool :=
  ["@", "*", "!"].contains name

mutual

def expandPiece (x : Expander) : Nat → Fields → Piece → Run Fields
  | 0, _, _ => throw .timeout
  | fuel + 1, f, piece => do
    match piece with
    | .literal text => return f.join true text
    | .bare text => return f.join false text
    | .arithmetic source quoted =>
      let inner ← expandWithin { x with between := [] } fuel true {} source
      return x.add quoted f (← evaluate (glyphsText inner.toList))
    | .output source quoted => return x.add quoted f (← x.output source)
    | .parameter source quoted =>
      match Reference.read? source with
      | none => giveUp "Bad substitution"
      | some reference => expandReference x fuel f reference quoted

def expandReference (x : Expander) : Nat → Fields → Reference → Bool → Run Fields
  | 0, _, _, _ => throw .timeout
  | fuel + 1, f, reference, quoted => do
    let name := reference.name
    let found ← value? name
    let given (filled : Bool) := found.filter fun value => !(filled && value == "")
    let text := found.getD ""
    match reference.change with
    | .nothing =>
      if found.isNone && (← get).options.refuseUnset && !alwaysAllowed name then
        giveUp s!"{name}: parameter not set"
      if name == "@" || (name == "*" && !quoted) then
        return f.joinEach (x.add quoted) (← get).arguments
      return if found.isSome then x.add quoted f text else f
    | .length => return f.join quoted (toString text.utf8ByteSize)
    | .orElse filled other =>
      if (given filled).isSome then return x.add quoted f text
      expandWithin x fuel quoted f other
    | .orAssign filled other =>
      if (given filled).isSome then return x.add quoted f text
      let new ← expandWithin { x with between := [] } fuel quoted {} other
      setVariable name (glyphsText new.toList)
      return x.add quoted f (glyphsText new.toList)
    | .orGiveUp filled other =>
      if (given filled).isSome then return x.add quoted f text
      let said ← expandWithin { x with between := [] } fuel quoted {} other
      let reason := glyphsText said.toList
      let usual := "parameter not set" ++ if filled then " or null" else ""
      giveUp (name ++ ": " ++ if reason == "" then usual else reason)
    | .replace filled other =>
      if (given filled).isSome then expandWithin x fuel quoted f other else return f
    | .cutStart longest source =>
      let pattern ← expandWithin { x with between := [] } fuel false {} source
      let left := (Pattern.ofGlyphs pattern.toList.flatten).cutStart longest text.toList
      return x.add quoted f (String.ofList left)
    | .cutEnd longest source =>
      let pattern ← expandWithin { x with between := [] } fuel false {} source
      let left := (Pattern.ofGlyphs pattern.toList.flatten).cutEnd longest text.toList
      return x.add quoted f (String.ofList left)

def expandWithin (x : Expander) : Nat → Bool → Fields → String → Run Fields
  | 0, _, _, _ => throw .timeout
  | fuel + 1, quoted, f, text => do
    (← readWithin quoted text).foldlM
      (fun f piece =>
        match piece with
        | .bare text => return x.add quoted f text
        | _ => expandPiece x fuel f piece) f

end

/-- A tilde in front stands for the home directory. -/
def withHome (word : Word) : Run Word := do
  let home := ((← get).bindings.lookup "HOME").getD "~"
  match word with
  | [.bare "~"] => return [.literal home]
  | .bare "~" :: .bare "/" :: rest => return .literal home :: .bare "/" :: rest
  | _ => return word

def expandFields (x : Expander) (fuel : Nat) (word : Word) : Run (List (List Glyph)) := do
  return (← (← withHome word).foldlM (expandPiece x fuel) {}).toList

/-- The names in a directory that a pattern stands for. Hidden ones have to be asked for. -/
def namesMatching (w : World) (directory : String) (glyphs : List Glyph) : List String :=
  let pattern := Pattern.ofGlyphs glyphs
  let entries := match w.stat (if directory == "" then "." else directory) with
    | .ok (_, node) => node.entries
    | .error _ => []
  (entries.map (·.1)).filter fun name =>
    pattern.accepts name.toList
      && (!name.startsWith "." || glyphs.head?.any (·.char == '.'))

def splitAtSlash : List Glyph → List (List Glyph)
  | [] => [[]]
  | g :: rest =>
    match splitAtSlash rest with
    | first :: more => if g.char == '/' then [] :: first :: more else (g :: first) :: more
    | [] => [[g]]

def hasPattern (glyphs : List Glyph) : Bool :=
  (Pattern.ofGlyphs glyphs).any fun part => !part.isLiteral

def pathsMatching (w : World) (lead : String) : List (List Glyph) → List String
  | [] => []
  | [last] =>
    if hasPattern last then (namesMatching w lead last).map (lead ++ ·)
    else if w.pathExists (lead ++ Glyph.text last) then [lead ++ Glyph.text last] else []
  | part :: rest =>
    let names := if hasPattern part then namesMatching w lead part else [Glyph.text part]
    names.flatMap fun name => pathsMatching w (lead ++ name ++ "/") rest

/-- A field, or the files that it stands for if it is a pattern of any. -/
def filesOrText (w : World) (glyphs : List Glyph) : List String :=
  if !hasPattern glyphs then [Glyph.text glyphs]
  else
    match pathsMatching w "" (splitAtSlash glyphs) with
    | [] => [Glyph.text glyphs]
    | paths => paths

def expandWords (output : String → Run String) (fuel : Nat) (words : List Word) :
    Run (List String) := do
  let x := { output, between := ← separators : Expander }
  let fields ← words.mapM (expandFields x fuel)
  let w := (← get).world
  return fields.flatten.flatMap (filesOrText w)

/-- A word that stays one field, and of which no part is a pattern. -/
def expandWhole (output : String → Run String) (fuel : Nat) (word : Word) : Run String := do
  return glyphsText (← expandFields { output, between := [] } fuel word)

def expandPattern (output : String → Run String) (fuel : Nat) (word : Word) : Run Pattern := do
  return Pattern.ofGlyphs (← expandFields { output, between := [] } fuel word).flatten

def assignment? (word : Word) : Option (String × Word) :=
  let (name, rest) := word.span fun piece => piece.bareText?.any fun t => t.toList.all isNameChar
  match rest with
  | .bare "=" :: value => ((plainText? name).filter isName).map (·, value)
  | _ => none

end ClassAtlas.Shell

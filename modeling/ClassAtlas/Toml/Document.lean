import ClassAtlas.Toml.Scalar

/-!
TOML documents: a list of statements, and the table that they build up. A table may be opened once
by a header, and a dotted key may only go into tables that dotted keys have made.
-/

namespace ClassAtlas.Toml

inductive Origin where
  | header
  | implied
  | dotted
  deriving Repr, DecidableEq

inductive Item where
  | value (value : Value)
  | table (origin : Origin) (members : List (String × Item))
  /-- An array of tables; headers and keys go to the last. -/
  | tables (before : List (List (String × Item))) (last : List (String × Item))

abbrev Members := List (String × Item)

def Members.set (members : Members) (key : String) (item : Item) : Members :=
  match members with
  | [] => [(key, item)]
  | (k, old) :: rest =>
    if k == key then (k, item) :: rest else (k, old) :: Members.set rest key item

/-- Changes the table at a path of headers; tables on the way that are missing are implied. -/
def atPath (change : Members → Except Error Members) : List String → Members → Except Error Members
  | [], members => change members
  | key :: path, members => do
    match members.lookup key with
    | none => return members.set key (.table .implied (← atPath change path []))
    | some (.table origin inner) =>
      return members.set key (.table origin (← atPath change path inner))
    | some (.tables before last) =>
      return members.set key (.tables before (← atPath change path last))
    | some (.value _) => throw (.notATable key)

def openTable (key : String) (members : Members) : Except Error Members :=
  match members.lookup key with
  | none => .ok (members.set key (.table .header []))
  | some (.table .implied inner) => .ok (members.set key (.table .header inner))
  | some _ => .error (.duplicateKey key)

def openElement (key : String) (members : Members) : Except Error Members :=
  match members.lookup key with
  | none => .ok (members.set key (.tables [] []))
  | some (.tables before last) => .ok (members.set key (.tables (before ++ [last]) []))
  | some _ => .error (.duplicateKey key)

def addValue (key : String) (value : Value) : List String → Members → Except Error Members
  | [], members =>
    match members.lookup key with
    | none => .ok (members.set key (.value value))
    | some _ => .error (.duplicateKey key)
  | part :: path, members => do
    match members.lookup part with
    | none => return members.set part (.table .dotted (← addValue key value path []))
    | some (.table .dotted inner) =>
      return members.set part (.table .dotted (← addValue key value path inner))
    | some (.table .implied inner) =>
      if path.isEmpty then throw (.duplicateKey key)
      return members.set part (.table .implied (← addValue key value path inner))
    | some (.table .header _) => throw (.duplicateKey part)
    | some (.tables before last) =>
      if path.isEmpty then throw (.duplicateKey key)
      return members.set part (.tables before (← addValue key value path last))
    | some (.value _) => throw (.notATable part)

mutual

def Item.finish : Item → Value
  | .value value => value
  | .table _ members => .table (finishMembers members)
  | .tables before last => .array (finishAll before ++ [.table (finishMembers last)])

def finishMembers : List (String × Item) → List (String × Value)
  | [] => []
  | (key, item) :: rest => (key, item.finish) :: finishMembers rest

def finishAll : List (List (String × Item)) → List Value
  | [] => []
  | members :: rest => .table (finishMembers members) :: finishAll rest

end

/-- The items of an array after its bracket; a comma may follow the last. -/
def arrayItems (element : Reader Value) : Nat → Reader (List Value)
  | 0 => throw (.expected "]")
  | fuel + 1 => do
    skipBlank
    if ← Reader.accept "]" then return []
    let first ← element
    skipBlank
    if ← Reader.accept "," then return first :: (← arrayItems element fuel)
    Reader.expect "]"
    return [first]

/-- A key and its value; `skip` passes over what may stand around the sign between them. -/
def keyValue (skip : Reader Unit) (element : Reader Value) :
    Reader (List String × String × Value) := do
  let (path, last) ← key
  skip
  Reader.expect "="
  skip
  return (path, last, ← element)

def inlineMembers (element : Reader Value) : Nat → Members → Reader Members
  | 0, _ => throw (.expected "\x7d")
  | fuel + 1, members => do
    skipBlank
    if ← Reader.accept "\x7d" then return members
    let (path, last, value) ← keyValue skipBlank element
    let members ← addValue last value path members
    skipBlank
    if ← Reader.accept "," then inlineMembers element fuel members
    else
      Reader.expect "\x7d"
      return members

def container? (element : Reader Value) : Reader (Option Value) := do
  if ← Reader.accept "[" then
    return some (.array (← arrayItems element ((← get).length + 1)))
  if ← Reader.accept "\x7b" then
    let members ← inlineMembers element ((← get).length + 1) []
    return some (.table (finishMembers members))
  return none

def valueOf (container? : Reader (Option Value)) : Reader Value := do
  match ← quoted? with
  | some text => return .string text
  | none =>
    match ← container? with
    | some value => return value
    | none => unquoted

def noContainer : Reader (Option Value) := do
  match ← Reader.peek? with
  | some '[' => throw .nesting
  | some '\x7b' => throw .nesting
  | _ => return none

/-- A value in which arrays and inline tables are nested up to a depth. -/
def value : Nat → Reader Value
  | 0 => valueOf noContainer
  | depth + 1 => valueOf (container? (value depth))

inductive Statement where
  | header (path : List String) (key : String)
  | elementHeader (path : List String) (key : String)
  | entry (path : List String) (key : String) (value : Value)

def statement? : Reader (Option Statement) := do
  skipInline
  if ← Reader.accept "[[" then
    let (path, last) ← key
    skipInline
    Reader.expect "]]"
    return some (.elementHeader path last)
  if ← Reader.accept "[" then
    let (path, last) ← key
    skipInline
    Reader.expect "]"
    return some (.header path last)
  match ← Reader.peek? with
  | none => return none
  | some c =>
    if c == '#' || c == '\n' || c == '\r' then return none
    let (path, last, value) ← keyValue skipInline (value maxNesting)
    return some (.entry path last value)

def statements : Nat → Reader (List Statement)
  | 0 => pure []
  | fuel + 1 => do
    if (← get).isEmpty then return []
    let first ← statement?
    endOfLine
    return first.toList ++ (← statements fuel)

/-- A document that is being built: the table of the last header takes the entries. -/
structure Builder where
  root : Members := []
  current : List String := []

def Builder.add (b : Builder) : Statement → Except Error Builder
  | .header path key => do
    return { root := ← atPath (openTable key) path b.root, current := path ++ [key] }
  | .elementHeader path key => do
    return { root := ← atPath (openElement key) path b.root, current := path ++ [key] }
  | .entry path key value => do
    return { b with root := ← atPath (addValue key value path) b.current b.root }

/-- The members of a document; a byte order mark at its start is skipped. -/
def parse (text : String) : Except Error (List (String × Value)) := do
  let chars := match text.toList with
    | '\uFEFF' :: rest => rest
    | chars => chars
  let (found, _) ← (statements (chars.length + 1)).run chars
  let builder ← found.foldlM Builder.add {}
  return finishMembers builder.root

end ClassAtlas.Toml

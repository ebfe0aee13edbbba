import ClassAtlas.Descriptor.Error

/-!
Reading the class names out of type descriptors and generic signatures. A scan consumes the text
from the left and appends each name to a buffer as it is met, so the names found before a failure
stay in the buffer. Each reader carries a bound on the characters left, which it lowers whenever it
takes one; a bound above the length of the text is never exhausted.
-/

namespace ClassAtlas.Descriptor

/-- The text still to be read, the byte offset of its start, and the names met so far. -/
structure Scanner where
  rest : List Char
  offset : Nat
  names : List String
  deriving Repr, DecidableEq

/-- A scan that fails keeps the scanner as it was at the failure. -/
abbrev Scan := ExceptT Error (StateM Scanner)

def utf8Length (text : List Char) : Nat :=
  text.foldr (fun c length => c.utf8Size + length) 0

def leadByte (c : Char) : UInt8 :=
  (String.utf8EncodeChar c).headD 0

def failAtEnd {α : Type} : Scan α := do
  throw (.unexpectedEnd (← get).offset)

def peek? : Scan (Option Char) :=
  return (← get).rest.head?

def next? : Scan (Option (Char × Nat)) :=
  modifyGet fun s =>
    match s.rest with
    | [] => (none, s)
    | c :: rest => (some (c, s.offset), { s with rest, offset := s.offset + c.utf8Size })

def next : Scan (Char × Nat) := do
  match ← next? with
  | none => failAtEnd
  | some found => return found

/-- Takes the characters before the first stop; nothing is taken if there is no stop. -/
def takeUntil? (stops : List Char) : Scan (Option (List Char)) :=
  modifyGet fun s =>
    let taken := s.rest.takeWhile (!stops.contains ·)
    match s.rest.dropWhile (!stops.contains ·) with
    | [] => (none, s)
    | rest => (some taken, { s with rest, offset := s.offset + utf8Length taken })

def failAtTextEnd {α : Type} : Scan α := do
  let s ← get
  throw (.unexpectedEnd (s.offset + utf8Length s.rest))

def addName (name : List Char) : Scan Unit :=
  modify fun s => { s with names := s.names ++ [String.ofList name] }

def isBaseType (c : Char) : Bool :=
  ['B', 'C', 'D', 'F', 'I', 'J', 'S', 'Z', 'V'].contains c

def nameStops : List Char := [';', '<', '.']

def typeVariable : Scan Unit := do
  match ← takeUntil? [';'] with
  | none => failAtTextEnd
  | some _ => discard next

mutual

def typeFrom : Nat → Char → Nat → Scan Unit
  | 0, _, _ => failAtEnd
  | bound + 1, first, start => do
    if isBaseType first then
      return ()
    else if first = '[' then
      let (element, offset) ← next
      typeFrom bound element offset
    else if first = 'L' then
      match ← takeUntil? nameStops with
      | none => throw (.unterminatedClass start)
      | some [] => throw (.unterminatedClass start)
      | some name =>
        addName name
        classSuffixes bound start name
    else if first = 'T' then
      typeVariable
    else
      throw (.unexpected (leadByte first) start)

def classSuffixes : Nat → Nat → List Char → Scan Unit
  | 0, start, _ => throw (.unterminatedClass start)
  | bound + 1, start, name => do
    match ← next? with
    | none => throw (.unterminatedClass start)
    | some (c, offset) =>
      if c = ';' then
        return ()
      else if c = '<' then
        typeArguments bound
        classSuffixes bound start name
      else if c = '.' then
        match ← takeUntil? nameStops with
        | none => throw (.unterminatedClass start)
        | some inner =>
          let name := name ++ '$' :: inner
          addName name
          classSuffixes bound start name
      else
        throw (.unexpected (leadByte c) offset)

def typeArguments : Nat → Scan Unit
  | 0 => failAtEnd
  | bound + 1 => do
    let (c, offset) ← next
    if c = '>' then
      return ()
    else if c = '*' then
      typeArguments bound
    else if c = '+' ∨ c = '-' then
      let (first, offset) ← next
      typeFrom bound first offset
      typeArguments bound
    else
      typeFrom bound c offset
      typeArguments bound

end

/-- The bounds of a formal type parameter. A colon with no type after it is an empty bound. -/
def typeBounds : Nat → Scan Unit
  | 0 => return ()
  | bound + 1 => do
    if (← peek?) = some ':' then
      discard next
      if (← peek?).any ['L', '[', 'T'].contains then
        let (first, offset) ← next
        typeFrom bound first offset
      typeBounds bound

def formalParameters : Nat → Scan Unit
  | 0 => failAtEnd
  | bound + 1 => do
    let start := (← get).offset
    match ← peek? with
    | none => failAtEnd
    | some '>' => discard next
    | some first =>
      match ← takeUntil? [':'] with
      | none => failAtTextEnd
      | some name =>
        if name.isEmpty ∨ name.any ['>', ';', '<'].contains then
          throw (.unexpected (leadByte first) start)
        else
          typeBounds bound
          formalParameters bound

/-- A whole descriptor or signature: parameter brackets and the throws marker carry no names. -/
def items : Nat → Scan Unit
  | 0 => return ()
  | bound + 1 => do
    match ← next? with
    | none => return ()
    | some (c, offset) =>
      if c = '<' then
        formalParameters bound
      else if c ≠ '(' ∧ c ≠ ')' ∧ c ≠ '^' then
        typeFrom bound c offset
      items bound

/-- Appends the class names of `text` to `buffer`. Names met before a failure are kept. -/
def collect (text : String) (buffer : List String) : Except Error Unit × List String :=
  let chars := text.toList
  let (outcome, s) := (items (chars.length + 1)).run { rest := chars, offset := 0, names := buffer }
  (outcome, s.names)

def typeNames (text : String) : Except Error (List String) :=
  match collect text [] with
  | (.ok (), names) => .ok names
  | (.error e, _) => .error e

/-- A bare internal name counts as a class unless it is empty or an array type. -/
def internalName? (name : String) : Option String :=
  match name.toList with
  | [] => none
  | '[' :: _ => none
  | _ => some name

end ClassAtlas.Descriptor

/-!
Glob patterns. A star and a question mark match slashes too, a double star matches whole path
components and has to stand as one, and brackets hold single characters and ranges.
-/

namespace ClassAtlas.Glob

inductive Specifier where
  | single (c : Char)
  | range (first last : Char)
  deriving Repr, DecidableEq

inductive Token where
  | char (c : Char)
  | anyChar
  | anySequence
  | anyRecursive
  | within (specifiers : List Specifier)
  | except (specifiers : List Specifier)
  deriving Repr, DecidableEq

inductive Fault where
  | wildcards
  | recursiveWildcards
  | invalidRange
  deriving Repr, DecidableEq

/-- A fault and the position, in characters, that it is reported at. -/
structure Error where
  position : Nat
  fault : Fault
  deriving Repr, DecidableEq

def Fault.describe : Fault → String
  | .wildcards => "wildcards are either regular `*` or recursive `**`"
  | .recursiveWildcards => "recursive wildcards must form a single path component"
  | .invalidRange => "invalid range pattern"

def Error.message (e : Error) : String :=
  s!"Pattern syntax error near position {e.position}: " ++ e.fault.describe

structure Pattern where
  tokens : List Token
  deriving Repr, DecidableEq

/-- The content of brackets: a dash between two characters makes a range. -/
def specifiers : List Char → List Specifier
  | first :: '-' :: last :: rest => .range first last :: specifiers rest
  | c :: rest => .single c :: specifiers rest
  | [] => []

/-- Brackets after their opening, as token and rest. The first character inside never closes
them. -/
def bracket? : List Char → Option (Token × List Char)
  | '!' :: first :: rest => close .except first rest
  | '!' :: [] => none
  | first :: rest => close .within first rest
  | [] => none
where
  close (make : List Specifier → Token) (first : Char) (rest : List Char) :
      Option (Token × List Char) :=
    match rest.dropWhile (· != ']') with
    | _ :: after => some (make (specifiers (first :: rest.takeWhile (· != ']'))), after)
    | [] => none

/-- Compiles a pattern from `position` on; `before` is the character before it. The bound exceeds
the characters left. -/
def compileFrom : Nat → Option Char → Nat → List Char → Except Error (List Token)
  | 0, _, _, _ => .ok []
  | _ + 1, _, _, [] => .ok []
  | bound + 1, before, position, c :: rest =>
    if c == '*' then
      let stars := (rest.takeWhile (· == '*')).length + 1
      let after := rest.dropWhile (· == '*')
      if stars > 2 then .error ⟨position + 2, .wildcards⟩
      else if stars == 2 then
        if before.isSome && before != some '/' then .error ⟨position - 1, .recursiveWildcards⟩
        else
          match after with
          | [] => .ok [.anyRecursive]
          | '/' :: after => do
            return .anyRecursive :: (← compileFrom bound (some '/') (position + 3) after)
          | _ => .error ⟨position + 2, .recursiveWildcards⟩
      else do
        return .anySequence :: (← compileFrom bound (some '*') (position + 1) after)
    else if c == '?' then do
      return .anyChar :: (← compileFrom bound (some c) (position + 1) rest)
    else if c == '[' then
      match bracket? rest with
      | none => .error ⟨position, .invalidRange⟩
      | some (token, after) => do
        let next := position + 1 + (rest.length - after.length)
        return token :: (← compileFrom bound (some ']') next after)
    else do
      return .char c :: (← compileFrom bound (some c) (position + 1) rest)

def compile (pattern : String) : Except Error Pattern := do
  let chars := pattern.toList
  return { tokens := ← compileFrom (chars.length + 1) none 0 chars }

def Specifier.admits (c : Char) : Specifier → Bool
  | .single s => c == s
  | .range first last => first ≤ c && c ≤ last

def suffixes : List Char → List (List Char)
  | [] => [[]]
  | c :: rest => (c :: rest) :: suffixes rest

def componentRests : List Char → List (List Char)
  | [] => []
  | c :: rest => if c == '/' then rest :: componentRests rest else componentRests rest

def matchTokens : List Token → List Char → Bool
  | [], text => text.isEmpty
  | .anySequence :: tokens, text => (suffixes text).any (matchTokens tokens)
  | .anyRecursive :: tokens, text => (text :: componentRests text ++ [[]]).any (matchTokens tokens)
  | _ :: _, [] => false
  | .char c :: tokens, t :: text => c == t && matchTokens tokens text
  | .anyChar :: tokens, _ :: text => matchTokens tokens text
  | .within specs :: tokens, t :: text => specs.any (·.admits t) && matchTokens tokens text
  | .except specs :: tokens, t :: text => !specs.any (·.admits t) && matchTokens tokens text

def Pattern.admits (pattern : Pattern) (text : String) : Bool :=
  matchTokens pattern.tokens text.toList

end ClassAtlas.Glob

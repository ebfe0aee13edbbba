import ClassAtlas.CommandLine.Argument
import ClassAtlas.Text.Cut

/-!
Reading a command line. A value stands behind its option, or is attached to it; flags of one letter
may share a dash; nothing stands alone.
-/

namespace ClassAtlas.CommandLine

/-- An option that waits for its value, or whose value was just read. -/
structure Pending where
  argument : Argument
  value : Option String := none
  deriving Repr, DecidableEq

structure State where
  request : Request := {}
  seen : List Argument := []
  pending : Option Pending := none
  deriving Repr, DecidableEq

namespace State

def note (state : State) (argument : Argument) : Except UsageError State :=
  if !argument.repeats && state.seen.contains argument then .error .argumentConflict
  else .ok { state with seen := argument :: state.seen }

def setValue (state : State) (argument : Argument) (value : String) : Except UsageError State := do
  let state ← state.note argument
  return { state with request := ← state.request.setValue argument value }

def settle (state : State) : Except UsageError State :=
  match state.pending with
  | none => .ok state
  | some ⟨_, none⟩ => .error .invalidValue
  | some ⟨argument, some value⟩ => { state with pending := none }.setValue argument value

def setFlag (state : State) (argument : Argument) : Except UsageError State := do
  let state ← state.settle
  match argument with
  | .help => throw .displayHelp
  | .version => throw .displayVersion
  | _ =>
    let state ← state.note argument
    return { state with request := state.request.setFlag argument }

def openOption (state : State) (argument : Argument) (attached : Option String) :
    Except UsageError State := do
  let state ← state.settle
  match attached with
  | some value => state.setValue argument value
  | none => return { state with pending := some { argument } }

def long (state : State) (name : String) (attached : Option String) : Except UsageError State :=
  match Argument.ofLong? name with
  | none => .error .unknownArgument
  | some argument =>
    if argument.takesValue then state.openOption argument attached
    else if attached.isSome then .error .tooManyValues
    else state.setFlag argument

/-- The value behind a letter; an equals sign before it does not belong to it. -/
def attachedTo : List Char → Option String
  | [] => none
  | '=' :: rest => some (String.ofList rest)
  | rest => some (String.ofList rest)

def short (state : State) : List Char → Except UsageError State
  | [] => .ok state
  | c :: rest =>
    match Argument.ofShort? c with
    | none => .error .unknownArgument
    | some argument =>
      if argument.takesValue then state.openOption argument (attachedTo rest)
      else
        match state.setFlag argument with
        | .ok state => state.short rest
        | .error e => .error e

/-- A word that is no option is the value of the option before it. -/
def plain (state : State) (word : String) : Except UsageError State :=
  match state.pending with
  | some ⟨argument, none⟩ => .ok { state with pending := some ⟨argument, some word⟩ }
  | _ => .error .unknownArgument

def word (state : State) (text : String) : Except UsageError State :=
  match text.toList with
  | '-' :: '-' :: name =>
    match Text.cutFirst? '=' name with
    | some (name, value) => state.long (String.ofList name) (some (String.ofList value))
    | none => state.long (String.ofList name) none
  | ['-'] => state.plain text
  | '-' :: letters => state.short letters
  | _ => state.plain text

/-- Reads the words in turn. Two dashes alone end the options, and nothing may follow them. -/
def words (state : State) : List String → Except UsageError State
  | [] => .ok state
  | "--" :: rest => if rest.isEmpty then .ok state else .error .unknownArgument
  | text :: rest =>
    match state.word text with
    | .ok state => state.words rest
    | .error e => .error e

end State

def parse (args : List String) : Except UsageError Request := do
  let state ← State.words {} args
  let state ← state.settle
  if state.seen.contains .quiet && state.seen.contains .verbose then throw .argumentConflict
  return state.request

end ClassAtlas.CommandLine

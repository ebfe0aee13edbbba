import ClassAtlas.Descriptor.Scan

/-!
The grammar of descriptors and generic signatures, as syntax trees with the text each one writes and
the class names it mentions. Trees carry what the grammar demands of their parts, so every tree
writes a legal text. Nothing here depends on how a text is read.
-/

namespace ClassAtlas.Descriptor

/-- A run of characters that holds none of `stops`. -/
structure Segment (stops : List Char) where
  text : List Char
  free : ∀ c ∈ text, c ∉ stops

theorem Segment.head_not_mem {stops : List Char} (segment : Segment stops)
    (nonempty : segment.text ≠ []) {c : Char} {text tail : List Char}
    (written : c :: text = segment.text ++ tail) : c ∉ stops := by
  obtain ⟨d, more, spelled⟩ := List.exists_cons_of_ne_nil nonempty
  rw [spelled, List.cons_append, List.cons.injEq] at written
  rw [written.1]
  exact segment.free d (spelled ▸ List.mem_cons_self)

mutual

inductive TypeTree where
  | base (c : Char) (known : c ∈ ['B', 'C', 'D', 'F', 'I', 'J', 'S', 'Z', 'V'])
  | array (element : TypeTree)
  | classType (name : Segment [';', '<', '.']) (named : name.text ≠ []) (parts : List Part)
  | typeVariable (name : Segment [';'])

/-- What may follow a class name, any number of times and in any order. -/
inductive Part where
  | arguments (args : List Argument)
  | inner (name : Segment [';', '<', '.'])

inductive Argument where
  | wildcard
  | upper (type : TypeTree)
  | lower (type : TypeTree)
  | exactly (type : TypeTree)

end

mutual

def TypeTree.render : TypeTree → List Char
  | .base c _ => [c]
  | .array element => '[' :: element.render
  | .classType name _ parts => 'L' :: (name.text ++ (renderParts parts ++ [';']))
  | .typeVariable name => 'T' :: (name.text ++ [';'])

def Part.render : Part → List Char
  | .arguments args => '<' :: (renderArguments args ++ ['>'])
  | .inner name => '.' :: name.text

def renderParts : List Part → List Char
  | [] => []
  | part :: parts => part.render ++ renderParts parts

def Argument.render : Argument → List Char
  | .wildcard => ['*']
  | .upper type => '+' :: type.render
  | .lower type => '-' :: type.render
  | .exactly type => type.render

def renderArguments : List Argument → List Char
  | [] => []
  | argument :: args => argument.render ++ renderArguments args

end

mutual

/-- The class names of a type from left to right, with repetitions. -/
def TypeTree.names : TypeTree → List String
  | .base _ _ => []
  | .array element => element.names
  | .classType name _ parts => String.ofList name.text :: partNames name.text parts
  | .typeVariable _ => []

/-- The names that the parts after the class `name` add. An inner class extends the name for itself
and for the parts after it; type arguments leave it as it is. -/
def partNames (name : List Char) : List Part → List String
  | [] => []
  | .arguments args :: parts => argumentNames args ++ partNames name parts
  | .inner suffix :: parts =>
    String.ofList (name ++ '$' :: suffix.text) :: partNames (name ++ '$' :: suffix.text) parts

def Argument.names : Argument → List String
  | .wildcard => []
  | .upper type => type.names
  | .lower type => type.names
  | .exactly type => type.names

def argumentNames : List Argument → List String
  | [] => []
  | argument :: args => argument.names ++ argumentNames args

end

/-- The text begins as a class type, an array type or a type variable does. -/
def OpensReference (text : List Char) : Prop :=
  text.head? = some 'L' ∨ text.head? = some '[' ∨ text.head? = some 'T'

/-- A type that can stand as the bound of a type parameter. -/
structure Bound where
  type : TypeTree
  reference : OpensReference type.render

def renderBound : Option Bound → List Char
  | none => [':']
  | some bound => ':' :: bound.type.render

def renderBounds (bounds : List (Option Bound)) : List Char :=
  bounds.flatMap renderBound

def boundNames : Option Bound → List String
  | none => []
  | some bound => bound.type.names

/-- The bounds can be told apart from the text `after` them: where one is left out, what comes next
does not open a type that could be taken for it. -/
def Separated : List (Option Bound) → List Char → Prop
  | [], _ => True
  | none :: bounds, after => ¬ OpensReference (renderBounds bounds ++ after) ∧ Separated bounds after
  | some _ :: bounds, after => Separated bounds after

/-- A formal type parameter with at least one bound, each of which may be left out. -/
structure Formal where
  name : Segment [':', '<', '>', ';']
  named : name.text ≠ []
  bounds : List (Option Bound)
  bounded : bounds ≠ []

def Formal.render (formal : Formal) : List Char :=
  formal.name.text ++ renderBounds formal.bounds

def Formal.names (formal : Formal) : List String :=
  formal.bounds.flatMap boundNames

/-- Formal parameters with the bracket that closes them. -/
def renderFormals (formals : List Formal) : List Char :=
  formals.flatMap Formal.render ++ ['>']

def FormalsSeparated : List Formal → Prop
  | [] => True
  | formal :: formals => Separated formal.bounds (renderFormals formals) ∧ FormalsSeparated formals

inductive Item where
  | mark (c : Char) (known : c ∈ ['(', ')', '^'])
  | parameters (formals : List Formal) (separated : FormalsSeparated formals)
  | single (type : TypeTree)

def Item.render : Item → List Char
  | .mark c _ => [c]
  | .parameters formals _ => '<' :: renderFormals formals
  | .single type => type.render

def Item.names : Item → List String
  | .mark _ _ => []
  | .parameters formals _ => formals.flatMap Formal.names
  | .single type => type.names

/-- A whole descriptor or signature. -/
abbrev Signature := List Item

def Signature.render (signature : Signature) : List Char :=
  signature.flatMap Item.render

def Signature.names (signature : Signature) : List String :=
  signature.flatMap Item.names

/-- The text that a signature stands for. -/
def Signature.text (signature : Signature) : String :=
  String.ofList signature.render

@[simp] theorem renderBounds_cons (bound : Option Bound) (bounds : List (Option Bound)) :
    renderBounds (bound :: bounds) = renderBound bound ++ renderBounds bounds := rfl

@[simp] theorem renderFormals_cons (formal : Formal) (formals : List Formal) :
    renderFormals (formal :: formals) = formal.render ++ renderFormals formals := by
  simp only [renderFormals, List.flatMap_cons, List.append_assoc]

theorem TypeTree.render_ne_nil (type : TypeTree) : type.render ≠ [] := by
  cases type <;> simp [TypeTree.render]

end ClassAtlas.Descriptor

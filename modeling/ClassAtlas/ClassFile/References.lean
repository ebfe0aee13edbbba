import ClassAtlas.ClassFile.Record
import ClassAtlas.Descriptor.Scan
import ClassAtlas.NameSet

/-!
The class names that a record refers to. The record is first laid out as the list of its mentions in
visiting order; a mention is a bare class name, a descriptor that has to parse, or type data that is
skipped with a warning when it does not.
-/

namespace ClassAtlas.ClassFile

/-- A place in a record where types are named. -/
inductive Mention where
  | name (internal : String)
  | strict (descriptor context : String)
  | lenient (text kind context : String)
  deriving Repr, DecidableEq

structure SkippedSignature where
  kind : String
  context : String
  owner : String
  cause : Descriptor.Error
  deriving Repr, DecidableEq

def SkippedSignature.message (s : SkippedSignature) : String :=
  "Skipping malformed " ++ s.kind ++ " of " ++ s.context ++ " in " ++ s.owner ++ ": "
    ++ s.cause.message

/-- The declared name of a class and the names it refers to, ascending and without repetition. -/
structure ExtractedClass where
  className : String
  referenced : List String
  deriving Repr, DecidableEq

namespace Mention

/-- Class constants name either a class or an array descriptor. -/
def classConstant (name context : String) : Mention :=
  if name.toList.head? = some '[' then .strict name context else .name name

mutual

def ofElementValue : ElementValue → List Mention
  | .const _ => []
  | .enum typeDescriptor _ => [.strict typeDescriptor "annotation enum value"]
  | .classLiteral descriptor => [.strict descriptor "annotation class value"]
  | .nested entry => ofAnnotationEntry entry
  | .array values => ofElementValues values

def ofElementValues : List ElementValue → List Mention
  | [] => []
  | value :: values => ofElementValue value ++ ofElementValues values

def ofAnnotationEntry : AnnotationEntry → List Mention
  | .mk typeDescriptor elements => .strict typeDescriptor "annotation type" :: ofElements elements

def ofElements : List (String × ElementValue) → List Mention
  | [] => []
  | (_, value) :: elements => ofElementValue value ++ ofElements elements

end

def ofAnnotations (annotations : List AnnotationEntry) : List Mention :=
  annotations.flatMap ofAnnotationEntry

def ofSignature (signature : Option String) (context : String) : List Mention :=
  signature.toList.map (.lenient · "signature" context)

def ofInstruction : Instruction → List Mention
  -- array operands of these instructions are no mention of their element type
  | .type _ _ className => [.name className]
  | .field _ offset target =>
    [.name target.owner, .strict target.descriptor s!"operand at bytecode offset {offset}"]
  | .method _ offset target =>
    [.name target.owner, .strict target.descriptor s!"operand at bytecode offset {offset}"]
  | .invokeDynamic offset _ descriptor =>
    [.strict descriptor s!"call site at bytecode offset {offset}"]
  | .loadConstant offset (.classLiteral literal) =>
    [classConstant literal s!"class literal at bytecode offset {offset}"]
  | .loadConstant offset (.methodType descriptor) =>
    [.strict descriptor s!"method type at bytecode offset {offset}"]
  | .loadConstant offset (.methodHandle _ target) =>
    [.name target.owner, .strict target.descriptor s!"method handle at bytecode offset {offset}"]
  | .multiANewArray offset descriptor _ =>
    [classConstant descriptor s!"multianewarray at bytecode offset {offset}"]

def ofLocal (kind method : String) (entry : LocalVariable) : Mention :=
  .lenient entry.descriptor kind (entry.name ++ " in " ++ method)

def ofCode (method : String) (code : Code) : List Mention :=
  code.instructions.flatMap ofInstruction
    ++ (code.handlers.filterMap (·.catchType)).map .name
    ++ code.locals.map (ofLocal "local variable descriptor" method)
    ++ code.localTypes.map (ofLocal "local variable signature" method)

def ofField (field : Field) : List Mention :=
  .strict field.descriptor ("field " ++ field.name)
    :: ofSignature field.signature field.name
    ++ ofAnnotations field.annotations

def ofMethod (method : Method) : List Mention :=
  .strict method.descriptor ("method " ++ method.name)
    :: ofSignature method.signature method.name
    ++ method.exceptions.map .name
    ++ ofAnnotations method.annotations
    ++ method.parameterAnnotations.flatMap ofAnnotations
    ++ method.annotationDefault.toList.flatMap ofElementValue
    ++ method.code.toList.flatMap (ofCode method.name)

def ofRecord (record : Record) : List Mention :=
  .name record.thisClass :: record.superClass.toList.map .name
    ++ record.interfaces.map .name
    ++ ofSignature record.signature "class signature"
    ++ ofAnnotations record.annotations
    ++ record.fields.flatMap ofField
    ++ record.methods.flatMap ofMethod

end Mention

structure Gathered where
  names : List String := []
  skipped : List SkippedSignature := []
  deriving Repr, DecidableEq

/-- Takes in one mention of a record of class `owner`. A name in malformed type data never counts,
not even one that stands before the fault. -/
def Gathered.add (owner : String) (g : Gathered) : Mention → Except DecodeError Gathered
  | .name internal => .ok { g with names := NameSet.insertAll (Descriptor.internalName? internal).toList g.names }
  | .strict descriptor context =>
    match Descriptor.typeNames descriptor with
    | .ok found => .ok { g with names := NameSet.insertAll found g.names }
    | .error cause => .error (.descriptor context cause)
  | .lenient text kind context =>
    match Descriptor.typeNames text with
    | .ok found => .ok { g with names := NameSet.insertAll found g.names }
    | .error cause => .ok { g with skipped := g.skipped ++ [{ kind, context, owner, cause }] }

def gather (owner : String) (mentions : List Mention) : Except DecodeError Gathered :=
  mentions.foldlM (Gathered.add owner) {}

namespace Record

/-- The names that a record refers to, its own among them. -/
def references (record : Record) : Except DecodeError Gathered :=
  gather record.thisClass (Mention.ofRecord record)

end Record

def extract (bytes : List UInt8) : Except DecodeError (ExtractedClass × List SkippedSignature) := do
  let record ← Record.decode bytes
  let gathered ← record.references
  return ({ className := record.thisClass, referenced := gathered.names }, gathered.skipped)

end ClassAtlas.ClassFile

import ClassAtlas.ClassFile.Annotations
import ClassAtlas.ClassFile.Bytecode

/-!
The class record: header, members and attribute tables. Attributes of unknown name are skipped by
their length; a known one has to use up its body.
-/

namespace ClassAtlas.ClassFile

structure ExceptionHandler where
  startPc : Nat
  endPc : Nat
  handlerPc : Nat
  catchType : Option String
  deriving Repr, DecidableEq

structure LocalVariable where
  name : String
  descriptor : String
  index : Nat
  deriving Repr, DecidableEq

structure Code where
  maxStack : Nat
  maxLocals : Nat
  instructions : List Instruction
  handlers : List ExceptionHandler
  locals : List LocalVariable
  localTypes : List LocalVariable
  deriving Repr, DecidableEq

structure Field where
  access : Nat
  name : String
  descriptor : String
  signature : Option String := none
  annotations : List AnnotationEntry := []

structure Method where
  access : Nat
  name : String
  descriptor : String
  signature : Option String := none
  exceptions : List String := []
  annotations : List AnnotationEntry := []
  parameterAnnotations : List (List AnnotationEntry) := []
  annotationDefault : Option ElementValue := none
  code : Option Code := none

structure Record where
  minor : Nat
  major : Nat
  constants : ConstantPool
  access : Nat
  thisClass : String
  superClass : Option String
  interfaces : List String
  fields : List Field
  methods : List Method
  signature : Option String := none
  annotations : List AnnotationEntry := []

namespace Decoder

/-- One attribute: the content of a known one, nothing for any other. -/
def attributeEntry {α : Type} (pool : ConstantPool) (known : String → Option (Decoder α)) :
    Decoder (Option α) := do
  let name ← resolve (pool.utf8 (← u2))
  let body ← split (← u4)
  match known name with
  | none => return none
  | some content =>
    let (value, after) ← within body content
    if after.rest.isEmpty then
      return some value
    else
      fail (.trailingBytes name after.rest.length)

def attributes {α : Type} (pool : ConstantPool) (known : String → Option (Decoder α)) :
    Decoder (List α) :=
  return (← table (attributeEntry pool known)).filterMap id

end Decoder

def decodeUtf8 (pool : ConstantPool) : Decoder String := do
  Decoder.resolve (pool.utf8 (← Decoder.u2))

def decodeClassName (pool : ConstantPool) : Decoder String := do
  Decoder.resolve (pool.className (← Decoder.u2))

def decodeClassName? (pool : ConstantPool) : Decoder (Option String) := do
  Decoder.resolve (pool.className? (← Decoder.u2))

namespace Code

def decodeHandler (pool : ConstantPool) : Decoder ExceptionHandler := do
  let startPc ← Decoder.u2
  let endPc ← Decoder.u2
  let handlerPc ← Decoder.u2
  let catchType ← decodeClassName? pool
  return { startPc, endPc, handlerPc, catchType }

def decodeLocal (pool : ConstantPool) : Decoder LocalVariable := do
  let _startPc ← Decoder.u2
  let _length ← Decoder.u2
  let name ← decodeUtf8 pool
  let descriptor ← decodeUtf8 pool
  let index ← Decoder.u2
  return { name, descriptor, index }

inductive Attribute where
  | locals (entries : List LocalVariable)
  | localTypes (entries : List LocalVariable)
  deriving Repr, DecidableEq

def known (pool : ConstantPool) (name : String) : Option (Decoder Attribute) :=
  if name = "LocalVariableTable" then
    some (.locals <$> Decoder.table (decodeLocal pool))
  else if name = "LocalVariableTypeTable" then
    some (.localTypes <$> Decoder.table (decodeLocal pool))
  else none

/-- Repeated tables are joined. -/
def add (code : Code) : Attribute → Code
  | .locals entries => { code with locals := code.locals ++ entries }
  | .localTypes entries => { code with localTypes := code.localTypes ++ entries }

def decode (pool : ConstantPool) : Decoder Code := do
  let maxStack ← Decoder.u2
  let maxLocals ← Decoder.u2
  let body ← Decoder.split (← Decoder.u4)
  let instructions ← Decoder.resolve (Bytecode.decode pool body.offset body.rest)
  let handlers ← Decoder.table (decodeHandler pool)
  let attributes ← Decoder.attributes pool (known pool)
  let code : Code := { maxStack, maxLocals, instructions, handlers, locals := [], localTypes := [] }
  return attributes.foldl add code

end Code

inductive CommonAttribute where
  | signature (text : String)
  | annotations (entries : List AnnotationEntry)

def CommonAttribute.known (pool : ConstantPool) (name : String) :
    Option (Decoder CommonAttribute) :=
  if name = "Signature" then
    some (.signature <$> decodeUtf8 pool)
  else if name = "RuntimeVisibleAnnotations" ∨ name = "RuntimeInvisibleAnnotations" then
    some (.annotations <$> AnnotationEntry.decodeTable pool)
  else none

namespace Field

/-- The last signature counts; annotations are joined. -/
def add (field : Field) : CommonAttribute → Field
  | .signature text => { field with signature := some text }
  | .annotations entries => { field with annotations := field.annotations ++ entries }

def decode (pool : ConstantPool) : Decoder Field := do
  let access ← Decoder.u2
  let name ← decodeUtf8 pool
  let descriptor ← decodeUtf8 pool
  let attributes ← Decoder.attributes pool (CommonAttribute.known pool)
  return attributes.foldl add { access, name, descriptor }

end Field

namespace Method

inductive Attribute where
  | common (shared : CommonAttribute)
  | exceptions (names : List String)
  | code (code : Code)
  | parameterAnnotations (tables : List (List AnnotationEntry))
  | annotationDefault (value : ElementValue)

def decodeParameterAnnotations (pool : ConstantPool) : Decoder (List (List AnnotationEntry)) := do
  let parameters ← Decoder.u1
  Decoder.times (AnnotationEntry.decodeTable pool) parameters.toNat

def known (pool : ConstantPool) (name : String) : Option (Decoder Attribute) :=
  if name = "Exceptions" then
    some (.exceptions <$> Decoder.table (decodeClassName pool))
  else if name = "Code" then
    some (.code <$> Code.decode pool)
  else if name = "RuntimeVisibleParameterAnnotations"
      ∨ name = "RuntimeInvisibleParameterAnnotations" then
    some (.parameterAnnotations <$> decodeParameterAnnotations pool)
  else if name = "AnnotationDefault" then
    some (.annotationDefault <$> ElementValue.decode pool)
  else
    (CommonAttribute.known pool name).map (.common <$> ·)

/-- Joins the tables of each parameter. -/
def joinTables : List (List AnnotationEntry) → List (List AnnotationEntry) → List (List AnnotationEntry)
  | [], more => more
  | tables, [] => tables
  | table :: tables, more :: rest => (table ++ more) :: joinTables tables rest

/-- Of a repeated signature, code or default the last counts; the rest is joined. -/
def add (method : Method) : Attribute → Method
  | .common (.signature text) => { method with signature := some text }
  | .common (.annotations entries) => { method with annotations := method.annotations ++ entries }
  | .exceptions names => { method with exceptions := method.exceptions ++ names }
  | .code code => { method with code := some code }
  | .parameterAnnotations tables =>
    { method with parameterAnnotations := joinTables method.parameterAnnotations tables }
  | .annotationDefault value => { method with annotationDefault := some value }

def decode (pool : ConstantPool) : Decoder Method := do
  let access ← Decoder.u2
  let name ← decodeUtf8 pool
  let descriptor ← decodeUtf8 pool
  let attributes ← Decoder.attributes pool (known pool)
  return attributes.foldl add { access, name, descriptor }

end Method

namespace Record

def magic : Nat := 0xCAFEBABE

def add (record : Record) : CommonAttribute → Record
  | .signature text => { record with signature := some text }
  | .annotations entries => { record with annotations := record.annotations ++ entries }

def decoder : Decoder Record := do
  let found ← Decoder.u4
  if found ≠ magic then
    Decoder.fail (.badMagic found)
  let minor ← Decoder.u2
  let major ← Decoder.u2
  let constants ← ConstantPool.decode
  let access ← Decoder.u2
  let thisClass ← decodeClassName constants
  let superClass ← decodeClassName? constants
  let interfaces ← Decoder.table (decodeClassName constants)
  let fields ← Decoder.table (Field.decode constants)
  let methods ← Decoder.table (Method.decode constants)
  let attributes ← Decoder.attributes constants (CommonAttribute.known constants)
  let record : Record :=
    { minor, major, constants, access, thisClass, superClass, interfaces, fields, methods }
  return attributes.foldl add record

/-- Decodes a class record. Bytes after its end are ignored. -/
def decode (bytes : List UInt8) : Except DecodeError Record :=
  Prod.fst <$> decoder.run { rest := bytes, offset := 0 }

end Record

end ClassAtlas.ClassFile

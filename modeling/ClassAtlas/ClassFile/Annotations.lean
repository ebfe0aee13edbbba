import ClassAtlas.ClassFile.ConstantPool

/-!
Annotations and the values of their elements. Values nest through arrays and annotations; every
level takes at least its tag byte, so nesting is never deeper than the bytes left.
-/

namespace ClassAtlas.ClassFile

mutual

inductive ElementValue where
  /-- A primitive or string constant, known by its tag only. -/
  | const (tag : Char)
  | enum (typeDescriptor constName : String)
  | classLiteral (descriptor : String)
  | nested (entry : AnnotationEntry)
  | array (values : List ElementValue)

inductive AnnotationEntry where
  | mk (typeDescriptor : String) (elements : List (String × ElementValue))

end

namespace AnnotationEntry

def typeDescriptor : AnnotationEntry → String
  | .mk typeDescriptor _ => typeDescriptor

def elements : AnnotationEntry → List (String × ElementValue)
  | .mk _ elements => elements

def decodeWith (pool : ConstantPool) (value : Decoder ElementValue) : Decoder AnnotationEntry := do
  let typeDescriptor ← Decoder.resolve (pool.utf8 (← Decoder.u2))
  let elements ← Decoder.table do
    let name ← Decoder.resolve (pool.utf8 (← Decoder.u2))
    return (name, ← value)
  return .mk typeDescriptor elements

end AnnotationEntry

namespace ElementValue

def isConstTag (tag : Char) : Bool :=
  ['B', 'C', 'D', 'F', 'I', 'J', 'S', 'Z', 's'].contains tag

/-- A value nested at most `depth` levels deep. No level is read when no byte is left. -/
def decodeWithin (pool : ConstantPool) : Nat → Decoder ElementValue
  | 0 => do Decoder.fail (.unexpectedEnd (← Decoder.offset) 1)
  | depth + 1 => do
    let offset ← Decoder.offset
    let byte ← Decoder.u1
    let tag := Char.ofNat byte.toNat
    if isConstTag tag then
      discard (Decoder.resolve (pool.get (← Decoder.u2)))
      return .const tag
    else if tag = 'e' then
      let typeDescriptor ← Decoder.resolve (pool.utf8 (← Decoder.u2))
      let constName ← Decoder.resolve (pool.utf8 (← Decoder.u2))
      return .enum typeDescriptor constName
    else if tag = 'c' then
      return .classLiteral (← Decoder.resolve (pool.utf8 (← Decoder.u2)))
    else if tag = '@' then
      return .nested (← AnnotationEntry.decodeWith pool (decodeWithin pool depth))
    else if tag = '[' then
      return .array (← Decoder.table (decodeWithin pool depth))
    else
      Decoder.fail (.invalidElementTag byte offset)

def decode (pool : ConstantPool) : Decoder ElementValue := do
  decodeWithin pool (← get).rest.length

end ElementValue

namespace AnnotationEntry

def decode (pool : ConstantPool) : Decoder AnnotationEntry :=
  decodeWith pool (ElementValue.decode pool)

def decodeTable (pool : ConstantPool) : Decoder (List AnnotationEntry) :=
  Decoder.table (decode pool)

end AnnotationEntry

end ClassAtlas.ClassFile

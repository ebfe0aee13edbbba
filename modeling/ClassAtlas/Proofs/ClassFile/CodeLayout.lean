import ClassAtlas.Proofs.ClassFile.Attribute
import ClassAtlas.Proofs.ClassFile.Walk

/-!
The layout of a method body: the operations of its code array, the table of exception handlers, and
the attributes that name its local variables.
-/

namespace ClassAtlas.ClassFile

structure HandlerLayout where
  startPc : UInt16
  endPc : UInt16
  handlerPc : UInt16
  catchIndex : UInt16

namespace HandlerLayout

def encode (layout : HandlerLayout) : List UInt8 :=
  word2 layout.startPc ++ (word2 layout.endPc ++ (word2 layout.handlerPc ++ word2 layout.catchIndex))

def Means (pool : ConstantPool) (layout : HandlerLayout) (handler : ExceptionHandler) : Prop :=
  ∃ catchType, pool.NamesOptionalClass layout.catchIndex.toNat catchType ∧
    handler = ⟨layout.startPc.toNat, layout.endPc.toNat, layout.handlerPc.toNat, catchType⟩

end HandlerLayout

/-- An entry of a local variable table. Where the variable is live is skipped. -/
structure LocalLayout where
  startPc : UInt16
  length : UInt16
  nameIndex : UInt16
  descriptorIndex : UInt16
  index : UInt16

namespace LocalLayout

def encode (layout : LocalLayout) : List UInt8 :=
  word2 layout.startPc ++ (word2 layout.length ++ (word2 layout.nameIndex ++
    (word2 layout.descriptorIndex ++ word2 layout.index)))

def Means (pool : ConstantPool) (layout : LocalLayout) (entry : LocalVariable) : Prop :=
  ∃ name descriptor, pool.Text layout.nameIndex.toNat name ∧
    pool.Text layout.descriptorIndex.toNat descriptor ∧
    entry = ⟨name, descriptor, layout.index.toNat⟩

end LocalLayout

theorem decodes_handler (pool : ConstantPool) :
    Decodes (Code.decodeHandler pool)
      (Written HandlerLayout.encode (HandlerLayout.Means pool)) := by
  refine (Decodes.u2.andThen fun startPc => Decodes.u2.andThen fun endPc =>
    Decodes.u2.andThen fun handlerPc => (decodes_className? pool).thenPure).congr
    fun bytes handler => ?_
  constructor
  · rintro ⟨⟨startPc, endPc, handlerPc, catchIndex⟩, rfl, _, rfl, _, rfl, _, rfl, catchType, named, rfl⟩
    exact ⟨⟨startPc, endPc, handlerPc, catchIndex⟩, rfl, catchType, named, rfl⟩
  · rintro ⟨⟨startPc, endPc, handlerPc, catchIndex⟩, rfl, catchType, named, rfl⟩
    exact ⟨(startPc, endPc, handlerPc, catchIndex), rfl, _, rfl, _, rfl, _, rfl, catchType, named, rfl⟩

theorem decodes_local (pool : ConstantPool) :
    Decodes (Code.decodeLocal pool) (Written LocalLayout.encode (LocalLayout.Means pool)) := by
  refine (Decodes.u2.andThen fun _ => Decodes.u2.andThen fun _ => (decodes_utf8 pool).andThen
    fun name => (decodes_utf8 pool).andThen fun descriptor => Decodes.u2.thenPure).congr
    fun bytes entry => ?_
  constructor
  · rintro ⟨⟨startPc, length, nameIndex, descriptorIndex, index⟩, rfl, _, rfl, _, rfl, name, named,
      descriptor, described, _, rfl, rfl⟩
    exact ⟨⟨startPc, length, nameIndex, descriptorIndex, index⟩, rfl, name, descriptor, named,
      described, rfl⟩
  · rintro ⟨⟨startPc, length, nameIndex, descriptorIndex, index⟩, rfl, name, descriptor, named,
      described, rfl⟩
    exact ⟨(startPc, length, nameIndex, descriptorIndex, index), rfl, _, rfl, _, rfl, name, named,
      descriptor, described, _, rfl, rfl⟩

inductive CodeAttributeLayout where
  | locals (entries : List LocalLayout)
  | localTypes (entries : List LocalLayout)

namespace CodeAttributeLayout

def encode : CodeAttributeLayout → List UInt8
  | .locals entries => encodeTable LocalLayout.encode entries
  | .localTypes entries => encodeTable LocalLayout.encode entries

def Means (pool : ConstantPool) (name : String) : CodeAttributeLayout → Code.Attribute → Prop
  | .locals entries, content => name = "LocalVariableTable" ∧
    ∃ found, TableMeans (LocalLayout.Means pool) entries found ∧ content = .locals found
  | .localTypes entries, content => name = "LocalVariableTypeTable" ∧
    ∃ found, TableMeans (LocalLayout.Means pool) entries found ∧ content = .localTypes found

end CodeAttributeLayout

def codeFormat : AttributeFormat CodeAttributeLayout Code.Attribute where
  names := ["LocalVariableTable", "LocalVariableTypeTable"]
  encode := CodeAttributeLayout.encode
  Means := CodeAttributeLayout.Means

theorem codeFormat_followedBy : codeFormat.FollowedBy Code.known where
  unknown pool name := by
    unfold Code.known
    split <;> simp_all [codeFormat]
  decodes {pool name d} := by
    intro picked
    unfold Code.known at picked
    split at picked
    case isTrue same =>
      cases picked
      refine (decodes_local pool).table.inject Code.Attribute.locals CodeAttributeLayout.locals
        (fun _ => rfl) fun content value => ?_
      cases content <;> simp [codeFormat, CodeAttributeLayout.Means, same]
    case isFalse different =>
      split at picked
      case isTrue same =>
        cases picked
        refine (decodes_local pool).table.inject Code.Attribute.localTypes
          CodeAttributeLayout.localTypes (fun _ => rfl) fun content value => ?_
        cases content <;> simp [codeFormat, CodeAttributeLayout.Means, same]
      case isFalse => cases picked
  named {pool name content value} := by
    intro means
    cases content <;> simp [codeFormat, means.1]

namespace Code.Attribute

def localEntries : Code.Attribute → List LocalVariable
  | .locals entries => entries
  | .localTypes _ => []

def localTypeEntries : Code.Attribute → List LocalVariable
  | .locals _ => []
  | .localTypes entries => entries

end Code.Attribute

attribute [ext] Code

theorem Code.foldl_add (contents : List Code.Attribute) (maxStack maxLocals : Nat)
    (instructions : List Instruction) (handlers : List ExceptionHandler) :
    contents.foldl Code.add ⟨maxStack, maxLocals, instructions, handlers, [], []⟩ =
      ⟨maxStack, maxLocals, instructions, handlers, contents.flatMap Code.Attribute.localEntries,
        contents.flatMap Code.Attribute.localTypeEntries⟩ := by
  apply Code.ext
  case locals =>
    refine foldl_joined Code.locals Code.Attribute.localEntries (fun code content => ?_) ..
    cases content <;> simp [Code.add, Code.Attribute.localEntries]
  case localTypes =>
    refine foldl_joined Code.localTypes Code.Attribute.localTypeEntries (fun code content => ?_) ..
    cases content <;> simp [Code.add, Code.Attribute.localTypeEntries]
  all_goals exact foldl_kept _ (by intro code content; cases content <;> rfl) ..

structure CodeLayout where
  maxStack : UInt16
  maxLocals : UInt16
  program : List Bytecode.Operation
  handlers : List HandlerLayout
  attributes : List (AttributeLayout CodeAttributeLayout)

namespace CodeLayout

def array (layout : CodeLayout) : List UInt8 :=
  layout.program.flatMap Bytecode.Operation.bytes

def encode (layout : CodeLayout) : List UInt8 :=
  word2 layout.maxStack ++ (word2 layout.maxLocals ++ (numeral 4 layout.array.length ++
    (layout.array ++ (encodeTable HandlerLayout.encode layout.handlers ++
      encodeTable codeFormat.encodeAttribute layout.attributes))))

/-- The code array is one of complete operations, and all tables of one kind are joined. -/
def Means (pool : ConstantPool) (layout : CodeLayout) (code : Code) : Prop :=
  layout.array.length < UInt32.size ∧ Bytecode.Placed 0 layout.program ∧
    ∃ instructions handlers contents, Bytecode.Lists pool 0 layout.program instructions ∧
      TableMeans (HandlerLayout.Means pool) layout.handlers handlers ∧
      codeFormat.TableMeans pool layout.attributes contents ∧
      code = ⟨layout.maxStack.toNat, layout.maxLocals.toNat, instructions, handlers,
        contents.flatMap Code.Attribute.localEntries,
        contents.flatMap Code.Attribute.localTypeEntries⟩

end CodeLayout

/-- The tables that follow the code array, with what is known of the body before them. -/
def CodeTables (pool : ConstantPool) (maxStack maxLocals : Nat) (instructions : List Instruction) :
    List UInt8 → Code → Prop :=
  Written (fun tables : List HandlerLayout × List (AttributeLayout CodeAttributeLayout) =>
      encodeTable HandlerLayout.encode tables.1 ++ encodeTable codeFormat.encodeAttribute tables.2)
    fun tables code => ∃ handlers, TableMeans (HandlerLayout.Means pool) tables.1 handlers ∧
      ∃ contents, codeFormat.TableMeans pool tables.2 contents ∧
        code = ⟨maxStack, maxLocals, instructions, handlers,
          contents.flatMap Code.Attribute.localEntries,
          contents.flatMap Code.Attribute.localTypeEntries⟩

theorem decodes_codeTables (pool : ConstantPool) (maxStack maxLocals : Nat)
    (instructions : List Instruction) :
    Decodes (do
        let handlers ← Decoder.table (Code.decodeHandler pool)
        let attributes ← Decoder.attributes pool (Code.known pool)
        let code : Code :=
          { maxStack, maxLocals, instructions, handlers, locals := [], localTypes := [] }
        return attributes.foldl Code.add code)
      (CodeTables pool maxStack maxLocals instructions) := by
  refine ((decodes_handler pool).table.andThen fun handlers =>
    (codeFormat_followedBy.decodes_attributes pool).thenPure).congr fun bytes code => ?_
  simp only [CodeTables, Code.foldl_add]

/-- The code array is made of complete operations, and the tables follow it. -/
def CodeArray (pool : ConstantPool) (maxStack maxLocals : Nat) (array bytes : List UInt8)
    (code : Code) : Prop :=
  ∃ program instructions, Bytecode.Placed 0 program ∧
    array = program.flatMap Bytecode.Operation.bytes ∧
    Bytecode.Lists pool 0 program instructions ∧
    CodeTables pool maxStack maxLocals instructions bytes code

theorem decodes_codeArray (pool : ConstantPool) (maxStack maxLocals : Nat) (body : Cursor) :
    Decodes (do
        let instructions ← Decoder.resolve (Bytecode.decode pool body.offset body.rest)
        let handlers ← Decoder.table (Code.decodeHandler pool)
        let attributes ← Decoder.attributes pool (Code.known pool)
        let code : Code :=
          { maxStack, maxLocals, instructions, handlers, locals := [], localTypes := [] }
        return attributes.foldl Code.add code)
      (CodeArray pool maxStack maxLocals body.rest) := by
  -- where the array stands in the record shows in errors only
  refine ((Decodes.resolve _).bind
    (decodes_codeTables pool maxStack maxLocals)).congr fun bytes code => ?_
  constructor
  · intro ⟨_, tables, instructions, split, ⟨nothing, walked⟩, spelled⟩
    obtain ⟨program, placed, written, lists⟩ := (Bytecode.decodeFrom_eq_ok_iff ..).mp walked
    rw [nothing, List.nil_append] at split
    exact ⟨program, instructions, placed, written, lists, split ▸ spelled⟩
  · intro ⟨program, instructions, placed, written, lists, spelled⟩
    exact ⟨[], bytes, instructions, rfl,
      ⟨rfl, (Bytecode.decodeFrom_eq_ok_iff ..).mpr ⟨program, placed, written, lists⟩⟩, spelled⟩

theorem decodes_code (pool : ConstantPool) :
    Decodes (Code.decode pool) (Written CodeLayout.encode (CodeLayout.Means pool)) := by
  refine (Decodes.u2.bind fun maxStack => Decodes.u2.bind fun maxLocals =>
    Decodes.lengthPrefixed (decodes_codeArray pool maxStack maxLocals)).congr fun bytes code => ?_
  constructor
  · rintro ⟨_, _, _, rfl, ⟨maxStack, rfl, rfl⟩, _, _, _, rfl, ⟨maxLocals, rfl, rfl⟩, _, _, small, rfl,
      program, instructions, placed, rfl, lists, ⟨handlerLayouts, attributes⟩, rfl, handlers, handled,
      contents, described, rfl⟩
    exact ⟨⟨maxStack, maxLocals, program, handlerLayouts, attributes⟩, rfl, small, placed,
      instructions, handlers, contents, lists, handled, described, rfl⟩
  · rintro ⟨⟨maxStack, maxLocals, program, handlerLayouts, attributes⟩, rfl, small, placed,
      instructions, handlers, contents, lists, handled, described, rfl⟩
    exact ⟨_, _, _, rfl, ⟨maxStack, rfl, rfl⟩, _, _, _, rfl, ⟨maxLocals, rfl, rfl⟩, _, _, small, rfl,
      program, instructions, placed, rfl, lists, (handlerLayouts, attributes), rfl, handlers, handled,
      contents, described, rfl⟩

end ClassAtlas.ClassFile

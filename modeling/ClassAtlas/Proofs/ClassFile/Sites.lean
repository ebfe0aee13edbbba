import ClassAtlas.ClassFile.References
import Mathlib.Data.List.Basic

/-!
The places where a record names types, kind by kind. A strict site holds a descriptor that has to
parse, a lenient site type data that may be malformed, and a bare name is a class name as it stands.
The mentions of a record are these sites and nothing else, each kind in the order of the record.
-/

namespace ClassAtlas.ClassFile

structure StrictSite where
  text : String
  context : String

structure LenientSite where
  text : String
  kind : String
  context : String

mutual

/-- All values inside a value, outer before inner and from left to right. -/
def ElementValue.inside : ElementValue → List ElementValue
  | .nested entry => entry.inside
  | .array values => insideValues values
  | _ => []

def AnnotationEntry.inside : AnnotationEntry → List ElementValue
  | .mk _ elements => insideElements elements

def insideValues : List ElementValue → List ElementValue
  | [] => []
  | value :: values => value :: value.inside ++ insideValues values

def insideElements : List (String × ElementValue) → List ElementValue
  | [] => []
  | (_, value) :: elements => value :: value.inside ++ insideElements elements

end

/-- The descriptor that a value holds, apart from the values inside it. -/
def ElementValue.ownSites : ElementValue → List StrictSite
  | .const _ => []
  | .enum typeDescriptor _ => [⟨typeDescriptor, "annotation enum value"⟩]
  | .classLiteral descriptor => [⟨descriptor, "annotation class value"⟩]
  | .nested entry => [⟨entry.typeDescriptor, "annotation type"⟩]
  | .array _ => []

def ElementValue.strictSites (value : ElementValue) : List StrictSite :=
  (value :: value.inside).flatMap ElementValue.ownSites

def annotationSites (entries : List AnnotationEntry) : List StrictSite :=
  entries.flatMap fun entry => (ElementValue.nested entry).strictSites

namespace Instruction

def strictSites : Instruction → List StrictSite
  | .type _ _ _ => []
  | .field _ offset target => [⟨target.descriptor, s!"operand at bytecode offset {offset}"⟩]
  | .method _ offset target => [⟨target.descriptor, s!"operand at bytecode offset {offset}"⟩]
  | .invokeDynamic offset _ descriptor => [⟨descriptor, s!"call site at bytecode offset {offset}"⟩]
  | .loadConstant offset (.classLiteral literal) =>
    if literal.toList.head? = some '[' then
      [⟨literal, s!"class literal at bytecode offset {offset}"⟩]
    else []
  | .loadConstant offset (.methodType descriptor) =>
    [⟨descriptor, s!"method type at bytecode offset {offset}"⟩]
  | .loadConstant offset (.methodHandle _ target) =>
    [⟨target.descriptor, s!"method handle at bytecode offset {offset}"⟩]
  | .multiANewArray offset descriptor _ =>
    if descriptor.toList.head? = some '[' then
      [⟨descriptor, s!"multianewarray at bytecode offset {offset}"⟩]
    else []

def bareNames : Instruction → List String
  | .type _ _ className => [className]
  | .field _ _ target => [target.owner]
  | .method _ _ target => [target.owner]
  | .invokeDynamic _ _ _ => []
  | .loadConstant _ (.classLiteral literal) => [literal]
  | .loadConstant _ (.methodType _) => []
  | .loadConstant _ (.methodHandle _ target) => [target.owner]
  | .multiANewArray _ descriptor _ => [descriptor]

end Instruction

namespace Code

def strictSites (code : Code) : List StrictSite :=
  code.instructions.flatMap Instruction.strictSites

def bareNames (code : Code) : List String :=
  code.instructions.flatMap Instruction.bareNames ++ code.handlers.filterMap (·.catchType)

def lenientSites (method : String) (code : Code) : List LenientSite :=
  code.locals.map (fun entry =>
      ⟨entry.descriptor, "local variable descriptor", entry.name ++ " in " ++ method⟩)
    ++ code.localTypes.map fun entry =>
      ⟨entry.descriptor, "local variable signature", entry.name ++ " in " ++ method⟩

end Code

def signatureSites (signature : Option String) (context : String) : List LenientSite :=
  signature.toList.map fun text => ⟨text, "signature", context⟩

namespace Field

def strictSites (field : Field) : List StrictSite :=
  ⟨field.descriptor, "field " ++ field.name⟩ :: annotationSites field.annotations

def lenientSites (field : Field) : List LenientSite :=
  signatureSites field.signature field.name

end Field

namespace Method

def strictSites (method : Method) : List StrictSite :=
  ⟨method.descriptor, "method " ++ method.name⟩ :: annotationSites method.annotations
    ++ method.parameterAnnotations.flatMap annotationSites
    ++ method.annotationDefault.toList.flatMap ElementValue.strictSites
    ++ method.code.toList.flatMap Code.strictSites

def bareNames (method : Method) : List String :=
  method.exceptions ++ method.code.toList.flatMap Code.bareNames

def lenientSites (method : Method) : List LenientSite :=
  signatureSites method.signature method.name
    ++ method.code.toList.flatMap (Code.lenientSites method.name)

end Method

namespace Record

def strictSites (record : Record) : List StrictSite :=
  annotationSites record.annotations ++ record.fields.flatMap Field.strictSites
    ++ record.methods.flatMap Method.strictSites

def bareNames (record : Record) : List String :=
  record.thisClass :: record.superClass.toList ++ record.interfaces
    ++ record.methods.flatMap Method.bareNames

def lenientSites (record : Record) : List LenientSite :=
  signatureSites record.signature "class signature" ++ record.fields.flatMap Field.lenientSites
    ++ record.methods.flatMap Method.lenientSites

end Record

namespace Mention

def strict? : Mention → Option StrictSite
  | .strict descriptor context => some ⟨descriptor, context⟩
  | _ => none

def bare? : Mention → Option String
  | .name internal => Descriptor.internalName? internal
  | _ => none

def lenient? : Mention → Option LenientSite
  | .lenient text kind context => some ⟨text, kind, context⟩
  | _ => none

end Mention

def StrictSite.mention (site : StrictSite) : Mention :=
  .strict site.text site.context

def LenientSite.mention (site : LenientSite) : Mention :=
  .lenient site.text site.kind site.context

section Annotations

mutual

theorem ofElementValue_eq (value : ElementValue) :
    Mention.ofElementValue value = value.strictSites.map StrictSite.mention := by
  cases value with
  | const tag => rfl
  | enum typeDescriptor constName => rfl
  | classLiteral descriptor => rfl
  | nested entry => exact ofAnnotationEntry_eq entry
  | array values => exact ofElementValues_eq values

theorem ofElementValues_eq (values : List ElementValue) :
    Mention.ofElementValues values =
      ((insideValues values).flatMap ElementValue.ownSites).map StrictSite.mention := by
  cases values with
  | nil => rfl
  | cons value values =>
      rw [Mention.ofElementValues, ofElementValue_eq value, ofElementValues_eq values, insideValues,
        List.flatMap_append, List.map_append]
      rfl

theorem ofAnnotationEntry_eq (entry : AnnotationEntry) :
    Mention.ofAnnotationEntry entry =
      (ElementValue.nested entry).strictSites.map StrictSite.mention := by
  cases entry with
  | mk typeDescriptor elements =>
      rw [Mention.ofAnnotationEntry, ofElements_eq elements]
      rfl

theorem ofElements_eq (elements : List (String × ElementValue)) :
    Mention.ofElements elements =
      ((insideElements elements).flatMap ElementValue.ownSites).map StrictSite.mention := by
  match elements with
  | [] => rfl
  | (_, value) :: elements =>
      rw [Mention.ofElements, ofElementValue_eq value, ofElements_eq elements, insideElements,
        List.flatMap_append, List.map_append]
      rfl

end

theorem ofAnnotations_eq (entries : List AnnotationEntry) :
    Mention.ofAnnotations entries = (annotationSites entries).map StrictSite.mention := by
  rw [Mention.ofAnnotations, annotationSites, List.map_flatMap, funext ofAnnotationEntry_eq]

end Annotations

section Kinds

theorem comp_strict : Mention.strict? ∘ StrictSite.mention = some ∧
    Mention.bare? ∘ StrictSite.mention = (fun _ => none) ∧
    Mention.lenient? ∘ StrictSite.mention = fun _ => none :=
  ⟨rfl, rfl, rfl⟩

theorem comp_name : Mention.strict? ∘ Mention.name = (fun _ => none) ∧
    Mention.bare? ∘ Mention.name = Descriptor.internalName? ∧
    Mention.lenient? ∘ Mention.name = fun _ => none :=
  ⟨rfl, rfl, rfl⟩

theorem comp_lenient : Mention.strict? ∘ LenientSite.mention = (fun _ => none) ∧
    Mention.bare? ∘ LenientSite.mention = (fun _ => none) ∧
    Mention.lenient? ∘ LenientSite.mention = some :=
  ⟨rfl, rfl, rfl⟩

theorem flatMap_nothing {α β : Type} (items : List α) :
    (items.flatMap fun _ => ([] : List β)) = [] :=
  List.flatMap_eq_nil_iff.mpr fun _ _ => rfl

theorem internalName?_eq_some_iff (internal name : String) :
    Descriptor.internalName? internal = some name ↔
      name = internal ∧ name ≠ "" ∧ name.toList.head? ≠ some '[' := by
  have empty : internal = "" ↔ internal.toList = [] := by
    rw [← String.toList_inj]
    rfl
  unfold Descriptor.internalName?
  split
  case h_1 none =>
    constructor
    · intro impossible
      cases impossible
    · rintro ⟨rfl, nonempty, -⟩
      exact (nonempty (empty.mpr none)).elim
  case h_2 tail array =>
    constructor
    · intro impossible
      cases impossible
    · rintro ⟨rfl, -, notArray⟩
      exact (notArray (by rw [array, List.head?_cons])).elim
  case h_3 nonempty notArray =>
    constructor
    · intro same
      cases same
      refine ⟨rfl, mt empty.mp nonempty, fun array => ?_⟩
      obtain ⟨tail, spelled⟩ := List.head?_eq_some_iff.mp array
      exact notArray tail spelled
    · rintro ⟨rfl, -, -⟩
      rfl

end Kinds

section Instructions

theorem sites_classConstant (name context : String) :
    [Mention.classConstant name context].filterMap Mention.strict? =
        (if name.toList.head? = some '[' then [⟨name, context⟩] else []) ∧
      [Mention.classConstant name context].filterMap Mention.bare? =
        [name].filterMap Descriptor.internalName? ∧
      [Mention.classConstant name context].filterMap Mention.lenient? = [] := by
  unfold Mention.classConstant
  split
  case isTrue array =>
    -- the name of an array is no bare name, so both readings of the constant agree on it
    have unnamed : Descriptor.internalName? name = none := by
      cases named : Descriptor.internalName? name with
      | none => rfl
      | some found =>
          obtain ⟨rfl, -, notArray⟩ := (internalName?_eq_some_iff ..).mp named
          exact (notArray array).elim
    refine ⟨rfl, ?_, rfl⟩
    rw [List.filterMap_cons_none unnamed]
    rfl
  case isFalse => exact ⟨rfl, rfl, rfl⟩

theorem sites_ofInstruction (instruction : Instruction) :
    (Mention.ofInstruction instruction).filterMap Mention.strict? = instruction.strictSites ∧
      (Mention.ofInstruction instruction).filterMap Mention.bare? =
        instruction.bareNames.filterMap Descriptor.internalName? ∧
      (Mention.ofInstruction instruction).filterMap Mention.lenient? = [] := by
  cases instruction with
  | loadConstant offset constant =>
      cases constant with
      | classLiteral literal => exact sites_classConstant ..
      | _ => exact ⟨rfl, rfl, rfl⟩
  | multiANewArray offset descriptor dimensions => exact sites_classConstant ..
  | _ => exact ⟨rfl, rfl, rfl⟩

end Instructions

section Members

theorem ofSignature_eq (signature : Option String) (context : String) :
    Mention.ofSignature signature context =
      (signatureSites signature context).map LenientSite.mention := by
  cases signature <;> rfl

theorem ofCode_eq (method : String) (code : Code) :
    Mention.ofCode method code = code.instructions.flatMap Mention.ofInstruction
      ++ (code.handlers.filterMap (·.catchType)).map Mention.name
      ++ (code.lenientSites method).map LenientSite.mention := by
  rw [Mention.ofCode, Code.lenientSites, List.map_append, List.map_map, List.map_map,
    ← List.append_assoc]
  rfl

theorem ofField_eq (field : Field) :
    Mention.ofField field = [⟨field.descriptor, "field " ++ field.name⟩].map StrictSite.mention
      ++ field.lenientSites.map LenientSite.mention
      ++ (annotationSites field.annotations).map StrictSite.mention := by
  rw [Mention.ofField, ofSignature_eq, ofAnnotations_eq]
  rfl

theorem ofMethod_eq (method : Method) :
    Mention.ofMethod method = [⟨method.descriptor, "method " ++ method.name⟩].map StrictSite.mention
      ++ (signatureSites method.signature method.name).map LenientSite.mention
      ++ method.exceptions.map Mention.name
      ++ (annotationSites method.annotations ++ method.parameterAnnotations.flatMap annotationSites
        ++ method.annotationDefault.toList.flatMap ElementValue.strictSites).map StrictSite.mention
      ++ method.code.toList.flatMap (Mention.ofCode method.name) := by
  simp [Mention.ofMethod, ofSignature_eq, List.map_flatMap, funext ofAnnotations_eq,
    funext ofElementValue_eq, StrictSite.mention]

theorem ofRecord_eq (record : Record) :
    Mention.ofRecord record =
      (record.thisClass :: record.superClass.toList ++ record.interfaces).map Mention.name
        ++ (signatureSites record.signature "class signature").map LenientSite.mention
        ++ (annotationSites record.annotations).map StrictSite.mention
        ++ record.fields.flatMap Mention.ofField
        ++ record.methods.flatMap Mention.ofMethod := by
  simp [Mention.ofRecord, ofSignature_eq, ofAnnotations_eq]

end Members

section Sites

theorem sites_ofCode (method : String) (code : Code) :
    (Mention.ofCode method code).filterMap Mention.strict? = code.strictSites ∧
      (Mention.ofCode method code).filterMap Mention.bare? =
        code.bareNames.filterMap Descriptor.internalName? ∧
      (Mention.ofCode method code).filterMap Mention.lenient? = code.lenientSites method := by
  simp only [ofCode_eq, List.filterMap_append, List.filterMap_flatMap, List.filterMap_map,
    comp_name, comp_lenient, List.filterMap_some, List.filterMap_none, flatMap_nothing,
    List.append_nil, List.nil_append, sites_ofInstruction, Code.strictSites, Code.bareNames,
    and_self]

theorem sites_ofField (field : Field) :
    (Mention.ofField field).filterMap Mention.strict? = field.strictSites ∧
      (Mention.ofField field).filterMap Mention.bare? = [] ∧
      (Mention.ofField field).filterMap Mention.lenient? = field.lenientSites := by
  simp only [ofField_eq, List.filterMap_append, List.filterMap_map, comp_strict, comp_lenient,
    List.filterMap_some, List.filterMap_none, List.append_nil, List.nil_append, and_self, and_true]
  rfl

theorem sites_ofMethod (method : Method) :
    (Mention.ofMethod method).filterMap Mention.strict? = method.strictSites ∧
      (Mention.ofMethod method).filterMap Mention.bare? =
        method.bareNames.filterMap Descriptor.internalName? ∧
      (Mention.ofMethod method).filterMap Mention.lenient? = method.lenientSites := by
  simp only [ofMethod_eq, List.filterMap_append, List.filterMap_flatMap, List.filterMap_map,
    comp_strict, comp_name, comp_lenient, List.filterMap_some, List.filterMap_none, flatMap_nothing,
    List.append_nil, List.nil_append, sites_ofCode, Method.strictSites, Method.bareNames,
    Method.lenientSites, and_self, and_true]
  rfl

/-- The mentions of a record are its sites, each kind in order. -/
theorem sites_ofRecord (record : Record) :
    (Mention.ofRecord record).filterMap Mention.strict? = record.strictSites ∧
      (Mention.ofRecord record).filterMap Mention.bare? =
        record.bareNames.filterMap Descriptor.internalName? ∧
      (Mention.ofRecord record).filterMap Mention.lenient? = record.lenientSites := by
  simp only [ofRecord_eq, List.filterMap_append, List.filterMap_flatMap, List.filterMap_map,
    comp_strict, comp_name, comp_lenient, List.filterMap_some, List.filterMap_none, flatMap_nothing,
    List.append_nil, List.nil_append, sites_ofField, sites_ofMethod, Record.strictSites,
    Record.bareNames, Record.lenientSites, and_self]

end Sites

end ClassAtlas.ClassFile

import ClassAtlas.Proofs.ClassFile.AnnotationLayout
import ClassAtlas.Proofs.ClassFile.CodeLayout

/-!
The layout of fields and methods. Both have the same header, and differ in the attributes they know
and in what they keep of them.
-/

namespace ClassAtlas.ClassFile

/-- The contents that classes, fields and methods share. -/
inductive CommonLayout where
  | signature (textIndex : UInt16)
  | annotations (entries : List AnnotationLayout)

namespace CommonLayout

def encode : CommonLayout → List UInt8
  | .signature textIndex => word2 textIndex
  | .annotations entries => encodeTable AnnotationLayout.encode entries

def Means (pool : ConstantPool) (name : String) : CommonLayout → CommonAttribute → Prop
  | .signature textIndex, content => name = "Signature" ∧
    ∃ text, pool.Text textIndex.toNat text ∧ content = .signature text
  | .annotations entries, content =>
    (name = "RuntimeVisibleAnnotations" ∨ name = "RuntimeInvisibleAnnotations") ∧
      ∃ found, TableMeans (AnnotationLayout.Means pool) entries found ∧ content = .annotations found

end CommonLayout

def commonFormat : AttributeFormat CommonLayout CommonAttribute where
  names := ["Signature", "RuntimeVisibleAnnotations", "RuntimeInvisibleAnnotations"]
  encode := CommonLayout.encode
  Means := CommonLayout.Means

theorem commonFormat_followedBy : commonFormat.FollowedBy CommonAttribute.known where
  unknown pool name := by
    unfold CommonAttribute.known
    split <;> simp_all [commonFormat]
  decodes {pool name d} := by
    intro picked
    unfold CommonAttribute.known at picked
    split at picked
    case isTrue same =>
      cases picked
      refine (decodes_utf8 pool).inject CommonAttribute.signature CommonLayout.signature
        (fun _ => rfl) fun content value => ?_
      cases content <;> simp [commonFormat, CommonLayout.Means, same]
    case isFalse different =>
      split at picked
      case isTrue same =>
        cases picked
        refine (decodes_annotationTable pool).inject CommonAttribute.annotations
          CommonLayout.annotations (fun _ => rfl) fun content value => ?_
        cases content <;> simp [commonFormat, CommonLayout.Means, same, different]
      case isFalse => cases picked
  named {pool name content value} := by
    intro means
    cases content with
    | signature textIndex => simp [commonFormat, means.1]
    | annotations entries =>
        obtain rfl | rfl := means.1 <;> simp [commonFormat]

namespace CommonAttribute

def signature? : CommonAttribute → Option String
  | .signature text => some text
  | .annotations _ => none

def entries : CommonAttribute → List AnnotationEntry
  | .signature _ => []
  | .annotations entries => entries

end CommonAttribute

/-- Tables of annotations, one for each parameter, after a one-byte count. -/
def encodeParameters (tables : List (List AnnotationLayout)) : List UInt8 :=
  UInt8.ofNat tables.length :: tables.flatMap (encodeTable AnnotationLayout.encode)

def ParametersMean (pool : ConstantPool) (tables : List (List AnnotationLayout))
    (found : List (List AnnotationEntry)) : Prop :=
  tables.length < UInt8.size ∧ List.Forall₂ (TableMeans (AnnotationLayout.Means pool)) tables found

theorem decodes_parameterAnnotations (pool : ConstantPool) :
    Decodes (Method.decodeParameterAnnotations pool)
      (Written encodeParameters (ParametersMean pool)) := by
  refine (Decodes.u1.bind fun parameters =>
    (decodes_annotationTable pool).times parameters.toNat).congr fun bytes found => ?_
  constructor
  · rintro ⟨_, _, _, rfl, ⟨parameters, rfl, rfl⟩, tables, counted, rfl, described⟩
    refine ⟨tables, ?_, ?_, described⟩
    · rw [encodeParameters, counted, UInt8.ofNat_toNat]
      rfl
    · rw [counted]
      exact UInt8.toNat_lt _
  · rintro ⟨tables, rfl, small, described⟩
    refine ⟨_, _, _, rfl, ⟨UInt8.ofNat tables.length, rfl, rfl⟩, tables, ?_, rfl, described⟩
    exact (UInt8.toNat_ofNat_of_lt' small).symm

inductive MethodAttributeLayout where
  | common (shared : CommonLayout)
  | exceptions (classIndices : List UInt16)
  | code (body : CodeLayout)
  | parameterAnnotations (tables : List (List AnnotationLayout))
  | annotationDefault (value : ElementLayout)

namespace MethodAttributeLayout

def encode : MethodAttributeLayout → List UInt8
  | .common shared => shared.encode
  | .exceptions classIndices => encodeTable word2 classIndices
  | .code body => body.encode
  | .parameterAnnotations tables => encodeParameters tables
  | .annotationDefault value => value.encode

def Means (pool : ConstantPool) (name : String) : MethodAttributeLayout → Method.Attribute → Prop
  | .common shared, content => ∃ found, shared.Means pool name found ∧ content = .common found
  | .exceptions classIndices, content => name = "Exceptions" ∧
    ∃ names, TableMeans (fun index found => pool.NamesClass index.toNat found) classIndices names ∧
      content = .exceptions names
  | .code body, content => name = "Code" ∧ ∃ found, body.Means pool found ∧ content = .code found
  | .parameterAnnotations tables, content =>
    (name = "RuntimeVisibleParameterAnnotations" ∨ name = "RuntimeInvisibleParameterAnnotations") ∧
      ∃ found, ParametersMean pool tables found ∧ content = .parameterAnnotations found
  | .annotationDefault value, content => name = "AnnotationDefault" ∧
    ∃ found, value.Means pool found ∧ content = .annotationDefault found

end MethodAttributeLayout

/-- The names that only a method's attributes have. -/
def methodNames : List String :=
  ["Exceptions", "Code", "RuntimeVisibleParameterAnnotations", "RuntimeInvisibleParameterAnnotations",
    "AnnotationDefault"]

def methodFormat : AttributeFormat MethodAttributeLayout Method.Attribute where
  names := methodNames ++ commonFormat.names
  encode := MethodAttributeLayout.encode
  Means := MethodAttributeLayout.Means

theorem not_commonMeans (pool : ConstantPool) {name : String} (own : name ∈ methodNames)
    (shared : CommonLayout) (content : CommonAttribute) : ¬ shared.Means pool name content := by
  have apart : ∀ name ∈ methodNames, name ∉ commonFormat.names := by decide
  intro means
  exact apart name own (commonFormat_followedBy.named means)

theorem methodFormat_followedBy : methodFormat.FollowedBy Method.known where
  unknown pool name := by
    rw [methodFormat, List.mem_append, not_or, ← commonFormat_followedBy.unknown pool name]
    by_cases own : name ∈ methodNames
    · have picked : Method.known pool name ≠ none := by
        simp only [methodNames, List.mem_cons, List.not_mem_nil, or_false] at own
        obtain rfl | rfl | rfl | rfl | rfl := own <;> simp [Method.known]
      simp [picked, own]
    · have passed : Method.known pool name =
          (CommonAttribute.known pool name).map (Method.Attribute.common <$> ·) := by
        simp only [methodNames, List.mem_cons, List.not_mem_nil, or_false, not_or] at own
        simp [Method.known, own]
      simp [passed, own]
  decodes {pool name d} := by
    intro picked
    unfold Method.known at picked
    split at picked
    case isTrue same =>
      cases picked
      subst same
      have own : "Exceptions" ∈ methodNames := by decide
      refine (decodes_className pool).table.inject Method.Attribute.exceptions
        MethodAttributeLayout.exceptions (fun _ => rfl) fun content value => ?_
      cases content <;>
        simp [methodFormat, MethodAttributeLayout.Means, not_commonMeans pool own]
    case isFalse notExceptions =>
    split at picked
    case isTrue same =>
      cases picked
      subst same
      have own : "Code" ∈ methodNames := by decide
      refine (decodes_code pool).inject Method.Attribute.code MethodAttributeLayout.code
        (fun _ => rfl) fun content value => ?_
      cases content <;>
        simp [methodFormat, MethodAttributeLayout.Means, not_commonMeans pool own]
    case isFalse notCode =>
    split at picked
    case isTrue same =>
      cases picked
      have own : name ∈ methodNames := by obtain rfl | rfl := same <;> decide
      have notDefault : name ≠ "AnnotationDefault" := by obtain rfl | rfl := same <;> simp
      refine (decodes_parameterAnnotations pool).inject Method.Attribute.parameterAnnotations
        MethodAttributeLayout.parameterAnnotations (fun _ => rfl) fun content value => ?_
      cases content <;>
        simp [methodFormat, MethodAttributeLayout.Means, not_commonMeans pool own, same,
          notExceptions, notCode, notDefault]
    case isFalse notParameters =>
    split at picked
    case isTrue same =>
      cases picked
      subst same
      have own : "AnnotationDefault" ∈ methodNames := by decide
      refine (decodes_elementValue pool).inject Method.Attribute.annotationDefault
        MethodAttributeLayout.annotationDefault (fun _ => rfl) fun content value => ?_
      cases content <;>
        simp [methodFormat, MethodAttributeLayout.Means, not_commonMeans pool own]
    case isFalse notDefault =>
      obtain ⟨shared, pickedShared, rfl⟩ := Option.map_eq_some_iff.mp picked
      refine (commonFormat_followedBy.decodes pickedShared).inject Method.Attribute.common
        MethodAttributeLayout.common (fun _ => rfl) fun content value => ?_
      cases content <;>
        simp [methodFormat, MethodAttributeLayout.Means, commonFormat, notExceptions, notCode,
          notParameters, notDefault]
  named {pool name content value} := by
    intro means
    cases content with
    | common shared =>
        obtain ⟨found, meansShared, -⟩ := means
        exact List.mem_append_right _ (commonFormat_followedBy.named meansShared)
    | exceptions classIndices => simp [methodFormat, methodNames, means.1]
    | code body => simp [methodFormat, methodNames, means.1]
    | parameterAnnotations tables => obtain rfl | rfl := means.1 <;> simp [methodFormat, methodNames]
    | annotationDefault value => simp [methodFormat, methodNames, means.1]

namespace Method.Attribute

def signature? : Method.Attribute → Option String
  | .common shared => shared.signature?
  | _ => none

def entries : Method.Attribute → List AnnotationEntry
  | .common shared => shared.entries
  | _ => []

def exceptionNames : Method.Attribute → List String
  | .exceptions names => names
  | _ => []

def code? : Method.Attribute → Option Code
  | .code body => some body
  | _ => none

def parameterTables : Method.Attribute → List (List AnnotationEntry)
  | .parameterAnnotations tables => tables
  | _ => []

def default? : Method.Attribute → Option ElementValue
  | .annotationDefault value => some value
  | _ => none

end Method.Attribute

section JoinedTables

/-- The annotations of every parameter that some table has, from all tables in order. -/
def joinedTables (tables : List (List (List AnnotationEntry))) : List (List AnnotationEntry) :=
  (List.range ((tables.map List.length).foldl max 0)).map fun parameter =>
    tables.flatMap (·.getD parameter [])

@[simp]
theorem joinTables_nil (tables : List (List AnnotationEntry)) :
    Method.joinTables tables [] = tables := by
  cases tables <;> rfl

theorem length_joinTables (tables more : List (List AnnotationEntry)) :
    (Method.joinTables tables more).length = max tables.length more.length := by
  fun_induction Method.joinTables tables more with
  | case1 more => simp
  | case2 tables => simp
  | case3 table tables more rest ih => simp only [List.length_cons, ih, Nat.add_max_add_right]

theorem getD_joinTables (tables more : List (List AnnotationEntry)) (parameter : Nat) :
    (Method.joinTables tables more).getD parameter [] =
      tables.getD parameter [] ++ more.getD parameter [] := by
  fun_induction Method.joinTables tables more generalizing parameter with
  | case1 more => simp
  | case2 tables => simp
  | case3 table tables more rest ih =>
      cases parameter with
      | zero => rfl
      | succ parameter => exact ih parameter

theorem foldl_joinTables (tables : List (List (List AnnotationEntry))) :
    tables.foldl Method.joinTables [] = joinedTables tables := by
  have length : (tables.foldl Method.joinTables []).length = (tables.map List.length).foldl max 0 := by
    rw [List.foldl_map]
    exact (List.foldl_hom List.length fun joined table => (length_joinTables joined table).symm).symm
  have entries (parameter : Nat) : (tables.foldl Method.joinTables []).getD parameter [] =
      tables.flatMap (·.getD parameter []) :=
    foldl_joined (·.getD parameter []) (·.getD parameter [])
      (fun joined table => getD_joinTables joined table parameter) tables []
  -- both lists have the same length, and the same entries for each parameter
  apply List.ext_getElem
  · rw [length, joinedTables, List.length_map, List.length_range]
  · intro parameter inJoined inTables
    have same := entries parameter
    rw [List.getD_eq_getElem?_getD, List.getElem?_eq_getElem inJoined, Option.getD_some] at same
    simpa [joinedTables] using same

end JoinedTables

attribute [ext] Field Method

/-- Of a repeated signature the last counts, and all annotations are joined. -/
def Field.assemble (access : Nat) (name descriptor : String) (contents : List CommonAttribute) :
    Field :=
  { access, name, descriptor
    signature := (contents.filterMap CommonAttribute.signature?).getLast?
    annotations := contents.flatMap CommonAttribute.entries }

theorem Field.foldl_add (contents : List CommonAttribute) (access : Nat) (name descriptor : String) :
    contents.foldl Field.add { access, name, descriptor } =
      Field.assemble access name descriptor contents := by
  unfold Field.assemble
  apply Field.ext
  case signature =>
    rw [foldl_last Field.signature CommonAttribute.signature?, Option.or_none]
    intro field content
    cases content <;> rfl
  case annotations =>
    rw [foldl_joined Field.annotations CommonAttribute.entries, List.nil_append]
    intro field content
    cases content <;> simp [Field.add, CommonAttribute.entries]
  all_goals exact foldl_kept _ (by intro field content; cases content <;> rfl) ..

/-- Of a repeated signature, default or body the last counts, and the rest is joined. -/
def Method.assemble (access : Nat) (name descriptor : String) (contents : List Method.Attribute) :
    Method :=
  { access, name, descriptor
    signature := (contents.filterMap Method.Attribute.signature?).getLast?
    exceptions := contents.flatMap Method.Attribute.exceptionNames
    annotations := contents.flatMap Method.Attribute.entries
    parameterAnnotations := joinedTables (contents.map Method.Attribute.parameterTables)
    annotationDefault := (contents.filterMap Method.Attribute.default?).getLast?
    code := (contents.filterMap Method.Attribute.code?).getLast? }

theorem Method.foldl_add (contents : List Method.Attribute) (access : Nat)
    (name descriptor : String) :
    contents.foldl Method.add { access, name, descriptor } =
      Method.assemble access name descriptor contents := by
  unfold Method.assemble
  apply Method.ext
  case signature =>
    rw [foldl_last Method.signature Method.Attribute.signature?, Option.or_none]
    intro method content
    fun_cases Method.add method content <;> rfl
  case exceptions =>
    rw [foldl_joined Method.exceptions Method.Attribute.exceptionNames, List.nil_append]
    intro method content
    fun_cases Method.add method content <;> simp [Method.Attribute.exceptionNames]
  case annotations =>
    rw [foldl_joined Method.annotations Method.Attribute.entries, List.nil_append]
    intro method content
    fun_cases Method.add method content <;> simp [Method.Attribute.entries, CommonAttribute.entries]
  case parameterAnnotations =>
    rw [← foldl_joinTables, List.foldl_map]
    refine (List.foldl_hom Method.parameterAnnotations fun method content => ?_).symm
    fun_cases Method.add method content <;> simp [Method.Attribute.parameterTables]
  case annotationDefault =>
    rw [foldl_last Method.annotationDefault Method.Attribute.default?, Option.or_none]
    intro method content
    fun_cases Method.add method content <;> rfl
  case code =>
    rw [foldl_last Method.code Method.Attribute.code?, Option.or_none]
    intro method content
    fun_cases Method.add method content <;> rfl
  all_goals
    refine foldl_kept _ (fun method content => ?_) ..
    fun_cases Method.add method content <;> rfl

structure MemberLayout (K : Type) where
  access : UInt16
  nameIndex : UInt16
  descriptorIndex : UInt16
  attributes : List (AttributeLayout K)

namespace MemberLayout

variable {K α β : Type} (format : AttributeFormat K α)

def encode (layout : MemberLayout K) : List UInt8 :=
  word2 layout.access ++ (word2 layout.nameIndex ++ (word2 layout.descriptorIndex ++
    encodeTable format.encodeAttribute layout.attributes))

/-- The member that `build` makes of the header and the contents of the attributes. -/
def Means (pool : ConstantPool) (build : Nat → String → String → List α → β)
    (layout : MemberLayout K) (member : β) : Prop :=
  ∃ name descriptor contents, pool.Text layout.nameIndex.toNat name ∧
    pool.Text layout.descriptorIndex.toNat descriptor ∧
    format.TableMeans pool layout.attributes contents ∧
    member = build layout.access.toNat name descriptor contents

end MemberLayout

theorem AttributeFormat.FollowedBy.decodes_member {K α β : Type} {format : AttributeFormat K α}
    {known : ConstantPool → String → Option (Decoder α)} (follows : format.FollowedBy known)
    (pool : ConstantPool) (build : Nat → String → String → List α → β) :
    Decodes (do
        let access ← Decoder.u2
        let name ← decodeUtf8 pool
        let descriptor ← decodeUtf8 pool
        let attributes ← Decoder.attributes pool (known pool)
        return build access name descriptor attributes)
      (Written (MemberLayout.encode format) (MemberLayout.Means format pool build)) := by
  refine (Decodes.u2.andThen fun access => (decodes_utf8 pool).andThen fun name =>
    (decodes_utf8 pool).andThen fun descriptor =>
      (follows.decodes_attributes pool).thenPure).congr fun bytes member => ?_
  constructor
  · rintro ⟨⟨access, nameIndex, descriptorIndex, attributes⟩, rfl, _, rfl, name, named, descriptor,
      described, contents, listed, rfl⟩
    exact ⟨⟨access, nameIndex, descriptorIndex, attributes⟩, rfl, name, descriptor, contents, named,
      described, listed, rfl⟩
  · rintro ⟨⟨access, nameIndex, descriptorIndex, attributes⟩, rfl, name, descriptor, contents, named,
      described, listed, rfl⟩
    exact ⟨(access, nameIndex, descriptorIndex, attributes), rfl, _, rfl, name, named, descriptor,
      described, contents, listed, rfl⟩

abbrev FieldLayout := MemberLayout CommonLayout

namespace FieldLayout

def encode : FieldLayout → List UInt8 :=
  MemberLayout.encode commonFormat

def Means (pool : ConstantPool) : FieldLayout → Field → Prop :=
  MemberLayout.Means commonFormat pool Field.assemble

end FieldLayout

abbrev MethodLayout := MemberLayout MethodAttributeLayout

namespace MethodLayout

def encode : MethodLayout → List UInt8 :=
  MemberLayout.encode methodFormat

def Means (pool : ConstantPool) : MethodLayout → Method → Prop :=
  MemberLayout.Means methodFormat pool Method.assemble

end MethodLayout

theorem decodes_field (pool : ConstantPool) :
    Decodes (Field.decode pool) (Written FieldLayout.encode (FieldLayout.Means pool)) := by
  refine (commonFormat_followedBy.decodes_member pool fun access name descriptor contents =>
    contents.foldl Field.add { access, name, descriptor }).congr fun bytes field => ?_
  simp only [Field.foldl_add]
  rfl

theorem decodes_method (pool : ConstantPool) :
    Decodes (Method.decode pool) (Written MethodLayout.encode (MethodLayout.Means pool)) := by
  refine (methodFormat_followedBy.decodes_member pool fun access name descriptor contents =>
    contents.foldl Method.add { access, name, descriptor }).congr fun bytes method => ?_
  simp only [Method.foldl_add]
  rfl

end ClassAtlas.ClassFile

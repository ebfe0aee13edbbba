import ClassAtlas.ClassFile.Annotations
import ClassAtlas.Proofs.ClassFile.Decoding

/-!
The layout of annotations. Element values nest through arrays and annotations to any depth, and each
level takes at least its tag, so a decoder that may descend as often as there are bytes left reads
every layout.
-/

namespace ClassAtlas.ClassFile

mutual

inductive ElementLayout where
  | const (tag : Char) (known : tag ∈ ['B', 'C', 'D', 'F', 'I', 'J', 'S', 'Z', 's'])
      (index : UInt16)
  | enum (typeIndex constIndex : UInt16)
  | classLiteral (index : UInt16)
  | nested (inner : AnnotationLayout)
  | array (values : List ElementLayout)

inductive AnnotationLayout where
  | mk (typeIndex : UInt16) (elements : List (UInt16 × ElementLayout))

end

mutual

def ElementLayout.encode : ElementLayout → List UInt8
  | .const tag _ index => tag.toUInt8 :: word2 index
  | .enum typeIndex constIndex => 'e'.toUInt8 :: (word2 typeIndex ++ word2 constIndex)
  | .classLiteral index => 'c'.toUInt8 :: word2 index
  | .nested annotation => '@'.toUInt8 :: annotation.encode
  | .array values => '['.toUInt8 :: (numeral 2 values.length ++ encodeValues values)

def encodeValues : List ElementLayout → List UInt8
  | [] => []
  | value :: values => value.encode ++ encodeValues values

def AnnotationLayout.encode : AnnotationLayout → List UInt8
  | .mk typeIndex elements => word2 typeIndex ++ (numeral 2 elements.length ++ encodePairs elements)

def encodePairs : List (UInt16 × ElementLayout) → List UInt8
  | [] => []
  | (nameIndex, value) :: elements => (word2 nameIndex ++ value.encode) ++ encodePairs elements

end

mutual

/-- The layout resolves in the pool to the value. Only the tag of a constant is kept, but the constant
has to be there. Counts fit their fields. -/
def ElementLayout.Means (pool : ConstantPool) : ElementLayout → ElementValue → Prop
  | .const tag _ index, value => (∃ c, pool.Holds index.toNat c) ∧ value = .const tag
  | .enum typeIndex constIndex, value =>
    ∃ typeDescriptor constName, pool.Text typeIndex.toNat typeDescriptor ∧
      pool.Text constIndex.toNat constName ∧ value = .enum typeDescriptor constName
  | .classLiteral index, value =>
    ∃ descriptor, pool.Text index.toNat descriptor ∧ value = .classLiteral descriptor
  | .nested annotation, value => ∃ entry, annotation.Means pool entry ∧ value = .nested entry
  | .array layouts, value =>
    layouts.length < UInt16.size ∧ ∃ values, ValuesMean pool layouts values ∧ value = .array values

def ValuesMean (pool : ConstantPool) : List ElementLayout → List ElementValue → Prop
  | [], values => values = []
  | layout :: layouts, values =>
    ∃ value more, layout.Means pool value ∧ ValuesMean pool layouts more ∧ values = value :: more

def AnnotationLayout.Means (pool : ConstantPool) : AnnotationLayout → AnnotationEntry → Prop
  | .mk typeIndex layouts, entry =>
    layouts.length < UInt16.size ∧ ∃ typeDescriptor elements, pool.Text typeIndex.toNat typeDescriptor ∧
      PairsMean pool layouts elements ∧ entry = .mk typeDescriptor elements

def PairsMean (pool : ConstantPool) :
    List (UInt16 × ElementLayout) → List (String × ElementValue) → Prop
  | [], elements => elements = []
  | (nameIndex, layout) :: layouts, elements =>
    ∃ name value more, pool.Text nameIndex.toNat name ∧ layout.Means pool value ∧
      PairsMean pool layouts more ∧ elements = (name, value) :: more

end

mutual

def ElementLayout.depth : ElementLayout → Nat
  | .const _ _ _ => 1
  | .enum _ _ => 1
  | .classLiteral _ => 1
  | .nested annotation => annotation.depth + 1
  | .array values => depthOfValues values + 1

def depthOfValues : List ElementLayout → Nat
  | [] => 0
  | value :: values => max value.depth (depthOfValues values)

def AnnotationLayout.depth : AnnotationLayout → Nat
  | .mk _ elements => depthOfPairs elements

def depthOfPairs : List (UInt16 × ElementLayout) → Nat
  | [] => 0
  | (_, value) :: elements => max value.depth (depthOfPairs elements)

end

theorem encodeValues_eq (values : List ElementLayout) :
    encodeValues values = values.flatMap ElementLayout.encode := by
  induction values with
  | nil => rfl
  | cons value values ih => rw [encodeValues, ih, List.flatMap_cons]

def encodePair (element : UInt16 × ElementLayout) : List UInt8 :=
  word2 element.1 ++ element.2.encode

theorem encodePairs_eq (elements : List (UInt16 × ElementLayout)) :
    encodePairs elements = elements.flatMap encodePair := by
  induction elements with
  | nil => rfl
  | cons element elements ih => rw [encodePairs, ih, List.flatMap_cons, encodePair]

mutual

theorem ElementLayout.depth_le_length : ∀ layout : ElementLayout,
    layout.depth ≤ layout.encode.length
  | .const _ _ _ => by simp [ElementLayout.depth, ElementLayout.encode]
  | .enum _ _ => by simp [ElementLayout.depth, ElementLayout.encode]
  | .classLiteral _ => by simp [ElementLayout.depth, ElementLayout.encode]
  | .nested annotation => by
    have inner := annotation.depth_le_length
    simp only [ElementLayout.depth, ElementLayout.encode, List.length_cons]
    omega
  | .array values => by
    have inner := depthOfValues_le_length values
    simp only [ElementLayout.depth, ElementLayout.encode, List.length_cons, List.length_append]
    omega

theorem depthOfValues_le_length : ∀ values : List ElementLayout,
    depthOfValues values ≤ (encodeValues values).length
  | [] => Nat.zero_le _
  | value :: values => by
    have first := value.depth_le_length
    have more := depthOfValues_le_length values
    simp only [depthOfValues, encodeValues, List.length_append]
    omega

theorem AnnotationLayout.depth_le_length : ∀ layout : AnnotationLayout,
    layout.depth ≤ layout.encode.length
  | .mk _ elements => by
    have inner := depthOfPairs_le_length elements
    simp only [AnnotationLayout.depth, AnnotationLayout.encode, List.length_append]
    omega

theorem depthOfPairs_le_length : ∀ elements : List (UInt16 × ElementLayout),
    depthOfPairs elements ≤ (encodePairs elements).length
  | [] => Nat.zero_le _
  | (_, value) :: elements => by
    have first := value.depth_le_length
    have more := depthOfPairs_le_length elements
    simp only [depthOfPairs, encodePairs, List.length_append]
    omega

end

theorem depthOfValues_le_iff (values : List ElementLayout) (n : Nat) :
    depthOfValues values ≤ n ↔ ∀ value ∈ values, value.depth ≤ n := by
  induction values with
  | nil => simp [depthOfValues]
  | cons value values ih => rw [depthOfValues, Nat.max_le, ih, List.forall_mem_cons]

theorem depthOfPairs_le_iff (elements : List (UInt16 × ElementLayout)) (n : Nat) :
    depthOfPairs elements ≤ n ↔ ∀ element ∈ elements, element.2.depth ≤ n := by
  induction elements with
  | nil => simp [depthOfPairs]
  | cons element elements ih => rw [depthOfPairs, Nat.max_le, ih, List.forall_mem_cons]

theorem valuesMean_iff (pool : ConstantPool) (layouts : List ElementLayout)
    (values : List ElementValue) :
    ValuesMean pool layouts values ↔
      List.Forall₂ (fun layout value => layout.Means pool value) layouts values := by
  induction layouts generalizing values with
  | nil => simp [ValuesMean]
  | cons layout layouts ih =>
      simp only [ValuesMean, ih, List.forall₂_cons_left_iff]

/-- A name and the value under it. -/
def PairMeans (pool : ConstantPool) (Means : ElementLayout → ElementValue → Prop)
    (layout : UInt16 × ElementLayout) (element : String × ElementValue) : Prop :=
  Means layout.2 element.2 ∧ pool.Text layout.1.toNat element.1

theorem pairsMean_iff (pool : ConstantPool) (layouts : List (UInt16 × ElementLayout))
    (elements : List (String × ElementValue)) :
    PairsMean pool layouts elements ↔
      List.Forall₂ (PairMeans pool (ElementLayout.Means pool)) layouts elements := by
  induction layouts generalizing elements with
  | nil => simp [PairsMean]
  | cons layout layouts ih =>
      simp only [PairsMean, ih, List.forall₂_cons_left_iff]
      constructor
      · rintro ⟨name, value, more, named, means, rest, rfl⟩
        exact ⟨(name, value), more, ⟨means, named⟩, rest, rfl⟩
      · rintro ⟨⟨name, value⟩, more, ⟨means, named⟩, rest, rfl⟩
        exact ⟨name, value, more, named, means, rest, rfl⟩

/-- An annotation whose element values mean what `Means` says. -/
def AnnotationLayout.MeansWith (pool : ConstantPool) (Means : ElementLayout → ElementValue → Prop) :
    AnnotationLayout → AnnotationEntry → Prop
  | .mk typeIndex layouts, entry => ∃ typeDescriptor elements,
    pool.Text typeIndex.toNat typeDescriptor ∧
      TableMeans (PairMeans pool Means) layouts elements ∧ entry = .mk typeDescriptor elements

theorem AnnotationLayout.meansWith_iff (pool : ConstantPool) (layout : AnnotationLayout)
    (entry : AnnotationEntry) :
    layout.MeansWith pool (ElementLayout.Means pool) entry ↔ layout.Means pool entry := by
  cases layout with
  | mk typeIndex layouts =>
      simp only [MeansWith, AnnotationLayout.Means, TableMeans, pairsMean_iff]
      constructor
      · rintro ⟨typeDescriptor, elements, typed, ⟨small, described⟩, same⟩
        exact ⟨small, typeDescriptor, elements, typed, described, same⟩
      · rintro ⟨small, typeDescriptor, elements, typed, described, same⟩
        exact ⟨typeDescriptor, elements, typed, ⟨small, described⟩, same⟩

theorem AnnotationLayout.meansWith_depth_iff (pool : ConstantPool) (n : Nat)
    (layout : AnnotationLayout) (entry : AnnotationEntry) :
    layout.MeansWith pool (fun layout value => layout.depth ≤ n ∧ layout.Means pool value) entry ↔
      layout.depth ≤ n ∧ layout.Means pool entry := by
  have apart : PairMeans pool (fun layout value => layout.depth ≤ n ∧ layout.Means pool value) =
      fun layout element => layout.2.depth ≤ n ∧
        PairMeans pool (ElementLayout.Means pool) layout element := by
    funext layout element
    exact propext and_assoc
  cases layout with
  | mk typeIndex layouts =>
      rw [← meansWith_iff, AnnotationLayout.depth, depthOfPairs_le_iff]
      simp only [MeansWith, TableMeans, apart, List.forall₂_and_left]
      constructor
      · rintro ⟨typeDescriptor, elements, typed, ⟨small, shallow, described⟩, same⟩
        exact ⟨shallow, typeDescriptor, elements, typed, ⟨small, described⟩, same⟩
      · rintro ⟨shallow, typeDescriptor, elements, typed, ⟨small, described⟩, same⟩
        exact ⟨typeDescriptor, elements, typed, ⟨small, shallow, described⟩, same⟩

/-- A resolution of which only the success counts. -/
theorem Decodes.discardResolve {α : Type} (outcome : Except DecodeError α) :
    Decodes (discard (Decoder.resolve outcome)) fun bytes _ =>
      bytes = [] ∧ ∃ a, outcome = .ok a := by
  refine (bind (resolve outcome) fun _ => pure ()).congr fun bytes value => ?_
  constructor
  · rintro ⟨_, _, a, rfl, ⟨rfl, resolved⟩, rfl, -⟩
    exact ⟨rfl, a, resolved⟩
  · rintro ⟨rfl, a, resolved⟩
    exact ⟨[], [], a, rfl, ⟨rfl, resolved⟩, rfl, rfl⟩

theorem Decodes.utf8Then {β : Type} (pool : ConstantPool) {f : String → Decoder β}
    {T : String → List UInt8 → β → Prop} (second : ∀ text, Decodes (f text) (T text)) :
    Decodes (do
        let text ← Decoder.resolve (pool.utf8 (← Decoder.u2))
        f text)
      fun bytes value => ∃ index back text, bytes = word2 index ++ back ∧
        pool.Text index.toNat text ∧ T text back value := by
  refine (bind u2 fun n => bind (resolve (pool.utf8 n)) second).congr fun bytes value => ?_
  constructor
  · rintro ⟨_, _, _, rfl, ⟨index, rfl, rfl⟩, _, back, text, rfl, ⟨rfl, resolved⟩, spelled⟩
    exact ⟨index, back, text, rfl, ConstantPool.utf8_eq_ok_iff.mp resolved, spelled⟩
  · rintro ⟨index, back, text, rfl, named, spelled⟩
    exact ⟨_, _, _, rfl, ⟨index, rfl, rfl⟩, [], back, text, rfl,
      ⟨rfl, ConstantPool.utf8_eq_ok_iff.mpr named⟩, spelled⟩

theorem decodes_annotationWith (pool : ConstantPool) {value : Decoder ElementValue}
    {Means : ElementLayout → ElementValue → Prop}
    (decodes : Decodes value (Written ElementLayout.encode Means)) :
    Decodes (AnnotationEntry.decodeWith pool value)
      (Written AnnotationLayout.encode (AnnotationLayout.MeansWith pool Means)) := by
  have pair : Decodes (do
        let name ← Decoder.resolve (pool.utf8 (← Decoder.u2))
        return (name, ← value))
      (Written encodePair (PairMeans pool Means)) := by
    refine (Decodes.utf8Then pool fun name => decodes.thenPure).congr fun bytes element => ?_
    constructor
    · rintro ⟨index, _, name, rfl, named, layout, rfl, value, means, rfl⟩
      exact ⟨(index, layout), rfl, means, named⟩
    · rintro ⟨⟨index, layout⟩, rfl, means, named⟩
      exact ⟨index, _, element.1, rfl, named, layout, rfl, element.2, means, rfl⟩
  refine (Decodes.utf8Then pool fun typeDescriptor => pair.table.thenPure).congr
    fun bytes entry => ?_
  constructor
  · rintro ⟨index, _, typeDescriptor, rfl, typed, layouts, rfl, elements, described, rfl⟩
    refine ⟨.mk index layouts, ?_, typeDescriptor, elements, typed, described, rfl⟩
    rw [AnnotationLayout.encode, encodePairs_eq, encodeTable]
  · rintro ⟨⟨index, layouts⟩, rfl, typeDescriptor, elements, typed, described, rfl⟩
    refine ⟨index, _, typeDescriptor, ?_, typed, layouts, rfl, elements, described, rfl⟩
    rw [AnnotationLayout.encode, encodePairs_eq, encodeTable]

def ElementLayout.tag : ElementLayout → Char
  | .const tag _ _ => tag
  | .enum _ _ => 'e'
  | .classLiteral _ => 'c'
  | .nested _ => '@'
  | .array _ => '['

theorem ElementLayout.encode_eq (layout : ElementLayout) :
    layout.encode = layout.tag.toUInt8 :: layout.encode.tail := by
  cases layout <;> rfl

theorem toUInt8_ofNat (byte : UInt8) : (Char.ofNat byte.toNat).toUInt8 = byte := by
  revert byte
  apply forall_byte
  decide +kernel

theorem ElementLayout.ofNat_tag (layout : ElementLayout) :
    Char.ofNat layout.tag.toUInt8.toNat = layout.tag := by
  cases layout with
  | const tag known index =>
      simp only [List.mem_cons, List.not_mem_nil, or_false] at known
      rcases known with rfl | rfl | rfl | rfl | rfl | rfl | rfl | rfl | rfl <;> rfl
  | enum typeIndex constIndex => rfl
  | classLiteral index => rfl
  | nested annotation => rfl
  | array values => rfl

/-- The tag is what the first byte says. -/
theorem ElementLayout.cons_eq_encode_iff (layout : ElementLayout) (byte : UInt8)
    (bytes : List UInt8) :
    byte :: bytes = layout.encode ↔
      layout.tag = Char.ofNat byte.toNat ∧ bytes = layout.encode.tail := by
  constructor
  · intro written
    rw [layout.encode_eq, List.cons.injEq] at written
    obtain ⟨rfl, rest⟩ := written
    exact ⟨layout.ofNat_tag.symm, rest⟩
  · rintro ⟨tagged, rest⟩
    rw [layout.encode_eq, tagged, toUInt8_ofNat, ← rest]

theorem Decodes.offsetThen {β : Type} {f : Nat → Decoder β} {T : List UInt8 → β → Prop}
    (second : ∀ offset, Decodes (f offset) T) : Decodes (Decoder.offset >>= f) T :=
  fun cursor value rest => second cursor.offset cursor value rest

theorem isConstTag_iff {tag : Char} :
    ElementValue.isConstTag tag = true ↔ tag ∈ ['B', 'C', 'D', 'F', 'I', 'J', 'S', 'Z', 's'] := by
  rw [ElementValue.isConstTag, List.contains_iff_mem]

/-- The bytes after a tag are those of a layout with that tag, nested no deeper than `depth`. -/
def TaggedMeans (pool : ConstantPool) (depth : Nat) (tag : Char) (bytes : List UInt8)
    (value : ElementValue) : Prop :=
  ∃ layout : ElementLayout, layout.tag = tag ∧ bytes = layout.encode.tail ∧ layout.depth ≤ depth ∧
    layout.Means pool value

section Tagged

variable (pool : ConstantPool) (depth : Nat)

theorem decodes_const {tag : Char} (known : tag ∈ ['B', 'C', 'D', 'F', 'I', 'J', 'S', 'Z', 's']) :
    Decodes (do
        discard (Decoder.resolve (pool.get (← Decoder.u2)))
        return ElementValue.const tag)
      (TaggedMeans pool (depth + 1) tag) := by
  refine (Decodes.u2.bind fun n => (Decodes.discardResolve (pool.get n)).bind fun _ =>
    Decodes.pure (ElementValue.const tag)).congr fun bytes value => ?_
  constructor
  · rintro ⟨_, _, _, rfl, ⟨index, rfl, rfl⟩, _, _, _, rfl, ⟨rfl, c, held⟩, rfl, rfl⟩
    refine ⟨.const tag known index, rfl, ?_, by simp [ElementLayout.depth],
      ⟨c, ConstantPool.get_eq_ok_iff.mp held⟩, rfl⟩
    simp [ElementLayout.encode]
  · rintro ⟨layout, rfl, rfl, -, means⟩
    cases layout with
    | const tag known index =>
        obtain ⟨⟨c, held⟩, rfl⟩ := means
        exact ⟨word2 index, [], _, by simp [ElementLayout.encode], ⟨index, rfl, rfl⟩, [], [], (), rfl,
          ⟨rfl, c, ConstantPool.get_eq_ok_iff.mpr held⟩, rfl, rfl⟩
    | _ => simp [ElementLayout.tag] at known

theorem decodes_enum :
    Decodes (do
        let typeDescriptor ← Decoder.resolve (pool.utf8 (← Decoder.u2))
        let constName ← Decoder.resolve (pool.utf8 (← Decoder.u2))
        return ElementValue.enum typeDescriptor constName)
      (TaggedMeans pool (depth + 1) 'e') := by
  refine (Decodes.utf8Then pool fun typeDescriptor => Decodes.utf8Then pool fun constName =>
    Decodes.pure (ElementValue.enum typeDescriptor constName)).congr fun bytes value => ?_
  constructor
  · rintro ⟨typeIndex, _, typeDescriptor, rfl, typed, constIndex, _, constName, rfl, named, rfl, rfl⟩
    refine ⟨.enum typeIndex constIndex, rfl, ?_, by simp [ElementLayout.depth], typeDescriptor,
      constName, typed, named, rfl⟩
    simp [ElementLayout.encode]
  · rintro ⟨layout, tagged, rfl, -, means⟩
    cases layout with
    | enum typeIndex constIndex =>
        obtain ⟨typeDescriptor, constName, typed, named, rfl⟩ := means
        exact ⟨typeIndex, _, typeDescriptor, rfl, typed, constIndex, [], constName,
          (List.append_nil _).symm, named, rfl, rfl⟩
    | const tag known index =>
        obtain rfl : tag = 'e' := tagged
        simp at known
    | _ => simp [ElementLayout.tag] at tagged

theorem decodes_classLiteral :
    Decodes (do return ElementValue.classLiteral (← Decoder.resolve (pool.utf8 (← Decoder.u2))))
      (TaggedMeans pool (depth + 1) 'c') := by
  refine (Decodes.utf8Then pool fun descriptor =>
    Decodes.pure (ElementValue.classLiteral descriptor)).congr fun bytes value => ?_
  constructor
  · rintro ⟨index, _, descriptor, rfl, described, rfl, rfl⟩
    refine ⟨.classLiteral index, rfl, ?_, by simp [ElementLayout.depth], descriptor, described, rfl⟩
    simp [ElementLayout.encode]
  · rintro ⟨layout, tagged, rfl, -, means⟩
    cases layout with
    | classLiteral index =>
        obtain ⟨descriptor, described, rfl⟩ := means
        exact ⟨index, [], descriptor, (List.append_nil _).symm, described, rfl, rfl⟩
    | const tag known index =>
        obtain rfl : tag = 'c' := tagged
        simp at known
    | _ => simp [ElementLayout.tag] at tagged

variable {pool depth} {inner : Decoder ElementValue}

theorem decodes_nested
    (ih : Decodes inner (Written ElementLayout.encode fun layout value =>
      layout.depth ≤ depth ∧ layout.Means pool value)) :
    Decodes (do return ElementValue.nested (← AnnotationEntry.decodeWith pool inner))
      (TaggedMeans pool (depth + 1) '@') := by
  refine (decodes_annotationWith pool ih).thenPure.congr fun bytes value => ?_
  constructor
  · rintro ⟨layout, rfl, entry, means, rfl⟩
    obtain ⟨shallow, means⟩ := (layout.meansWith_depth_iff pool depth entry).mp means
    exact ⟨.nested layout, rfl, rfl, Nat.succ_le_succ shallow, entry, means, rfl⟩
  · rintro ⟨layout, tagged, rfl, shallow, means⟩
    cases layout with
    | nested layout =>
        obtain ⟨entry, means, rfl⟩ := means
        exact ⟨layout, rfl, entry, (layout.meansWith_depth_iff pool depth entry).mpr
          ⟨Nat.le_of_succ_le_succ shallow, means⟩, rfl⟩
    | const tag known index =>
        obtain rfl : tag = '@' := tagged
        simp at known
    | _ => simp [ElementLayout.tag] at tagged

theorem decodes_array
    (ih : Decodes inner (Written ElementLayout.encode fun layout value =>
      layout.depth ≤ depth ∧ layout.Means pool value)) :
    Decodes (do return ElementValue.array (← Decoder.table inner))
      (TaggedMeans pool (depth + 1) '[') := by
  refine ih.table.thenPure.congr fun bytes value => ?_
  constructor
  · rintro ⟨layouts, rfl, values, ⟨small, described⟩, rfl⟩
    obtain ⟨shallow, described⟩ := (List.forall₂_and_left ..).mp described
    refine ⟨.array layouts, rfl, ?_, ?_, small, values, (valuesMean_iff ..).mpr described, rfl⟩
    · rw [ElementLayout.encode, encodeValues_eq]
      rfl
    · exact Nat.succ_le_succ ((depthOfValues_le_iff ..).mpr shallow)
  · rintro ⟨layout, tagged, rfl, shallow, means⟩
    cases layout with
    | array layouts =>
        obtain ⟨small, values, described, rfl⟩ := means
        have shallow := (depthOfValues_le_iff ..).mp (Nat.le_of_succ_le_succ shallow)
        refine ⟨layouts, ?_, values, ⟨small, ?_⟩, rfl⟩
        · rw [ElementLayout.encode, encodeValues_eq]
          rfl
        · exact (List.forall₂_and_left ..).mpr ⟨shallow, (valuesMean_iff ..).mp described⟩
    | const tag known index =>
        obtain rfl : tag = '[' := tagged
        simp at known
    | _ => simp [ElementLayout.tag] at tagged

/-- What follows the first byte, whichever tag it is. -/
theorem decodes_tagged
    (ih : Decodes inner (Written ElementLayout.encode fun layout value =>
      layout.depth ≤ depth ∧ layout.Means pool value)) (tag : Char) (e : DecodeError) :
    Decodes (if ElementValue.isConstTag tag then do
          discard (Decoder.resolve (pool.get (← Decoder.u2)))
          return .const tag
        else if tag = 'e' then do
          let typeDescriptor ← Decoder.resolve (pool.utf8 (← Decoder.u2))
          let constName ← Decoder.resolve (pool.utf8 (← Decoder.u2))
          return .enum typeDescriptor constName
        else if tag = 'c' then do
          return .classLiteral (← Decoder.resolve (pool.utf8 (← Decoder.u2)))
        else if tag = '@' then do
          return .nested (← AnnotationEntry.decodeWith pool inner)
        else if tag = '[' then do
          return .array (← Decoder.table inner)
        else
          Decoder.fail e)
      (TaggedMeans pool (depth + 1) tag) := by
  split
  case isTrue known => exact decodes_const pool depth (isConstTag_iff.mp known)
  split
  case isTrue same => exact same ▸ decodes_enum pool depth
  split
  case isTrue same => exact same ▸ decodes_classLiteral pool depth
  split
  case isTrue same => exact same ▸ decodes_nested ih
  split
  case isTrue same => exact same ▸ decodes_array ih
  case isFalse notConst notEnum notClass notNested notArray =>
    refine (Decodes.fail e).congr fun bytes value => ?_
    constructor
    · exact False.elim
    · rintro ⟨layout, rfl, -⟩
      cases layout with
      | const tag known index => exact notConst (isConstTag_iff.mpr known)
      | enum typeIndex constIndex => exact notEnum rfl
      | classLiteral index => exact notClass rfl
      | nested annotation => exact notNested rfl
      | array values => exact notArray rfl

end Tagged

/-- Layouts no deeper than the decoder may descend. -/
theorem decodes_elementWithin (pool : ConstantPool) (depth : Nat) :
    Decodes (ElementValue.decodeWithin pool depth)
      (Written ElementLayout.encode fun layout value =>
        layout.depth ≤ depth ∧ layout.Means pool value) := by
  induction depth with
  | zero =>
      refine (Decodes.offsetThen fun offset => Decodes.fail _).congr fun bytes value => ?_
      constructor
      · exact False.elim
      · rintro ⟨layout, -, shallow, -⟩
        cases layout <;> simp [ElementLayout.depth] at shallow
  | succ depth ih =>
      rw [ElementValue.decodeWithin]
      refine (Decodes.offsetThen fun offset => Decodes.u1.bind fun byte =>
        decodes_tagged ih (Char.ofNat byte.toNat) (.invalidElementTag byte offset)).congr
          fun bytes value => ?_
      constructor
      · rintro ⟨_, back, byte, rfl, ⟨_, rfl, rfl⟩, layout, tagged, rest, means⟩
        exact ⟨layout, (layout.cons_eq_encode_iff byte back).mpr ⟨tagged, rest⟩, means⟩
      · rintro ⟨layout, rfl, means⟩
        have split := (layout.cons_eq_encode_iff _ _).mp layout.encode_eq.symm
        exact ⟨[layout.tag.toUInt8], layout.encode.tail, layout.tag.toUInt8, layout.encode_eq,
          ⟨_, rfl, rfl⟩, layout, split.1, rfl, means⟩

theorem decodes_elementValue (pool : ConstantPool) :
    Decodes (ElementValue.decode pool)
      (Written ElementLayout.encode (ElementLayout.Means pool)) := by
  intro cursor value rest
  refine (decodes_elementWithin pool cursor.rest.length cursor value rest).trans ?_
  constructor
  · rintro ⟨front, split, layout, written, -, means⟩
    exact ⟨front, split, layout, written, means⟩
  · rintro ⟨_, split, layout, rfl, means⟩
    have shallow := layout.depth_le_length
    refine ⟨_, split, layout, rfl, ?_, means⟩
    rw [split, List.length_append]
    omega

theorem decodes_annotationEntry (pool : ConstantPool) :
    Decodes (AnnotationEntry.decode pool)
      (Written AnnotationLayout.encode (AnnotationLayout.Means pool)) := by
  refine (decodes_annotationWith pool (decodes_elementValue pool)).congr fun bytes entry => ?_
  simp only [Written, AnnotationLayout.meansWith_iff]

theorem decodes_annotationTable (pool : ConstantPool) :
    Decodes (AnnotationEntry.decodeTable pool)
      (Written (encodeTable AnnotationLayout.encode) (TableMeans (AnnotationLayout.Means pool))) :=
  (decodes_annotationEntry pool).table

end ClassAtlas.ClassFile

import ClassAtlas.ClassFile.References
import ClassAtlas.Proofs.ClassFile.Indexed.Constants

/-!
Annotations by position. Values are read to whatever depth they nest, and every level takes a byte,
so that the reading comes to an end.
-/

namespace ClassAtlas.ClassFile.Indexed

mutual

def elementValue : ReaderT ConstantPool Read ElementValue := fun pool => do
  let start ← offset
  let byte ← u1
  let tag := Char.ofNat byte.toNat
  if ElementValue.isConstTag tag then
    discard (pool.get (← u2) : Read Constant)
    return .const tag
  else if tag = 'e' then
    let typeDescriptor ← pool.utf8 (← u2)
    let constName ← pool.utf8 (← u2)
    return .enum typeDescriptor constName
  else if tag = 'c' then
    return .classLiteral (← pool.utf8 (← u2))
  else if tag = '@' then
    return .nested (← annotationEntry.run pool)
  else if tag = '[' then
    return .array (← (elementValues.run pool).run (← u2))
  else
    throw (.invalidElementTag byte start)
partial_fixpoint

def elementValues : ReaderT ConstantPool (ReaderT Nat Read) (List ElementValue) := fun
  | _, 0 => return []
  | pool, n + 1 => do
    let value ← elementValue.run pool
    return value :: (← (elementValues.run pool).run n)
partial_fixpoint

def annotationEntry : ReaderT ConstantPool Read AnnotationEntry := fun pool => do
  let typeDescriptor ← pool.utf8 (← u2)
  return .mk typeDescriptor (← (elementPairs.run pool).run (← u2))
partial_fixpoint

def elementPairs : ReaderT ConstantPool (ReaderT Nat Read) (List (String × ElementValue)) := fun
  | _, 0 => return []
  | pool, n + 1 => do
    let name ← pool.utf8 (← u2)
    let value ← elementValue.run pool
    return (name, value) :: (← (elementPairs.run pool).run n)
partial_fixpoint

end

def annotations (pool : ConstantPool) : Read (List AnnotationEntry) :=
  table (annotationEntry pool)

theorem elementValues_eq (pool : ConstantPool) (n : Nat) :
    elementValues pool n = times (elementValue pool) n := by
  induction n with
  | zero => rw [elementValues, times]
  | succ n ih =>
      rw [elementValues, times, ← ih]
      rfl

theorem elementPairs_eq (pool : ConstantPool) (n : Nat) :
    elementPairs pool n = times (do
      let name ← pool.utf8 (← u2)
      return (name, ← elementValue pool)) n := by
  induction n with
  | zero => rw [elementPairs, times]
  | succ n ih =>
      rw [elementPairs, times, ← ih]
      simp only [bind_assoc, pure_bind]
      rfl

/-- Every text that a mention has to have parsed fits. -/
def MentionFits : Mention → Prop
  | .name _ => True
  | .strict descriptor _ => Text.Fits descriptor
  | .lenient text _ _ => Text.Fits text

def ValueFits (value : ElementValue) : Prop :=
  ∀ m ∈ Mention.ofElementValue value, MentionFits m

def AnnotationFits (entry : AnnotationEntry) : Prop :=
  ∀ m ∈ Mention.ofAnnotationEntry entry, MentionFits m

theorem ofElementValues_eq_flatMap (values : List ElementValue) :
    Mention.ofElementValues values = values.flatMap Mention.ofElementValue := by
  induction values with
  | nil => rfl
  | cons value values ih => rw [Mention.ofElementValues, ih, List.flatMap_cons]

theorem ofElements_eq_flatMap (elements : List (String × ElementValue)) :
    Mention.ofElements elements = elements.flatMap fun element => Mention.ofElementValue element.2 := by
  induction elements with
  | nil => rfl
  | cons element elements ih => rw [Mention.ofElements, ih, List.flatMap_cons]

theorem valueFits_array {values : List ElementValue} (fit : ∀ value ∈ values, ValueFits value) :
    ValueFits (.array values) := by
  intro m member
  rw [Mention.ofElementValue, ofElementValues_eq_flatMap] at member
  obtain ⟨value, listed, own⟩ := List.mem_flatMap.mp member
  exact fit value listed m own

theorem annotationFits_mk {typeDescriptor : String} {elements : List (String × ElementValue)}
    (typed : Text.Fits typeDescriptor) (fit : ∀ element ∈ elements, ValueFits element.2) :
    AnnotationFits (.mk typeDescriptor elements) := by
  intro m member
  rw [Mention.ofAnnotationEntry, ofElements_eq_flatMap] at member
  rcases List.mem_cons.mp member with rfl | inside
  · exact typed
  · obtain ⟨element, listed, own⟩ := List.mem_flatMap.mp inside
    exact fit element listed m own

section

variable {pool : ConstantPool}

theorem follows_annotationEntry (fits : PoolFits pool) {limit : Nat} {value : Decoder ElementValue}
    (follows : Follows limit ValueFits (elementValue pool) value) :
    Follows limit AnnotationFits (annotationEntry pool) (AnnotationEntry.decodeWith pool value) := by
  rw [annotationEntry]
  simp only [ReaderT.run, elementPairs_eq]
  have pair : Follows limit (fun element : String × ElementValue => ValueFits element.2)
      (do
        let name ← pool.utf8 (← u2)
        return (name, ← elementValue pool))
      (do
        let name ← Decoder.resolve (pool.utf8 (← Decoder.u2))
        return (name, ← value)) :=
    fits.utf8Then fun name _ => follows.bind fun value fit => .pure fit
  refine fits.utf8Then fun typeDescriptor typed => ?_
  unfold Decoder.table
  rw [bind_assoc]
  refine Follows.u2.bind fun count _ => (pair.times count).bind fun elements fit => .pure ?_
  exact annotationFits_mk typed fit

theorem follows_elementValueWithin (fits : PoolFits pool) (depth : Nat) :
    Follows depth ValueFits (elementValue pool) (ElementValue.decodeWithin pool depth) := by
  induction depth with
  | zero =>
      -- with no byte left the tag is missing, whatever was to follow it
      intro r inRange short
      have ended := run_bytes_short inRange 1 (by omega)
      rw [Nat.le_zero.mp short] at ended
      have run : (elementValue pool).run r = throw (.unexpectedEnd r.cursor.offset 1) := by
        rw [elementValue]
        simp [run_offset inRange, u1, ended]
      rw [run]
      exact .failed _
  | succ depth ih =>
      rw [elementValue, ElementValue.decodeWithin]
      refine Follows.offset.bind fun start _ => Follows.u1Then fun byte => ?_
      refine .ite (fun _ => ?const) fun _ => .ite (fun _ => ?enum) fun _ => .ite (fun _ => ?literal)
        fun _ => .ite (fun _ => ?nested) fun _ => .ite (fun _ => ?array) fun _ => .fail _
      case const =>
        refine Follows.u2.bind fun index _ => ?_
        have found : Follows depth (fun _ => True) (liftM (pool.get index))
            (Decoder.resolve (pool.get index)) := .resolve fun _ _ => trivial
        refine (found.map (Q := fun _ => True) fun _ _ => trivial).bind fun _ _ => .pure ?_
        intro m member
        cases member
      case enum =>
        refine fits.utf8Then fun typeDescriptor typed => fits.utf8Then fun constName _ => .pure ?_
        intro m member
        rw [List.mem_singleton.mp member]
        exact typed
      case literal =>
        refine fits.utf8Then fun descriptor typed => .pure ?_
        intro m member
        rw [List.mem_singleton.mp member]
        exact typed
      case nested =>
        exact (follows_annotationEntry fits ih).bind fun entry fit => .pure fit
      case array =>
        simp only [ReaderT.run, elementValues_eq]
        unfold Decoder.table
        rw [bind_assoc]
        exact Follows.u2.bind fun count _ => (ih.times count).bind fun values fit =>
          .pure (valueFits_array fit)

theorem follows_elementValue (fits : PoolFits pool) (limit : Nat) :
    Follows limit ValueFits (elementValue pool) (ElementValue.decode pool) := by
  intro r inRange short
  exact (follows_elementValueWithin fits r.cursor.rest.length r inRange Nat.le.refl).mono short
    fun _ fit => fit

theorem follows_annotations (fits : PoolFits pool) (limit : Nat) :
    Follows limit (∀ entry ∈ ·, AnnotationFits entry) (annotations pool)
      (AnnotationEntry.decodeTable pool) :=
  (follows_annotationEntry fits (follows_elementValue fits limit)).table

end

end ClassAtlas.ClassFile.Indexed

import ClassAtlas.Proofs.ClassFile.Indexed.Record
import ClassAtlas.Proofs.Descriptor.Indexed

/-!
Extraction by position, from the bytes of a record to the names it refers to. Every text that is
parsed comes out of the constant pool, where a text has at most 65535 bytes.
-/

namespace ClassAtlas.ClassFile.Indexed

open Checked

def add (owner : String) (g : Gathered) : Mention → Attempt Gathered
  | .name internal =>
    return { g with names := NameSet.insertAll (Descriptor.internalName? internal).toList g.names }
  | .strict descriptor context => do
    match ← (Descriptor.Indexed.typeNames descriptor).run with
    | .ok found => return { g with names := NameSet.insertAll found g.names }
    | .error cause => throw (.descriptor context cause)
  | .lenient text kind context => do
    match ← (Descriptor.Indexed.typeNames text).run with
    | .ok found => return { g with names := NameSet.insertAll found g.names }
    | .error cause => return { g with skipped := g.skipped ++ [{ kind, context, owner, cause }] }

def extract (bytes : List UInt8) : Attempt (ExtractedClass × List SkippedSignature) := do
  let record ← Prod.fst <$> record.run { data := bytes, pos := 0, base := 0 }
  let gathered ← (Mention.ofRecord record).foldlM (add record.thisClass) {}
  return ({ className := record.thisClass, referenced := gathered.names }, gathered.skipped)

theorem ofAnnotations_fit {entries : List AnnotationEntry}
    (fit : ∀ entry ∈ entries, AnnotationFits entry) :
    ∀ m ∈ Mention.ofAnnotations entries, MentionFits m :=
  List.forall_mem_flatMap.mpr fit

theorem ofSignature_fit {signature : Option String} (fit : ∀ text ∈ signature, Text.Fits text)
    (context : String) : ∀ m ∈ Mention.ofSignature signature context, MentionFits m := by
  unfold Mention.ofSignature
  rw [List.forall_mem_map]
  intro text own
  exact fit text (Option.mem_toList.mp own)

theorem CodeFits.mentions {code : Code} (fits : CodeFits code) (method : String) :
    ∀ m ∈ Mention.ofCode method code, MentionFits m := by
  unfold Mention.ofCode
  simp only [List.forall_mem_append, List.forall_mem_flatMap, List.forall_mem_map]
  exact ⟨⟨⟨fits.instructions, fun _ _ => trivial⟩, fits.locals⟩, fits.localTypes⟩

theorem FieldFits.mentions {field : Field} (fits : FieldFits field) :
    ∀ m ∈ Mention.ofField field, MentionFits m := by
  unfold Mention.ofField
  rw [List.cons_append, List.forall_mem_cons, List.forall_mem_append]
  exact ⟨fits.descriptor, ofSignature_fit fits.signature _, ofAnnotations_fit fits.annotations⟩

theorem MethodFits.mentions {method : Method} (fits : MethodFits method) :
    ∀ m ∈ Mention.ofMethod method, MentionFits m := by
  unfold Mention.ofMethod
  simp only [List.cons_append, List.forall_mem_cons, List.forall_mem_append, List.forall_mem_flatMap,
    List.forall_mem_map, Option.mem_toList]
  refine ⟨fits.descriptor, ⟨⟨⟨⟨ofSignature_fit fits.signature _, fun _ _ => trivial⟩,
    ofAnnotations_fit fits.annotations⟩, ?_⟩, fits.annotationDefault⟩, ?_⟩
  · intro table listed
    exact ofAnnotations_fit (fits.parameterAnnotations table listed)
  · intro code present
    exact (fits.code code present).mentions method.name

theorem RecordFits.mentions {record : Record} (fits : RecordFits record) :
    ∀ m ∈ Mention.ofRecord record, MentionFits m := by
  unfold Mention.ofRecord
  simp only [List.cons_append, List.forall_mem_cons, List.forall_mem_append, List.forall_mem_flatMap,
    List.forall_mem_map]
  refine ⟨trivial, ⟨⟨⟨⟨fun _ _ => trivial, fun _ _ => trivial⟩, ofSignature_fit fits.signature _⟩,
    ofAnnotations_fit fits.annotations⟩, ?_⟩, ?_⟩
  · intro field listed
    exact (fits.fields field listed).mentions
  · intro method listed
    exact (fits.methods method listed).mentions

theorem settles_add (owner : String) (g : Gathered) {m : Mention} (fits : MentionFits m) :
    Settles (fun _ => True) (add owner g m) (g.add owner m) := by
  cases m with
  | name internal => exact .pure trivial
  | strict descriptor context =>
      rw [add, Gathered.add, Descriptor.Indexed.typeNames_eq fits]
      cases Descriptor.typeNames descriptor with
      | ok found => exact .pure trivial
      | error cause => exact .fail _
  | lenient text kind context =>
      rw [add, Gathered.add, Descriptor.Indexed.typeNames_eq fits]
      cases Descriptor.typeNames text <;> exact .pure trivial

theorem settles_gather (owner : String) (g : Gathered) {mentions : List Mention}
    (fits : ∀ m ∈ mentions, MentionFits m) :
    Settles (fun _ => True) (mentions.foldlM (add owner) g)
      (mentions.foldlM (Gathered.add owner) g) := by
  induction mentions generalizing g with
  | nil => exact .pure trivial
  | cons m mentions ih =>
      rw [List.forall_mem_cons] at fits
      rw [List.foldlM_cons, List.foldlM_cons]
      exact (settles_add owner g fits.1).bind fun next _ => ih next fits.2

theorem Agrees.settles {α : Type} {limit : Nat} {P : α → Prop} {x : Attempt (α × Reader)}
    {y : Except DecodeError (α × Cursor)} (agrees : Agrees limit P x y) :
    Settles P (Prod.fst <$> x) (Prod.fst <$> y) := by
  cases agrees with
  | failed e => exact .fail e
  | done holds inRange short => exact .pure holds

theorem settles_extract {bytes : List UInt8} (sized : bytes.length < UInt64.size) :
    Settles (fun _ => True) (extract bytes) (ClassFile.extract bytes) := by
  have inRange : Reader.InRange ⟨bytes, 0, 0⟩ := ⟨Nat.zero_le _, by rwa [Nat.zero_add]⟩
  have decoded := (follows_record bytes.length _ inRange Nat.le.refl).settles
  refine decoded.bind fun record fits => ?_
  exact (settles_gather record.thisClass {} fits.mentions).bind fun _ _ => .pure trivial

/-- The extraction by position ends on every input, without a fault, and comes to the class or to
the error that the extraction from the bytes in front comes to. -/
theorem extract_in_range (bytes : List UInt8) (sized : bytes.length < UInt64.size) :
    (extract bytes).run.run = some (.ok (ClassFile.extract bytes)) := by
  rw [(settles_extract sized).same]
  cases ClassFile.extract bytes <;> rfl

/-- A class with a field whose type is named in letters of two bytes. -/
def accentedClass : List UInt8 :=
  [0xCA, 0xFE, 0xBA, 0xBE, 0, 0, 0, 52, 0, 4, 1, 0, 1, 65, 7, 0, 1, 1, 0, 7, 76, 0xC3, 0xA9,
    46, 0xC3, 0x9F, 59, 0, 33, 0, 2, 0, 0, 0, 0, 0, 1, 0, 0, 0, 1, 0, 3, 0, 0, 0, 0, 0, 0]

theorem accentedClass_in_range :
    accentedClass.length < UInt64.size ∧
      (extract accentedClass).run.run = some (.ok (.ok (⟨"A", ["A", "é", "é$ß"]⟩, []))) := by
  have sized : accentedClass.length < UInt64.size := by decide
  have extracted : ClassFile.extract accentedClass = .ok (⟨"A", ["A", "é", "é$ß"]⟩, []) := by decide +kernel
  refine ⟨sized, ?_⟩
  rw [extract_in_range accentedClass sized, extracted]

end ClassAtlas.ClassFile.Indexed

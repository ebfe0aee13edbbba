import ClassAtlas.Proofs.ClassFile.Gathering
import ClassAtlas.Proofs.Descriptor.OuterNames
import ClassAtlas.Proofs.Outcome

/-!
Names of arrays among the references of a class. A bare name counts only if it is not empty and not
that of an array, but the names of class types in descriptors and signatures count as they are written.
Main statement: no reference is empty, and none is the name of an array exactly if no text that is read
writes a class type whose name opens like that of an array.
-/

namespace ClassAtlas.ClassFile

open Descriptor

/-- The name has the form of an array type. -/
def IsArrayName (name : String) : Prop :=
  name.toList.head? = some '['

instance (name : String) : Decidable (IsArrayName name) :=
  inferInstanceAs (Decidable (_ = _))

theorem mentions_iff {text name : String} :
    Mentions text name ↔ ∃ signature : Signature, signature.text = text ∧ name ∈ signature.names := by
  simp only [Mentions, typeNames_eq_ok_iff]
  constructor
  · rintro ⟨found, ⟨signature, written, rfl⟩, member⟩
    exact ⟨signature, written, member⟩
  · rintro ⟨signature, written, member⟩
    exact ⟨signature.names, ⟨signature, written, rfl⟩, member⟩

namespace Record

/-- The descriptors and signatures of a record. -/
def typeTexts (record : Record) : List String :=
  record.strictSites.map (·.text) ++ record.lenientSites.map (·.text)

variable {record : Record} {gathered : Gathered}

theorem refersTo_iff {name : String} :
    record.RefersTo name ↔ (∃ text ∈ record.typeTexts, Mentions text name) ∨
      name ∈ record.bareNames ∧ name ≠ "" ∧ ¬ IsArrayName name := by
  simp only [RefersTo, typeTexts, List.mem_append, List.mem_map, or_and_right, exists_or,
    exists_exists_and_eq_and, or_assoc]
  exact or_congr_right or_comm

/-- No reference of a record is empty. None is the name of an array exactly if no descriptor or
signature of the record that is well formed has a class type with such a name. -/
theorem references_without_arrays_iff (ran : record.references = .ok gathered) :
    (∀ name ∈ gathered.names, name ≠ "") ∧
      ((∀ name ∈ gathered.names, ¬ IsArrayName name) ↔
        ∀ signature : Signature, signature.text ∈ record.typeTexts →
          ∀ outer ∈ signature.outerNames, outer.head? ≠ some '[') := by
  obtain ⟨-, gathers⟩ := (record.references_eq_ok_iff gathered).mp ran
  simp only [gathers.names, refersTo_iff, mentions_iff]
  constructor
  · rintro name (⟨text, -, signature, -, member⟩ | ⟨-, named, -⟩)
    · exact Signature.ne_empty_of_mem_names member
    · exact named
  · constructor
    · intro free signature written
      refine Signature.names_open_iff.mp fun name member => ?_
      exact free name (.inl ⟨_, written, signature, rfl, member⟩)
    · rintro free name (⟨text, listed, signature, rfl, member⟩ | ⟨-, -, single⟩)
      · exact Signature.names_open_iff.mpr (free signature listed) name member
      · exact single

end Record

/-- The record whose references are extracted. -/
theorem references_of_extract {bytes : List UInt8} {extracted : ExtractedClass}
    {skipped : List SkippedSignature} (ran : extract bytes = .ok (extracted, skipped)) :
    ∃ record, Record.decode bytes = .ok record ∧
      record.references = .ok ⟨extracted.referenced, skipped⟩ := by
  obtain ⟨record, decoded, gathers⟩ := bind_eq_ok_iff.mp ran
  obtain ⟨gathered, gatheredAll, same⟩ := bind_eq_ok_iff.mp gathers
  cases same
  exact ⟨record, decoded, gatheredAll⟩

/-- A class `A` over a class `B`, with a field of the given descriptor. -/
def fieldClass (descriptor : List UInt8) : List UInt8 :=
  [0xCA, 0xFE, 0xBA, 0xBE, 0, 0, 0, 52, 0, 7, 1, 0, 1, 65, 7, 0, 1, 1, 0, 1, 66, 7, 0, 3, 1, 0, 1, 102,
    1, 0, descriptor.length.toUInt8] ++ descriptor ++
    [0, 33, 0, 2, 0, 4, 0, 0, 0, 1, 0, 0, 0, 5, 0, 6, 0, 0, 0, 0, 0, 0]

/-- A field that is an array of `B`. -/
theorem arrayField_unnamed :
    ∃ record gathered, Record.decode (fieldClass [91, 76, 66, 59]) = .ok record ∧
      record.references = .ok gathered ∧ gathered.names = ["A", "B"] ∧
        (∀ name ∈ gathered.names, name ≠ "") ∧
          ∀ signature : Signature, signature.text ∈ record.typeTexts →
            ∀ outer ∈ signature.outerNames, outer.head? ≠ some '[' := by
  have extracted : extract (fieldClass [91, 76, 66, 59]) = .ok (⟨"A", ["A", "B"]⟩, []) := by decide +kernel
  obtain ⟨record, decoded, ran⟩ := references_of_extract extracted
  obtain ⟨named, single⟩ := Record.references_without_arrays_iff ran
  exact ⟨record, _, decoded, ran, rfl, named, single.mp (by decide)⟩

/-- A field of a class whose name opens like that of an array: the class refers to an array. -/
theorem array_name_referenced :
    ∃ record gathered, Record.decode (fieldClass [76, 91, 73, 59]) = .ok record ∧
      record.references = .ok gathered ∧ ∃ name ∈ gathered.names, IsArrayName name := by
  have extracted : extract (fieldClass [76, 91, 73, 59]) = .ok (⟨"A", ["A", "B", "[I"]⟩, []) := by decide +kernel
  obtain ⟨record, decoded, ran⟩ := references_of_extract extracted
  exact ⟨record, _, decoded, ran, "[I", by decide, by decide⟩

end ClassAtlas.ClassFile

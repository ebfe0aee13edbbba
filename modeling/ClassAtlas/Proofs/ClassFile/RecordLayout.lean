import ClassAtlas.Proofs.ClassFile.ConstantLayout
import ClassAtlas.Proofs.ClassFile.MemberLayout

/-!
The layout of a whole class record, and the main result about decoding: a record is decoded exactly
from the bytes of a layout that describes it, whatever follows them.
-/

namespace ClassAtlas.ClassFile

structure RecordLayout where
  minor : UInt16
  major : UInt16
  pool : PoolLayout
  access : UInt16
  thisIndex : UInt16
  superIndex : UInt16
  interfaces : List UInt16
  fields : List FieldLayout
  methods : List MethodLayout
  attributes : List (AttributeLayout CommonLayout)

namespace RecordLayout

def encode (layout : RecordLayout) : List UInt8 :=
  [0xCA, 0xFE, 0xBA, 0xBE] ++ (word2 layout.minor ++ (word2 layout.major ++ (layout.pool.encode ++
    (word2 layout.access ++ (word2 layout.thisIndex ++ (word2 layout.superIndex ++
      (encodeTable word2 layout.interfaces ++ (encodeTable FieldLayout.encode layout.fields ++
        (encodeTable MethodLayout.encode layout.methods ++
          encodeTable commonFormat.encodeAttribute layout.attributes)))))))))

/-- Every index of the header, the members and the attributes resolves in the constants of the record
to what it has to name. -/
structure Describes (layout : RecordLayout) (record : Record) : Prop where
  minor : record.minor = layout.minor.toNat
  major : record.major = layout.major.toNat
  constants : layout.pool.Means record.constants
  access : record.access = layout.access.toNat
  thisClass : record.constants.NamesClass layout.thisIndex.toNat record.thisClass
  superClass : record.constants.NamesOptionalClass layout.superIndex.toNat record.superClass
  interfaces : TableMeans (fun index name => record.constants.NamesClass index.toNat name)
    layout.interfaces record.interfaces
  fields : TableMeans (FieldLayout.Means record.constants) layout.fields record.fields
  methods : TableMeans (MethodLayout.Means record.constants) layout.methods record.methods
  attributes : ∃ contents, commonFormat.TableMeans record.constants layout.attributes contents ∧
    record.signature = (contents.filterMap CommonAttribute.signature?).getLast? ∧
    record.annotations = contents.flatMap CommonAttribute.entries

end RecordLayout

attribute [ext] Record

theorem Record.foldl_add (contents : List CommonAttribute) (record : Record) :
    contents.foldl Record.add record =
      { record with
        signature := (contents.filterMap CommonAttribute.signature?).getLast?.or record.signature
        annotations := record.annotations ++ contents.flatMap CommonAttribute.entries } := by
  apply Record.ext
  case signature =>
    refine foldl_last Record.signature CommonAttribute.signature? (fun record content => ?_) ..
    cases content <;> rfl
  case annotations =>
    refine foldl_joined Record.annotations CommonAttribute.entries (fun record content => ?_) ..
    cases content <;> simp [Record.add, CommonAttribute.entries]
  all_goals exact foldl_kept _ (by intro record content; cases content <;> rfl) ..

theorem decodes_magicThen {β : Type} {d : Decoder β} {S : List UInt8 → β → Prop}
    (decodes : Decodes d S) :
    Decodes (do
        let found ← Decoder.u4
        if found ≠ Record.magic then
          Decoder.fail (.badMagic found)
        d) fun bytes value => ∃ more, bytes = [0xCA, 0xFE, 0xBA, 0xBE] ++ more ∧ S more value := by
  -- the check guards all that follows, so the failing branch carries the rest of the decoder too
  have checked (found : Nat) :
      Decodes (if found ≠ Record.magic then do
            let () ← Decoder.fail (.badMagic found)
            d
          else d)
        fun bytes value => found = Record.magic ∧ S bytes value := by
    split
    case isTrue wrong =>
      refine ((Decodes.fail _).bind fun _ => decodes).congr fun bytes value => ?_
      constructor
      · rintro ⟨_, _, _, -, impossible, -⟩
        exact impossible.elim
      · rintro ⟨right, -⟩
        exact (wrong right).elim
    case isFalse right =>
      refine decodes.congr fun bytes value => ?_
      exact (and_iff_right (not_ne_iff.mp right)).symm
  refine ((Decodes.numeral 4).bind checked).congr fun bytes value => ?_
  constructor
  · rintro ⟨_, more, _, rfl, ⟨-, rfl⟩, rfl, spelled⟩
    exact ⟨more, rfl, spelled⟩
  · rintro ⟨more, rfl, spelled⟩
    exact ⟨_, more, Record.magic, rfl, ⟨by decide, rfl⟩, rfl, spelled⟩

theorem decodes_record :
    Decodes Record.decoder (Written RecordLayout.encode RecordLayout.Describes) := by
  refine (decodes_magicThen (Decodes.u2.andThen fun minor => Decodes.u2.andThen fun major =>
    decodes_pool.andThen fun pool => Decodes.u2.andThen fun access =>
    (decodes_className pool).andThen fun thisClass => (decodes_className? pool).andThen
    fun superClass => (decodes_className pool).table.andThen fun interfaces =>
    (decodes_field pool).table.andThen fun fields => (decodes_method pool).table.andThen
    fun methods => (commonFormat_followedBy.decodes_attributes pool).thenPure)).congr
    fun bytes record => ?_
  constructor
  · rintro ⟨_, rfl, ⟨minor, major, pool, access, thisIndex, superIndex, interfaceIndices, fieldLayouts,
      methodLayouts, attributes⟩, rfl, _, rfl, _, rfl, constants, pooled, _, rfl, thisClass, named,
      superClass, extended, interfaces, implemented, fields, declared, methods, defined, contents,
      listed, rfl⟩
    refine ⟨⟨minor, major, pool, access, thisIndex, superIndex, interfaceIndices, fieldLayouts,
      methodLayouts, attributes⟩, rfl, ?_⟩
    rw [Record.foldl_add]
    exact ⟨rfl, rfl, pooled, rfl, named, extended, implemented, declared, defined, contents, listed,
      Option.or_none, List.nil_append _⟩
  · rintro ⟨⟨minor, major, pool, access, thisIndex, superIndex, interfaceIndices, fieldLayouts,
      methodLayouts, attributes⟩, rfl, described⟩
    obtain ⟨contents, listed, signed, annotated⟩ := described.attributes
    refine ⟨_, rfl, (minor, major, pool, access, thisIndex, superIndex, interfaceIndices, fieldLayouts,
      methodLayouts, attributes), rfl, _, rfl, _, rfl, _, described.constants, _, rfl, _,
      described.thisClass, _, described.superClass, _, described.interfaces, _, described.fields, _,
      described.methods, contents, listed, ?_⟩
    rw [Record.foldl_add]
    apply Record.ext
    case minor => exact described.minor
    case major => exact described.major
    case access => exact described.access
    case signature => exact signed.trans Option.or_none.symm
    case annotations => exact annotated
    all_goals rfl

/-- A record is decoded exactly where a layout that describes it is written out. -/
theorem Record.decode_eq_ok_iff_describes (bytes : List UInt8) (record : Record) :
    Record.decode bytes = .ok record ↔
      ∃ (layout : RecordLayout) (rest : List UInt8),
        bytes = layout.encode ++ rest ∧ layout.Describes record := by
  constructor
  · intro decoded
    obtain ⟨⟨_, rest, offset⟩, ran, rfl⟩ := map_eq_ok_iff.mp decoded
    obtain ⟨front, split, layout, rfl, described⟩ :=
      (decodes_record ⟨bytes, 0⟩ _ rest).mp ⟨offset, ran⟩
    exact ⟨layout, rest, split, described⟩
  · rintro ⟨layout, rest, split, described⟩
    obtain ⟨offset, ran⟩ := (decodes_record ⟨bytes, 0⟩ record rest).mpr
      ⟨layout.encode, split, layout, rfl, described⟩
    exact map_eq_ok_iff.mpr ⟨_, ran, rfl⟩

end ClassAtlas.ClassFile

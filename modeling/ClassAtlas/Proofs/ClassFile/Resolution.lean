import ClassAtlas.ClassFile.ConstantPool
import ClassAtlas.Proofs.Outcome

/-!
What an index of the constant pool stands for, said through the slots alone. Each function that
resolves an index succeeds exactly when the index stands for what it is asked for.
-/

namespace ClassAtlas.ClassFile

theorem bind_pure_eq_ok_iff {α β : Type} {x : Except DecodeError α} {f : α → β} {b : β} :
    (x >>= fun a => pure (f a)) = .ok b ↔ ∃ a, x = .ok a ∧ b = f a := by
  rw [bind_eq_ok_iff]
  constructor
  · rintro ⟨a, ran, same⟩
    cases same
    exact ⟨a, ran, rfl⟩
  · rintro ⟨a, ran, rfl⟩
    exact ⟨a, ran, rfl⟩

theorem map_eq_ok_iff {α β : Type} {x : Except DecodeError α} {f : α → β} {b : β} :
    f <$> x = .ok b ↔ ∃ a, x = .ok a ∧ f a = b := by
  cases x with
  | error e =>
      constructor
      · intro wrong
        cases wrong
      · rintro ⟨a, wrong, -⟩
        cases wrong
  | ok a =>
      constructor
      · intro mapped
        cases mapped
        exact ⟨a, rfl, rfl⟩
      · rintro ⟨_, same, rfl⟩
        cases same
        rfl

namespace ConstantPool

/-- The slot `index` holds the constant `c`. -/
def Holds (pool : ConstantPool) (index : Nat) (c : Constant) : Prop :=
  pool.slots[index]? = some (some c)

def Text (pool : ConstantPool) (index : Nat) (text : String) : Prop :=
  pool.Holds index (.utf8 text)

def NamesClass (pool : ConstantPool) (index : Nat) (name : String) : Prop :=
  ∃ nameIndex, pool.Holds index (.classInfo nameIndex) ∧ pool.Text nameIndex name

/-- Index 0 stands for no class. -/
def NamesOptionalClass (pool : ConstantPool) (index : Nat) : Option String → Prop
  | none => index = 0
  | some name => index ≠ 0 ∧ pool.NamesClass index name

def NamesAndTypes (pool : ConstantPool) (index : Nat) (name descriptor : String) : Prop :=
  ∃ nameIndex descriptorIndex, pool.Holds index (.nameAndType nameIndex descriptorIndex) ∧
    pool.Text nameIndex name ∧ pool.Text descriptorIndex descriptor

/-- A field or method of any kind. -/
def NamesMember (pool : ConstantPool) (index : Nat) (member : MemberRef) : Prop :=
  ∃ classIndex nameAndTypeIndex,
    (pool.Holds index (.fieldRef classIndex nameAndTypeIndex) ∨
      pool.Holds index (.methodRef classIndex nameAndTypeIndex) ∨
      pool.Holds index (.interfaceMethodRef classIndex nameAndTypeIndex)) ∧
    pool.NamesClass classIndex member.owner ∧
    pool.NamesAndTypes nameAndTypeIndex member.name member.descriptor

def NamesCallSite (pool : ConstantPool) (index : Nat) (name descriptor : String) : Prop :=
  ∃ bootstrapIndex nameAndTypeIndex,
    pool.Holds index (.invokeDynamic bootstrapIndex nameAndTypeIndex) ∧
    pool.NamesAndTypes nameAndTypeIndex name descriptor

/-- Loading the constant at `index` yields a type reference, or none if the constant is neither a
class, a method type nor a method handle. -/
inductive Loads (pool : ConstantPool) (index : Nat) : Option LoadableConstant → Prop where
  | classLiteral {nameIndex : Nat} {name : String} (holds : pool.Holds index (.classInfo nameIndex))
      (named : pool.Text nameIndex name) : Loads pool index (some (.classLiteral name))
  | methodType {descriptorIndex : Nat} {descriptor : String}
      (holds : pool.Holds index (.methodType descriptorIndex))
      (described : pool.Text descriptorIndex descriptor) :
      Loads pool index (some (.methodType descriptor))
  | methodHandle {kind : UInt8} {referenceIndex : Nat} {target : MemberRef}
      (holds : pool.Holds index (.methodHandle kind referenceIndex))
      (refers : pool.NamesMember referenceIndex target) :
      Loads pool index (some (.methodHandle kind target))
  | other {c : Constant} (holds : pool.Holds index c) (notClass : ∀ i, c ≠ .classInfo i)
      (notMethodType : ∀ i, c ≠ .methodType i) (notMethodHandle : ∀ kind i, c ≠ .methodHandle kind i) :
      Loads pool index none

variable {pool : ConstantPool} {index : Nat}

theorem get_eq_ok_iff {c : Constant} : pool.get index = .ok c ↔ pool.Holds index c := by
  unfold get Holds
  cases slot : pool.slots[index]? with
  | none => simp
  | some held => cases held <;> simp

theorem utf8_eq_ok_iff {text : String} : pool.utf8 index = .ok text ↔ pool.Text index text := by
  rw [utf8, bind_eq_ok_iff]
  simp only [get_eq_ok_iff]
  constructor
  · rintro ⟨c, holds, matched⟩
    cases c with
    | utf8 found =>
        cases matched
        exact holds
    | _ => cases matched
  · intro holds
    exact ⟨.utf8 text, holds, rfl⟩

theorem className_eq_ok_iff {name : String} :
    pool.className index = .ok name ↔ pool.NamesClass index name := by
  rw [className, bind_eq_ok_iff]
  simp only [get_eq_ok_iff]
  constructor
  · rintro ⟨c, holds, matched⟩
    cases c with
    | classInfo nameIndex => exact ⟨nameIndex, holds, utf8_eq_ok_iff.mp matched⟩
    | _ => cases matched
  · rintro ⟨nameIndex, holds, named⟩
    exact ⟨.classInfo nameIndex, holds, utf8_eq_ok_iff.mpr named⟩

theorem className?_eq_ok_iff {name : Option String} :
    pool.className? index = .ok name ↔ pool.NamesOptionalClass index name := by
  unfold className?
  by_cases absent : index = 0
  · cases name <;> simp [NamesOptionalClass, absent]
  · rw [if_neg absent, map_eq_ok_iff]
    cases name <;> simp [NamesOptionalClass, absent, className_eq_ok_iff]

theorem nameAndType_eq_ok_iff {name descriptor : String} :
    pool.nameAndType index = .ok (name, descriptor) ↔ pool.NamesAndTypes index name descriptor := by
  rw [nameAndType, bind_eq_ok_iff]
  simp only [get_eq_ok_iff]
  constructor
  · rintro ⟨c, holds, matched⟩
    cases c with
    | nameAndType nameIndex descriptorIndex =>
        obtain ⟨_, named, matched⟩ := bind_eq_ok_iff.mp matched
        obtain ⟨_, described, matched⟩ := bind_eq_ok_iff.mp matched
        cases matched
        exact ⟨nameIndex, descriptorIndex, holds, utf8_eq_ok_iff.mp named,
          utf8_eq_ok_iff.mp described⟩
    | _ => cases matched
  · rintro ⟨nameIndex, descriptorIndex, holds, named, described⟩
    refine ⟨.nameAndType nameIndex descriptorIndex, holds, ?_⟩
    exact bind_eq_ok_iff.mpr ⟨name, utf8_eq_ok_iff.mpr named,
      bind_eq_ok_iff.mpr ⟨descriptor, utf8_eq_ok_iff.mpr described, rfl⟩⟩

theorem memberIndices_eq_ok_iff {classIndex nameAndTypeIndex : Nat} :
    pool.memberIndices index = .ok (classIndex, nameAndTypeIndex) ↔
      pool.Holds index (.fieldRef classIndex nameAndTypeIndex) ∨
        pool.Holds index (.methodRef classIndex nameAndTypeIndex) ∨
        pool.Holds index (.interfaceMethodRef classIndex nameAndTypeIndex) := by
  rw [memberIndices, bind_eq_ok_iff]
  simp only [get_eq_ok_iff]
  constructor
  · rintro ⟨c, holds, matched⟩
    cases c with
    | fieldRef _ _ =>
        cases matched
        exact .inl holds
    | methodRef _ _ =>
        cases matched
        exact .inr (.inl holds)
    | interfaceMethodRef _ _ =>
        cases matched
        exact .inr (.inr holds)
    | _ => cases matched
  · rintro (holds | holds | holds)
    · exact ⟨_, holds, rfl⟩
    · exact ⟨_, holds, rfl⟩
    · exact ⟨_, holds, rfl⟩

theorem memberRef_eq_ok_iff {member : MemberRef} :
    pool.memberRef index = .ok member ↔ pool.NamesMember index member := by
  rw [memberRef, bind_eq_ok_iff]
  constructor
  · rintro ⟨⟨classIndex, nameAndTypeIndex⟩, indices, matched⟩
    obtain ⟨⟨_, _⟩, typed, matched⟩ := bind_eq_ok_iff.mp matched
    obtain ⟨_, owned, matched⟩ := bind_eq_ok_iff.mp matched
    cases matched
    exact ⟨classIndex, nameAndTypeIndex, memberIndices_eq_ok_iff.mp indices,
      className_eq_ok_iff.mp owned, nameAndType_eq_ok_iff.mp typed⟩
  · rintro ⟨classIndex, nameAndTypeIndex, holds, owned, typed⟩
    refine ⟨(classIndex, nameAndTypeIndex), memberIndices_eq_ok_iff.mpr holds, ?_⟩
    exact bind_eq_ok_iff.mpr ⟨_, nameAndType_eq_ok_iff.mpr typed,
      bind_eq_ok_iff.mpr ⟨_, className_eq_ok_iff.mpr owned, rfl⟩⟩

theorem callSite_eq_ok_iff {name descriptor : String} :
    pool.callSite index = .ok (name, descriptor) ↔ pool.NamesCallSite index name descriptor := by
  rw [callSite, bind_eq_ok_iff]
  simp only [get_eq_ok_iff]
  constructor
  · rintro ⟨c, holds, matched⟩
    cases c with
    | invokeDynamic bootstrapIndex nameAndTypeIndex =>
        exact ⟨bootstrapIndex, nameAndTypeIndex, holds, nameAndType_eq_ok_iff.mp matched⟩
    | _ => cases matched
  · rintro ⟨bootstrapIndex, nameAndTypeIndex, holds, typed⟩
    exact ⟨.invokeDynamic bootstrapIndex nameAndTypeIndex, holds, nameAndType_eq_ok_iff.mpr typed⟩

theorem loadable?_eq_ok_iff {loaded : Option LoadableConstant} :
    pool.loadable? index = .ok loaded ↔ pool.Loads index loaded := by
  rw [loadable?, bind_eq_ok_iff]
  simp only [get_eq_ok_iff]
  constructor
  · rintro ⟨c, holds, matched⟩
    cases c with
    | classInfo nameIndex =>
        obtain ⟨_, named, matched⟩ := bind_eq_ok_iff.mp matched
        cases matched
        exact .classLiteral holds (utf8_eq_ok_iff.mp named)
    | methodType descriptorIndex =>
        obtain ⟨_, described, matched⟩ := bind_eq_ok_iff.mp matched
        cases matched
        exact .methodType holds (utf8_eq_ok_iff.mp described)
    | methodHandle kind referenceIndex =>
        obtain ⟨_, refers, matched⟩ := bind_eq_ok_iff.mp matched
        cases matched
        exact .methodHandle holds (memberRef_eq_ok_iff.mp refers)
    | _ =>
        cases matched
        exact .other holds (by simp) (by simp) (by simp)
  · intro loads
    cases loads with
    | classLiteral holds named =>
        exact ⟨_, holds, bind_eq_ok_iff.mpr ⟨_, utf8_eq_ok_iff.mpr named, rfl⟩⟩
    | methodType holds described =>
        exact ⟨_, holds, bind_eq_ok_iff.mpr ⟨_, utf8_eq_ok_iff.mpr described, rfl⟩⟩
    | methodHandle holds refers =>
        exact ⟨_, holds, bind_eq_ok_iff.mpr ⟨_, memberRef_eq_ok_iff.mpr refers, rfl⟩⟩
    | @other c holds notClass notMethodType notMethodHandle =>
        refine ⟨c, holds, ?_⟩
        cases c with
        | classInfo i => exact absurd rfl (notClass i)
        | methodType i => exact absurd rfl (notMethodType i)
        | methodHandle kind i => exact absurd rfl (notMethodHandle kind i)
        | _ => rfl

end ConstantPool

end ClassAtlas.ClassFile

import ClassAtlas.ClassFile.Record
import ClassAtlas.Proofs.ClassFile.Decoding
import ClassAtlas.Proofs.ClassFile.Walk

/-!
Where the end of a code array is reported. An instruction that is cut off after its length is known is
reported by its place in the record. One whose own bytes say how long it is, and that ends before they
do, is reported by a place in the array: this is a `wide` with nothing behind it, or a switch without
its bounds.
-/

namespace ClassAtlas.ClassFile

/-- The error as it reads when the data stands `base` bytes further on. -/
def DecodeError.rebase (base : Nat) : DecodeError → DecodeError
  | .unexpectedEnd offset needed => .unexpectedEnd (offset + base) needed
  | e => e

theorem DecodeError.rebase_eq_self {e : DecodeError} (base : Nat)
    (whole : ∀ offset needed, e ≠ .unexpectedEnd offset needed) : e.rebase base = e := by
  cases e with
  | unexpectedEnd offset needed => exact absurd rfl (whole offset needed)
  | _ => rfl

section Placeless

variable {α β : Type}

/-- An outcome that no end of data can have caused. -/
def Placeless (x : Except DecodeError α) : Prop :=
  ∀ base, x.mapError (DecodeError.rebase base) = x

theorem mapError_bind (g : DecodeError → DecodeError) (x : Except DecodeError α)
    (f : α → Except DecodeError β) :
    (x >>= f).mapError g = x.mapError g >>= fun a => (f a).mapError g := by
  cases x <;> rfl

theorem Placeless.bind {x : Except DecodeError α} {f : α → Except DecodeError β} (first : Placeless x)
    (second : ∀ a, Placeless (f a)) : Placeless (x >>= f) := by
  intro base
  rw [mapError_bind, first base]
  simp only [second _ base]

theorem Placeless.ok (a : α) : Placeless (.ok a) :=
  fun _ => rfl

end Placeless

namespace ConstantPool

variable (pool : ConstantPool) (index : Nat)

theorem placeless_get : Placeless (pool.get index) := by
  intro base
  unfold get
  split <;> rfl

theorem placeless_utf8 : Placeless (pool.utf8 index) := by
  refine (pool.placeless_get index).bind fun c base => ?_
  cases c <;> rfl

theorem placeless_className : Placeless (pool.className index) := by
  refine (pool.placeless_get index).bind fun c => ?_
  cases c with
  | classInfo nameIndex => exact pool.placeless_utf8 nameIndex
  | _ => exact fun _ => rfl

theorem placeless_nameAndType : Placeless (pool.nameAndType index) := by
  refine (pool.placeless_get index).bind fun c => ?_
  cases c with
  | nameAndType nameIndex descriptorIndex =>
      exact (pool.placeless_utf8 nameIndex).bind fun _ =>
        (pool.placeless_utf8 descriptorIndex).bind fun _ => .ok _
  | _ => exact fun _ => rfl

theorem placeless_memberRef : Placeless (pool.memberRef index) := by
  have indices : Placeless (pool.memberIndices index) :=
    (pool.placeless_get index).bind fun c base => by cases c <;> rfl
  exact indices.bind fun found => (pool.placeless_nameAndType found.2).bind fun _ =>
    (pool.placeless_className found.1).bind fun _ => .ok _

theorem placeless_loadable? : Placeless (pool.loadable? index) := by
  refine (pool.placeless_get index).bind fun c => ?_
  cases c with
  | classInfo nameIndex => exact (pool.placeless_utf8 nameIndex).bind fun _ => .ok _
  | methodType descriptorIndex => exact (pool.placeless_utf8 descriptorIndex).bind fun _ => .ok _
  | methodHandle kind referenceIndex =>
      exact (pool.placeless_memberRef referenceIndex).bind fun _ => .ok _
  | _ => exact .ok none

theorem placeless_callSite : Placeless (pool.callSite index) := by
  refine (pool.placeless_get index).bind fun c => ?_
  cases c with
  | invokeDynamic bootstrap nameAndTypeIndex => exact pool.placeless_nameAndType nameAndTypeIndex
  | _ => exact fun _ => rfl

end ConstantPool

namespace Bytecode

theorem placeless_reference? (pool : ConstantPool) (pc : Nat) (opcode : UInt8)
    (operands : List UInt8) : Placeless (reference? pool pc opcode operands) := by
  unfold reference?
  split
  case h_1 | h_2 | h_3 | h_4 => exact (pool.placeless_className _).bind fun _ => .ok _
  case h_5 | h_6 | h_7 | h_8 => exact (pool.placeless_memberRef _).bind fun _ => .ok _
  case h_9 | h_10 | h_11 | h_12 => exact (pool.placeless_memberRef _).bind fun _ => .ok _
  case h_13 => exact (pool.placeless_callSite _).bind fun _ => .ok _
  case h_14 | h_15 => exact (pool.placeless_loadable? _).bind fun _ => .ok _
  case h_16 => exact (pool.placeless_className _).bind fun _ => .ok _
  case h_17 => exact .ok none

/-- The code at `pc` opens with an instruction that ends before its length can be read. -/
def Unmeasured (pc : Nat) : List UInt8 → Prop
  | [] => False
  | opcode :: rest =>
    opcode = 0xC4 ∧ rest = [] ∨ opcode = 0xAA ∧ rest.length < switchPadding pc + 12 ∨
      opcode = 0xAB ∧ rest.length < switchPadding pc + 8

/-- The code from `pc` on ends in such an instruction, behind complete operations that resolve. -/
inductive EndsUnmeasured (pool : ConstantPool) : Nat → List UInt8 → Prop
  | here {pc : Nat} {code : List UInt8} : Unmeasured pc code → EndsUnmeasured pool pc code
  | later {pc : Nat} {tail : List UInt8} (op : Operation) {found : Option Instruction} :
      op.Aligned pc → op.Refers pool pc found →
      EndsUnmeasured pool (pc + op.bytes.length) tail → EndsUnmeasured pool pc (op.bytes ++ tail)

/-- The outcome is an end of data. -/
def RunsOut {α : Type} (x : Except DecodeError α) : Prop :=
  ∃ offset needed, x = .error (.unexpectedEnd offset needed)

theorem runsOut_invalidSwitch_iff {α : Type} {c : Prop} [Decidable c] (pc : Nat) (a : α) :
    RunsOut (if c then throw (.invalidSwitch pc) else pure a : Except DecodeError α) ↔ False := by
  rw [iff_false]
  rintro ⟨offset, needed, ran⟩
  split at ran <;> cases ran

section Lengths

variable {pc : Nat} {opcode : UInt8} {operands : List UInt8}

/-- Reading a word, for a reading that goes on alike whatever the word is. -/
theorem wordAt_bind_runsOut_iff {α : Type} {skip : Nat} {f : Int → Except DecodeError α} {P : Prop}
    (after : ∀ value, RunsOut (f value) ↔ P) :
    RunsOut (wordAt pc operands skip >>= f) ↔ operands.length < skip + 4 ∨ P := by
  have left : ((operands.drop skip).take 4).length < 4 ↔ operands.length < skip + 4 := by
    rw [List.length_take, List.length_drop]
    omega
  by_cases short : operands.length < skip + 4
  · have ran : wordAt pc operands skip = _ := if_pos (left.mpr short)
    rw [ran]
    exact ⟨fun _ => .inl short, fun _ => ⟨_, _, rfl⟩⟩
  · have ran : wordAt pc operands skip = _ := if_neg (mt left.mp short)
    rw [ran, or_iff_right short]
    exact after _

theorem tableSwitchLength_runsOut_iff :
    RunsOut (tableSwitchLength pc operands) ↔ operands.length < switchPadding pc + 12 := by
  refine (wordAt_bind_runsOut_iff fun low => wordAt_bind_runsOut_iff fun high =>
    runsOut_invalidSwitch_iff pc _).trans ?_
  rw [or_false]
  omega

theorem lookupSwitchLength_runsOut_iff :
    RunsOut (lookupSwitchLength pc operands) ↔ operands.length < switchPadding pc + 8 := by
  refine (wordAt_bind_runsOut_iff fun pairs => runsOut_invalidSwitch_iff pc _).trans ?_
  rw [or_false]

theorem wideLength_runsOut_iff : RunsOut (wideLength pc operands) ↔ operands = [] := by
  cases operands with
  | nil => exact ⟨fun _ => rfl, fun _ => ⟨_, _, rfl⟩⟩
  | cons widened more =>
      refine ⟨?_, nofun⟩
      rintro ⟨offset, needed, ran⟩
      cases ran

/-- The length runs out of data exactly where the instruction says it itself and is too short to. -/
theorem operandLength_runsOut_iff :
    RunsOut (operandLength pc opcode operands) ↔ Unmeasured pc (opcode :: operands) := by
  by_cases table : opcode = 0xAA
  · subst table
    exact tableSwitchLength_runsOut_iff.trans (by simp [Unmeasured])
  by_cases lookup : opcode = 0xAB
  · subst lookup
    exact lookupSwitchLength_runsOut_iff.trans (by simp [Unmeasured])
  by_cases wide : opcode = 0xC4
  · subst wide
    exact wideLength_runsOut_iff.trans (by simp [Unmeasured])
  · simp only [Unmeasured, table, lookup, wide, false_and, false_or, iff_false]
    rintro ⟨offset, needed, ran⟩
    unfold operandLength at ran
    split at ran
    · cases ran
    · rw [if_neg table, if_neg lookup, if_neg wide] at ran
      cases ran

end Lengths

section Walk

variable {pool : ConstantPool} {pc : Nat}

/-- What the walk says where a length cannot be read, whatever the base. -/
theorem EndsUnmeasured.decodeFrom_eq {code : List UInt8} (ends : EndsUnmeasured pool pc code) :
    ∃ offset needed, ∀ base, decodeFrom pool base pc code = .error (.unexpectedEnd offset needed) := by
  induction ends with
  | @here pc code unmeasured =>
      cases code with
      | nil => exact unmeasured.elim
      | cons opcode rest =>
          obtain ⟨offset, needed, ran⟩ := operandLength_runsOut_iff.mpr unmeasured
          exact ⟨offset, needed, fun base => decodeFrom_unmeasured ran⟩
  | later op aligned refers _ ih =>
      obtain ⟨offset, needed, ran⟩ := ih
      refine ⟨offset, needed, fun base => ?_⟩
      rw [decodeFrom_operation base aligned, (op.reference?_eq_ok_iff ..).mpr refers, ran base]
      rfl

/-- What the walk says otherwise. -/
theorem decodeFrom_rebase (base : Nat) {code : List UInt8} (measured : ¬ EndsUnmeasured pool pc code) :
    decodeFrom pool base pc code =
      (decodeFrom pool 0 pc code).mapError (DecodeError.rebase base) := by
  induction sized : code.length using Nat.strongRecOn generalizing pc code with
  | ind size ih =>
      cases code with
      | nil =>
          rw [decodeFrom, decodeFrom]
          rfl
      | cons opcode rest =>
          cases measure : operandLength pc opcode rest with
          | error e =>
              have whole (offset needed : Nat) : e ≠ .unexpectedEnd offset needed := by
                rintro rfl
                exact measured (.here (operandLength_runsOut_iff.mp ⟨_, _, measure⟩))
              rw [decodeFrom, decodeFrom, measure]
              exact congrArg Except.error (e.rebase_eq_self base whole).symm
          | ok length =>
              by_cases enough : length ≤ rest.length
              · obtain ⟨op, tail, aligned, rfl, rfl, rfl⟩ := begins_of_operandLength measure enough
                change ¬ EndsUnmeasured pool pc (op.bytes ++ tail) at measured
                change decodeFrom pool base pc (op.bytes ++ tail) =
                  (decodeFrom pool 0 pc (op.bytes ++ tail)).mapError _
                rw [decodeFrom_operation base aligned, decodeFrom_operation 0 aligned, mapError_bind,
                  placeless_reference?]
                cases refers : reference? pool pc op.opcode op.operands with
                | error e => rfl
                | ok found =>
                    have shorter : tail.length < size := by
                      rw [← sized, List.length_cons, List.length_append]
                      omega
                    have rest : ¬ EndsUnmeasured pool (pc + op.bytes.length) tail := fun ends =>
                      measured (.later op aligned ((op.reference?_eq_ok_iff ..).mp refers) ends)
                    change (decodeFrom pool base _ tail >>= _) =
                      (decodeFrom pool 0 _ tail >>= _).mapError _
                    rw [mapError_bind, ih _ shorter rest rfl]
                    rfl
              · rw [decodeFrom_measured base measure, decodeFrom_measured 0 measure,
                  if_pos (Nat.lt_of_not_le enough), if_pos (Nat.lt_of_not_le enough), Nat.zero_add,
                  Nat.add_comm]
                rfl

end Walk

end Bytecode

namespace Decoder

variable {front : List UInt8} (rest : List UInt8) (offset : Nat)

theorem run_bind_ok {α β : Type} {d : Decoder α} {f : α → Decoder β} {cursor after : Cursor} {a : α}
    (ran : d.run cursor = .ok (a, after)) : (d >>= f).run cursor = (f a).run after := by
  rw [StateT.run_bind, ran]
  rfl

theorem run_bytes_append {n : Nat} (sized : front.length = n) :
    (bytes n).run ⟨front ++ rest, offset⟩ = .ok (front, ⟨rest, offset + n⟩) := by
  rw [run_bytes, List.take_left' sized, List.drop_left' sized, if_neg (by omega)]

theorem run_u2_append (two : front.length = 2) :
    u2.run ⟨front ++ rest, offset⟩ = .ok (bigEndian front, ⟨rest, offset + 2⟩) := by
  change (bytes 2).run _ >>= _ = _
  rw [run_bytes_append rest offset two]
  rfl

theorem run_u4_append (four : front.length = 4) :
    u4.run ⟨front ++ rest, offset⟩ = .ok (bigEndian front, ⟨rest, offset + 4⟩) := by
  change (bytes 4).run _ >>= _ = _
  rw [run_bytes_append rest offset four]
  rfl

theorem run_split_append :
    (split front.length).run ⟨front ++ rest, offset⟩ =
      .ok (⟨front, offset⟩, ⟨rest, offset + front.length⟩) := by
  change (bytes front.length).run _ >>= _ = _
  rw [run_bytes_append rest offset rfl]
  rfl

end Decoder

/-- A code attribute fails as its array does, which stands behind the eight bytes of the header. -/
theorem Code.decode_fails {pool : ConstantPool} {header code : List UInt8} {offset : Nat}
    {e : DecodeError} (eight : header.length = 8) (counted : bigEndian (header.drop 4) = code.length)
    (failed : Bytecode.decode pool (offset + 8) code = .error e) (more : List UInt8) :
    (Code.decode pool).run ⟨header ++ (code ++ more), offset⟩ = .error e := by
  obtain ⟨stack, header, rfl, two⟩ := exists_append_of_le (show 2 ≤ header.length by omega)
  rw [List.length_append, two] at eight
  obtain ⟨locals, size, rfl, two'⟩ := exists_append_of_le (show 2 ≤ header.length by omega)
  rw [List.length_append, two'] at eight
  have four : size.length = 4 := by omega
  rw [← List.append_assoc, List.drop_left' (by simp [two, two'])] at counted
  rw [List.append_assoc, List.append_assoc]
  rw [Code.decode, Decoder.run_bind_ok (Decoder.run_u2_append _ _ two),
    Decoder.run_bind_ok (Decoder.run_u2_append _ _ two'),
    Decoder.run_bind_ok (Decoder.run_u4_append _ _ four), counted,
    Decoder.run_bind_ok (Decoder.run_split_append _ _)]
  dsimp only
  rw [failed]
  rfl

namespace Bytecode

/-- Where the code array stands shows in an end of data, and only there, exactly if no length runs out
of data; if one does, it is an end of data that does not show it. A code attribute reports what the walk
reports with the place of its array. -/
theorem decode_rebase_iff (pool : ConstantPool) (base : Nat) (code : List UInt8) :
    (decode pool base code = (decode pool 0 code).mapError (DecodeError.rebase base) ↔
      base = 0 ∨ ¬ EndsUnmeasured pool 0 code) ∧
    (EndsUnmeasured pool 0 code →
      RunsOut (decode pool 0 code) ∧ decode pool base code = decode pool 0 code) ∧
    ∀ (header more : List UInt8) (offset : Nat) (e : DecodeError), header.length = 8 →
      bigEndian (header.drop 4) = code.length → base = offset + 8 → decode pool base code = .error e →
        (Code.decode pool).run ⟨header ++ (code ++ more), offset⟩ = .error e := by
  refine ⟨⟨?_, ?_⟩, ?_, ?_⟩
  · intro same
    by_contra other
    obtain ⟨moved, unmeasured⟩ := not_or.mp other
    obtain ⟨offset, needed, ran⟩ := (not_not.mp unmeasured).decodeFrom_eq
    rw [decode, decode, ran base, ran 0] at same
    change Except.error _ = Except.error (DecodeError.unexpectedEnd (offset + base) needed) at same
    rw [Except.error.injEq, DecodeError.unexpectedEnd.injEq] at same
    omega
  · rintro (rfl | measured)
    · cases decode pool 0 code with
      | ok found => rfl
      | error e => cases e <;> rfl
    · exact decodeFrom_rebase base measured
  · intro ends
    obtain ⟨offset, needed, ran⟩ := ends.decodeFrom_eq
    exact ⟨⟨offset, needed, ran 0⟩, (ran base).trans (ran 0).symm⟩
  · intro header more offset e eight counted place failed
    exact Code.decode_fails eight counted (place ▸ failed) more

/-- An instruction that is cut off after its length is known is reported in the record. -/
theorem cut_new_placed :
    decode ⟨#[]⟩ 64 [0xBB, 0] = .error (.unexpectedEnd 64 1) ∧
      ¬ EndsUnmeasured ⟨#[]⟩ 0 [0xBB, 0] ∧
      (Code.decode ⟨#[]⟩).run ⟨[0, 0, 0, 0, 0, 0, 0, 2] ++ ([0xBB, 0] ++ [0, 0, 0, 0]), 56⟩ =
        .error (.unexpectedEnd 64 1) := by
  obtain ⟨rebased, -, placed⟩ := decode_rebase_iff ⟨#[]⟩ 64 [0xBB, 0]
  have cut (base : Nat) : decode ⟨#[]⟩ base [0xBB, 0] = .error (.unexpectedEnd (base + 0) 1) :=
    (decodeFrom_measured base rfl).trans (if_pos (by decide))
  refine ⟨cut 64, ?_, placed _ _ 56 _ rfl rfl rfl (cut 64)⟩
  refine (rebased.mp ?_).resolve_left (by decide)
  rw [cut, cut]
  rfl

/-- A class `A` with a method whose code is a lone `wide`, at offset 64. -/
def cutWideClass : List UInt8 :=
  [0xCA, 0xFE, 0xBA, 0xBE, 0, 0, 0, 52, 0, 5, 1, 0, 1, 65, 7, 0, 1, 1, 0, 4, 67, 111, 100, 101,
    1, 0, 3, 40, 41, 86, 0, 33, 0, 2, 0, 0, 0, 0, 0, 0, 0, 1, 0, 0, 0, 1, 0, 4, 0, 1, 0, 3, 0, 0,
    0, 13, 0, 0, 0, 0, 0, 0, 0, 1, 0xC4, 0, 0, 0, 0, 0, 0]

/-- The code array is left out of the place where a `wide` is cut off. -/
theorem cut_wide_misplaced :
    decode ⟨#[]⟩ 64 [0xC4] ≠ (decode ⟨#[]⟩ 0 [0xC4]).mapError (DecodeError.rebase 64) ∧
      cutWideClass[64]? = some 0xC4 ∧
      Record.decode cutWideClass = .error (.unexpectedEnd 1 1) := by
  have cut (base : Nat) : decode ⟨#[]⟩ base [0xC4] = .error (.unexpectedEnd 1 1) :=
    decodeFrom_unmeasured rfl
  have failed : (Record.decode cutWideClass).map (fun _ => ()) = .error (.unexpectedEnd 1 1) := by
    decide +kernel
  refine ⟨?_, rfl, ?_⟩
  · rw [cut, cut]
    intro same
    cases same
  · cases decoded : Record.decode cutWideClass with
    | ok record =>
        rw [decoded] at failed
        cases failed
    | error e =>
        rw [decoded] at failed
        cases failed
        rfl

end Bytecode

end ClassAtlas.ClassFile

import ClassAtlas.ClassFile.Record
import ClassAtlas.Proofs.ClassFile.Decoding

/-!
Decoding from the front. What a decoder makes of a record is decided by the bytes it takes: more bytes
behind them change nothing, and fewer of them are an end of data that never asks for more than was
there. Contents of attributes play no part in this, since a body is complete before it is opened.
-/

namespace ClassAtlas.ClassFile

/-- At `offset` the decoder takes exactly the bytes `taken` to give `value`. -/
structure Takes {α : Type} (d : Decoder α) (offset : Nat) (taken : List UInt8) (value : α) : Prop where
  whole (rest : List UInt8) :
    d.run ⟨taken ++ rest, offset⟩ = .ok (value, ⟨rest, offset + taken.length⟩)
  cut (length : Nat) : length < taken.length → ∃ place needed,
    d.run ⟨taken.take length, offset⟩ = .error (.unexpectedEnd place needed) ∧
      place ≤ offset + length ∧ 1 ≤ needed ∧ length + needed ≤ taken.length

/-- Every success of the decoder is decided by the bytes it takes. -/
def Streams {α : Type} (d : Decoder α) : Prop :=
  ∀ (cursor : Cursor) (value : α) (after : Cursor), d.run cursor = .ok (value, after) →
    ∃ taken, cursor.rest = taken ++ after.rest ∧ Takes d cursor.offset taken value

theorem Takes.bind {α β : Type} {d : Decoder α} {f : α → Decoder β} {offset : Nat}
    {front back : List UInt8} {a : α} {value : β} (first : Takes d offset front a)
    (second : Takes (f a) (offset + front.length) back value) :
    Takes (d >>= f) offset (front ++ back) value := by
  constructor
  · intro rest
    apply bind_eq_ok_iff.mpr
    refine ⟨(a, ⟨back ++ rest, offset + front.length⟩), ?_, ?_⟩
    · rw [List.append_assoc]
      exact first.whole (back ++ rest)
    · rw [List.length_append, ← Nat.add_assoc]
      exact second.whole rest
  · intro length short
    rw [List.length_append] at short
    by_cases early : length < front.length
    · obtain ⟨place, needed, failed, near, missing, enough⟩ := first.cut length early
      refine ⟨place, needed, ?_, near, missing, ?_⟩
      · rw [List.take_append_of_le_length (Nat.le_of_lt early)]
        change d.run _ >>= _ = _
        rw [failed]
        rfl
      · rw [List.length_append]
        omega
    · have later : length - front.length < back.length := by omega
      obtain ⟨place, needed, failed, near, missing, enough⟩ := second.cut _ later
      refine ⟨place, needed, ?_, by omega, missing, ?_⟩
      · have kept : (front ++ back).take length = front ++ back.take (length - front.length) := by
          rw [List.take_append, List.take_of_length_le (by omega)]
        change d.run _ >>= _ = _
        rw [kept, first.whole]
        exact failed
      · rw [List.length_append]
        omega

namespace Streams

variable {α β : Type} {d : Decoder α}

theorem bind {f : α → Decoder β} (first : Streams d) (second : ∀ a, Streams (f a)) :
    Streams (d >>= f) := by
  intro cursor value after ran
  obtain ⟨⟨a, between⟩, ranFirst, ranSecond⟩ := bind_eq_ok_iff.mp ran
  obtain ⟨front, split, taken⟩ := first cursor a between ranFirst
  obtain ⟨back, splitMore, takenMore⟩ := second a between value after ranSecond
  have reached : between.offset = cursor.offset + front.length := by
    have again := taken.whole between.rest
    rw [← split] at again
    have same := ranFirst.symm.trans again
    have ends := congrArg (fun outcome => outcome.toOption.map (·.2.offset)) same
    exact Option.some.inj ends
  refine ⟨front ++ back, ?_, taken.bind (reached ▸ takenMore)⟩
  rw [split, splitMore, List.append_assoc]

/-- A decoder that reads nothing. -/
theorem resolve (outcome : Except DecodeError α) : Streams (Decoder.resolve outcome) := by
  intro cursor value after ran
  cases outcome with
  | error e => cases ran
  | ok a =>
      cases ran
      refine ⟨[], rfl, fun rest => rfl, ?_⟩
      intro length short
      cases short

theorem pure (a : α) : Streams (Pure.pure a) :=
  resolve (.ok a)

theorem fail (e : DecodeError) : Streams (Decoder.fail e : Decoder α) :=
  resolve (.error e)

theorem offset : Streams Decoder.offset := by
  intro cursor value after ran
  cases ran
  refine ⟨[], rfl, fun rest => rfl, ?_⟩
  intro length short
  cases short

theorem bytes (n : Nat) : Streams (Decoder.bytes n) := by
  intro cursor value after ran
  rw [Decoder.run_bytes] at ran
  split at ran
  case isTrue short => cases ran
  case isFalse enough =>
    cases ran
    rw [List.length_take] at enough
    have sized : (cursor.rest.take n).length = n := by
      rw [List.length_take]
      omega
    refine ⟨cursor.rest.take n, (List.take_append_drop n _).symm, ?_, ?_⟩
    · intro rest
      rw [Decoder.run_bytes, List.take_left' sized, List.drop_left' sized, if_neg (by omega), sized]
    · intro length short
      rw [sized] at short
      have left : (((cursor.rest.take n).take length).take n).length = length := by
        rw [List.length_take, List.length_take, sized]
        omega
      refine ⟨cursor.offset, n - length, ?_, Nat.le_add_right .., by omega, by omega⟩
      rw [Decoder.run_bytes, if_pos (by rw [left]; exact short), left]

theorem u1 : Streams Decoder.u1 :=
  (bytes 1).bind fun _ => pure _

theorem u2 : Streams Decoder.u2 :=
  (bytes 2).bind fun _ => pure _

theorem u4 : Streams Decoder.u4 :=
  (bytes 4).bind fun _ => pure _

theorem u8 : Streams Decoder.u8 :=
  u4.bind fun _ => u4.bind fun _ => pure _

theorem split (n : Nat) : Streams (Decoder.split n) :=
  offset.bind fun _ => (bytes n).bind fun _ => pure _

theorem times (streams : Streams d) (n : Nat) : Streams (Decoder.times d n) := by
  induction n with
  | zero => exact pure []
  | succ n ih => exact streams.bind fun item => ih.bind fun more => pure (item :: more)

theorem table (streams : Streams d) : Streams (Decoder.table d) :=
  u2.bind streams.times

theorem ite {c : Prop} [Decidable c] {other : Decoder α} (yes : Streams d) (no : Streams other) :
    Streams (if c then d else other) := by
  by_cases holds : c
  · rw [if_pos holds]
    exact yes
  · rw [if_neg holds]
    exact no

end Streams

theorem streams_utf8 (pool : ConstantPool) : Streams (decodeUtf8 pool) :=
  Streams.u2.bind fun index => .resolve (pool.utf8 index)

theorem streams_className (pool : ConstantPool) : Streams (decodeClassName pool) :=
  Streams.u2.bind fun index => .resolve (pool.className index)

theorem streams_className? (pool : ConstantPool) : Streams (decodeClassName? pool) :=
  Streams.u2.bind fun index => .resolve (pool.className? index)

/-- The body is split off before its content is looked at. -/
theorem streams_attributes {α : Type} (pool : ConstantPool) (known : String → Option (Decoder α)) :
    Streams (Decoder.attributes pool known) := by
  have entry : Streams (Decoder.attributeEntry pool known) := by
    refine Streams.u2.bind fun index => (Streams.resolve (pool.utf8 index)).bind fun name =>
      Streams.u4.bind fun length => (Streams.split length).bind fun body => ?_
    cases known name with
    | none => exact .pure none
    | some content =>
        refine Streams.bind (.resolve (content.run body)) fun (value, after) => ?_
        exact .ite (.pure _) (.fail _)
  exact entry.table.bind fun entries => .pure _

theorem streams_constant (index : Nat) : Streams (ConstantPool.constant index) := by
  have one {α : Type} (f : Nat → α) : Streams (Decoder.u2 >>= fun n => pure (f n)) :=
    Streams.u2.bind fun _ => .pure _
  have two {α : Type} (f : Nat → Nat → α) :
      Streams (Decoder.u2 >>= fun m => Decoder.u2 >>= fun n => pure (f m n)) :=
    Streams.u2.bind fun _ => one _
  refine Streams.u1.bind fun tag => ?_
  split
  case h_1 =>
    refine Streams.u2.bind fun length => (Streams.bytes length).bind fun raw => ?_
    cases ModifiedUtf8.decode raw with
    | none => exact .fail _
    | some text => exact .pure _
  case h_2 => exact Streams.u4.bind fun _ => .pure _
  case h_3 => exact Streams.u4.bind fun _ => .pure _
  case h_4 => exact Streams.u8.bind fun _ => .pure _
  case h_5 => exact Streams.u8.bind fun _ => .pure _
  case h_6 => exact one _
  case h_7 => exact one _
  case h_8 => exact two _
  case h_9 => exact two _
  case h_10 => exact two _
  case h_11 => exact two _
  case h_12 => exact Streams.u1.bind fun _ => one _
  case h_13 => exact one _
  case h_14 => exact two _
  case h_15 => exact two _
  case h_16 => exact one _
  case h_17 => exact one _
  case h_18 => exact .fail _

theorem streams_slotsFrom (left index : Nat) : Streams (ConstantPool.slotsFrom index left) := by
  -- a wide constant takes two of the declared slots, so a step may lower the count by two
  induction left using Nat.strongRecOn generalizing index with
  | ind left ih =>
      cases left with
      | zero => exact .pure []
      | succ left =>
          unfold ConstantPool.slotsFrom
          refine (streams_constant index).bind fun c => .ite ?_ ?_
          · cases left with
            | zero => exact .pure _
            | succ left => exact (ih left (by omega) _).bind fun _ => .pure _
          · exact (ih left (by omega) _).bind fun _ => .pure _

theorem streams_pool : Streams ConstantPool.decode :=
  Streams.u2.bind fun count => (streams_slotsFrom (count - 1) 1).bind fun _ => .pure _

theorem streams_field (pool : ConstantPool) : Streams (Field.decode pool) :=
  Streams.u2.bind fun _ => (streams_utf8 pool).bind fun _ => (streams_utf8 pool).bind fun _ =>
    (streams_attributes pool (CommonAttribute.known pool)).bind fun _ => .pure _

theorem streams_method (pool : ConstantPool) : Streams (Method.decode pool) :=
  Streams.u2.bind fun _ => (streams_utf8 pool).bind fun _ => (streams_utf8 pool).bind fun _ =>
    (streams_attributes pool (Method.known pool)).bind fun _ => .pure _

theorem streams_magicThen {α : Type} {d : Decoder α} (streams : Streams d) :
    Streams (do
      let found ← Decoder.u4
      if found ≠ Record.magic then
        Decoder.fail (.badMagic found)
      d) :=
  Streams.u4.bind fun found => .ite ((Streams.fail (.badMagic found)).bind fun _ => streams) streams

theorem streams_record : Streams Record.decoder :=
  streams_magicThen (Streams.u2.bind fun _ => Streams.u2.bind fun _ => streams_pool.bind fun pool =>
    Streams.u2.bind fun _ => (streams_className pool).bind fun _ =>
    (streams_className? pool).bind fun _ => (streams_className pool).table.bind fun _ =>
    (streams_field pool).table.bind fun _ => (streams_method pool).table.bind fun _ =>
    (streams_attributes pool (CommonAttribute.known pool)).bind fun _ => .pure _)

/-- A record ends at some length. What stands behind it is never looked at, and a cut before it is
reported as an end of data, no more bytes being missed than the record still had. -/
theorem Record.decode_cut {bytes : List UInt8} {record : Record}
    (decoded : Record.decode bytes = .ok record) :
    ∃ length ≤ bytes.length,
      (∀ more, Record.decode (bytes.take length ++ more) = .ok record) ∧
      ∀ cut < length, ∃ offset needed,
        Record.decode (bytes.take cut) = .error (.unexpectedEnd offset needed) ∧
          offset ≤ cut ∧ 1 ≤ needed ∧ cut + needed ≤ length := by
  obtain ⟨⟨_, after⟩, ran, rfl⟩ := map_eq_ok_iff.mp decoded
  obtain ⟨taken, split, takes⟩ := streams_record _ _ _ ran
  change bytes = taken ++ after.rest at split
  have front : bytes.take taken.length = taken := by rw [split, List.take_left]
  refine ⟨taken.length, by rw [split, List.length_append]; omega, ?_, ?_⟩
  · intro more
    rw [front]
    exact map_eq_ok_iff.mpr ⟨_, takes.whole more, rfl⟩
  · intro cut short
    obtain ⟨offset, needed, failed, near, missing, enough⟩ := takes.cut cut short
    change offset ≤ 0 + cut at near
    refine ⟨offset, needed, ?_, by omega, missing, enough⟩
    have kept : bytes.take cut = taken.take cut := by
      rw [← front, List.take_take, Nat.min_eq_left (by omega)]
    unfold Record.decode
    rw [kept, failed]
    rfl

/-- A class with a signature, and two bytes behind it. -/
def signedClass : List UInt8 :=
  [0xCA, 0xFE, 0xBA, 0xBE, 0, 0, 0, 52, 0, 5, 1, 0, 1, 65, 7, 0, 1,
    1, 0, 9, 83, 105, 103, 110, 97, 116, 117, 114, 101, 1, 0, 3, 76, 66, 59,
    0, 33, 0, 2, 0, 0, 0, 0, 0, 0, 0, 0, 0, 1, 0, 3, 0, 0, 0, 2, 0, 4, 1, 2]

theorem signedClass_cut :
    ∃ record, Record.decode signedClass = .ok record ∧ record.signature = some "LB;" ∧
      ∃ length ≤ signedClass.length,
        (∀ more, Record.decode (signedClass.take length ++ more) = .ok record) ∧
        ∀ cut < length, ∃ offset needed,
          Record.decode (signedClass.take cut) = .error (.unexpectedEnd offset needed) ∧
            offset ≤ cut ∧ 1 ≤ needed ∧ cut + needed ≤ length := by
  have signed : Record.signature <$> Record.decode signedClass = .ok (some "LB;") := by decide +kernel
  obtain ⟨record, decoded, signature⟩ := map_eq_ok_iff.mp signed
  exact ⟨record, decoded, signature, Record.decode_cut decoded⟩

end ClassAtlas.ClassFile

import ClassAtlas.Proofs.ClassFile.Numeral
import ClassAtlas.Proofs.ClassFile.Resolution
import Mathlib.Data.List.Forall2

/-!
What it means for a decoder to follow a layout: it succeeds exactly on data that begins with the bytes
of some layout, leaves what follows them, and returns the value that the layout describes. Offsets
play no part in that. Each way of combining decoders combines their layouts.
-/

namespace ClassAtlas.ClassFile

theorem Decoder.run_bytes (n : Nat) (cursor : Cursor) :
    (Decoder.bytes n).run cursor = if (cursor.rest.take n).length < n then
      .error (.unexpectedEnd cursor.offset (n - (cursor.rest.take n).length))
    else .ok (cursor.rest.take n, { rest := cursor.rest.drop n, offset := cursor.offset + n }) := by
  change (ite _ _ _ : Decoder _) cursor = _
  split <;> rfl

/-- The decoder succeeds exactly where some bytes spell a value, and leaves what follows them. -/
def Decodes {α : Type} (d : Decoder α) (Spells : List UInt8 → α → Prop) : Prop :=
  ∀ (cursor : Cursor) (value : α) (rest : List UInt8),
    (∃ offset, d.run cursor = .ok (value, { rest, offset })) ↔
      ∃ front, cursor.rest = front ++ rest ∧ Spells front value

/-- The bytes are those of some layout that describes the value. -/
def Written {L α : Type} (encode : L → List UInt8) (Means : L → α → Prop) (bytes : List UInt8)
    (value : α) : Prop :=
  ∃ layout, bytes = encode layout ∧ Means layout value

namespace Decodes

variable {α β L K : Type} {d : Decoder α}

theorem congr {S T : List UInt8 → α → Prop} (decodes : Decodes d S)
    (same : ∀ bytes value, S bytes value ↔ T bytes value) : Decodes d T := by
  intro cursor value rest
  rw [decodes cursor value rest]
  simp only [same]

theorem bind {S : List UInt8 → α → Prop} {f : α → Decoder β} {T : α → List UInt8 → β → Prop}
    (first : Decodes d S) (second : ∀ a, Decodes (f a) (T a)) :
    Decodes (d >>= f) fun bytes value =>
      ∃ front back a, bytes = front ++ back ∧ S front a ∧ T a back value := by
  intro cursor value rest
  constructor
  · rintro ⟨offset, ran⟩
    obtain ⟨⟨a, between⟩, ranFirst, ranSecond⟩ := bind_eq_ok_iff.mp ran
    obtain ⟨front, split, spelled⟩ := (first cursor a between.rest).mp ⟨between.offset, ranFirst⟩
    obtain ⟨back, splitMore, spelledMore⟩ := (second a between value rest).mp ⟨offset, ranSecond⟩
    refine ⟨front ++ back, ?_, front, back, a, rfl, spelled, spelledMore⟩
    rw [split, splitMore, List.append_assoc]
  · rintro ⟨_, split, front, back, a, rfl, spelled, spelledMore⟩
    rw [List.append_assoc] at split
    obtain ⟨between, ranFirst⟩ := (first cursor a (back ++ rest)).mpr ⟨front, split, spelled⟩
    obtain ⟨offset, ranSecond⟩ :=
      (second a ⟨back ++ rest, between⟩ value rest).mpr ⟨back, rfl, spelledMore⟩
    exact ⟨offset, bind_eq_ok_iff.mpr ⟨_, ranFirst, ranSecond⟩⟩

theorem resolve (outcome : Except DecodeError α) :
    Decodes (Decoder.resolve outcome) fun bytes value => bytes = [] ∧ outcome = .ok value := by
  intro cursor value rest
  cases outcome with
  | error e =>
      constructor
      · rintro ⟨offset, ran⟩
        cases ran
      · rintro ⟨front, -, -, wrong⟩
        cases wrong
  | ok a =>
      constructor
      · rintro ⟨offset, ran⟩
        cases ran
        exact ⟨[], rfl, rfl, rfl⟩
      · rintro ⟨front, split, rfl, same⟩
        cases same
        refine ⟨cursor.offset, ?_⟩
        rw [List.nil_append] at split
        rw [← split]
        rfl

theorem pure (a : α) : Decodes (Pure.pure a) fun bytes value => bytes = [] ∧ value = a := by
  refine (resolve (.ok a)).congr fun bytes value => ?_
  rw [Except.ok.injEq, eq_comm (a := a)]

theorem fail (e : DecodeError) : Decodes (Decoder.fail e : Decoder α) fun _ _ => False := by
  intro cursor value rest
  constructor
  · rintro ⟨offset, ran⟩
    cases ran
  · rintro ⟨front, -, wrong⟩
    exact wrong.elim

theorem bytes (n : Nat) :
    Decodes (Decoder.bytes n) fun bytes value => bytes.length = n ∧ value = bytes := by
  intro cursor value rest
  rw [Decoder.run_bytes]
  constructor
  · rintro ⟨offset, ran⟩
    split at ran
    case isTrue short => cases ran
    case isFalse enough =>
      cases ran
      refine ⟨cursor.rest.take n, (List.take_append_drop n _).symm, ?_, rfl⟩
      rw [List.length_take] at enough ⊢
      omega
  · rintro ⟨front, split, sized, rfl⟩
    refine ⟨cursor.offset + n, ?_⟩
    rw [split, List.take_left' sized, List.drop_left' sized, if_neg (by omega)]

/-- A layout followed by another, whose meaning may depend on the first value. -/
theorem andThen {f : α → Decoder β} {encode : L → List UInt8} {Means : L → α → Prop}
    {encodeMore : K → List UInt8} {MeansMore : α → K → β → Prop}
    (first : Decodes d (Written encode Means))
    (second : ∀ a, Decodes (f a) (Written encodeMore (MeansMore a))) :
    Decodes (d >>= f) (Written (fun layout : L × K => encode layout.1 ++ encodeMore layout.2)
      fun layout value => ∃ a, Means layout.1 a ∧ MeansMore a layout.2 value) := by
  refine (bind first second).congr fun bytes value => ?_
  constructor
  · rintro ⟨_, _, a, rfl, ⟨layout, rfl, means⟩, ⟨more, rfl, meansMore⟩⟩
    exact ⟨(layout, more), rfl, a, means, meansMore⟩
  · rintro ⟨⟨layout, more⟩, rfl, a, means, meansMore⟩
    exact ⟨_, _, a, rfl, ⟨layout, rfl, means⟩, ⟨more, rfl, meansMore⟩⟩

/-- A layout whose value is checked or resolved without reading further. -/
theorem thenResolve {f : α → Except DecodeError β} {encode : L → List UInt8} {Means : L → α → Prop}
    (first : Decodes d (Written encode Means)) :
    Decodes (d >>= fun a => Decoder.resolve (f a))
      (Written encode fun layout value => ∃ a, Means layout a ∧ f a = .ok value) := by
  refine (bind first fun a => resolve (f a)).congr fun bytes value => ?_
  constructor
  · rintro ⟨_, _, a, rfl, ⟨layout, rfl, means⟩, rfl, resolved⟩
    exact ⟨layout, List.append_nil _, a, means, resolved⟩
  · rintro ⟨layout, rfl, a, means, resolved⟩
    exact ⟨_, [], a, (List.append_nil _).symm, ⟨layout, rfl, means⟩, rfl, resolved⟩

theorem thenPure {f : α → β} {encode : L → List UInt8} {Means : L → α → Prop}
    (first : Decodes d (Written encode Means)) :
    Decodes (d >>= fun a => Pure.pure (f a))
      (Written encode fun layout value => ∃ a, Means layout a ∧ value = f a) := by
  refine (thenResolve (f := fun a => .ok (f a)) first).congr fun bytes value => ?_
  constructor
  · rintro ⟨layout, written, a, means, resolved⟩
    exact ⟨layout, written, a, means, (Except.ok.inj resolved).symm⟩
  · rintro ⟨layout, written, a, means, rfl⟩
    exact ⟨layout, written, a, means, rfl⟩

theorem map {encode : L → List UInt8} {Means : L → α → Prop} (f : α → β)
    (decodes : Decodes d (Written encode Means)) :
    Decodes (f <$> d) (Written encode fun layout value => ∃ a, Means layout a ∧ value = f a) := by
  rw [map_eq_pure_bind]
  exact thenPure decodes

theorem u1 : Decodes Decoder.u1 (Written (fun byte => [byte]) fun byte value => value = byte) := by
  refine (bind (bytes 1) fun taken => pure (taken.headD 0)).congr fun bytes value => ?_
  constructor
  · rintro ⟨front, _, _, rfl, ⟨single, rfl⟩, rfl, rfl⟩
    obtain ⟨byte, rfl⟩ := List.length_eq_one_iff.mp single
    exact ⟨byte, rfl, rfl⟩
  · rintro ⟨byte, rfl, rfl⟩
    exact ⟨[value], [], [value], rfl, ⟨rfl, rfl⟩, rfl, rfl⟩

theorem numeral (width : Nat) :
    Decodes (Decoder.bytes width >>= fun taken => Pure.pure (bigEndian taken))
      fun bytes n => n < Nat.pow 256 width ∧ bytes = ClassFile.numeral width n := by
  refine (bind (bytes width) fun taken => pure (bigEndian taken)).congr fun bytes n => ?_
  constructor
  · rintro ⟨front, _, _, rfl, ⟨sized, rfl⟩, rfl, rfl⟩
    rw [List.append_nil, ← sized, numeral_bigEndian]
    exact ⟨bigEndian_lt _, rfl⟩
  · rintro ⟨small, rfl⟩
    refine ⟨_, [], _, (List.append_nil _).symm, ⟨length_numeral .., rfl⟩, rfl, ?_⟩
    rw [bigEndian_numeral, Nat.mod_eq_of_lt small]

theorem u2 : Decodes Decoder.u2 (Written word2 fun word value => value = word.toNat) := by
  refine (numeral 2).congr fun bytes value => ?_
  constructor
  · rintro ⟨small, rfl⟩
    refine ⟨UInt16.ofNat value, ?_, ?_⟩
    · rw [word2, UInt16.toNat_ofNat_of_lt' small]
    · exact (UInt16.toNat_ofNat_of_lt' small).symm
  · rintro ⟨word, rfl, rfl⟩
    exact ⟨word.toNat_lt, rfl⟩

theorem u4 : Decodes Decoder.u4 (Written word4 fun word value => value = word.toNat) := by
  refine (numeral 4).congr fun bytes value => ?_
  constructor
  · rintro ⟨small, rfl⟩
    refine ⟨UInt32.ofNat value, ?_, ?_⟩
    · rw [word4, UInt32.toNat_ofNat_of_lt' small]
    · exact (UInt32.toNat_ofNat_of_lt' small).symm
  · rintro ⟨word, rfl, rfl⟩
    exact ⟨word.toNat_lt, rfl⟩

theorem u8 : Decodes Decoder.u8 (Written word8 fun word value => value = word.toNat) := by
  refine (andThen u4 fun high => thenPure u4).congr fun bytes value => ?_
  have whole (high low : UInt32) :
      (UInt64.ofNat (high.toNat * UInt32.size + low.toNat)).toNat =
        high.toNat * UInt32.size + low.toNat :=
    UInt64.toNat_ofNat_of_lt' (halves_lt high low)
  constructor
  · rintro ⟨⟨high, low⟩, rfl, _, rfl, _, rfl, rfl⟩
    exact ⟨UInt64.ofNat (high.toNat * UInt32.size + low.toNat), (word8_ofNat high low).symm,
      (whole high low).symm⟩
  · rintro ⟨word, rfl, rfl⟩
    obtain ⟨high, low, rfl⟩ := exists_halves word
    exact ⟨(high, low), word8_ofNat high low, _, rfl, _, rfl, whole high low⟩

/-- So many items in a row. -/
theorem times {encode : L → List UInt8} {Means : L → α → Prop}
    (decodes : Decodes d (Written encode Means)) (n : Nat) :
    Decodes (Decoder.times d n) fun bytes values => ∃ layouts : List L, layouts.length = n ∧
      bytes = layouts.flatMap encode ∧ List.Forall₂ Means layouts values := by
  induction n with
  | zero =>
      refine (pure []).congr fun bytes values => ?_
      constructor
      · rintro ⟨rfl, rfl⟩
        exact ⟨[], rfl, rfl, .nil⟩
      · rintro ⟨layouts, none, rfl, described⟩
        obtain rfl := List.eq_nil_of_length_eq_zero none
        exact ⟨rfl, List.forall₂_nil_left_iff.mp described⟩
  | succ n ih =>
      refine (bind decodes fun item => bind ih fun more => pure (item :: more)).congr
        fun bytes values => ?_
      constructor
      · rintro ⟨_, _, item, rfl, ⟨layout, rfl, means⟩, _, _, more, rfl, ⟨layouts, counted, rfl, rest⟩,
          rfl, rfl⟩
        refine ⟨layout :: layouts, by rw [List.length_cons, counted], ?_, .cons means rest⟩
        rw [List.flatMap_cons, List.append_nil]
      · rintro ⟨layouts, counted, rfl, described⟩
        cases described with
        | nil => cases counted
        | @cons layout item layouts more means rest =>
            exact ⟨_, _, item, rfl, ⟨layout, rfl, means⟩, _, [], more, (List.append_nil _).symm,
              ⟨layouts, Nat.succ.inj counted, rfl, rest⟩, rfl, rfl⟩

end Decodes

/-- A two-byte count and the items. -/
def encodeTable {L : Type} (encode : L → List UInt8) (layouts : List L) : List UInt8 :=
  numeral 2 layouts.length ++ layouts.flatMap encode

/-- The items of a table, which are no more than its count can say. -/
def TableMeans {L α : Type} (Means : L → α → Prop) (layouts : List L) (values : List α) : Prop :=
  layouts.length < UInt16.size ∧ List.Forall₂ Means layouts values

theorem Decodes.table {L α : Type} {d : Decoder α} {encode : L → List UInt8}
    {Means : L → α → Prop} (decodes : Decodes d (Written encode Means)) :
    Decodes (Decoder.table d) (Written (encodeTable encode) (TableMeans Means)) := by
  refine (bind (numeral 2) decodes.times).congr fun bytes values => ?_
  constructor
  · rintro ⟨_, _, count, rfl, ⟨small, rfl⟩, layouts, rfl, rfl, described⟩
    exact ⟨layouts, rfl, small, described⟩
  · rintro ⟨layouts, rfl, small, described⟩
    exact ⟨_, _, layouts.length, rfl, ⟨small, rfl⟩, layouts, rfl, rfl, described⟩

end ClassAtlas.ClassFile

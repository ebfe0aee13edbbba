import ClassAtlas.Proofs.Checked
import ClassAtlas.Proofs.ClassFile.Decoding

/-!
Reading by position. A reader keeps all of its data and counts how far it has come; positions and
offsets are 64-bit words, and every access is checked. A reader that stays in range follows the
decoder of the bytes in front of it, step by step and without a fault.
-/

namespace ClassAtlas.ClassFile.Indexed

open Checked

/-- Data of its own, the position of the next byte in it, and the offset of its start in the whole
record. -/
structure Reader where
  data : List UInt8
  pos : Nat
  base : Nat

namespace Reader

def offset (r : Reader) : Checked Nat :=
  sum UInt64.size r.base r.pos

def remaining (r : Reader) : Checked Nat :=
  difference r.data.length r.pos

end Reader

/-- A computation that may fail with an error of its own. -/
abbrev Attempt := ExceptT DecodeError Checked

abbrev Read := StateT Reader Attempt

def offset : Read Nat := do
  (← get).offset

def bytes (length : Nat) : Read (List UInt8) := do
  let r ← get
  if (← r.remaining) < length then
    throw (.unexpectedEnd (← r.offset) (← difference length (← r.remaining)))
  else
    let stop ← sum UInt64.size r.pos length
    let taken ← slice r.data r.pos stop
    set { r with pos := stop }
    return taken

def u1 : Read UInt8 := do
  byteAt (← bytes 1) 0

def u2 : Read Nat := do
  let taken ← bytes 2
  return bigEndian [← byteAt taken 0, ← byteAt taken 1]

def u4 : Read Nat := do
  let taken ← bytes 4
  return bigEndian [← byteAt taken 0, ← byteAt taken 1, ← byteAt taken 2, ← byteAt taken 3]

def u8 : Read Nat := do
  let high ← u4
  let low ← u4
  sum UInt64.size (high * Nat.pow 2 32) low

/-- A reader of its own for the next bytes. -/
def sub (length : Nat) : Read Reader := do
  let base ← offset
  let data ← bytes length
  return { data, pos := 0, base }

def times {α : Type} (m : Read α) : Nat → Read (List α)
  | 0 => return []
  | n + 1 => do
    let item ← m
    return item :: (← times m n)

def table {α : Type} (m : Read α) : Read (List α) := do
  times m (← u2)

/-- The position stands in the data, and the data in a record whose offsets are 64-bit words. -/
structure Reader.InRange (r : Reader) : Prop where
  position : r.pos ≤ r.data.length
  offset : r.base + r.data.length < UInt64.size

/-- What the reader has in front of it. -/
def Reader.cursor (r : Reader) : Cursor :=
  { rest := r.data.drop r.pos, offset := r.base + r.pos }

theorem Reader.InRange.offset_eq {r : Reader} (inRange : r.InRange) :
    r.offset = pure (r.base + r.pos) := by
  have := inRange.position
  have := inRange.offset
  exact sum_eq (by omega)

theorem Reader.length_rest (r : Reader) : r.cursor.rest.length = r.data.length - r.pos :=
  List.length_drop

theorem Reader.InRange.remaining_eq {r : Reader} (inRange : r.InRange) :
    r.remaining = pure r.cursor.rest.length := by
  rw [r.length_rest]
  exact difference_eq inRange.position

theorem run_offset {r : Reader} (inRange : r.InRange) :
    offset.run r = pure (r.base + r.pos, r) := by
  simp [offset, inRange.offset_eq]

theorem run_bytes_short {r : Reader} (inRange : r.InRange) (length : Nat)
    (short : r.cursor.rest.length < length) :
    (bytes length).run r =
      throw (.unexpectedEnd r.cursor.offset (length - r.cursor.rest.length)) := by
  change _ = throw (DecodeError.unexpectedEnd (r.base + r.pos) _)
  simp [bytes, inRange.remaining_eq, inRange.offset_eq, difference_eq (Nat.le_of_lt short), short]

theorem run_bytes {r : Reader} (inRange : r.InRange) (length : Nat)
    (enough : length ≤ r.cursor.rest.length) :
    (bytes length).run r = pure (r.cursor.rest.take length, { r with pos := r.pos + length }) := by
  have stop : r.pos + length ≤ r.data.length := by
    have := inRange.position
    rw [r.length_rest] at enough
    omega
  have fits : r.pos + length < UInt64.size := by
    have := inRange.offset
    omega
  have sliced := slice_eq (Nat.le_add_right r.pos length) stop
  change _ = pure ((r.data.drop r.pos).take length, _)
  simp [bytes, inRange.remaining_eq, Nat.not_lt.mpr enough, sum_eq fits, sliced]

/-- A loop that appends to what it has, against a recursion that appends what comes after. -/
theorem map_append_bind {m : Type → Type} [Monad m] [LawfulMonad m] {α : Type} (found more : List α)
    (rest : m (List α)) :
    (found ++ ·) <$> (rest >>= fun last => pure (more ++ last)) = ((found ++ more) ++ ·) <$> rest := by
  simp [List.append_assoc]

/-- An attempt comes to the end `x` without a fault, and a value there has the property `P`. -/
structure Settles {α : Type} (P : α → Prop) (m : Attempt α) (x : Except DecodeError α) : Prop where
  same : m = liftM x
  holds (a : α) : x = .ok a → P a

namespace Settles

variable {α β : Type} {P : α → Prop} {Q : β → Prop} {m : Attempt α} {x : Except DecodeError α}

theorem resolve (holds : ∀ a, x = .ok a → P a) : Settles P (liftM x) x :=
  ⟨rfl, holds⟩

theorem pure {a : α} (holds : P a) : Settles P (Pure.pure a) (.ok a) := by
  refine ⟨rfl, ?_⟩
  intro b same
  cases same
  exact holds

theorem congr {y : Except DecodeError α} (settles : Settles P m x) (same : y = x) : Settles P m y :=
  same ▸ settles

theorem fail (e : DecodeError) : Settles P (throw e) (.error e) := by
  refine ⟨rfl, ?_⟩
  intro a impossible
  cases impossible

theorem bind {f : α → Attempt β} {g : α → Except DecodeError β} (first : Settles P m x)
    (second : ∀ a, P a → Settles Q (f a) (g a)) : Settles Q (m >>= f) (x >>= g) := by
  rw [first.same]
  cases outcome : x with
  | error e => exact fail e
  | ok a => exact second a (first.holds a outcome)

end Settles

/-- A read and a decoder come to the same end, the read without a fault. The reader is left in range
with at most `limit` bytes in front of it, and the value has the property `P`. -/
inductive Agrees {α : Type} (limit : Nat) (P : α → Prop) :
    Attempt (α × Reader) → Except DecodeError (α × Cursor) → Prop
  | failed (e : DecodeError) : Agrees limit P (throw e) (.error e)
  | done {a : α} {r : Reader} (holds : P a) (inRange : r.InRange)
      (short : r.cursor.rest.length ≤ limit) : Agrees limit P (pure (a, r)) (.ok (a, r.cursor))

/-- From every reader in range with at most `limit` bytes in front of it, the read does what the
decoder does. -/
def Follows {α : Type} (limit : Nat) (P : α → Prop) (m : Read α) (d : Decoder α) : Prop :=
  ∀ r : Reader, r.InRange → r.cursor.rest.length ≤ limit → Agrees limit P (m.run r) (d.run r.cursor)

theorem Agrees.mono {α : Type} {limit larger : Nat} {P Q : α → Prop}
    {x : Attempt (α × Reader)} {y : Except DecodeError (α × Cursor)}
    (agrees : Agrees limit P x y) (less : limit ≤ larger) (weaker : ∀ a, P a → Q a) :
    Agrees larger Q x y := by
  cases agrees with
  | failed e => exact .failed e
  | done holds inRange short => exact .done (weaker _ holds) inRange (Nat.le_trans short less)

theorem Agrees.of_error {α : Type} {limit : Nat} {P : α → Prop} {x : Attempt (α × Reader)}
    {e : DecodeError} (agrees : Agrees limit P x (.error e)) : x = throw e := by
  cases agrees
  rfl

theorem Agrees.of_ok {α : Type} {limit : Nat} {P : α → Prop} {x : Attempt (α × Reader)} {a : α}
    {c : Cursor} (agrees : Agrees limit P x (.ok (a, c))) :
    ∃ r : Reader, x = pure (a, r) ∧ P a ∧ r.InRange ∧ r.cursor = c := by
  cases agrees with
  | done holds inRange short => exact ⟨_, rfl, holds, inRange, rfl⟩

theorem Agrees.bind {α β : Type} {limit : Nat} {P : α → Prop} {Q : β → Prop}
    {x : Attempt (α × Reader)} {y : Except DecodeError (α × Cursor)}
    {f : α → Read β} {g : α → Decoder β} (first : Agrees limit P x y)
    (second : ∀ a, P a → Follows limit Q (f a) (g a)) :
    Agrees limit Q (x >>= fun p => (f p.1).run p.2) (y >>= fun p => (g p.1).run p.2) := by
  cases first with
  | failed e => exact .failed e
  | done holds inRange short => exact second _ holds _ inRange short

theorem agrees_bytes {r : Reader} (inRange : r.InRange) {limit : Nat}
    (short : r.cursor.rest.length ≤ limit) (length : Nat) :
    Agrees (limit - length) (fun taken => taken.length = length ∧ r.base + r.pos + length < UInt64.size)
      ((bytes length).run r) ((Decoder.bytes length).run r.cursor) := by
  rw [Decoder.run_bytes, List.length_take]
  by_cases ended : r.cursor.rest.length < length
  · rw [run_bytes_short inRange length ended, if_pos (by omega), Nat.min_eq_right (Nat.le_of_lt ended)]
    exact .failed _
  · rw [run_bytes inRange length (Nat.le_of_not_lt ended), if_neg (by omega)]
    have stop : r.pos + length ≤ r.data.length := by
      have := inRange.position
      rw [r.length_rest] at ended
      omega
    have inRecord := inRange.offset
    have after : (⟨r.cursor.rest.drop length, r.cursor.offset + length⟩ : Cursor) =
        Reader.cursor { r with pos := r.pos + length } := by
      unfold Reader.cursor
      rw [List.drop_drop, Nat.add_assoc]
    rw [after]
    refine .done ⟨?_, by omega⟩ ⟨stop, inRange.offset⟩ ?_
    · rw [List.length_take]
      omega
    · rw [← after, List.length_drop]
      omega

namespace Follows

variable {α β : Type} {limit : Nat} {P : α → Prop} {Q : β → Prop} {m : Read α} {d : Decoder α}

theorem bind {f : α → Read β} {g : α → Decoder β} (first : Follows limit P m d)
    (second : ∀ a, P a → Follows limit Q (f a) (g a)) : Follows limit Q (m >>= f) (d >>= g) := by
  intro r inRange short
  exact (first r inRange short).bind second

theorem pure {a : α} (holds : P a) : Follows limit P (Pure.pure a) (Pure.pure a) := by
  intro r inRange short
  exact .done holds inRange short

theorem map {f : α → β} (follows : Follows limit P m d) (holds : ∀ a, P a → Q (f a)) :
    Follows limit Q (f <$> m) (f <$> d) := by
  rw [map_eq_pure_bind, map_eq_pure_bind]
  exact follows.bind fun a value => pure (holds a value)

theorem congr {other : Decoder α} (follows : Follows limit P m d) (same : other = d) :
    Follows limit P m other :=
  same ▸ follows

theorem fail (e : DecodeError) : Follows limit P (throw e) (Decoder.fail e) := by
  intro r inRange short
  exact .failed e

theorem attempt {outcome : Attempt α} {x : Except DecodeError α} (settles : Settles P outcome x) :
    Follows limit P (liftM outcome) (Decoder.resolve x) := by
  intro r inRange short
  rw [settles.same]
  cases reached : x with
  | error e => exact .failed e
  | ok a => exact .done (settles.holds a reached) inRange short

theorem resolve {outcome : Except DecodeError α} (holds : ∀ a, outcome = .ok a → P a) :
    Follows limit P (liftM outcome) (Decoder.resolve outcome) :=
  attempt (.resolve holds)

theorem ite {c : Prop} [Decidable c] {m' : Read α} {d' : Decoder α} (yes : c → Follows limit P m d)
    (no : ¬ c → Follows limit P m' d') :
    Follows limit P (if c then m else m') (if c then d else d') := by
  by_cases holds : c
  · rw [if_pos holds, if_pos holds]
    exact yes holds
  · rw [if_neg holds, if_neg holds]
    exact no holds

theorem offset : Follows limit (fun _ => True) Indexed.offset Decoder.offset := by
  intro r inRange short
  rw [run_offset inRange]
  exact .done trivial inRange short

theorem bytes (length : Nat) :
    Follows limit (fun taken => taken.length = length) (Indexed.bytes length)
      (Decoder.bytes length) := by
  intro r inRange short
  exact (agrees_bytes inRange short length).mono (Nat.sub_le ..) fun _ sized => sized.1

theorem u1 : Follows limit (fun _ => True) Indexed.u1 Decoder.u1 := by
  refine (bytes 1).bind fun taken sized => ?_
  obtain ⟨byte, rfl⟩ := List.length_eq_one_iff.mp sized
  exact pure trivial

/-- Bytes that were read are no longer in front of the reader. -/
theorem bytesThen {f : List UInt8 → Read β} {g : List UInt8 → Decoder β} (length : Nat)
    (next : ∀ taken, taken.length = length → Follows (limit - length) Q (f taken) (g taken)) :
    Follows limit Q (Indexed.bytes length >>= f) (Decoder.bytes length >>= g) := by
  intro r inRange short
  exact ((agrees_bytes inRange short length).bind fun taken sized => next taken sized.1).mono
    (Nat.sub_le ..) fun _ holds => holds

theorem u1Then {f : UInt8 → Read β} {g : UInt8 → Decoder β}
    (next : ∀ byte, Follows limit Q (f byte) (g byte)) :
    Follows (limit + 1) Q (Indexed.u1 >>= f) (Decoder.u1 >>= g) := by
  rw [Indexed.u1, Decoder.u1, bind_assoc, bind_assoc]
  refine bytesThen 1 fun taken sized => ?_
  obtain ⟨byte, rfl⟩ := List.length_eq_one_iff.mp sized
  exact next byte

theorem u2 : Follows limit (· < UInt16.size) Indexed.u2 Decoder.u2 := by
  refine (bytes 2).bind fun taken sized => ?_
  have small := bigEndian_lt taken
  rw [sized] at small
  obtain ⟨first, second, rfl⟩ := List.length_eq_two.mp sized
  exact pure small

theorem u4 : Follows limit (· < UInt32.size) Indexed.u4 Decoder.u4 := by
  refine (bytes 4).bind fun taken sized => ?_
  have small := bigEndian_lt taken
  rw [sized] at small
  match taken, sized with
  | [_, _, _, _], _ => exact pure small

theorem u8 : Follows limit (fun _ => True) Indexed.u8 Decoder.u8 := by
  refine u4.bind fun high highSmall => u4.bind fun low lowSmall => ?_
  have fits : high * Nat.pow 2 32 + low < UInt64.size := by
    change high * 4294967296 + low < 18446744073709551616
    change high < 4294967296 at highSmall
    change low < 4294967296 at lowSmall
    omega
  rw [sum_eq fits]
  exact pure trivial

/-- Bytes that are split off stay inside the record. -/
theorem split {f : Nat → List UInt8 → Read β} {g : Cursor → Decoder β} (length : Nat)
    (next : ∀ base data, data.length = length → base + length < UInt64.size →
      Follows limit Q (f base data) (g { rest := data, offset := base })) :
    Follows limit Q (do
      let base ← Indexed.offset
      let data ← Indexed.bytes length
      f base data) (Decoder.split length >>= g) := by
  intro r inRange short
  simp only [Decoder.split, bind_assoc, pure_bind]
  rw [StateT.run_bind, run_offset inRange, pure_bind]
  have read := (agrees_bytes inRange short length).mono (Nat.sub_le ..) fun _ sized => sized
  exact read.bind fun data ⟨sized, fits⟩ => next (r.base + r.pos) data sized fits

theorem times (follows : Follows limit P m d) (n : Nat) :
    Follows limit (∀ a ∈ ·, P a) (Indexed.times m n) (Decoder.times d n) := by
  induction n with
  | zero => exact pure (by simp)
  | succ n ih =>
      refine follows.bind fun item holds => ih.bind fun more rest => pure ?_
      intro a member
      cases member with
      | head => exact holds
      | tail _ member => exact rest a member

theorem table (follows : Follows limit P m d) :
    Follows limit (∀ a ∈ ·, P a) (Indexed.table m) (Decoder.table d) :=
  u2.bind fun count _ => follows.times count

end Follows

end ClassAtlas.ClassFile.Indexed

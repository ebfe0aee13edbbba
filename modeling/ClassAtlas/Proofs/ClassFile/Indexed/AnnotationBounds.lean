import ClassAtlas.Proofs.ClassFile.Indexed.Annotations
import Mathlib.Algebra.GroupWithZero.Nat

/-!
How far the reading of annotations goes. Values nest without a limit, and every level and every round
of a loop takes bytes of its own; so the reading comes to an end whatever counts the bytes declare,
and what it makes has no more parts than it took bytes.
-/

namespace ClassAtlas.ClassFile

mutual

/-- How many annotations and element values a value is made of, itself among them. -/
def ElementValue.parts : ElementValue → Nat
  | .const _ => 1
  | .enum _ _ => 1
  | .classLiteral _ => 1
  | .nested entry => 1 + entry.parts
  | .array values => 1 + partsOfValues values

def partsOfValues : List ElementValue → Nat
  | [] => 0
  | value :: values => value.parts + partsOfValues values

def AnnotationEntry.parts : AnnotationEntry → Nat
  | .mk _ elements => 1 + partsOfElements elements

def partsOfElements : List (String × ElementValue) → Nat
  | [] => 0
  | (_, value) :: elements => value.parts + partsOfElements elements

end

theorem ElementValue.parts_pos (value : ElementValue) : 0 < value.parts := by
  cases value <;> simp only [ElementValue.parts] <;> omega

theorem AnnotationEntry.parts_pos (entry : AnnotationEntry) : 0 < entry.parts := by
  cases entry with
  | mk typeDescriptor elements =>
      rw [AnnotationEntry.parts]
      omega

def partsOfEntries (entries : List AnnotationEntry) : Nat :=
  (entries.map AnnotationEntry.parts).sum

theorem partsOfValues_eq (values : List ElementValue) :
    partsOfValues values = (values.map ElementValue.parts).sum := by
  induction values with
  | nil => rfl
  | cons value values ih => rw [partsOfValues, ih, List.map_cons, List.sum_cons]

theorem partsOfElements_eq (elements : List (String × ElementValue)) :
    partsOfElements elements = (elements.map (·.2.parts)).sum := by
  induction elements with
  | nil => rfl
  | cons element elements ih => rw [partsOfElements, ih, List.map_cons, List.sum_cons]

namespace Indexed

open Checked

/-- The reader after `n` more bytes. -/
def Reader.skip (r : Reader) (n : Nat) : Reader :=
  { r with pos := r.pos + n }

theorem Reader.skip_skip (r : Reader) (n m : Nat) : (r.skip n).skip m = r.skip (n + m) := by
  unfold skip
  rw [Nat.add_assoc]

/-- Bytes that were taken were there; a reader that takes none may stand anywhere. -/
def Reader.Has (r : Reader) (taken : Nat) : Prop :=
  taken = 0 ∨ r.pos + taken ≤ r.data.length

theorem Reader.Has.inRange {r : Reader} {taken : Nat} (has : r.Has taken) (inRange : r.InRange) :
    (r.skip taken).InRange := by
  refine ⟨?_, inRange.offset⟩
  rcases has with rfl | has
  · exact inRange.position
  · exact has

theorem Reader.Has.skip {r : Reader} {first second : Nat} (has : r.Has first)
    (more : (r.skip first).Has second) : r.Has (first + second) := by
  rcases more with rfl | more
  · exact has
  · refine .inr ?_
    rwa [← Nat.add_assoc]

theorem fault_bind {α β : Type} (fault : Fault) (f : α → Attempt β) :
    (monadLift (throw fault : Checked α) : Attempt α) >>= f =
      monadLift (throw fault : Checked β) :=
  rfl

/-- An attempt comes to the end `z`, or else to a fault, which only a reader out of range does. -/
def Unless {α : Type} (r : Reader) (x z : Attempt α) : Prop :=
  x = z ∨ ¬ r.InRange ∧ ∃ fault : Fault, x = monadLift (throw fault : Checked α)

theorem Unless.throwBind {α β : Type} {r : Reader} {x : Attempt α} {e : DecodeError}
    (ended : Unless r x (throw e)) (f : α → Attempt β) : Unless r (x >>= f) (throw e) := by
  rcases ended with rfl | ⟨outside, fault, rfl⟩
  · exact .inl rfl
  · exact .inr ⟨outside, fault, rfl⟩

theorem Unless.pureBind {α β : Type} {r after : Reader} {x : Attempt α} {a : α} {f : α → Attempt β}
    {z : Attempt β} (ended : Unless r x (pure a)) (stays : r.InRange → after.InRange)
    (next : Unless after (f a) z) : Unless r (x >>= f) z := by
  rcases ended with rfl | ⟨outside, fault, rfl⟩
  · rcases next with same | ⟨outside, fault, same⟩
    · exact .inl same
    · exact .inr ⟨fun inRange => outside (stays inRange), fault, same⟩
  · exact .inr ⟨outside, fault, rfl⟩

theorem unless_bytes_short (r : Reader) {length : Nat} (short : r.data.length - r.pos < length) :
    Unless r ((bytes length).run r)
      (throw (.unexpectedEnd r.cursor.offset (length - (r.data.length - r.pos)))) := by
  by_cases position : r.pos ≤ r.data.length
  · have remains : r.remaining = pure (r.data.length - r.pos) := difference_eq position
    by_cases fits : r.base + r.pos < UInt64.size
    · refine .inl ?_
      change _ = throw (DecodeError.unexpectedEnd (r.base + r.pos) _)
      simp [bytes, remains, Reader.offset, sum_eq fits, difference_eq (Nat.le_of_lt short), short]
    · refine .inr ⟨fun inRange => ?_, .overflow, ?_⟩
      · have := inRange.offset
        omega
      · simp [bytes, remains, Reader.offset, sum, fits, short, fault_bind]
  · refine .inr ⟨fun inRange => position inRange.position, .underflow, ?_⟩
    simp [bytes, Reader.remaining, difference, position, fault_bind]

theorem unless_bytes (r : Reader) {length : Nat} (enough : length ≤ r.data.length - r.pos) :
    Unless r ((bytes length).run r) (pure (r.cursor.rest.take length, r.skip length)) := by
  by_cases position : r.pos ≤ r.data.length
  · have remains : r.remaining = pure (r.data.length - r.pos) := difference_eq position
    by_cases fits : r.pos + length < UInt64.size
    · refine .inl ?_
      have inside : r.pos + length ≤ r.data.length := by omega
      have sliced := slice_eq (Nat.le_add_right r.pos length) inside
      change _ = pure ((r.data.drop r.pos).take length, _)
      simp [bytes, remains, Nat.not_lt.mpr enough, sum_eq fits, sliced, Reader.skip]
    · refine .inr ⟨fun inRange => ?_, .overflow, ?_⟩
      · have := inRange.offset
        omega
      · simp [bytes, remains, Nat.not_lt.mpr enough, sum, fits, fault_bind]
  · refine .inr ⟨fun inRange => position inRange.position, .underflow, ?_⟩
    simp [bytes, Reader.remaining, difference, position, fault_bind]

/-- From the reader `r` a decoder comes to an error, or to a value for which it took at least as many
bytes as `cost` says; a read comes to the same end. -/
inductive Pays {α : Type} (cost : α → Nat) (r : Reader) :
    Attempt (α × Reader) → Except DecodeError (α × Cursor) → Prop
  | failed {x : Attempt (α × Reader)} (e : DecodeError) (ended : Unless r x (throw e)) :
      Pays cost r x (.error e)
  | done {x : Attempt (α × Reader)} (a : α) (taken : Nat) (paid : cost a ≤ taken)
      (has : r.Has taken) (ended : Unless r x (pure (a, r.skip taken))) :
      Pays cost r x (.ok (a, (r.skip taken).cursor))

theorem Pays.mono {α : Type} {cost least : α → Nat} {r : Reader} {x : Attempt (α × Reader)}
    {y : Except DecodeError (α × Cursor)} (pays : Pays cost r x y) (cheaper : ∀ a, least a ≤ cost a) :
    Pays least r x y := by
  cases pays with
  | failed e ended => exact .failed e ended
  | done a taken paid has ended => exact .done a taken (Nat.le_trans (cheaper a) paid) has ended

/-- So it is from every reader with at most `limit` bytes in front of it. -/
def Costs {α : Type} (limit : Nat) (cost : α → Nat) (m : Read α) (d : Decoder α) : Prop :=
  ∀ r : Reader, r.data.length - r.pos ≤ limit → Pays cost r (m.run r) (d.run r.cursor)

/-- What was paid for is no longer in front of the reader. -/
theorem Pays.bind {α β : Type} {limit : Nat} {cost : α → Nat} {total : β → Nat} {r : Reader}
    {x : Attempt (α × Reader)} {y : Except DecodeError (α × Cursor)} {f : α → Read β}
    {g : α → Decoder β} (first : Pays cost r x y) (short : r.data.length - r.pos ≤ limit)
    (second : ∀ a after, y = .ok (a, after) →
      Costs (limit - cost a) (fun b => total b - cost a) (f a) (g a)) :
    Pays total r (x >>= fun p => (f p.1).run p.2) (y >>= fun p => (g p.1).run p.2) := by
  cases first with
  | failed e ended => exact .failed e (ended.throwBind _)
  | done a taken paid has ended =>
      have left : (r.skip taken).data.length - (r.skip taken).pos ≤ limit - cost a := by
        change r.data.length - (r.pos + taken) ≤ _
        omega
      have next := second a _ rfl (r.skip taken) left
      change Pays total r _ ((g a).run (r.skip taken).cursor)
      generalize reached : (g a).run (r.skip taken).cursor = outcome at next
      cases next with
      | failed e last => exact .failed e (ended.pureBind has.inRange last)
      | done b more paidMore hasMore last =>
          rw [r.skip_skip] at last ⊢
          refine .done b (taken + more) (by omega) (has.skip hasMore) ?_
          exact ended.pureBind has.inRange last

namespace Costs

variable {α β : Type} {limit : Nat} {cost : α → Nat} {m : Read α} {d : Decoder α}

theorem mono {less : Nat} {least : α → Nat} (costs : Costs limit cost m d) (fewer : less ≤ limit)
    (cheaper : ∀ a, least a ≤ cost a) : Costs less least m d := by
  intro r short
  exact (costs r (Nat.le_trans short fewer)).mono cheaper

theorem within {less : Nat} (costs : Costs limit cost m d) (fewer : less ≤ limit) :
    Costs less cost m d :=
  costs.mono fewer fun _ => Nat.le.refl

theorem bind {total : β → Nat} {f : α → Read β} {g : α → Decoder β} (first : Costs limit cost m d)
    (second : ∀ a, Costs (limit - cost a) (fun b => total b - cost a) (f a) (g a)) :
    Costs limit total (m >>= f) (d >>= g) := by
  intro r short
  exact (first r short).bind short fun a _ _ => second a

theorem resolve (outcome : Except DecodeError α) :
    Costs limit (fun _ => 0) (liftM outcome) (Decoder.resolve outcome) := by
  intro r short
  cases outcome with
  | error e => exact .failed e (.inl rfl)
  | ok a => exact .done a 0 (Nat.zero_le _) (.inl rfl) (.inl rfl)

theorem pure {a : α} (free : cost a = 0) : Costs limit cost (Pure.pure a) (Pure.pure a) := by
  intro r short
  exact .done a 0 (Nat.le_of_eq free) (.inl rfl) (.inl rfl)

theorem map {total : β → Nat} {f : α → β} (costs : Costs limit cost m d)
    (cheaper : ∀ a, total (f a) ≤ cost a) : Costs limit total (f <$> m) (f <$> d) := by
  rw [map_eq_pure_bind, map_eq_pure_bind]
  refine costs.bind fun a => pure ?_
  exact Nat.sub_eq_zero_of_le (cheaper a)

theorem fail (e : DecodeError) : Costs limit cost (throw e) (Decoder.fail e) := by
  intro r short
  exact .failed e (.inl rfl)

theorem ite {c : Prop} [Decidable c] {m' : Read α} {d' : Decoder α} (yes : c → Costs limit cost m d)
    (no : ¬ c → Costs limit cost m' d') :
    Costs limit cost (if c then m else m') (if c then d else d') := by
  by_cases holds : c
  · rw [if_pos holds, if_pos holds]
    exact yes holds
  · rw [if_neg holds, if_neg holds]
    exact no holds

theorem offset : Costs limit (fun _ => 0) Indexed.offset Decoder.offset := by
  intro r short
  refine .done (r.base + r.pos) 0 Nat.le.refl (.inl rfl) ?_
  change Unless r _ (Pure.pure (r.base + r.pos, r))
  by_cases fits : r.base + r.pos < UInt64.size
  · refine .inl ?_
    simp [Indexed.offset, Reader.offset, sum_eq fits]
  · refine .inr ⟨fun inRange => ?_, .overflow, ?_⟩
    · have := inRange.position
      have := inRange.offset
      omega
    · simp [Indexed.offset, Reader.offset, sum, fits, fault_bind, -bind_pure_comp]

theorem bytes (length : Nat) :
    Costs limit (fun _ => length) (Indexed.bytes length) (Decoder.bytes length) := by
  intro r short
  have sized : (r.cursor.rest.take length).length = min length (r.data.length - r.pos) := by
    rw [List.length_take, r.length_rest]
  rw [Decoder.run_bytes, sized]
  by_cases ended : r.data.length - r.pos < length
  · rw [if_pos (by omega), Nat.min_eq_right (Nat.le_of_lt ended)]
    exact .failed _ (unless_bytes_short r ended)
  · rw [if_neg (by omega)]
    have after : (⟨r.cursor.rest.drop length, r.cursor.offset + length⟩ : Cursor) =
        (r.skip length).cursor := by
      unfold Reader.cursor Reader.skip
      rw [List.drop_drop, Nat.add_assoc]
    rw [after]
    refine .done _ length Nat.le.refl ?_ (unless_bytes r (Nat.le_of_not_lt ended))
    unfold Reader.Has
    omega

theorem bytesThen {total : β → Nat} {f : List UInt8 → Read β} {g : List UInt8 → Decoder β}
    (length : Nat) (next : ∀ taken, taken.length = length →
      Costs (limit - length) (fun b => total b - length) (f taken) (g taken)) :
    Costs limit total (Indexed.bytes length >>= f) (Decoder.bytes length >>= g) := by
  intro r short
  refine (bytes length r short).bind short fun taken after ran => next taken ?_
  rw [Decoder.run_bytes] at ran
  split at ran
  case isTrue => cases ran
  case isFalse enough =>
    cases ran
    rw [List.length_take] at enough ⊢
    omega

theorem u1 : Costs limit (fun _ => 1) Indexed.u1 Decoder.u1 := by
  refine bytesThen 1 fun taken sized => ?_
  obtain ⟨byte, rfl⟩ := List.length_eq_one_iff.mp sized
  exact pure rfl

/-- With no byte left it does not matter what the next one was wanted for. -/
theorem u1Missing {f : UInt8 → Read α} : Costs 0 cost (Indexed.u1 >>= f)
    (do Decoder.fail (.unexpectedEnd (← Decoder.offset) 1)) := by
  intro r short
  have ended : r.data.length - r.pos < 1 := Nat.lt_succ_of_le short
  have missing := unless_bytes_short r ended
  rw [Nat.le_zero.mp short] at missing
  refine .failed _ ?_
  rw [Indexed.u1, bind_assoc]
  exact missing.throwBind _

theorem u2 : Costs limit (fun _ => 2) Indexed.u2 Decoder.u2 := by
  refine bytesThen 2 fun taken sized => ?_
  obtain ⟨first, second, rfl⟩ := List.length_eq_two.mp sized
  exact pure rfl

/-- Every round of a loop pays for its own item. -/
theorem times (costs : Costs limit cost m d) (n : Nat) :
    Costs limit (fun items => (items.map cost).sum) (Indexed.times m n) (Decoder.times d n) := by
  induction n with
  | zero => exact pure rfl
  | succ n ih =>
      refine costs.bind fun item => ?_
      refine (ih.within (Nat.sub_le ..)).bind fun items => pure ?_
      rw [List.map_cons, List.sum_cons]
      omega

end Costs

section

variable {pool : ConstantPool} {limit : Nat}

/-- An index of two bytes and the text that it names. -/
theorem costs_utf8Then {β : Type} {total : β → Nat} {f : String → Read β} {g : String → Decoder β}
    (next : ∀ text, Costs (limit - 2) (fun b => total b - 2) (f text) (g text)) :
    Costs limit total
      (do
        let text ← pool.utf8 (← u2)
        f text)
      (do
        let text ← Decoder.resolve (pool.utf8 (← Decoder.u2))
        g text) :=
  Costs.u2.bind fun _ => (Costs.resolve _).bind next

theorem costs_annotationEntry {value : Decoder ElementValue}
    (costs : Costs limit ElementValue.parts (elementValue pool) value) :
    Costs limit AnnotationEntry.parts (annotationEntry pool)
      (AnnotationEntry.decodeWith pool value) := by
  rw [annotationEntry]
  simp only [ReaderT.run, elementPairs_eq]
  have pair : Costs limit (fun element : String × ElementValue => element.2.parts)
      (do
        let name ← pool.utf8 (← u2)
        return (name, ← elementValue pool))
      (do
        let name ← Decoder.resolve (pool.utf8 (← Decoder.u2))
        return (name, ← value)) := by
    refine costs_utf8Then fun name => ?_
    refine (costs.within (Nat.sub_le ..)).bind fun value => .pure ?_
    change value.parts - 2 - value.parts = 0
    omega
  refine costs_utf8Then fun typeDescriptor => ?_
  unfold Decoder.table
  rw [bind_assoc]
  refine Costs.u2.bind fun count => ?_
  refine ((pair.times count).within (by omega)).bind fun elements => .pure ?_
  rw [AnnotationEntry.parts, partsOfElements_eq]
  omega

theorem costs_elementValueWithin (depth : Nat) :
    Costs depth ElementValue.parts (elementValue pool) (ElementValue.decodeWithin pool depth) := by
  induction depth with
  | zero =>
      -- with no byte left the tag is missing, whatever was to follow it
      have missing : ElementValue.decodeWithin pool 0 = Decoder.offset >>= fun _ =>
          (do Decoder.fail (.unexpectedEnd (← Decoder.offset) 1)) := rfl
      rw [elementValue, missing]
      exact Costs.offset.bind fun start => .u1Missing
  | succ depth ih =>
      rw [elementValue, ElementValue.decodeWithin]
      refine Costs.offset.bind fun start => Costs.u1.bind fun byte => ?_
      refine .ite (fun _ => ?const) fun _ => .ite (fun _ => ?enum) fun _ => .ite (fun _ => ?literal)
        fun _ => .ite (fun _ => ?nested) fun _ => .ite (fun _ => ?array) fun _ => .fail _
      case const =>
        refine Costs.u2.bind fun index => ?_
        have found (limit : Nat) : Costs limit (fun _ => 0) (discard (liftM (pool.get index)))
            (discard (Decoder.resolve (pool.get index))) :=
          (Costs.resolve _).map fun _ => Nat.le.refl
        exact (found _).bind fun _ => .pure rfl
      case enum =>
        refine costs_utf8Then fun typeDescriptor => costs_utf8Then fun constName => .pure ?_
        rfl
      case literal =>
        exact costs_utf8Then fun descriptor => .pure rfl
      case nested =>
        refine ((costs_annotationEntry ih).within (by omega)).bind fun entry => .pure ?_
        rw [ElementValue.parts]
        omega
      case array =>
        simp only [ReaderT.run, elementValues_eq]
        unfold Decoder.table
        rw [bind_assoc]
        refine Costs.u2.bind fun count => ?_
        refine ((ih.times count).within (by omega)).bind fun values => .pure ?_
        rw [ElementValue.parts, partsOfValues_eq]
        omega

theorem costs_elementValue :
    Costs limit ElementValue.parts (elementValue pool) (ElementValue.decode pool) := by
  intro r short
  refine costs_elementValueWithin r.cursor.rest.length r ?_
  rw [r.length_rest]

theorem costs_annotations :
    Costs limit (fun entries => 2 + partsOfEntries entries) (annotations pool)
      (AnnotationEntry.decodeTable pool) := by
  have entry : Costs limit AnnotationEntry.parts (annotationEntry pool)
      (AnnotationEntry.decode pool) := costs_annotationEntry costs_elementValue
  refine Costs.u2.bind fun count => (entry.times count).mono (Nat.sub_le ..) fun entries => ?_
  rw [partsOfEntries]
  omega

end

/-- The position `stop` lies further on in the data of the reader, by `count` bytes at least. -/
structure Reader.Advances (r : Reader) (stop count : Nat) : Prop where
  forward : r.pos < stop
  inside : stop ≤ r.data.length
  paid : count ≤ stop - r.pos

/-- What a read `x` and a decoder `y` come to from the reader `r`, where `count` tells how many parts
a value has. The read descends and repeats without a limit of its own. -/
structure Bounded {α : Type} (count : α → Nat) (r : Reader) (x : Attempt (α × Reader))
    (y : Except DecodeError (α × Cursor)) : Prop where
  ends : x.run.run ≠ none
  /-- From a reader in range both come to the same value or error. -/
  same : r.InRange → (fun p => (p.1, p.2.cursor)) <$> x = liftM y
  read (a : α) (after : Reader) : x = pure (a, after) →
    after = { r with pos := after.pos } ∧ r.Advances after.pos (count a)
  decoded (a : α) (after : Cursor) : y = .ok (a, after) →
    ∃ stop, after = Reader.cursor { r with pos := stop } ∧ r.Advances stop (count a)

theorem Unless.ends {α : Type} {r : Reader} {x : Attempt α} {y : Except DecodeError α}
    (ended : Unless r x (liftM y)) : x.run.run ≠ none := by
  rcases ended with rfl | ⟨-, fault, rfl⟩
  · cases y <;> exact Option.some_ne_none _
  · exact Option.some_ne_none _

theorem Unless.of_inRange {α : Type} {r : Reader} {x z : Attempt α} (ended : Unless r x z)
    (inRange : r.InRange) : x = z := by
  rcases ended with same | ⟨outside, -⟩
  · exact same
  · exact absurd inRange outside

theorem Unless.eq_of_pure {α : Type} {r : Reader} {x z : Attempt α} {a : α} (ended : Unless r x z)
    (value : x = pure a) : z = pure a := by
  rcases ended with rfl | ⟨-, fault, rfl⟩
  · exact value
  · exact nomatch Option.some.inj value

theorem Pays.bounded {α : Type} {cost count : α → Nat} {r : Reader} {x : Attempt (α × Reader)}
    {y : Except DecodeError (α × Cursor)} (pays : Pays cost r x y) (counted : ∀ a, count a ≤ cost a)
    (dear : ∀ a, 0 < cost a) : Bounded count r x y := by
  cases pays with
  | failed e ended =>
      refine ⟨Unless.ends (y := .error e) ended, fun inRange => ?_, fun a after value => ?_, nofun⟩
      · rw [ended.of_inRange inRange]
        rfl
      · exact nomatch Option.some.inj (ended.eq_of_pure value)
  | done a taken paid has ended =>
      have advances : r.Advances (r.pos + taken) (count a) := by
        have some := dear a
        have enough := counted a
        unfold Reader.Has at has
        exact ⟨by omega, by omega, by omega⟩
      refine ⟨Unless.ends (y := .ok _) ended, fun inRange => ?_, fun b after value => ?_, ?_⟩
      · rw [ended.of_inRange inRange]
        rfl
      · cases Option.some.inj (ended.eq_of_pure value)
        exact ⟨rfl, advances⟩
      · rintro _ _ ⟨⟩
        exact ⟨r.pos + taken, rfl, advances⟩

/-- From every reader, tables of annotations, annotations and element values are read to an end. What
is read stands further on in the same data and has no more parts than bytes were taken for it. -/
theorem annotation_reading_bounded (pool : ConstantPool) (r : Reader) :
    Bounded partsOfEntries r ((annotations pool).run r)
        ((AnnotationEntry.decodeTable pool).run r.cursor) ∧
      Bounded AnnotationEntry.parts r ((annotationEntry pool).run r)
        ((AnnotationEntry.decode pool).run r.cursor) ∧
      Bounded ElementValue.parts r ((elementValue pool).run r)
        ((ElementValue.decode pool).run r.cursor) := by
  refine ⟨?_, ?_, ?_⟩
  · exact (costs_annotations r Nat.le.refl).bounded (fun _ => Nat.le_add_left ..) fun _ => by omega
  · exact (costs_annotationEntry costs_elementValue r Nat.le.refl).bounded (fun _ => Nat.le.refl)
      AnnotationEntry.parts_pos
  · exact (costs_elementValue r Nat.le.refl).bounded (fun _ => Nat.le.refl) ElementValue.parts_pos

/-- Counts that promise what is not there cost nothing but the bytes that are. -/
example : (ElementValue.decode ⟨#[]⟩).run ⟨[91, 255, 255, 91, 255, 255], 0⟩ =
    .error (.unexpectedEnd 6 1) := by
  cbv

end Indexed

end ClassAtlas.ClassFile

import ClassAtlas.Proofs.ClassFile.ConstantLayout

/-!
The numbers of the constants in a pool. Constants are numbered from 1 in the order they stand in, and a
long or double takes two numbers. Main statement: in a pool that was read, an index leads to a constant
exactly if it is the first number of that constant, and the same numbers come out of a counter of 16
bits that stops at the declared count, which never wraps.
-/

namespace ClassAtlas.ClassFile

/-- How many slots a constant takes. -/
def Constant.width : Constant → Nat
  | .long _ => 2
  | .double _ => 2
  | _ => 1

/-- Constants with their first slots, from `slot` on. -/
def numberedFrom (slot : Nat) : List Constant → List (Nat × Constant)
  | [] => []
  | c :: rest => (slot, c) :: numberedFrom (slot + c.width) rest

/-- The slot is the second of a constant that takes two. -/
def SecondSlot (constants : List Constant) (slot : Nat) : Prop :=
  ∃ first c, (first, c) ∈ numberedFrom 1 constants ∧ c.width = 2 ∧ slot = first + 1

/-- A constant of two slots starts at a slot. -/
def StartsWide (constants : List Constant) (slot : Nat) : Prop :=
  ∃ c, (slot, c) ∈ numberedFrom 1 constants ∧ c.width = 2

/-- A pool of `declared` slots, slot 0 included, that holds the constants at their numbers. -/
structure Numbers (declared : Nat) (constants : List Constant) (pool : ConstantPool) : Prop where
  get_eq_ok_iff (index : Nat) (c : Constant) :
    pool.get index = .ok c ↔ (index, c) ∈ numberedFrom 1 constants
  within_declared (index : Nat) (c : Constant) :
    (index, c) ∈ numberedFrom 1 constants → 1 ≤ index ∧ index < declared
  get_eq_error_iff (index : Nat) :
    pool.get index = .error (.invalidConstantIndex index) ↔
      index = 0 ∨ SecondSlot constants index ∨ declared ≤ index
  size_wide : StartsWide constants (declared - 1) → pool.size = declared + 1
  size_narrow : ¬ StartsWide constants (declared - 1) → pool.size = max declared 1

section Numbering

variable {constants : List Constant} {i : Nat} {k : Constant}

theorem width_eq (c : Constant) : c.width = if c.isWide then 2 else 1 := by
  cases c <;> rfl

theorem width_pos (c : Constant) : 1 ≤ c.width := by
  rw [width_eq]
  split <;> decide

theorem length_slots_eq_width (c : Constant) : c.slots.length = c.width := by
  rw [length_slots, width_eq]

theorem getElem?_slots {c : Constant} (inside : i < c.width) :
    c.slots[i]? = some (if i = 0 then some c else none) := by
  rw [width_eq] at inside
  unfold Constant.slots
  split at inside
  case isTrue wide =>
    rw [if_pos wide]
    match i, inside with
    | 0, _ => rfl
    | 1, _ => rfl
  case isFalse narrow =>
    rw [if_neg narrow]
    match i, inside with
    | 0, _ => rfl

theorem getElem?_slots_cons (c : Constant) (rest : List Constant) (i : Nat) :
    ((c :: rest).flatMap Constant.slots)[i]? =
      if i < c.width then some (if i = 0 then some c else none)
      else (rest.flatMap Constant.slots)[i - c.width]? := by
  rw [List.flatMap_cons, List.getElem?_append, length_slots_eq_width]
  split
  case isTrue inside => exact getElem?_slots inside
  case isFalse => rfl

theorem le_of_mem_numberedFrom {slot : Nat} (member : (i, k) ∈ numberedFrom slot constants) :
    slot ≤ i := by
  induction constants generalizing slot with
  | nil => cases member
  | cons c rest ih =>
      rcases List.mem_cons.mp member with same | later
      · cases same
        exact Nat.le.refl
      · exact Nat.le_trans (Nat.le_add_right ..) (ih later)

theorem add_width_le_of_mem_numberedFrom {slot : Nat}
    (member : (i, k) ∈ numberedFrom slot constants) :
    i + k.width ≤ slot + (constants.flatMap Constant.slots).length := by
  induction constants generalizing slot with
  | nil => cases member
  | cons c rest ih =>
      rw [List.flatMap_cons, List.length_append, length_slots_eq_width]
      rcases List.mem_cons.mp member with same | later
      · cases same
        omega
      · have bound := ih later
        omega

/-- Every slot belongs to a constant: its first slot holds it, a second one nothing. -/
theorem getElem?_eq_some_iff (slot : Nat) {content : Option Constant} :
    (constants.flatMap Constant.slots)[i]? = some content ↔
      ∃ first c, (first, c) ∈ numberedFrom slot constants ∧
        ∃ half < c.width, slot + i = first + half ∧ content = if half = 0 then some c else none := by
  induction constants generalizing slot i with
  | nil => simp [numberedFrom]
  | cons c rest ih =>
      rw [getElem?_slots_cons]
      split
      case isTrue inside =>
        constructor
        · intro held
          exact ⟨slot, c, List.mem_cons_self, i, inside, rfl, (Option.some.inj held).symm⟩
        · rintro ⟨first, d, member, half, small, place, rfl⟩
          rcases List.mem_cons.mp member with same | later
          · cases same
            rw [Nat.add_left_cancel place]
          · have least := le_of_mem_numberedFrom later
            omega
      case isFalse beyond =>
        have place : slot + c.width + (i - c.width) = slot + i := by omega
        rw [ih (slot + c.width), place]
        constructor
        · rintro ⟨first, d, member, held⟩
          exact ⟨first, d, List.mem_cons_of_mem _ member, held⟩
        · rintro ⟨first, d, member, half, small, same, held⟩
          rcases List.mem_cons.mp member with here | later
          · cases here
            omega
          · exact ⟨first, d, later, half, small, same, held⟩

theorem getElem?_eq_constant_iff (slot : Nat) :
    (constants.flatMap Constant.slots)[i]? = some (some k) ↔
      (slot + i, k) ∈ numberedFrom slot constants := by
  rw [getElem?_eq_some_iff slot]
  constructor
  · rintro ⟨first, c, member, half, -, place, held⟩
    split at held
    case isTrue zero =>
      cases held
      rwa [place, zero]
    case isFalse => cases held
  · intro member
    exact ⟨slot + i, k, member, 0, width_pos k, rfl, rfl⟩

theorem getElem?_eq_second_iff (slot : Nat) :
    (constants.flatMap Constant.slots)[i]? = some none ↔
      ∃ first c, (first, c) ∈ numberedFrom slot constants ∧ c.width = 2 ∧ slot + i = first + 1 := by
  rw [getElem?_eq_some_iff slot]
  constructor
  · rintro ⟨first, c, member, half, small, place, held⟩
    have width := width_eq c
    split at held
    case isTrue => cases held
    case isFalse later =>
      refine ⟨first, c, member, ?_, ?_⟩
      all_goals
        split at width <;> omega
  · rintro ⟨first, c, member, wide, place⟩
    exact ⟨first, c, member, 1, by omega, place, rfl⟩

theorem numberedFrom_concat (slot : Nat) (before : List Constant) (c : Constant) :
    numberedFrom slot (before ++ [c]) =
      numberedFrom slot before ++ [(slot + (before.flatMap Constant.slots).length, c)] := by
  induction before generalizing slot with
  | nil => rfl
  | cons d rest ih =>
      rw [List.cons_append, numberedFrom, ih, numberedFrom, List.flatMap_cons, List.length_append,
        length_slots_eq_width, Nat.add_assoc, List.cons_append]

/-- The constants start in the declared slots. They go one slot beyond these exactly if one that takes
two starts in the last of them. -/
theorem Fills.length_eq {left : Nat} (filled : Fills left constants) (slot : Nat) :
    (∀ i k, (i, k) ∈ numberedFrom slot constants → i < slot + left) ∧
      ((constants.flatMap Constant.slots).length = left ∧
          ¬ (∃ k, (slot + left - 1, k) ∈ numberedFrom slot constants ∧ k.width = 2) ∨
        (constants.flatMap Constant.slots).length = left + 1 ∧
          ∃ k, (slot + left - 1, k) ∈ numberedFrom slot constants ∧ k.width = 2) := by
  rcases filled with exactly | ⟨longer, c, last, wide⟩
  · have bound (i : Nat) (k : Constant) (member : (i, k) ∈ numberedFrom slot constants) :
        i + k.width ≤ slot + left := exactly ▸ add_width_le_of_mem_numberedFrom member
    refine ⟨?_, .inl ⟨exactly, ?_⟩⟩
    · intro i k member
      exact Nat.lt_of_lt_of_le (Nat.lt_add_of_pos_right (width_pos k)) (bound i k member)
    · rintro ⟨k, member, two⟩
      have beyond := bound _ k member
      omega
  · obtain ⟨before, rfl⟩ := List.getLast?_eq_some_iff.mp last
    have two : c.width = 2 := by rw [width_eq, if_pos wide]
    have total : (before.flatMap Constant.slots).length + 2 = left + 1 := by
      rw [← longer, List.flatMap_append, List.length_append, List.flatMap_singleton,
        length_slots_eq_width, two]
    have place : slot + left - 1 = slot + (before.flatMap Constant.slots).length := by omega
    rw [numberedFrom_concat, place]
    refine ⟨?_, .inr ⟨longer, c, List.mem_append_right _ (List.mem_singleton_self _), two⟩⟩
    intro i k member
    rcases List.mem_append.mp member with earlier | final
    · have positive := width_pos k
      have bound := add_width_le_of_mem_numberedFrom earlier
      omega
    · cases List.mem_singleton.mp final
      omega

end Numbering

section Pool

variable {constants : List Constant} {declared : Nat} {pool : ConstantPool}

/-- Where no constant is held, an index is refused by its own number. -/
theorem get_eq_error_iff_slot {index : Nat} :
    pool.get index = .error (.invalidConstantIndex index) ↔
      pool.slots[index]? = some none ∨ pool.size ≤ index := by
  rw [ConstantPool.size, ← Array.getElem?_eq_none_iff]
  unfold ConstantPool.get
  cases pool.slots[index]? with
  | none => simp
  | some held => cases held <;> simp

variable (slots : pool.slots.toList = none :: constants.flatMap Constant.slots)
include slots

theorem holds_iff_mem_numberedFrom {index : Nat} {c : Constant} :
    pool.Holds index c ↔ (index, c) ∈ numberedFrom 1 constants := by
  rw [ConstantPool.Holds, ← Array.getElem?_toList, slots]
  cases index with
  | zero =>
      refine iff_of_false (by simp) ?_
      intro member
      exact absurd (le_of_mem_numberedFrom member) (by decide)
  | succ index => rw [List.getElem?_cons_succ, getElem?_eq_constant_iff 1, Nat.add_comm 1 index]

theorem void_iff_second {index : Nat} :
    pool.slots[index]? = some none ↔ index = 0 ∨ SecondSlot constants index := by
  rw [← Array.getElem?_toList, slots]
  cases index with
  | zero => simp
  | succ index =>
      rw [List.getElem?_cons_succ, getElem?_eq_second_iff 1, Nat.add_comm 1 index, SecondSlot]
      simp

theorem size_of_slots : pool.size = (constants.flatMap Constant.slots).length + 1 := by
  rw [ConstantPool.size, ← Array.length_toList, slots, List.length_cons]

/-- Slot 0 apart, the slots of a pool are those of its constants. -/
theorem numbers_of_slots (filled : Fills (declared - 1) constants) :
    Numbers declared constants pool := by
  have size := size_of_slots slots
  have last : 1 + (declared - 1) - 1 = declared - 1 := by omega
  obtain ⟨inside, length⟩ := filled.length_eq 1
  rw [last] at length
  have within (index : Nat) (c : Constant) (member : (index, c) ∈ numberedFrom 1 constants) :
      1 ≤ index ∧ index < declared := by
    have least := le_of_mem_numberedFrom member
    have bound := inside index c member
    omega
  refine ⟨?_, within, ?_, ?_, ?_⟩
  · intro index c
    rw [ConstantPool.get_eq_ok_iff, holds_iff_mem_numberedFrom slots]
  · intro index
    rw [get_eq_error_iff_slot, void_iff_second slots, or_assoc]
    constructor
    · rintro (zero | second | beyond)
      · exact .inl zero
      · exact .inr (.inl second)
      · exact .inr (.inr (by omega))
    · rintro (zero | second | beyond)
      · exact .inl zero
      · exact .inr (.inl second)
      · rcases length with ⟨exactly, -⟩ | ⟨longer, c, member, two⟩
        · rcases Nat.eq_zero_or_pos index with zero | positive
          · exact .inl zero
          · exact .inr (.inr (by omega))
        · -- the slot after the declared ones is the second of the constant that starts in the last
          have bounds := within _ c member
          rcases Nat.eq_or_lt_of_le beyond with next | after
          · exact .inr (.inl ⟨declared - 1, c, member, two, by omega⟩)
          · exact .inr (.inr (by omega))
  · intro wide
    rcases length with ⟨-, narrow⟩ | ⟨longer, c, member, -⟩
    · exact (narrow wide).elim
    · have bounds := within _ c member
      omega
  · intro narrow
    rcases length with ⟨exactly, -⟩ | ⟨-, wide⟩
    · omega
    · exact (narrow wide).elim

end Pool

/-! The counter of a reader of constants. -/

section Counter

/-- The counter after a constant. It goes up by the slots of the constant, but stays at the greatest
word where two would lead beyond it. -/
def Constant.advance (c : Constant) (index : UInt16) : UInt16 :=
  if c.isWide then .ofNatClamp (index.toNat + 2) else index + 1

variable {count index : UInt16}

/-- Below the declared count there is room for one more, so that only two can be too many. -/
theorem toNat_advance (below : index < count) (c : Constant) :
    (c.advance index).toNat = min (index.toNat + c.width) (UInt16.size - 1) := by
  have top := count.toNat_lt
  rw [UInt16.lt_iff_toNat_lt] at below
  change _ < 65536 at top
  change _ = min _ 65535
  unfold Constant.advance
  rw [width_eq]
  split
  case isTrue =>
    rcases Nat.lt_or_ge (index.toNat + 2) UInt16.size with fits | beyond
    · rw [UInt16.toNat_ofNatClamp_of_lt fits]
      change _ < 65536 at fits
      omega
    · rw [UInt16.toNat_ofNatClamp_of_le beyond]
      change 65536 ≤ _ at beyond
      change 65535 = _
      omega
  case isFalse =>
    have one : (1 : UInt16).toNat = 1 := rfl
    rw [UInt16.toNat_add, one]
    omega

theorem lt_advance (below : index < count) (c : Constant) : index < c.advance index := by
  have top := count.toNat_lt
  have positive := width_pos c
  rw [UInt16.lt_iff_toNat_lt, toNat_advance below]
  rw [UInt16.lt_iff_toNat_lt] at below
  change _ < 65536 at top
  change _ < min _ 65535
  omega

/-- Constants with the counter at which each is read. Reading ends where the counter has reached the
declared count. -/
def countedFrom (count index : UInt16) : Decoder (List (UInt16 × Constant)) := do
  if _ : index < count then
    let c ← ConstantPool.constant index.toNat
    return (index, c) :: (← countedFrom count (c.advance index))
  else
    return []
termination_by count.toNat - index.toNat
decreasing_by
  have below := ‹index < count›
  have less := lt_advance below c
  rw [UInt16.lt_iff_toNat_lt] at below less
  omega

/-- The slots of constants that were counted. -/
def countedSlots (counted : List (UInt16 × Constant)) : List (Option Constant) :=
  (counted.map (·.2)).flatMap Constant.slots

theorem countedSlots_cons (index : UInt16) (c : Constant) (rest : List (UInt16 × Constant)) :
    countedSlots ((index, c) :: rest) = c.slots ++ countedSlots rest := rfl

/-- Counting in 16 bits gives the slots that counting without a bound gives. -/
theorem slotsFrom_eq_counted (count index : UInt16) :
    ConstantPool.slotsFrom index.toNat (count.toNat - index.toNat) =
      countedSlots <$> countedFrom count index := by
  fun_induction countedFrom count index with
  | case1 index below ih =>
      have moved (c : Constant) : (c.advance index).toNat = min (index.toNat + c.width) 65535 :=
        toNat_advance below c
      have top : count.toNat < 65536 := count.toNat_lt
      rw [UInt16.lt_iff_toNat_lt] at below
      obtain ⟨left, room⟩ := Nat.exists_eq_succ_of_ne_zero (Nat.sub_ne_zero_of_lt below)
      rw [room, ConstantPool.slotsFrom, map_bind]
      congr 1
      funext c
      have rest : countedSlots <$> (countedFrom count (c.advance index) >>= fun rest =>
            pure ((index, c) :: rest)) =
          (c.slots ++ ·) <$> ConstantPool.slotsFrom (min (index.toNat + c.width) 65535)
            (count.toNat - min (index.toNat + c.width) 65535) := by
        rw [← moved, ih c]
        simp [countedSlots_cons]
      rw [rest, width_eq, Constant.slots]
      by_cases wide : c.isWide
      · rw [if_pos wide, if_pos wide, if_pos wide]
        cases left with
        | zero =>
            -- the declared slots are used up, whether or not the counter stays behind
            have ended : count.toNat - min (index.toNat + 2) 65535 = 0 := by omega
            rw [ended, ConstantPool.slotsFrom, map_pure]
            rfl
        | succ left =>
            have place : min (index.toNat + 2) 65535 = index.toNat + 2 := by omega
            have fewer : count.toNat - (index.toNat + 2) = left := by omega
            rw [place, fewer, map_eq_pure_bind]
            rfl
      · rw [if_neg wide, if_neg wide, if_neg wide]
        have place : min (index.toNat + 1) 65535 = index.toNat + 1 := by omega
        have fewer : count.toNat - (index.toNat + 1) = left := by omega
        rw [place, fewer, map_eq_pure_bind]
        rfl
  | case2 index reached =>
      rw [UInt16.lt_iff_toNat_lt] at reached
      rw [Nat.sub_eq_zero_of_le (Nat.le_of_not_lt reached), ConstantPool.slotsFrom, map_pure]
      rfl

/-- The counter shows the first slot of every constant that is read. -/
theorem counted_numbered {counted : List (UInt16 × Constant)} {cursor next : Cursor}
    (ran : (countedFrom count index).run cursor = .ok (counted, next)) :
    counted.map (fun place => (place.1.toNat, place.2)) =
      numberedFrom index.toNat (counted.map (·.2)) := by
  fun_induction countedFrom count index generalizing counted cursor next with
  | case1 index below ih =>
      obtain ⟨⟨c, between⟩, -, ranMore⟩ := bind_eq_ok_iff.mp ran
      obtain ⟨⟨rest, last⟩, ranRest, same⟩ := bind_eq_ok_iff.mp ranMore
      cases same
      have numbered := ih c ranRest
      have moved : (c.advance index).toNat = min (index.toNat + c.width) 65535 :=
        toNat_advance below c
      rw [List.map_cons, List.map_cons, numberedFrom, numbered]
      rcases Nat.le_total (index.toNat + c.width) 65535 with fits | beyond
      · rw [moved, Nat.min_eq_left fits]
      · -- a counter that stays behind has reached the declared count, so nothing more was read
        have top : count.toNat < 65536 := count.toNat_lt
        have ended : ¬ c.advance index < count := by
          rw [UInt16.lt_iff_toNat_lt, moved]
          omega
        rw [countedFrom, dif_neg ended] at ranRest
        cases ranRest
        rfl
  | case2 index reached =>
      cases ran
      rfl

theorem filterMap_slots (constants : List Constant) :
    (constants.flatMap Constant.slots).filterMap id = constants := by
  induction constants with
  | nil => rfl
  | cons c rest ih =>
      rw [List.flatMap_cons, List.filterMap_append, ih, Constant.slots]
      split <;> rfl

end Counter

/-- In a pool that was read, the constants take consecutive slots from 1: an index leads to a constant
exactly at the first slot of it, and is refused at 0, at second slots and from the declared count on.
A counter of 16 bits that stops at the declared count reads the same constants at the same slots, and
goes up with each of them. -/
theorem slots_numbered {cursor next : Cursor} {pool : ConstantPool}
    (decoded : ConstantPool.decode.run cursor = .ok (pool, next)) :
    ∃ (declared : UInt16) (start : Cursor) (layouts : List ConstantLayout)
      (constants : List Constant) (counted : List (UInt16 × Constant)),
      Decoder.u2.run cursor = .ok (declared.toNat, start) ∧
      start.rest = layouts.flatMap ConstantLayout.encode ++ next.rest ∧
      List.Forall₂ ConstantLayout.Means layouts constants ∧
      Numbers declared.toNat constants pool ∧
      (countedFrom declared 1).run start = .ok (counted, next) ∧
      counted.map (fun place => (place.1.toNat, place.2)) = numberedFrom 1 constants ∧
      ∀ place ∈ counted, place.1 < place.2.advance place.1 := by
  obtain ⟨⟨n, start⟩, ranCount, ranSlots⟩ := bind_eq_ok_iff.mp decoded
  obtain ⟨⟨slots, last⟩, ranFrom, same⟩ := bind_eq_ok_iff.mp ranSlots
  cases same
  obtain ⟨-, -, declared, -, rfl⟩ := (Decodes.u2 cursor n start.rest).mp ⟨start.offset, ranCount⟩
  obtain ⟨-, written, layouts, rfl, constants, described, filled, rfl⟩ :=
    (decodes_slotsFrom _ 1 start slots next.rest).mp ⟨next.offset, ranFrom⟩
  have counting := slotsFrom_eq_counted declared 1
  change ConstantPool.slotsFrom 1 (declared.toNat - 1) = _ at counting
  rw [counting, map_eq_pure_bind] at ranFrom
  obtain ⟨⟨counted, last⟩, ranCounted, same⟩ := bind_eq_ok_iff.mp ranFrom
  obtain ⟨sameSlots, rfl⟩ := Prod.mk.inj (Except.ok.inj same)
  have read : counted.map (·.2) = constants := by
    have held := congrArg (List.filterMap id) sameSlots
    rwa [countedSlots, filterMap_slots, filterMap_slots] at held
  have numbers : Numbers declared.toNat constants
      { slots := (none :: constants.flatMap Constant.slots).toArray } := numbers_of_slots rfl filled
  have numbered : counted.map (fun place => (place.1.toNat, place.2)) = numberedFrom 1 constants := by
    rw [counted_numbered ranCounted, read]
    rfl
  refine ⟨declared, start, layouts, constants, counted, ranCount, written, described, numbers,
    ranCounted, numbered, ?_⟩
  intro place member
  have shown := List.mem_map_of_mem (f := fun place => (place.1.toNat, place.2)) member
  rw [numbered] at shown
  exact lt_advance (UInt16.lt_iff_toNat_lt.mpr (numbers.within_declared _ _ shown).2) place.2

/-- Three slots are declared, and the constant in the last of them is a long. -/
def lastLong : Cursor where
  rest := [0, 3, 3, 0, 0, 0, 9, 5, 0, 0, 0, 0, 0, 0, 0, 7]
  offset := 0

theorem lastLong_numbered :
    ConstantPool.decode.run lastLong =
        .ok (⟨#[none, some (.integer 9), some (.long 7), none]⟩, ⟨[], 16⟩) ∧
      ∃ constants, Numbers 3 constants ⟨#[none, some (.integer 9), some (.long 7), none]⟩ := by
  have decoded : ConstantPool.decode.run lastLong =
      .ok (⟨#[none, some (.integer 9), some (.long 7), none]⟩, ⟨[], 16⟩) := by decide +kernel
  obtain ⟨declared, start, layouts, constants, counted, count, -, -, numbers, -⟩ :=
    slots_numbered decoded
  have three : Decoder.u2.run lastLong = .ok (3, ⟨lastLong.rest.drop 2, 2⟩) := by rfl
  obtain ⟨same, -⟩ := Prod.mk.inj (Except.ok.inj (three.symm.trans count))
  rw [← same] at numbers
  exact ⟨decoded, constants, numbers⟩

end ClassAtlas.ClassFile

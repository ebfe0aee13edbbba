import ClassAtlas.Proofs.ClassFile.Indexed.Reader
import ClassAtlas.Proofs.ClassFile.ModifiedUtf8
import ClassAtlas.Proofs.ClassFile.Resolution

/-!
The constant pool by index. Slots are counted in 16 bits up to the declared count, and the units of a
text are taken from its bytes by position. The texts of a pool that was read are short, so that their
offsets are 64-bit words in their turn.
-/

namespace ClassAtlas.ClassFile.Indexed

open Checked ModifiedUtf8

section

variable (raw : List UInt8)

/-- The units of an encoded text from position `i` on, behind those found before. -/
def unitsFrom : ReaderT Nat (ReaderT (List Nat) Checked) (Option (List Nat)) := fun i units => do
  if i < raw.length then
    let b0 ← byteAt raw i
    if 0x01 ≤ b0 ∧ b0 ≤ 0x7F then
      (unitsFrom.run (← sum UInt64.size i 1)).run (units ++ [b0.toNat])
    else if 0xC0 ≤ b0 ∧ b0 ≤ 0xDF then
      match raw[← sum UInt64.size i 1]?.bind continuation? with
      | none => return none
      | some x1 =>
        let unit ← sum UInt16.size (b0.toNat % 32 * 64) x1
        (unitsFrom.run (← sum UInt64.size i 2)).run (units ++ [unit])
    else if 0xE0 ≤ b0 ∧ b0 ≤ 0xEF then
      match raw[← sum UInt64.size i 1]?.bind continuation? with
      | none => return none
      | some x1 =>
        match raw[← sum UInt64.size i 2]?.bind continuation? with
        | none => return none
        | some x2 =>
          let unit ← sum UInt16.size (← sum UInt16.size (b0.toNat % 16 * 4096) (x1 * 64)) x2
          (unitsFrom.run (← sum UInt64.size i 3)).run (units ++ [unit])
    else
      return none
  else
    return some units
partial_fixpoint

end

def modifiedUtf8 (raw : List UInt8) : Checked (Option String) := do
  match decodePlain raw with
  | some plain => return some plain
  | none => return ((← unitsFrom raw 0 []).bind ofUnits?).map String.ofList

def constant (index : Nat) : Read Constant := do
  let tag ← u1
  match tag.toNat with
  | 1 =>
    let raw ← bytes (← u2)
    match ← modifiedUtf8 raw with
    | some text => return .utf8 text
    | none => throw (.invalidUtf8 index)
  | 3 => return .integer (twosComplement 32 (← u4))
  | 4 => return .float (← u4)
  | 5 => return .long (twosComplement 64 (← u8))
  | 6 => return .double (← u8)
  | 7 => return .classInfo (← u2)
  | 8 => return .string (← u2)
  | 9 => return .fieldRef (← u2) (← u2)
  | 10 => return .methodRef (← u2) (← u2)
  | 11 => return .interfaceMethodRef (← u2) (← u2)
  | 12 => return .nameAndType (← u2) (← u2)
  | 15 => return .methodHandle (← u1) (← u2)
  | 16 => return .methodType (← u2)
  | 17 => return .dynamic (← u2) (← u2)
  | 18 => return .invokeDynamic (← u2) (← u2)
  | 19 => return .moduleInfo (← u2)
  | 20 => return .packageInfo (← u2)
  | _ => throw (.invalidConstantTag index tag)

section

variable (count : Nat)

/-- The slots from `index` on, behind those filled before. An index past a wide constant stays at the
greatest word where it would go beyond it. -/
def slotsFrom : ReaderT Nat (ReaderT (List (Option Constant)) Read) (List (Option Constant)) :=
  fun index slots => do
    if index < count then
      let c ← constant index
      if c.isWide then
        (slotsFrom.run (min (index + 2) (UInt16.size - 1))).run (slots ++ [some c, none])
      else
        (slotsFrom.run (← sum UInt16.size index 1)).run (slots ++ [some c])
    else
      return slots
partial_fixpoint

end

def pool : Read ConstantPool := do
  let count ← u2
  return { slots := (← slotsFrom count 1 [none]).toArray }

theorem continuation?_lt {byte : UInt8} {bits : Nat} (found : continuation? byte = some bits) :
    bits < 64 := by
  unfold continuation? at found
  split at found
  case isTrue =>
    cases found
    exact Nat.mod_lt _ (by decide)
  case isFalse => cases found

/-! One unit of a text, by its first byte. -/

section Units

variable {raw rest : List UInt8} {i : Nat} {b0 : UInt8} (short : raw.length < UInt16.size)
  (front : raw.drop i = b0 :: rest) (units : List Nat)

include short front

theorem sum_position {n : Nat} (small : n ≤ 3) : sum UInt64.size i n = pure (i + n) := by
  have inside := lt_length_of_drop front
  apply sum_eq
  change _ < 65536 at short
  change _ < 18446744073709551616
  omega

theorem unitsFrom_single (single : 0x01 ≤ b0 ∧ b0 ≤ 0x7F) :
    unitsFrom raw i units = unitsFrom raw (i + 1) (units ++ [b0.toNat]) := by
  rw [unitsFrom]
  simp [lt_length_of_drop front, byteAt_eq (getElem?_of_drop front), single, sum_position short front,
    ReaderT.run]

theorem unitsFrom_double (single : ¬ (0x01 ≤ b0 ∧ b0 ≤ 0x7F)) (double : 0xC0 ≤ b0 ∧ b0 ≤ 0xDF) :
    unitsFrom raw i units = (rest.head?.bind continuation?).elim (pure none) fun x1 =>
      unitsFrom raw (i + 2) (units ++ [b0.toNat % 32 * 64 + x1]) := by
  have second : raw[i + 1]? = rest.head? := by
    rw [← List.head?_drop, drop_succ_of_drop front]
  rw [unitsFrom]
  simp only [lt_length_of_drop front, if_true, byteAt_eq (getElem?_of_drop front), pure_bind, single,
    if_false, double, and_self, sum_position short front (by decide : 1 ≤ 3),
    sum_position short front (by decide : 2 ≤ 3), second]
  cases bits : rest.head?.bind continuation? with
  | none => rfl
  | some x1 =>
      have fits : b0.toNat % 32 * 64 + x1 < UInt16.size := by
        obtain ⟨b1, -, found⟩ := Option.bind_eq_some_iff.mp bits
        have := continuation?_lt found
        change _ < 65536
        omega
      simp [sum_eq fits, ReaderT.run]

theorem unitsFrom_triple (single : ¬ (0x01 ≤ b0 ∧ b0 ≤ 0x7F)) (double : ¬ (0xC0 ≤ b0 ∧ b0 ≤ 0xDF))
    (triple : 0xE0 ≤ b0 ∧ b0 ≤ 0xEF) :
    unitsFrom raw i units = (rest.head?.bind continuation?).elim (pure none) fun x1 =>
      (rest.tail.head?.bind continuation?).elim (pure none) fun x2 =>
        unitsFrom raw (i + 3) (units ++ [b0.toNat % 16 * 4096 + x1 * 64 + x2]) := by
  have second : raw[i + 1]? = rest.head? := by
    rw [← List.head?_drop, drop_succ_of_drop front]
  have third : raw[i + 2]? = rest.tail.head? := by
    rw [← List.head?_drop, ← drop_succ_of_drop front, List.tail_drop]
  rw [unitsFrom]
  simp only [lt_length_of_drop front, if_true, byteAt_eq (getElem?_of_drop front), pure_bind, single,
    if_false, double, triple, and_self, sum_position short front (by decide : 1 ≤ 3),
    sum_position short front (by decide : 2 ≤ 3), sum_position short front (by decide : 3 ≤ 3), second,
    third]
  cases bits : rest.head?.bind continuation? with
  | none => rfl
  | some x1 =>
      cases bits2 : rest.tail.head?.bind continuation? with
      | none => rfl
      | some x2 =>
          have fits : b0.toNat % 16 * 4096 + x1 * 64 + x2 < UInt16.size := by
            obtain ⟨b1, -, found⟩ := Option.bind_eq_some_iff.mp bits
            obtain ⟨b2, -, found2⟩ := Option.bind_eq_some_iff.mp bits2
            have := continuation?_lt found
            have := continuation?_lt found2
            change _ < 65536
            omega
          have partFits := Nat.lt_of_le_of_lt (Nat.le_add_right _ x2) fits
          simp [sum_eq partFits, sum_eq fits, ReaderT.run]

omit short in
theorem unitsFrom_other (single : ¬ (0x01 ≤ b0 ∧ b0 ≤ 0x7F)) (double : ¬ (0xC0 ≤ b0 ∧ b0 ≤ 0xDF))
    (triple : ¬ (0xE0 ≤ b0 ∧ b0 ≤ 0xEF)) : unitsFrom raw i units = pure none := by
  rw [unitsFrom]
  simp [lt_length_of_drop front, byteAt_eq (getElem?_of_drop front), single, double, triple]

end Units

theorem unitsFrom_eq {raw : List UInt8} (short : raw.length < UInt16.size) (rest : List UInt8)
    (i : Nat) (units : List Nat) (front : raw.drop i = rest) :
    unitsFrom raw i units = pure ((units ++ ·) <$> units? rest) := by
  fun_induction units? rest generalizing i units with
  | case1 =>
      have ended : ¬ i < raw.length := Nat.not_lt.mpr (List.drop_eq_nil_iff.mp front)
      rw [unitsFrom, if_neg ended]
      simp
  | case2 b0 rest single ih =>
      rw [unitsFrom_single short front units single, ih _ _ (drop_succ_of_drop front)]
      cases units? rest <;> simp
  | case3 b0 single double b1 rest ih =>
      rw [unitsFrom_double short front units single double]
      cases bits : continuation? b1 with
      | none => simp [bits]
      | some x1 =>
          have step := ih (i + 2) (units ++ [b0.toNat % 32 * 64 + x1])
            (drop_succ_of_drop (drop_succ_of_drop front))
          cases found : units? rest <;> simp [bits, step, found]
  | case4 b0 single double =>
      rw [unitsFrom_double short front units single double]
      rfl
  | case5 b0 single double triple b1 b2 rest ih =>
      rw [unitsFrom_triple short front units single double triple]
      cases bits : continuation? b1 with
      | none => simp [bits]
      | some x1 =>
          cases bits2 : continuation? b2 with
          | none => simp [bits, bits2]
          | some x2 =>
              have step := ih (i + 3) (units ++ [b0.toNat % 16 * 4096 + x1 * 64 + x2])
                (drop_succ_of_drop (drop_succ_of_drop (drop_succ_of_drop front)))
              cases found : units? rest <;> simp [bits, bits2, step, found]
  | case6 b0 rest single double triple cut =>
      rw [unitsFrom_triple short front units single double triple]
      rcases rest with _ | ⟨b1, _ | ⟨b2, rest⟩⟩
      · rfl
      · cases bits : continuation? b1 <;> simp [bits]
      · exact (cut b1 b2 rest rfl).elim
  | case7 b0 rest single double triple =>
      rw [unitsFrom_other front units single double triple]
      rfl

theorem modifiedUtf8_eq {raw : List UInt8} (short : raw.length < UInt16.size) :
    modifiedUtf8 raw = pure (ModifiedUtf8.decode raw) := by
  unfold modifiedUtf8 ModifiedUtf8.decode
  cases decodePlain raw with
  | some plain => rfl
  | none =>
      rw [unitsFrom_eq short raw 0 [] rfl]
      unfold decodeUnits
      cases units? raw with
      | none => rfl
      | some units => cases decoded : ofUnits? units <;> simp [decoded]

theorem length_units {raw : List UInt8} {units : List Nat} (found : units? raw = some units) :
    units.length ≤ raw.length := by
  fun_induction units? raw generalizing units with
  | case1 =>
      cases found
      exact Nat.le.refl
  | case2 b0 rest single ih =>
      obtain ⟨more, foundMore, joined⟩ := Option.bind_eq_some_iff.mp found
      cases joined
      exact Nat.succ_le_succ (ih foundMore)
  | case3 b0 single double b1 rest ih =>
      obtain ⟨x1, bits, foundRest⟩ := Option.bind_eq_some_iff.mp found
      obtain ⟨more, foundMore, joined⟩ := Option.bind_eq_some_iff.mp foundRest
      cases joined
      exact Nat.le_succ_of_le (Nat.succ_le_succ (ih foundMore))
  | case4 => cases found
  | case5 b0 single double triple b1 b2 rest ih =>
      obtain ⟨x1, bits, foundRest⟩ := Option.bind_eq_some_iff.mp found
      obtain ⟨x2, bits2, foundRest2⟩ := Option.bind_eq_some_iff.mp foundRest
      obtain ⟨more, foundMore, joined⟩ := Option.bind_eq_some_iff.mp foundRest2
      cases joined
      exact Nat.le_succ_of_le (Nat.le_succ_of_le (Nat.succ_le_succ (ih foundMore)))
  | case6 => cases found
  | case7 => cases found

theorem length_ofUnits {units : List Nat} {chars : List Char} (found : ofUnits? units = some chars) :
    chars.length ≤ units.length := by
  fun_induction ofUnits? units generalizing chars with
  | case1 =>
      cases found
      exact Nat.le.refl
  | case2 =>
      rename_i ih
      obtain ⟨more, foundMore, joined⟩ := Option.bind_eq_some_iff.mp found
      cases joined
      exact Nat.le_succ_of_le (Nat.succ_le_succ (ih foundMore))
  | case3 => cases found
  | case4 => cases found
  | case5 => cases found
  | case6 unit rest high low ih =>
      obtain ⟨more, foundMore, joined⟩ := Option.bind_eq_some_iff.mp found
      cases joined
      exact Nat.succ_le_succ (ih foundMore)

theorem length_utf8_of_decode {raw : List UInt8} {text : String}
    (decoded : ModifiedUtf8.decode raw = some text) : (Text.utf8 text).length ≤ 4 * raw.length := by
  unfold ModifiedUtf8.decode at decoded
  cases plain : decodePlain raw with
  | some found =>
      rw [plain] at decoded
      cases decoded
      rw [(decodePlain_eq_some_iff.mp plain).1]
      omega
  | none =>
      rw [plain] at decoded
      change decodeUnits raw = some text at decoded
      obtain ⟨units, foundUnits, rest⟩ := Option.bind_eq_some_iff.mp decoded
      obtain ⟨chars, foundChars, joined⟩ := Option.bind_eq_some_iff.mp rest
      cases joined
      have := length_units foundUnits
      have := length_ofUnits foundChars
      have := Text.length_utf8_ofList chars
      omega

theorem fits_of_decode {raw : List UInt8} {text : String} (short : raw.length < UInt16.size)
    (decoded : ModifiedUtf8.decode raw = some text) : Text.Fits text := by
  have := length_utf8_of_decode decoded
  change _ < 65536 at short
  change _ < 18446744073709551616
  omega

/-- A text among the constants has offsets of 64 bits. -/
def TextFits : Constant → Prop
  | .utf8 text => Text.Fits text
  | _ => True

theorem follows_constant (limit index : Nat) :
    Follows limit TextFits (constant index) (ConstantPool.constant index) := by
  have one {f : Nat → Constant} (other : ∀ n, TextFits (f n)) :
      Follows limit TextFits (u2 >>= fun n => pure (f n)) (Decoder.u2 >>= fun n => pure (f n)) :=
    Follows.u2.bind fun n _ => .pure (other n)
  have two {f : Nat → Nat → Constant} (other : ∀ m n, TextFits (f m n)) :
      Follows limit TextFits (u2 >>= fun m => u2 >>= fun n => pure (f m n))
        (Decoder.u2 >>= fun m => Decoder.u2 >>= fun n => pure (f m n)) :=
    Follows.u2.bind fun m _ => one (other m)
  refine Follows.u1.bind fun tag _ => ?_
  generalize tag.toNat = number
  split
  case h_1 =>
    refine Follows.u2.bind fun length short => (Follows.bytes length).bind fun raw sized => ?_
    rw [← sized] at short
    rw [modifiedUtf8_eq short]
    cases decoded : ModifiedUtf8.decode raw with
    | none => exact .fail _
    | some text => exact .pure (fits_of_decode short decoded)
  case h_2 => exact Follows.u4.bind fun _ _ => .pure trivial
  case h_3 => exact Follows.u4.bind fun _ _ => .pure trivial
  case h_4 => exact Follows.u8.bind fun _ _ => .pure trivial
  case h_5 => exact Follows.u8.bind fun _ _ => .pure trivial
  case h_6 => exact one fun _ => trivial
  case h_7 => exact one fun _ => trivial
  case h_8 => exact two fun _ _ => trivial
  case h_9 => exact two fun _ _ => trivial
  case h_10 => exact two fun _ _ => trivial
  case h_11 => exact two fun _ _ => trivial
  case h_12 => exact Follows.u1.bind fun _ _ => one fun _ => trivial
  case h_13 => exact one fun _ => trivial
  case h_14 => exact two fun _ _ => trivial
  case h_15 => exact two fun _ _ => trivial
  case h_16 => exact one fun _ => trivial
  case h_17 => exact one fun _ => trivial
  case h_18 =>
    refine (Follows.fail _).congr ?_
    simp_all only

/-- The texts of a pool have offsets of 64 bits. -/
def PoolFits (pool : ConstantPool) : Prop :=
  ∀ index text, pool.Text index text → Text.Fits text

namespace PoolFits

variable {pool : ConstantPool} {index : Nat} (fits : PoolFits pool)
include fits

theorem utf8 {text : String} (found : pool.utf8 index = .ok text) : Text.Fits text :=
  fits index text (ConstantPool.utf8_eq_ok_iff.mp found)

/-- A text is named by its index and then put to use. -/
theorem utf8Then {β : Type} {Q : β → Prop} {limit : Nat} {f : String → Read β}
    {g : String → Decoder β} (next : ∀ text, Text.Fits text → Follows limit Q (f text) (g text)) :
    Follows limit Q
      (do
        let text ← pool.utf8 (← u2)
        f text)
      (do
        let text ← Decoder.resolve (pool.utf8 (← Decoder.u2))
        g text) :=
  Follows.u2.bind fun _ _ => (Follows.resolve fun _ => fits.utf8).bind next

theorem className {name : String} (found : pool.className index = .ok name) : Text.Fits name := by
  obtain ⟨nameIndex, -, named⟩ := ConstantPool.className_eq_ok_iff.mp found
  exact fits nameIndex name named

theorem member {member : MemberRef} (named : pool.NamesMember index member) :
    Text.Fits member.descriptor := by
  obtain ⟨_, _, -, -, _, descriptorIndex, -, -, described⟩ := named
  exact fits descriptorIndex member.descriptor described

theorem memberRef {member : MemberRef} (found : pool.memberRef index = .ok member) :
    Text.Fits member.descriptor :=
  fits.member (ConstantPool.memberRef_eq_ok_iff.mp found)

theorem callSite {site : String × String} (found : pool.callSite index = .ok site) :
    Text.Fits site.2 := by
  obtain ⟨_, _, -, _, descriptorIndex, -, -, described⟩ := ConstantPool.callSite_eq_ok_iff.mp found
  exact fits descriptorIndex site.2 described

end PoolFits

/-- The count of slots left falls to zero where the index meets the declared count. -/
theorem follows_slotsFrom (limit : Nat) {count : Nat} (small : count < UInt16.size) (left : Nat)
    (index : Nat) (slots : List (Option Constant)) (inside : index < UInt16.size)
    (reached : count - index = left) (fit : ∀ c, some c ∈ slots → TextFits c) :
    Follows limit (∀ c, some c ∈ · → TextFits c) (slotsFrom count index slots)
      ((slots ++ ·) <$> ConstantPool.slotsFrom index left) := by
  change _ < 65536 at small inside
  induction left using Nat.strongRecOn generalizing index slots with
  | ind left ih =>
      rw [slotsFrom]
      cases left with
      | zero =>
          rw [if_neg (by omega), ConstantPool.slotsFrom, map_pure, List.append_nil]
          exact .pure fit
      | succ left =>
          rw [if_pos (by omega), ConstantPool.slotsFrom, map_bind]
          refine (follows_constant limit index).bind fun c fits => ?_
          have fitMore (more : List (Option Constant)) (only : ∀ d, some d ∈ more → d = c) :
              ∀ d, some d ∈ slots ++ more → TextFits d := by
            intro d member
            rcases List.mem_append.mp member with earlier | added
            · exact fit d earlier
            · exact only d added ▸ fits
          by_cases wide : c.isWide
          · rw [if_pos wide, if_pos wide]
            have fitWide := fitMore [some c, none] (by simp)
            change Follows _ _ (slotsFrom count (min (index + 2) 65535) _) _
            cases left with
            | zero =>
                have last := ih 0 (by omega) (min (index + 2) 65535) _ (by omega) fitWide (by omega)
                rw [ConstantPool.slotsFrom, map_pure, List.append_nil] at last
                exact last
            | succ left =>
                rw [Nat.min_eq_left (by omega)]
                have next := ih left (by omega) (index + 2) _ (by omega) fitWide (by omega)
                rw [← map_append_bind] at next
                exact next
          · rw [if_neg wide, if_neg wide, sum_eq (by change _ < 65536; omega)]
            have next := ih left (by omega) (index + 1) _ (by omega) (fitMore [some c] (by simp))
              (by omega)
            rw [← map_append_bind] at next
            exact next

theorem follows_pool (limit : Nat) : Follows limit PoolFits pool ConstantPool.decode := by
  refine Follows.u2.bind fun count small => ?_
  have slots := follows_slotsFrom limit small (count - 1) 1 [none] (by decide) rfl (by simp)
  have declared : (ConstantPool.slotsFrom 1 (count - 1) >>= fun slots =>
        pure { slots := (none :: slots).toArray : ConstantPool }) =
      (([none] ++ ·) <$> ConstantPool.slotsFrom 1 (count - 1) >>= fun slots =>
        pure { slots := slots.toArray : ConstantPool }) := by
    simp
  rw [declared]
  refine slots.bind fun slots fit => .pure ?_
  intro index text found
  change slots.toArray[index]? = _ at found
  rw [List.getElem?_toArray] at found
  exact fit (.utf8 text) (List.mem_of_getElem? found)

end ClassAtlas.ClassFile.Indexed

import ClassAtlas.Fault

/-!
Computations in which every index, every slice and every integer result is checked. Leaving a range
is a fault, and a fault is told apart from the failures that a program reports itself. A computation
that never ends has no outcome at all.
-/

namespace ClassAtlas

/-- The outcome of a computation: `none` if it does not end. -/
abbrev Checked := ExceptT Fault Option

namespace Checked

variable {α : Type}

/-- A sum in an unsigned type of the numbers below `size`. -/
def sum (size a b : Nat) : Checked Nat :=
  if a + b < size then pure (a + b) else throw .overflow

def difference (a b : Nat) : Checked Nat :=
  if b ≤ a then pure (a - b) else throw .underflow

/-- A result in the signed type of 64 bits. -/
def int64 (value : Int) : Checked Int :=
  if Int64.maxValue.toInt < value then throw .overflow
  else if value < Int64.minValue.toInt then throw .underflow
  else pure value

/-- A signed number where an unsigned one is wanted. -/
def natural (value : Int) : Checked Nat :=
  if 0 ≤ value then pure value.toNat else throw .underflow

def item (items : List α) (index : Nat) : Checked α :=
  match items[index]? with
  | some found => pure found
  | none => throw .index

def byteAt (bytes : List UInt8) (index : Nat) : Checked UInt8 :=
  item bytes index

def slice (items : List α) (start stop : Nat) : Checked (List α) :=
  if start ≤ stop ∧ stop ≤ items.length then pure ((items.drop start).take (stop - start))
  else throw .slice

theorem sum_eq {size a b : Nat} (fits : a + b < size) : sum size a b = pure (a + b) :=
  if_pos fits

theorem difference_eq {a b : Nat} (ordered : b ≤ a) : difference a b = pure (a - b) :=
  if_pos ordered

theorem int64_eq {value : Int} (least : -9223372036854775808 ≤ value)
    (greatest : value ≤ 9223372036854775807) : int64 value = pure value := by
  have minimum : Int64.minValue.toInt = -9223372036854775808 := rfl
  have maximum : Int64.maxValue.toInt = 9223372036854775807 := rfl
  unfold int64
  rw [minimum, maximum, if_neg (Int.not_lt.mpr greatest), if_neg (Int.not_lt.mpr least)]

theorem natural_eq {value : Int} (nonnegative : 0 ≤ value) : natural value = pure value.toNat :=
  if_pos nonnegative

theorem item_eq {items : List α} {index : Nat} {found : α} (there : items[index]? = some found) :
    item items index = pure found := by
  unfold item
  rw [there]

theorem byteAt_eq {bytes : List UInt8} {index : Nat} {byte : UInt8}
    (there : bytes[index]? = some byte) : byteAt bytes index = pure byte :=
  item_eq there

theorem slice_eq {items : List α} {start stop : Nat} (ordered : start ≤ stop)
    (inside : stop ≤ items.length) :
    slice items start stop = pure ((items.drop start).take (stop - start)) :=
  if_pos ⟨ordered, inside⟩

/-- An item, given by what stands in front of a position. -/
theorem getElem?_of_drop {items rest : List α} {index : Nat} {found : α}
    (front : items.drop index = found :: rest) : items[index]? = some found := by
  rw [← List.head?_drop, front]
  rfl

theorem drop_succ_of_drop {items rest : List α} {index : Nat} {found : α}
    (front : items.drop index = found :: rest) : items.drop (index + 1) = rest := by
  rw [← List.tail_drop, front]
  rfl

theorem lt_length_of_drop {items rest : List α} {index : Nat} {found : α}
    (front : items.drop index = found :: rest) : index < items.length := by
  have sized := congrArg List.length front
  rw [List.length_drop, List.length_cons] at sized
  omega

end Checked

end ClassAtlas

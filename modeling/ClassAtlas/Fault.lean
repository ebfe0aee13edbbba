/-!
Faults: a number or a place that leaves its range. A computation that meets one breaks off, which is
not one of the failures that it reports itself.
-/

namespace ClassAtlas

inductive Fault where
  | index
  /-- A slice whose end lies before its start or beyond the sequence. -/
  | slice
  /-- A slice of a text that cuts a character. -/
  | boundary
  | overflow
  | underflow
  deriving Repr, DecidableEq

end ClassAtlas

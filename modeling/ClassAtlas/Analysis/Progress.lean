/-!
How far a run has come.
-/

namespace ClassAtlas

structure Progress where
  current : Nat
  total : Nat
  message : String
  deriving Repr, DecidableEq

namespace Progress

/-- The part that is done in hundredths, as a double; nothing of nothing is zero. -/
def percentage (p : Progress) : Float :=
  if p.total = 0 then 0
  else p.current.toUInt64.toFloat / p.total.toUInt64.toFloat * 100

def item (current total : Nat) : Progress :=
  { current, total, message := s!"Processing item {current}/{total}" }

end Progress

end ClassAtlas

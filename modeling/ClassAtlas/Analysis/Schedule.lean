import ClassAtlas.Analysis.Progress

/-!
Working through a list of items, one after another or by several workers. A worker takes an item
through three moves: it computes the result, it raises the counter that all workers share, and it
reports the value it found there. The moves of different items may be mixed in any order; each
result goes to the place of its item.
-/

namespace ClassAtlas.Schedule

def sequential {α β : Type} (f : α → β) (items : List α) : List β × List Progress :=
  (items.map f, (List.range items.length).map fun i => Progress.item (i + 1) items.length)

inductive Stage (α β : Type) where
  | waiting (item : α)
  | computed (result : β)
  | counted (result : β) (current : Nat)
  | reported (result : β)
  deriving Repr, DecidableEq

def Stage.result? {α β : Type} : Stage α β → Option β
  | .reported result => some result
  | _ => none

/-- The stages of the items by place, the shared counter, and the updates in the order they were
issued. -/
structure Work (α β : Type) where
  stages : List (Stage α β)
  counter : Nat := 0
  updates : List Progress := []
  deriving Repr, DecidableEq

namespace Work

variable {α β : Type}

def start (items : List α) : Work α β :=
  { stages := items.map .waiting }

/-- The worker that has the item at a place makes its next move. Raising the counter and finding its
new value is one move, so no two workers find the same value. -/
def move (f : α → β) (work : Work α β) (place : Nat) : Work α β :=
  match work.stages[place]? with
  | some (.waiting item) => { work with stages := work.stages.set place (.computed (f item)) }
  | some (.computed result) =>
    { work with
      stages := work.stages.set place (.counted result (work.counter + 1))
      counter := work.counter + 1 }
  | some (.counted result current) =>
    { work with
      stages := work.stages.set place (.reported result)
      updates := work.updates ++ [Progress.item current work.stages.length] }
  | some (.reported _) => work
  | none => work

def results (work : Work α β) : List β :=
  work.stages.filterMap Stage.result?

end Work

def parallel {α β : Type} (order : List Nat) (f : α → β) (items : List α) :
    List β × List Progress :=
  let work := order.foldl (Work.move f) (Work.start items)
  (work.results, work.updates)

/-- Every item is taken through all its moves before the next one is begun. -/
def inTurn (count : Nat) : List Nat :=
  (List.range count).flatMap (List.replicate 3)

end ClassAtlas.Schedule

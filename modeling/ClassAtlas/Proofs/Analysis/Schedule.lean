import ClassAtlas.Analysis.Run
import ClassAtlas.Proofs.Outcome
import Mathlib.Data.List.Forall2
import Mathlib.Data.List.Perm.Basic

/-!
The work of several workers under every order of their moves. Each move keeps an invariant: the stage
at a place belongs to the item there, the counter tells how many items have been counted, and the
values that are held or reported are those from 1 up to the counter, each once. An order that gives
every item its three moves ends with all items reported, so nothing depends on the order.
-/

namespace ClassAtlas.Schedule

variable {α β : Type}

/-- Every one of `count` items is given all its moves. -/
def Complete (count : Nat) (order : List Nat) : Prop :=
  ∀ place < count, 3 ≤ order.count place

instance (count : Nat) (order : List Nat) : Decidable (Complete count order) :=
  inferInstanceAs (Decidable (∀ place < count, 3 ≤ order.count place))

theorem complete_inTurn (count : Nat) : Complete count (inTurn count) := by
  induction count with
  | zero =>
      intro place below
      cases below
  | succ count ih =>
      have grown : inTurn (count + 1) = inTurn count ++ List.replicate 3 count := by
        rw [inTurn, List.range_succ, List.flatMap_append, List.flatMap_singleton, inTurn]
      intro place below
      rw [grown, List.count_append]
      rcases Nat.lt_succ_iff_lt_or_eq.mp below with earlier | rfl
      · exact Nat.le_add_right_of_le (ih place earlier)
      · rw [List.count_replicate_self]
        exact Nat.le_add_left ..

namespace Stage

/-- The moves that have been made. -/
def rank : Stage α β → Nat
  | .waiting _ => 0
  | .computed _ => 1
  | .counted _ _ => 2
  | .reported _ => 3

/-- The value that was found at the counter and is still to be reported. -/
def held? : Stage α β → Option Nat
  | .counted _ current => some current
  | _ => none

/-- Whether the item has raised the counter. -/
def hasCounted (stage : Stage α β) : Bool :=
  2 ≤ stage.rank

/-- A stage of the work on `item`. -/
def Of (f : α → β) (item : α) : Stage α β → Prop
  | .waiting held => held = item
  | .computed result => result = f item
  | .counted result _ => result = f item
  | .reported result => result = f item

end Stage

namespace Work

/-- The moves that the item at a place has behind it; where there is no item, none is left. -/
def rankAt (work : Work α β) (place : Nat) : Nat :=
  (work.stages[place]?).elim 3 Stage.rank

/-- What a move can do to the work. -/
inductive Moves (f : α → β) : Work α β → Nat → Work α β → Prop where
  | idle {work : Work α β} {place : Nat} (done : work.rankAt place = 3) : Moves f work place work
  | compute {before after : List (Stage α β)} {item : α} {counter : Nat} {updates : List Progress} :
      Moves f ⟨before ++ .waiting item :: after, counter, updates⟩ before.length
        ⟨before ++ .computed (f item) :: after, counter, updates⟩
  | count {before after : List (Stage α β)} {result : β} {counter : Nat} {updates : List Progress} :
      Moves f ⟨before ++ .computed result :: after, counter, updates⟩ before.length
        ⟨before ++ .counted result (counter + 1) :: after, counter + 1, updates⟩
  | report {before after : List (Stage α β)} {result : β} {current counter : Nat}
      {updates : List Progress} :
      Moves f ⟨before ++ .counted result current :: after, counter, updates⟩ before.length
        ⟨before ++ .reported result :: after, counter,
          updates ++ [Progress.item current (before.length + (after.length + 1))]⟩

theorem moves_move (f : α → β) (work : Work α β) (place : Nat) :
    Moves f work place (work.move f place) := by
  obtain ⟨stages, counter, updates⟩ := work
  cases found : stages[place]? with
  | none =>
      have still : move f ⟨stages, counter, updates⟩ place = ⟨stages, counter, updates⟩ := by
        simp only [move, found]
      rw [still]
      exact .idle (by rw [rankAt, found, Option.elim_none])
  | some stage =>
      obtain ⟨before, after, rfl, rfl⟩ : ∃ before after, stages = before ++ stage :: after ∧
          before.length = place := by
        obtain ⟨inside, same⟩ := List.getElem?_eq_some_iff.mp found
        refine ⟨stages.take place, stages.drop (place + 1), ?_, ?_⟩
        · rw [← same, List.getElem_cons_drop, List.take_append_drop]
        · rw [List.length_take, Nat.min_eq_left (Nat.le_of_lt inside)]
      cases stage with
      | waiting item =>
          simp only [move, found, List.set_append_right _ _ Nat.le.refl, Nat.sub_self, List.set_cons_zero]
          exact .compute
      | computed result =>
          simp only [move, found, List.set_append_right _ _ Nat.le.refl, Nat.sub_self, List.set_cons_zero]
          exact .count
      | counted result current =>
          simp only [move, found, List.set_append_right _ _ Nat.le.refl, Nat.sub_self, List.set_cons_zero,
            List.length_append, List.length_cons]
          exact .report
      | reported result =>
          simp only [move, found]
          exact .idle (by rw [rankAt, found, Option.elim_some, Stage.rank])

/-- The invariant of the work on `items`. -/
structure Sound (f : α → β) (items : List α) (work : Work α β) : Prop where
  stages : List.Forall₂ (Stage.Of f) items work.stages
  counter : work.counter = work.stages.countP Stage.hasCounted
  values : (work.stages.filterMap Stage.held? ++ work.updates.map (·.current)).Perm
    (List.range' 1 work.counter)
  updates : ∀ update ∈ work.updates, update = Progress.item update.current items.length

theorem sound_start (f : α → β) (items : List α) : Sound f items (start items) := by
  refine ⟨?_, ?_, ?_, ?_⟩
  · rw [start, List.forall₂_map_right_iff]
    exact List.forall₂_same.mpr fun item _ => rfl
  · simp [start, List.countP_map, Function.comp_def, Stage.hasCounted, Stage.rank]
  · simp [start, List.filterMap_map, Function.comp_def, Stage.held?]
  · intro update member
    cases member

/-- Replacing one stage by another of the same item. -/
theorem forall₂_replaced {f : α → β} {items : List α} {before after : List (Stage α β)}
    {stage next : Stage α β} (stages : List.Forall₂ (Stage.Of f) items (before ++ stage :: after))
    (same : ∀ item, stage.Of f item → next.Of f item) :
    List.Forall₂ (Stage.Of f) items (before ++ next :: after) := by
  induction before generalizing items with
  | nil =>
      cases stages with
      | cons here rest => exact .cons (same _ here) rest
  | cons first before ih =>
      cases stages with
      | cons here rest => exact .cons here (ih rest)

theorem Sound.move {f : α → β} {items : List α} {work next : Work α β} {place : Nat}
    (sound : Sound f items work) (moved : Moves f work place next) : Sound f items next := by
  have total := sound.stages.length_eq
  obtain ⟨stages, counter, values, updates⟩ := sound
  cases moved with
  | idle done => exact ⟨stages, counter, values, updates⟩
  | compute =>
      refine ⟨forall₂_replaced stages ?_, ?_, ?_, updates⟩
      · rintro item rfl
        rfl
      · simpa [Stage.hasCounted, Stage.rank] using counter
      · simpa [List.filterMap_cons, Stage.held?] using values
  | @count before after result soFar issued =>
      refine ⟨forall₂_replaced stages fun item same => same, ?_, ?_, updates⟩
      · simp [Stage.hasCounted, Stage.rank] at counter ⊢
        omega
      · -- the new value comes right after those that are out already
        have out : (before.filterMap Stage.held? ++ (after.filterMap Stage.held? ++
            issued.map (·.current))).Perm (List.range' 1 soFar) := by
          simpa [List.filterMap_cons, Stage.held?] using values
        have next : List.range' 1 (soFar + 1) = List.range' 1 soFar ++ [soFar + 1] := by
          rw [List.range'_concat, Nat.one_mul, Nat.add_comm 1]
        rw [next]
        simp only [List.filterMap_append, List.filterMap_cons, Stage.held?, List.append_assoc,
          List.cons_append]
        exact List.perm_middle.trans
          ((List.Perm.cons _ out).trans (List.perm_append_singleton ..).symm)
  | @report before after result current counter issued =>
      refine ⟨forall₂_replaced stages fun item same => same, ?_, ?_, ?_⟩
      · simpa [Stage.hasCounted, Stage.rank] using counter
      · -- the value goes from the held ones to the reported ones
        refine List.Perm.trans ?_ values
        simp only [List.filterMap_append, List.filterMap_cons, Stage.held?, List.append_assoc,
          List.cons_append, List.map_append, List.map_cons, List.map_nil, Progress.item]
        refine List.Perm.append_left _ ?_
        rw [← List.append_assoc]
        exact List.perm_append_singleton ..
      · intro update member
        rcases List.mem_append.mp member with earlier | last
        · exact updates update earlier
        · obtain rfl := List.mem_singleton.mp last
          rw [total, List.length_append, List.length_cons]
          rfl

theorem sound_foldl (f : α → β) (items : List α) (order : List Nat) {work : Work α β}
    (sound : Sound f items work) : Sound f items (order.foldl (Work.move f) work) := by
  induction order generalizing work with
  | nil => exact sound
  | cons place order ih => exact ih (sound.move (moves_move f work place))

theorem rankAt_le (work : Work α β) (place : Nat) : work.rankAt place ≤ 3 := by
  unfold rankAt
  rcases work.stages[place]? with _ | (_ | _ | _ | _)
  all_goals simp only [Option.elim, Stage.rank, Nat.le_refl, Nat.reduceLeDiff]

theorem rankAt_elsewhere (before after : List (Stage α β)) (stage next : Stage α β) {place : Nat}
    (elsewhere : place ≠ before.length) {counter counterAfter : Nat}
    {updates updatesAfter : List Progress} :
    rankAt ⟨before ++ next :: after, counterAfter, updatesAfter⟩ place =
      rankAt ⟨before ++ stage :: after, counter, updates⟩ place := by
  have replaced : before ++ next :: after = (before ++ stage :: after).set before.length next := by
    rw [List.set_append_right _ _ Nat.le.refl, Nat.sub_self, List.set_cons_zero]
  simp only [rankAt]
  rw [replaced, List.getElem?_set_ne (Ne.symm elsewhere)]

/-- A move takes the item at its place one stage further, unless it is reported, and no other. -/
theorem rankAt_move {f : α → β} {work next : Work α β} {place : Nat} (moved : Moves f work place next)
    (other : Nat) :
    next.rankAt other = min 3 (work.rankAt other + [place].count other) := by
  by_cases here : other = place
  · rw [here, List.count_singleton_self]
    cases moved with
    | idle done => rw [done, Nat.min_eq_left (Nat.le_succ 3)]
    | compute => simp [rankAt, Stage.rank]
    | count => simp [rankAt, Stage.rank]
    | report => simp [rankAt, Stage.rank]
  · have uncounted : [place].count other = 0 := List.count_eq_zero.mpr (by simpa using here)
    rw [uncounted, Nat.add_zero, Nat.min_eq_right (rankAt_le work other)]
    cases moved with
    | idle done => rfl
    | compute => exact rankAt_elsewhere _ _ _ _ here
    | count => exact rankAt_elsewhere _ _ _ _ here
    | report => exact rankAt_elsewhere _ _ _ _ here

theorem rankAt_foldl (f : α → β) (order : List Nat) (work : Work α β) (place : Nat) :
    (order.foldl (Work.move f) work).rankAt place =
      min 3 (work.rankAt place + order.count place) := by
  induction order generalizing work with
  | nil => rw [List.count_nil, Nat.add_zero, Nat.min_eq_right (rankAt_le work place), List.foldl_nil]
  | cons first order ih =>
      have counted : (first :: order).count place = [first].count place + order.count place := by
        rw [← List.count_append, List.singleton_append]
      rw [List.foldl_cons, ih, rankAt_move (moves_move f work first), counted]
      omega

/-- Where no moves are left, every item is reported with its own result. -/
theorem Sound.reported {f : α → β} {items : List α} {work : Work α β} (sound : Sound f items work)
    (done : ∀ place < items.length, work.rankAt place = 3) :
    work.stages = items.map fun item => .reported (f item) := by
  obtain ⟨total, belongs⟩ := List.forall₂_iff_get.mp sound.stages
  apply List.ext_getElem
  · rw [List.length_map, total]
  · intro place inside insideItems
    rw [List.length_map] at insideItems
    rw [List.getElem_map]
    have ranked := done place insideItems
    have ofItem := belongs place insideItems inside
    rw [rankAt, List.getElem?_eq_getElem inside, Option.elim_some] at ranked
    rw [List.get_eq_getElem, List.get_eq_getElem] at ofItem
    cases stage : work.stages[place] with
    | reported result =>
        rw [stage] at ofItem
        exact congrArg Stage.reported ofItem
    | waiting item => rw [stage] at ranked; cases ranked
    | computed result => rw [stage] at ranked; cases ranked
    | counted result current => rw [stage] at ranked; cases ranked

end Work

section Outcome

variable (f : α → β) (items : List α) {order : List Nat}

/-- The work after a complete order: all items reported, and every value from 1 to their number
reported once. -/
theorem work_of_complete (complete : Complete items.length order) :
    (order.foldl (Work.move f) (Work.start items)).stages = items.map (fun item => .reported (f item)) ∧
      ((order.foldl (Work.move f) (Work.start items)).updates.map (·.current)).Perm
        (List.range' 1 items.length) := by
  have sound := Work.sound_foldl f items order (Work.sound_start f items)
  have finished := sound.reported fun place inside => by
    rw [Work.rankAt_foldl]
    have moves := complete place inside
    omega
  refine ⟨finished, ?_⟩
  have counter := sound.counter
  have values := sound.values
  simp only [finished, List.countP_map, List.filterMap_map, Function.comp_def] at counter values
  simp [Stage.hasCounted, Stage.rank, Stage.held?] at counter values
  rwa [counter] at values

theorem parallel_results (complete : Complete items.length order) :
    (parallel order f items).1 = items.map f := by
  have finished := (work_of_complete f items complete).1
  simp only [parallel, Work.results, finished, List.filterMap_map]
  exact congrFun List.filterMap_eq_map items

/-- The same updates are issued, in some order. -/
theorem parallel_updates (complete : Complete items.length order) :
    (parallel order f items).2.Perm (sequential f items).2 := by
  have sound := Work.sound_foldl f items order (Work.sound_start f items)
  have values := (work_of_complete f items complete).2
  have issued : (parallel order f items).2 =
      ((parallel order f items).2.map (·.current)).map (Progress.item · items.length) := by
    rw [List.map_map, eq_comm]
    conv => rhs; rw [← List.map_id (parallel order f items).2]
    exact List.map_congr_left fun update member => (sound.updates update member).symm
  have expected : (sequential f items).2 =
      (List.range' 1 items.length).map (Progress.item · items.length) := by
    rw [sequential, List.range'_eq_map_range, List.map_map]
    exact List.map_congr_left fun i _ => by rw [Function.comp_apply, Nat.add_comm]
  rw [issued, expected]
  exact values.map _

end Outcome

end ClassAtlas.Schedule

namespace ClassAtlas.Analysis

open Schedule

/-- The outcomes of the entries do not depend on the workers. -/
theorem process_outcomes {order : List Nat} {entries : List Entry}
    (complete : Complete entries.length order) (w : World) (s : Settings) :
    (process order w s entries).1 =
      entries.map (recordOf w (entries.map (·.name)) s.platformPrefixes) := by
  unfold process
  split
  · exact parallel_results _ entries complete
  · rfl

/-- What a report says of the entries, with the workers out of sight. -/
theorem reportOn_results {order : List Nat} {entries : List Entry}
    (complete : Complete entries.length order) (w : World) (s : Settings)
    (rules : List ResourceRule) (noted : Results) :
    (reportOn order w s rules entries noted).map (·.results) =
      ((entries.zip (entries.map (recordOf w (entries.map (·.name)) s.platformPrefixes))).foldlM
        (addOutcome s.skipMalformed) noted).map (conclude w rules) := by
  rw [← process_outcomes complete w s]
  dsimp only [reportOn]
  cases (entries.zip (process order w s entries).1).foldlM (addOutcome s.skipMalformed) noted <;> rfl

theorem workers_equal_one_by_one :
    (∀ {α β : Type} (f : α → β) (items : List α) (order : List Nat), Complete items.length order →
      (parallel order f items).1 = items.map f ∧
      (sequential f items).1 = items.map f ∧
      (parallel order f items).2.length = items.length ∧
      ((parallel order f items).2.map (·.current)).Perm (List.range' 1 items.length) ∧
      (parallel order f items).2.Perm (sequential f items).2) ∧
    (∀ (schedule : Nat → List Nat) (w : World) (s : Settings) (rules : List ResourceRule),
      (∀ count, Complete count (schedule count)) →
      (runIn schedule w { s with parallel := true } rules).map (·.results) =
        (runIn schedule w { s with parallel := false } rules).map (·.results)) := by
  constructor
  · intro α β f items order complete
    have updates := parallel_updates f items complete
    refine ⟨parallel_results f items complete, rfl, ?_, (work_of_complete f items complete).2, updates⟩
    rw [updates.length_eq, sequential, List.length_map, List.length_range]
  · intro schedule w s rules complete
    unfold runIn
    split
    · rfl
    · -- the entries are discovered alike, whether there are workers or not
      change Except.map _ (discover w s rules _ >>= _) = Except.map _ (discover w s rules _ >>= _)
      cases discover w s rules { inputPath := s.inputPath, analysisDate := w.now } with
      | error halt => rfl
      | ok found =>
          have one := reportOn_results (complete found.1.length) w { s with parallel := true } rules found.2
          have other := reportOn_results (complete found.1.length) w { s with parallel := false } rules found.2
          have same := congrArg (liftM : Except Failure Results → Except Halt Results)
            (one.trans other.symm)
          exact (map_liftM _ _).trans (same.trans (map_liftM _ _).symm)

/-- Two workers whose moves cross, so that the second update is reported first. -/
theorem crossing_workers :
    Complete 2 [0, 1, 1, 0, 0, 1] ∧
      (parallel [0, 1, 1, 0, 0, 1] (· + 10) [5, 6]).1 = [15, 16] ∧
      ((parallel [0, 1, 1, 0, 0, 1] (· + 10) [5, 6]).2.map (·.current)).Perm [1, 2] ∧
      (runIn inTurn {} { parallel := true } []).map (·.results) =
        (runIn inTurn {} { parallel := false } []).map (·.results) := by
  have complete : Complete 2 [0, 1, 1, 0, 0, 1] := by decide
  have crossing := workers_equal_one_by_one.1 (· + 10) [5, 6] [0, 1, 1, 0, 0, 1] complete
  exact ⟨complete, crossing.1, crossing.2.2.2.1,
    workers_equal_one_by_one.2 inTurn {} {} [] complete_inTurn⟩

end ClassAtlas.Analysis

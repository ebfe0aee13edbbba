import ClassAtlas.Failure

/-!
Outcomes of computations that may fail.
-/

namespace ClassAtlas

theorem bind_eq_ok_iff {ε α β : Type} {x : Except ε α} {f : α → Except ε β}
    {b : β} : (x >>= f) = .ok b ↔ ∃ a, x = .ok a ∧ f a = .ok b := by
  cases x with
  | error e =>
      constructor
      · intro wrong
        cases wrong
      · rintro ⟨a, wrong, -⟩
        cases wrong
  | ok a =>
      constructor
      · intro ran
        exact ⟨a, rfl, ran⟩
      · rintro ⟨_, same, ran⟩
        cases same
        exact ran

theorem bind_unit_eq_ok_iff {ε β : Type} {x : Except ε Unit} {f : Unit → Except ε β} {b : β} :
    (x >>= f) = .ok b ↔ x = .ok () ∧ f () = .ok b := by
  rw [bind_eq_ok_iff]
  constructor
  · rintro ⟨⟨⟩, ran, rest⟩
    exact ⟨ran, rest⟩
  · rintro ⟨ran, rest⟩
    exact ⟨(), ran, rest⟩

theorem bind_eq_error_iff {ε α β : Type} {x : Except ε α} {f : α → Except ε β} {e : ε} :
    (x >>= f) = .error e ↔ x = .error e ∨ ∃ a, x = .ok a ∧ f a = .error e := by
  cases x with
  | error cause =>
      constructor
      · intro failed
        cases failed
        exact .inl rfl
      · rintro (same | ⟨a, wrong, -⟩)
        · cases same
          rfl
        · cases wrong
  | ok a =>
      constructor
      · intro failed
        exact .inr ⟨a, rfl, failed⟩
      · rintro (wrong | ⟨_, same, failed⟩)
        · cases wrong
        · cases same
          exact failed

theorem mapError_eq_ok_iff {ε δ α : Type} {f : ε → δ} {x : Except ε α} {a : α} :
    x.mapError f = .ok a ↔ x = .ok a := by
  cases x with
  | error e =>
      constructor
      · intro wrong
        cases wrong
      · intro wrong
        cases wrong
  | ok value =>
      change Except.ok value = .ok a ↔ _
      rw [Except.ok.injEq, Except.ok.injEq]

section Halts

variable {α β : Type}

theorem liftM_eq_ok_iff {x : Except Failure α} {a : α} :
    (liftM x : Except Halt α) = .ok a ↔ x = .ok a :=
  mapError_eq_ok_iff

theorem liftM_eq_error_iff {x : Except Failure α} {failure : Failure} :
    (liftM x : Except Halt α) = .error (.failure failure) ↔ x = .error failure := by
  cases x with
  | ok value =>
      constructor
      · intro wrong
        cases wrong
      · intro wrong
        cases wrong
  | error e =>
      constructor
      · intro same
        cases same
        rfl
      · intro same
        cases same
        rfl

theorem map_liftM (f : α → β) (x : Except Failure α) :
    (liftM x : Except Halt α).map f = liftM (x.map f) := by
  cases x <;> rfl

end Halts

theorem forM_eq_ok_iff {ε α : Type} {f : α → Except ε Unit} {items : List α} :
    items.forM f = .ok () ↔ ∀ item ∈ items, f item = .ok () := by
  induction items with
  | nil => exact ⟨fun _ _ member => (List.not_mem_nil member).elim, fun _ => rfl⟩
  | cons first rest ih =>
      rw [List.forM, bind_unit_eq_ok_iff, List.forall_mem_cons, ih]

theorem mem_of_mapM_eq_ok {ε α β : Type} {f : α → Except ε β} {items : List α} {results : List β}
    (ran : items.mapM f = .ok results) {b : β} : b ∈ results ↔ ∃ a ∈ items, f a = .ok b := by
  induction items generalizing results with
  | nil =>
      cases ran
      simp
  | cons first rest ih =>
      rw [List.mapM_cons] at ran
      obtain ⟨here, ranFirst, ranMore⟩ := bind_eq_ok_iff.mp ran
      obtain ⟨later, ranRest, same⟩ := bind_eq_ok_iff.mp ranMore
      cases same
      have found : f first = .ok b ↔ b = here := by
        rw [ranFirst, Except.ok.injEq, eq_comm]
      simp only [List.mem_cons, ih ranRest, exists_eq_or_imp, found]

theorem optionForM_eq_ok_iff {ε α : Type} {f : α → Except ε Unit} {item : Option α} :
    item.forM f = .ok () ↔ ∀ a ∈ item, f a = .ok () := by
  cases item with
  | none => exact ⟨fun _ _ member => (nomatch member), fun _ => rfl⟩
  | some a => exact ⟨fun ran _ same => Option.some.inj same ▸ ran, fun ran => ran a rfl⟩

end ClassAtlas

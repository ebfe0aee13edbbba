import ClassAtlas.Proofs.Descriptor.Indexed

/-!
What every reader does to its scanner, whether it succeeds or fails. It adds names behind those that are
there and never looks at them, and its offset keeps count of the bytes it takes. Both pass from the steps
of a scan to the whole of it.
-/

namespace ClassAtlas.Descriptor

/-- The scanner with `buffer` before the names it holds. -/
def Scanner.behind (buffer : List String) (s : Scanner) : Scanner :=
  { s with names := buffer ++ s.names }

/-- A scan that only appends to its names, whatever they are, and whose offset counts the bytes that it
takes from the text. -/
structure Steady {α : Type} (m : Scan α) : Prop where
  appends (buffer : List String) (s : Scanner) :
    outcome m (s.behind buffer) = ((outcome m s).1, (outcome m s).2.behind buffer)
  advances (s : Scanner) : ∃ taken, s.rest = taken ++ (outcome m s).2.rest ∧
    (outcome m s).2.offset = s.offset + utf8Length taken

namespace Steady

variable {α β : Type}

theorem bind {m : Scan α} {f : α → Scan β} (first : Steady m) (second : ∀ a, Steady (f a)) :
    Steady (m >>= f) := by
  constructor
  · intro buffer s
    rw [outcome_bind, outcome_bind, first.appends]
    rcases outcome m s with ⟨e | a, t⟩
    · rfl
    · exact (second a).appends buffer t
  · intro s
    obtain ⟨front, split, moved⟩ := first.advances s
    rw [outcome_bind]
    rcases ran : outcome m s with ⟨e | a, t⟩ <;> rw [ran] at split moved
    · exact ⟨front, split, moved⟩
    · obtain ⟨back, splitMore, movedMore⟩ := (second a).advances t
      refine ⟨front ++ back, ?_, ?_⟩
      · rw [split, List.append_assoc]
        exact congrArg (front ++ ·) splitMore
      · rw [Indexed.utf8Length_append, ← Nat.add_assoc, ← moved]
        exact movedMore

theorem pure (a : α) : Steady (Pure.pure a) :=
  ⟨fun _ _ => rfl, fun _ => ⟨[], rfl, rfl⟩⟩

theorem throw (e : Error) : Steady (MonadExcept.throw e : Scan α) :=
  ⟨fun _ _ => rfl, fun _ => ⟨[], rfl, rfl⟩⟩

theorem ite {c : Prop} [Decidable c] {yes no : Scan α} (first : Steady yes) (second : Steady no) :
    Steady (if c then yes else no) := by
  by_cases holds : c
  · rwa [if_pos holds]
  · rwa [if_neg holds]

/-- A scan that looks where it stands, but not at the names. -/
theorem get {f : Scanner → Scan α} (blind : ∀ buffer s, f (s.behind buffer) = f s)
    (after : ∀ s, Steady (f s)) : Steady (MonadState.get >>= f) := by
  refine ⟨fun buffer s => ?_, fun s => (after s).advances s⟩
  change outcome (f (s.behind buffer)) _ = _
  rw [blind]
  exact (after s).appends buffer s

theorem failAtEnd : Steady (Descriptor.failAtEnd : Scan α) :=
  get (fun _ _ => rfl) fun _ => throw _

theorem failAtTextEnd : Steady (Descriptor.failAtTextEnd : Scan α) :=
  get (fun _ _ => rfl) fun _ => throw _

theorem peek? : Steady Descriptor.peek? :=
  ⟨fun _ _ => rfl, fun _ => ⟨[], rfl, rfl⟩⟩

theorem addName (name : List Char) : Steady (Descriptor.addName name) := by
  refine ⟨fun buffer s => ?_, fun _ => ⟨[], rfl, rfl⟩⟩
  change ((_, _) : Except Error Unit × Scanner) = (_, _)
  simp only [Scanner.behind, List.append_assoc]
  rfl

theorem next? : Steady Descriptor.next? := by
  constructor
  · rintro buffer ⟨_ | ⟨c, rest⟩, offset, names⟩ <;> rfl
  · rintro ⟨_ | ⟨c, rest⟩, offset, names⟩
    · exact ⟨[], rfl, rfl⟩
    · exact ⟨[c], rfl, rfl⟩

theorem next : Steady Descriptor.next :=
  next?.bind fun found => by
    cases found with
    | none => exact failAtEnd
    | some found => exact pure found

theorem discardNext : Steady (discard Descriptor.next) :=
  next.bind fun _ => pure ()

theorem takeUntil? (stops : List Char) : Steady (Descriptor.takeUntil? stops) := by
  constructor
  · intro buffer s
    rcases free_or_exists_segment stops s.rest with free | ⟨name, c, tail, stop, split⟩
    · rw [outcome_takeUntil?_none free]
      exact outcome_takeUntil?_none (s := s.behind buffer) free
    · rw [outcome_takeUntil? name stop split]
      exact outcome_takeUntil? (s := s.behind buffer) name stop split
  · intro s
    rcases free_or_exists_segment stops s.rest with free | ⟨name, c, tail, stop, split⟩
    · rw [outcome_takeUntil?_none free]
      exact ⟨[], rfl, rfl⟩
    · rw [outcome_takeUntil? name stop split]
      exact ⟨name.text, split, rfl⟩

theorem typeVariable : Steady Descriptor.typeVariable :=
  (takeUntil? [';']).bind fun found => by
    cases found with
    | none => exact failAtTextEnd
    | some name => exact discardNext

end Steady

/-- The readers that call each other. -/
structure SteadyTypes (bound : Nat) : Prop where
  type (first : Char) (start : Nat) : Steady (typeFrom bound first start)
  suffixes (start : Nat) (name : List Char) : Steady (classSuffixes bound start name)
  arguments : Steady (typeArguments bound)

section Readers

variable {bound : Nat}

theorem SteadyTypes.type_step (ih : SteadyTypes bound) (first : Char) (start : Nat) :
    Steady (typeFrom (bound + 1) first start) := by
  rw [typeFrom]
  refine .ite (.pure ()) (.ite ?array (.ite ?classType (.ite .typeVariable (.throw _))))
  case array => exact Steady.next.bind fun found => ih.type found.1 found.2
  case classType =>
    refine (Steady.takeUntil? nameStops).bind fun found => ?_
    rcases found with _ | _ | ⟨c, name⟩
    · exact .throw _
    · exact .throw _
    · exact (Steady.addName _).bind fun _ => ih.suffixes start _

theorem SteadyTypes.suffixes_step (ih : SteadyTypes bound) (start : Nat) (name : List Char) :
    Steady (classSuffixes (bound + 1) start name) := by
  rw [classSuffixes]
  refine Steady.next?.bind fun found => ?_
  cases found with
  | none => exact .throw _
  | some found =>
      refine .ite (.pure ()) (.ite ?arguments (.ite ?inner (.throw _)))
      case arguments => exact ih.arguments.bind fun _ => ih.suffixes start name
      case inner =>
        refine (Steady.takeUntil? nameStops).bind fun found => ?_
        cases found with
        | none => exact .throw _
        | some inner => exact (Steady.addName _).bind fun _ => ih.suffixes start _

theorem SteadyTypes.arguments_step (ih : SteadyTypes bound) : Steady (typeArguments (bound + 1)) := by
  rw [typeArguments]
  have more (first : Char) (start : Nat) :
      Steady (typeFrom bound first start >>= fun _ => typeArguments bound) :=
    (ih.type first start).bind fun _ => ih.arguments
  refine Steady.next.bind fun found => .ite (.pure ()) (.ite ih.arguments (.ite ?_ (more _ _)))
  exact Steady.next.bind fun found => more _ _

theorem steadyTypes (bound : Nat) : SteadyTypes bound := by
  induction bound with
  | zero => exact ⟨fun _ _ => .failAtEnd, fun _ _ => .throw _, .failAtEnd⟩
  | succ bound ih => exact ⟨ih.type_step, ih.suffixes_step, ih.arguments_step⟩

theorem steady_typeBounds (bound : Nat) : Steady (typeBounds bound) := by
  induction bound with
  | zero => exact .pure ()
  | succ bound ih =>
      rw [typeBounds]
      refine Steady.peek?.bind fun found => .ite ?_ (.pure ())
      refine Steady.discardNext.bind fun _ => Steady.peek?.bind fun opens => .ite ?_ ih
      refine Steady.next.bind fun found => ?_
      exact ((steadyTypes bound).type found.1 found.2).bind fun _ => ih

theorem steady_formalParameters (bound : Nat) : Steady (formalParameters bound) := by
  induction bound with
  | zero => exact .failAtEnd
  | succ bound ih =>
      rw [formalParameters]
      refine .get (fun _ _ => rfl) fun s => Steady.peek?.bind fun found => ?_
      split
      case h_1 => exact .failAtEnd
      case h_2 => exact .discardNext
      case h_3 first _ =>
        refine (Steady.takeUntil? [':']).bind fun found => ?_
        cases found with
        | none => exact .failAtTextEnd
        | some name => exact .ite (.throw _) ((steady_typeBounds bound).bind fun _ => ih)

theorem steady_items (bound : Nat) : Steady (items bound) := by
  induction bound with
  | zero => exact .pure ()
  | succ bound ih =>
      rw [items]
      refine Steady.next?.bind fun found => ?_
      cases found with
      | none => exact .pure ()
      | some found =>
          refine .ite ((steady_formalParameters bound).bind fun _ => ih) (.ite ?_ ih)
          exact ((steadyTypes bound).type found.1 found.2).bind fun _ => ih

end Readers

end ClassAtlas.Descriptor

import ClassAtlas.CommandLine.Execute
import ClassAtlas.Proofs.Outcome

/-!
What a command that succeeds has done: each of its parts has succeeded, one after the other, and the
world of one is where the next one starts.
-/

namespace ClassAtlas.CommandLine

section

variable {α β : Type} {e e' : Effects}

/-- An action that succeeds does so with each of its parts. -/
theorem run_bind_eq_ok_iff {x : Action α} {f : α → Action β} {b : β} :
    (x >>= f).run.run e = (.ok b, e') ↔
      ∃ a between, x.run.run e = (.ok a, between) ∧ (f a).run.run between = (.ok b, e') := by
  rw [ExceptT.run_bind, StateT.run_bind]
  cases ran : x.run.run e with
  | mk result between =>
    cases result with
    | ok a =>
      constructor
      · intro rest
        exact ⟨a, between, rfl, rest⟩
      · rintro ⟨_, _, same, rest⟩
        cases same
        exact rest
    | error failure =>
      constructor
      · intro failed
        cases failed
      · rintro ⟨_, _, same, _⟩
        cases same

/-- An action ends with its first part that fails. -/
theorem run_bind_of_error {x : Action α} {halt : Halt}
    (failed : x.run.run e = (.error halt, e')) (f : α → Action β) :
    (x >>= f).run.run e = (.error halt, e') := by
  rw [ExceptT.run_bind, StateT.run_bind, failed]
  rfl

theorem run_bind_of_ok {x : Action α} {a : α} (ran : x.run.run e = (.ok a, e'))
    (f : α → Action β) : (x >>= f).run.run e = (f a).run.run e' := by
  rw [ExceptT.run_bind, StateT.run_bind, ran]
  rfl

/-- A result that is given leaves everything as it was. -/
theorem run_given_eq_ok_iff {x : Except Halt α} {a : α} :
    (liftM x : Action α).run.run e = (.ok a, e') ↔ x = .ok a ∧ e' = e := by
  have ran : (liftM x : Action α).run.run e = (x, e) := rfl
  rw [ran, Prod.mk.injEq, eq_comm (a := e)]

theorem run_attempt_eq_ok_iff {x : Except Failure α} {a : α} :
    (liftM x : Action α).run.run e = (.ok a, e') ↔ x = .ok a ∧ e' = e := by
  have given := @run_given_eq_ok_iff α e e' (liftM x) a
  rwa [liftM_eq_ok_iff] at given

end

section

variable {runner : Process.Runner} {s : Settings} {results : Results} {e e' : Effects}

theorem writeReport_cases (ran : (writeReport s results).run.run e = (.ok (), e')) :
    ∃ out, (Report.Target.ofPath? s.reportFile).write e.world
      (Report.format s.reportFormat (reportStyle s) results) = .ok (e'.world, out) := by
  unfold writeReport at ran
  obtain ⟨here, _, got, wroteAndSet⟩ := run_bind_eq_ok_iff.mp ran
  cases got
  obtain ⟨⟨written, out⟩, _, attempted, setAndPrinted⟩ := run_bind_eq_ok_iff.mp wroteAndSet
  obtain ⟨wrote, rfl⟩ := run_attempt_eq_ok_iff.mp attempted
  obtain ⟨_, _, set, printed⟩ := run_bind_eq_ok_iff.mp setAndPrinted
  cases set
  cases printed
  exact ⟨out, wrote⟩

theorem drawGraph_cases {image : String}
    (ran : (drawGraph runner s results image).run.run e = (.ok (), e')) :
    ∃ style exported, Graph.exportGraph e.world style results.records results.packages image
      (rendererOf runner s) = .ok exported ∧ e'.world = exported.world := by
  unfold drawGraph at ran
  obtain ⟨here, _, got, afterGet⟩ := run_bind_eq_ok_iff.mp ran
  cases got
  obtain ⟨legends, _, loaded, afterLoad⟩ := run_bind_eq_ok_iff.mp afterGet
  obtain ⟨_, rfl⟩ := run_attempt_eq_ok_iff.mp loaded
  obtain ⟨again, _, gotAgain, afterGetAgain⟩ := run_bind_eq_ok_iff.mp afterLoad
  cases gotAgain
  obtain ⟨exported, _, attempted, afterExport⟩ := run_bind_eq_ok_iff.mp afterGetAgain
  obtain ⟨drawn, rfl⟩ := run_attempt_eq_ok_iff.mp attempted
  obtain ⟨_, _, set, told⟩ := run_bind_eq_ok_iff.mp afterExport
  cases set
  refine ⟨_, exported, drawn, ?_⟩
  split at told
  case isTrue =>
    cases told
    rfl
  case isFalse =>
    cases told
    rfl

/-- A graph that cannot be exported leaves everything as it was. -/
theorem drawGraph_of_refused {image : String} (refused : ∀ style, ∃ failure,
      Graph.exportGraph e.world style results.records results.packages image (rendererOf runner s) =
        .error failure) :
    ∃ failure, (drawGraph runner s results image).run.run e = (.error (.failure failure), e) := by
  have got : (get : Action Effects).run.run e = (.ok e, e) := rfl
  unfold drawGraph
  rw [run_bind_of_ok got]
  cases loaded : legends e.world s with
  | error failure =>
    refine ⟨failure, run_bind_of_error ?_ _⟩
    rfl
  | ok found =>
    obtain ⟨failure, failed⟩ := refused { includeExternal := s.includeExternal, legends := found }
    have attempted : (liftM (.ok found : Except Failure (List Graph.Legend)) :
      Action (List Graph.Legend)).run.run e = (.ok found, e) := rfl
    refine ⟨failure, ?_⟩
    rw [run_bind_of_ok attempted]
    dsimp only
    rw [run_bind_of_ok got, failed]
    apply run_bind_of_error
    rfl

/-- The steps of an analysis that succeeds: the report is written, and then the graph is drawn. -/
theorem analyze_cases {request : Request}
    (ran : (analyze runner request).run.run e = (.ok (), e')) :
    ∃ s outcome written out, Settings.load e.world request Settings.defaultStem = .ok s ∧
      Analysis.run e.world s (Analysis.rulesOf s []) = .ok outcome ∧
      (Report.Target.ofPath? s.reportFile).write e.world
        (Report.format s.reportFormat (reportStyle s) outcome.results) = .ok (written, out) ∧
      (s.outputFile = none ∧ e'.world = written ∨
        ∃ image style exported, s.outputFile = some image ∧
          Graph.exportGraph written style outcome.results.records outcome.results.packages image
            (rendererOf runner s) = .ok exported ∧ e'.world = exported.world) := by
  unfold analyze at ran
  obtain ⟨here, _, got, afterGet⟩ := run_bind_eq_ok_iff.mp ran
  cases got
  obtain ⟨s, _, attemptedLoad, afterLoad⟩ := run_bind_eq_ok_iff.mp afterGet
  obtain ⟨loaded, rfl⟩ := run_attempt_eq_ok_iff.mp attemptedLoad
  obtain ⟨outcome, _, attemptedRun, afterRun⟩ := run_bind_eq_ok_iff.mp afterLoad
  obtain ⟨analyzed, rfl⟩ := run_given_eq_ok_iff.mp attemptedRun
  obtain ⟨_, between, reported, rest⟩ := run_bind_eq_ok_iff.mp afterRun
  obtain ⟨out, wrote⟩ := writeReport_cases reported
  refine ⟨s, outcome, between.world, out, loaded, analyzed, wrote, ?_⟩
  cases output : s.outputFile with
  | none =>
    rw [output] at rest
    cases rest
    exact .inl ⟨rfl, rfl⟩
  | some image =>
    rw [output] at rest
    obtain ⟨style, exported, drawn, same⟩ := drawGraph_cases rest
    exact .inr ⟨image, style, exported, rfl, drawn, same⟩

end

end ClassAtlas.CommandLine

import ClassAtlas.CommandLine.Parse
import ClassAtlas.Proofs.Outcome

/-!
Reading a command line sets one option at a time, so that a property of requests which every single
option keeps holds of whatever is read.
-/

namespace ClassAtlas.CommandLine

/-- A property of requests that setting an option keeps. -/
structure Kept (P : Request → Prop) : Prop where
  flag {r : Request} (argument : Argument) (holds : P r) : P (r.setFlag argument)
  value {r after : Request} {argument : Argument} {text : String} (holds : P r)
    (set : r.setValue argument text = .ok after) : P after

namespace Kept

variable {P : Request → Prop} {state after : State} {argument : Argument}

theorem note (holds : P state.request) (noted : state.note argument = .ok after) :
    P after.request := by
  unfold State.note at noted
  split at noted
  case isTrue => cases noted
  case isFalse =>
    cases noted
    exact holds

theorem setValue (kept : Kept P) {text : String} (holds : P state.request)
    (set : state.setValue argument text = .ok after) : P after.request := by
  obtain ⟨noted, took, rest⟩ := bind_eq_ok_iff.mp set
  obtain ⟨request, changed, same⟩ := bind_eq_ok_iff.mp rest
  cases same
  exact kept.value (note holds took) changed

theorem settle (kept : Kept P) (holds : P state.request) (settled : state.settle = .ok after) :
    P after.request := by
  unfold State.settle at settled
  split at settled
  case h_1 =>
    cases settled
    exact holds
  case h_2 => cases settled
  case h_3 =>
    have settling : P { state with pending := none }.request := holds
    exact kept.setValue settling settled

theorem setFlag (kept : Kept P) (holds : P state.request)
    (set : state.setFlag argument = .ok after) : P after.request := by
  obtain ⟨settled, ran, rest⟩ := bind_eq_ok_iff.mp set
  have between := kept.settle holds ran
  split at rest
  case h_1 => cases rest
  case h_2 => cases rest
  case h_3 =>
    obtain ⟨noted, took, same⟩ := bind_eq_ok_iff.mp rest
    cases same
    exact kept.flag argument (note between took)

theorem openOption (kept : Kept P) {attached : Option String} (holds : P state.request)
    (opened : state.openOption argument attached = .ok after) : P after.request := by
  obtain ⟨settled, ran, rest⟩ := bind_eq_ok_iff.mp opened
  have between := kept.settle holds ran
  cases attached with
  | some text => exact kept.setValue between rest
  | none =>
      cases rest
      exact between

theorem long (kept : Kept P) {name : String} {attached : Option String} (holds : P state.request)
    (read : state.long name attached = .ok after) : P after.request := by
  unfold State.long at read
  split at read
  case h_1 => cases read
  case h_2 =>
    split at read
    case isTrue => exact kept.openOption holds read
    case isFalse =>
      split at read
      case isTrue => cases read
      case isFalse => exact kept.setFlag holds read

theorem short (kept : Kept P) (letters : List Char) {state : State} (holds : P state.request)
    (read : state.short letters = .ok after) : P after.request := by
  induction letters generalizing state with
  | nil =>
      cases read
      exact holds
  | cons letter letters ih =>
      unfold State.short at read
      split at read
      case h_1 => cases read
      case h_2 =>
        split at read
        case isTrue => exact kept.openOption holds read
        case isFalse =>
          split at read
          case h_1 set => exact ih (kept.setFlag holds set) read
          case h_2 => cases read

theorem plain {text : String} (holds : P state.request)
    (read : state.plain text = .ok after) : P after.request := by
  unfold State.plain at read
  split at read
  case h_1 =>
    cases read
    exact holds
  case h_2 => cases read

theorem word (kept : Kept P) {text : String} (holds : P state.request)
    (read : state.word text = .ok after) : P after.request := by
  unfold State.word at read
  split at read
  case h_1 =>
    split at read
    case h_1 => exact kept.long holds read
    case h_2 => exact kept.long holds read
  case h_2 => exact plain holds read
  case h_3 => exact kept.short _ holds read
  case h_4 => exact plain holds read

theorem words (kept : Kept P) (texts : List String) {state : State} (holds : P state.request)
    (read : state.words texts = .ok after) : P after.request := by
  fun_induction State.words state texts with
  | case1 state | case2 state =>
      cases read
      exact holds
  | case3 => cases read
  | case4 state text rest _ next taken ih => exact ih (kept.word holds taken) read
  | case5 => cases read

theorem parse (kept : Kept P) (initial : P {}) {args : List String} {request : Request}
    (parsed : parse args = .ok request) : P request := by
  obtain ⟨taken, read, rest⟩ := bind_eq_ok_iff.mp parsed
  obtain ⟨settled, ran, final⟩ := bind_eq_ok_iff.mp rest
  have holds := kept.settle (kept.words args initial read) ran
  split at final
  case isTrue => cases final
  case isFalse =>
    cases final
    exact holds

end Kept

end ClassAtlas.CommandLine

import ClassAtlas.Proofs.FileSystem.Resolution

/-!
What a change of the tree does to the ways of other paths. Writing a file leaves every path that can
be written leading where it led. Removing a file or a link can take a path its way only at that
place: at the end of it, or through the link.
-/

namespace ClassAtlas.FileSystem

/-- Only a directory has places below it. -/
theorem view_above {root : Node} {place : Place} {shell : Shell}
    (present : view root place = some shell) (below : place ≠ []) :
    view root place.dropLast = some .directory := by
  induction place generalizing root with
  | nil => exact absurd rfl below
  | cons name rest ih =>
    cases rest with
    | nil => exact congrArg some (shell_of_view_cons present)
    | cons next deeper =>
      rw [view_cons] at present
      obtain ⟨child, found, inside⟩ := Option.bind_eq_some_iff.mp present
      rw [List.dropLast_cons_cons, view_cons, found]
      exact ih inside (List.cons_ne_nil next deeper)

theorem view_dropLast {root : Node} {place : Place} (directory : view root place = some .directory) :
    view root place.dropLast = some .directory := by
  by_cases top : place = []
  · rw [top] at directory ⊢
    exact directory
  · exact view_above directory top

theorem top_of_directory {root : Node} {place : Place}
    (directory : view root place = some .directory) : root.shell = .directory := by
  cases place with
  | nil => exact Option.some.inj directory
  | cons name rest => exact shell_of_view_cons directory

theorem view_startOf {root : Node} {place : Place} (directory : view root place = some .directory)
    (target : String) : ∃ shell, view root (startOf place target) = some shell := by
  unfold startOf
  split
  case isTrue => exact ⟨root.shell, rfl⟩
  case isFalse => exact ⟨.directory, directory⟩

/-- To find something, a name may also stand before a slash. -/
theorem Named.find {purpose : Purpose} {step : String} {rest following : List String}
    (named : Named purpose step rest) : Named .find step following :=
  { named with noSlash := fun write => nomatch write }

namespace Leads

section

variable {v : Place → Option Shell} {purpose : Purpose} {k : Nat} {p r : Place}
  {steps rest : List String} {step : String} {shell : Shell}

/-- No step is taken from what is no directory. -/
theorem eq_of_plain (leads : Leads v purpose k p steps r) (met : v p = some shell)
    (plain : shell ≠ .directory) : k = 0 ∧ steps = [] ∧ r = p := by
  cases leads with
  | arrived => exact ⟨rfl, rfl, rfl⟩
  | stays directory | climbs directory | enters directory | follows directory | stops _ directory
  | lacks directory => exact absurd (Option.some.inj (met.symm.trans directory)) plain

/-- A way that ends at no link is the same for every purpose. -/
theorem find (leads : Leads v purpose k p steps r) (present : v r = some shell)
    (noLink : ∀ target, shell ≠ .link target) : Leads v .find k p steps r := by
  induction leads with
  | arrived met => exact .arrived met
  | stays directory void _ ih => exact .stays directory void (ih present)
  | climbs directory _ ih => exact .climbs directory (ih present)
  | enters directory named met plain _ ih =>
    exact .enters directory named.find met plain (ih present)
  | follows directory named link _ _ ih =>
    exact .follows directory named.find link (fun _ itself => nomatch itself) (ih present)
  | stops _ _ _ link => exact absurd (Option.some.inj (present.symm.trans link)) (noLink _)
  | lacks _ _ absent => cases absent.symm.trans present

end

end Leads

/-! Writing a file. -/

section

variable {v : Place → Option Shell} {q place : Place} {content : List UInt8} {executable : Bool}

/-- Where a file may be put, there is nothing but a file before and after. -/
theorem withFile_eq_some_iff (free : Free v q) {shell : Shell}
    (noFile : ∀ content executable, shell ≠ .file content executable) :
    withFile v q content executable place = some shell ↔ v place = some shell := by
  by_cases same : place = q
  · subst same
    rw [withFile_self]
    refine iff_of_false (fun made => noFile _ _ (Option.some.inj made).symm) fun met => ?_
    rcases free with ⟨_, _, present⟩ | ⟨absent, _⟩
    · exact noFile _ _ (Option.some.inj (met.symm.trans present))
    · cases absent.symm.trans met
  · rw [withFile_of_ne same]

theorem withFile_eq_directory_iff (free : Free v q) :
    withFile v q content executable place = some .directory ↔ v place = some .directory :=
  withFile_eq_some_iff free nofun

theorem withFile_eq_link_iff (free : Free v q) {target : String} :
    withFile v q content executable place = some (.link target) ↔
      v place = some (.link target) :=
  withFile_eq_some_iff free nofun

end

namespace Leads

variable {root : Node} {q : Place} {content : List UInt8} {executable : Bool} {k : Nat}
  {p r : Place} {steps : List String}

theorem after_put (free : Free (view root) q) (leads : Leads (view root) .write k p steps r) :
    Leads (withFile (view root) q content executable) .write k p steps r := by
  induction leads with
  | @arrived p shell met =>
    by_cases same : p = q
    · exact .arrived (by rw [same, withFile_self])
    · exact .arrived (by rw [withFile_of_ne same, met])
  | stays directory void _ ih =>
    exact .stays ((withFile_eq_directory_iff free).mpr directory) void ih
  | climbs directory _ ih => exact .climbs ((withFile_eq_directory_iff free).mpr directory) ih
  | @enters k p r step rest shell directory named met noLink _ ih =>
    by_cases same : p ++ [step] = q
    · have made : withFile (view root) q content executable (p ++ [step]) =
          some (.file content executable) := by rw [same, withFile_self]
      exact .enters ((withFile_eq_directory_iff free).mpr directory) named made
        (fun _ link => nomatch link) ih
    · exact .enters ((withFile_eq_directory_iff free).mpr directory) named
        (by rw [withFile_of_ne same, met]) noLink ih
  | follows directory named link through _ ih =>
    exact .follows ((withFile_eq_directory_iff free).mpr directory) named
      ((withFile_eq_link_iff free).mpr link) through ih
  | stops itself => cases itself
  | @lacks p step rest directory named absent last =>
    by_cases same : p ++ [step] = q
    · have made : withFile (view root) q content executable (p ++ [step]) =
          some (.file content executable) := by rw [same, withFile_self]
      obtain rfl := last.resolve_right (named.noSlash rfl)
      exact .enters ((withFile_eq_directory_iff free).mpr directory) named made
        (fun _ link => nomatch link) (.arrived made)
    · exact .lacks ((withFile_eq_directory_iff free).mpr directory) named
        (by rw [withFile_of_ne same, absent]) last

/-- The way to a new file was there before it, but for the file. -/
theorem before_put (free : Free (view root) q) (start : p = q → view root q ≠ none)
    (leads : Leads (withFile (view root) q content executable) .write k p steps r) :
    Leads (view root) .write k p steps r := by
  induction leads with
  | @arrived p shell met =>
    obtain ⟨before, present⟩ : ∃ before, view root p = some before := by
      by_cases same : p = q
      · rw [same]
        exact Option.ne_none_iff_exists'.mp (start same)
      · exact ⟨shell, by rwa [withFile_of_ne same] at met⟩
    exact .arrived present
  | stays directory void _ ih =>
    exact .stays ((withFile_eq_directory_iff free).mp directory) void (ih start)
  | climbs directory _ ih =>
    have directory := (withFile_eq_directory_iff free).mp directory
    refine .climbs directory (ih fun same absent => ?_)
    rw [← same, view_dropLast directory] at absent
    cases absent
  | @enters k p r step rest shell directory named met noLink on ih =>
    have directory := (withFile_eq_directory_iff free).mp directory
    cases before : view root (p ++ [step]) with
    | none =>
      -- nothing but the new file can be met where nothing was
      have same : p ++ [step] = q := by
        by_contra other
        rw [withFile_of_ne other, before] at met
        cases met
      rw [same, withFile_self] at met
      obtain ⟨rfl, rfl, rfl⟩ := on.eq_of_plain (by rw [same, withFile_self]) Shell.noConfusion
      exact .lacks directory named before (.inl rfl)
    | some earlier =>
      refine .enters directory named before (fun target link => ?_) (ih fun same absent => ?_)
      · rw [link, ← withFile_eq_link_iff free, met] at before
        exact noLink target (Option.some.inj before)
      · rw [← same, before] at absent
        cases absent
  | @follows k p r step target rest directory named link through _ ih =>
    have directory := (withFile_eq_directory_iff free).mp directory
    obtain ⟨shell, met⟩ := view_startOf directory target
    refine .follows directory named ((withFile_eq_link_iff free).mp link) through (ih ?_)
    intro same absent
    rw [← same, met] at absent
    cases absent
  | stops itself => cases itself
  | @lacks p step rest directory named absent last =>
    have elsewhere : p ++ [step] ≠ q := by
      rintro rfl
      rw [withFile_self] at absent
      cases absent
    rw [withFile_of_ne elsewhere] at absent
    exact .lacks ((withFile_eq_directory_iff free).mp directory) named absent last

end Leads

/-! Removing a file or a link. -/

theorem of_without {v : Place → Option Shell} {q place : Place} {shell : Shell}
    (present : without v q place = some shell) : v place = some shell := by
  have other : place ≠ q := by
    rintro rfl
    rw [without_self] at present
    cases present
  rwa [without_of_ne other] at present

namespace Leads

section

variable {v : Place → Option Shell} {purpose : Purpose} {k : Nat} {p q r : Place}
  {steps rest : List String} {step target : String} {shell : Shell}

theorem of_void (leads : Leads v purpose k p (step :: rest) r) (void : step = "." ∨ step = "") :
    Leads v purpose k p rest r := by
  cases leads with
  | stays _ _ on => exact on
  | climbs => exact absurd void (by decide)
  | enters _ named | follows _ named | stops _ _ named | lacks _ named =>
    exact absurd void (not_or.mpr ⟨named.notHere, named.notEmpty⟩)

theorem of_up (leads : Leads v purpose k p (".." :: rest) r) :
    Leads v purpose k p.dropLast rest r := by
  cases leads with
  | stays _ void => exact absurd void (by decide)
  | climbs _ on => exact on
  | enters _ named | follows _ named | stops _ _ named | lacks _ named =>
    exact absurd rfl named.notUp

theorem of_other {other : Purpose} {following : List String}
    (leads : Leads v purpose k p (step :: rest) r) (named : Named other step following)
    (met : v (p ++ [step]) = some shell) (noLink : ∀ target, shell ≠ .link target) :
    Leads v purpose k (p ++ [step]) rest r := by
  cases leads with
  | stays _ void => exact absurd void (not_or.mpr ⟨named.notHere, named.notEmpty⟩)
  | climbs => exact absurd rfl named.notUp
  | enters _ _ _ _ on => exact on
  | follows _ _ link | stops _ _ _ link =>
    exact absurd (Option.some.inj (met.symm.trans link)) (noLink _)
  | lacks _ _ absent => cases absent.symm.trans met

theorem of_link {other : Purpose} {following : List String}
    (leads : Leads v .find k p (step :: rest) r) (named : Named other step following)
    (link : v (p ++ [step]) = some (.link target)) :
    ∃ less, Leads v .find less (startOf p target) (stepsOf target ++ rest) r := by
  cases leads with
  | stays _ void => exact absurd void (not_or.mpr ⟨named.notHere, named.notEmpty⟩)
  | climbs => exact absurd rfl named.notUp
  | enters _ _ met noLink => exact absurd (Option.some.inj (met.symm.trans link)) (noLink target)
  | follows _ _ met _ on =>
    cases Option.some.inj (met.symm.trans link)
    exact ⟨_, on⟩
  | stops itself => cases itself
  | lacks _ _ absent => cases absent.symm.trans link

/-- A way that is left to stop at a link goes on through it otherwise. -/
theorem through_itself {k' : Nat} (stopped : Leads v .findItself k p steps q)
    (link : v q = some (.link target)) (leads : Leads v .find k' p steps r) :
    r = q ∨ ∃ less, Leads v .find less (startOf q.dropLast target) (stepsOf target) r := by
  induction stopped generalizing k' with
  | arrived =>
    cases leads
    exact .inl rfl
  | stays _ void _ ih => exact ih link (leads.of_void void)
  | climbs _ _ ih => exact ih link leads.of_up
  | enters _ named met noLink _ ih => exact ih link (leads.of_other named met noLink)
  | follows _ named met _ _ ih =>
    obtain ⟨less, on⟩ := leads.of_link named met
    exact ih link on
  | stops _ _ named met =>
    cases Option.some.inj (met.symm.trans link)
    obtain ⟨less, on⟩ := leads.of_link named met
    rw [List.append_nil] at on
    rw [List.dropLast_concat]
    exact .inr ⟨less, on⟩
  | lacks _ _ absent => cases absent.symm.trans link

/-- A way that ends at something can be cut between any two of its steps. -/
theorem cut (leads : Leads v .find k p (steps ++ rest) r) (present : v r = some shell) :
    ∃ k₁ k₂ m, Leads v .find k₁ p steps m ∧ Leads v .find k₂ m rest r := by
  generalize whole : steps ++ rest = all at leads
  -- steps that are cut off before the first one lead nowhere
  have nowhere {k : Nat} {p r : Place} {all : List String} (leads : Leads v .find k p all r)
      {found : Shell} (met : v p = some found) (same : [] ++ rest = all) :
      ∃ k₁ k₂ m, Leads v .find k₁ p [] m ∧ Leads v .find k₂ m rest r :=
    ⟨0, k, p, .arrived met, by rwa [← same] at leads⟩
  induction leads generalizing steps with
  | @arrived p shell met =>
    obtain ⟨rfl, rfl⟩ := List.append_eq_nil_iff.mp whole
    exact ⟨0, 0, p, .arrived met, .arrived met⟩
  | @stays k p r step later directory void on ih =>
    cases steps with
    | nil => exact nowhere (.stays directory void on) directory whole
    | cons first others =>
      obtain ⟨rfl, same⟩ := List.cons.inj whole
      obtain ⟨k₁, k₂, m, one, two⟩ := ih present same
      exact ⟨k₁, k₂, m, .stays directory void one, two⟩
  | @climbs k p r later directory on ih =>
    cases steps with
    | nil => exact nowhere (.climbs directory on) directory whole
    | cons first others =>
      obtain ⟨rfl, same⟩ := List.cons.inj whole
      obtain ⟨k₁, k₂, m, one, two⟩ := ih present same
      exact ⟨k₁, k₂, m, .climbs directory one, two⟩
  | @enters k p r step later shell directory named met noLink on ih =>
    cases steps with
    | nil => exact nowhere (.enters directory named met noLink on) directory whole
    | cons first others =>
      obtain ⟨rfl, same⟩ := List.cons.inj whole
      obtain ⟨k₁, k₂, m, one, two⟩ := ih present same
      exact ⟨k₁, k₂, m, .enters directory named.find met noLink one, two⟩
  | @follows k p r step target later directory named link through on ih =>
    cases steps with
    | nil => exact nowhere (.follows directory named link through on) directory whole
    | cons first others =>
      obtain ⟨rfl, rfl⟩ := List.cons.inj whole
      obtain ⟨k₁, k₂, m, one, two⟩ := ih present (List.append_assoc ..)
      exact ⟨k₁ + 1, k₂, m, .follows directory named.find link (fun _ itself => nomatch itself) one,
        two⟩
  | stops itself => cases itself
  | lacks _ _ absent => cases absent.symm.trans present

/-- A way that does not end at what is removed stays, unless it goes through it as a link. -/
theorem after_removal (leads : Leads v .find k p steps r) (present : v q = some shell)
    (plain : shell ≠ .directory) (elsewhere : r ≠ q) :
    Leads (without v q) .find k p steps r ∨
      ∃ target rest less, shell = .link target ∧
        Leads v .find less (startOf q.dropLast target) (stepsOf target ++ rest) r := by
  have stays {place : Place} (directory : v place = some .directory) :
      without v q place = some .directory := by
    rw [without_of_ne, directory]
    rintro rfl
    exact plain (Option.some.inj (present.symm.trans directory))
  induction leads with
  | arrived met => exact .inl (.arrived (by rw [without_of_ne elsewhere, met]))
  | stays directory void _ ih => exact (ih elsewhere).imp_left (.stays (stays directory) void)
  | climbs directory _ ih => exact (ih elsewhere).imp_left (.climbs (stays directory))
  | @enters k p r step rest found directory named met noLink on ih =>
    have other : p ++ [step] ≠ q := by
      rintro rfl
      exact elsewhere (on.eq_of_plain present plain).2.2
    exact (ih elsewhere).imp_left
      (.enters (stays directory) named (by rw [without_of_ne other, met]) noLink)
  | @follows k p r step target rest directory named link through on ih =>
    by_cases same : p ++ [step] = q
    · subst same
      refine .inr ⟨target, rest, k, Option.some.inj (present.symm.trans link), ?_⟩
      rwa [List.dropLast_concat]
    · exact (ih elsewhere).imp_left
        (.follows (stays directory) named (by rw [without_of_ne same, link]) through)
  | stops itself => cases itself
  | lacks directory named absent last =>
    exact .inl (.lacks (stays directory) named (by rw [without_of_ne elsewhere, absent]) last)

/-- A removal opens no way. -/
theorem before_removal (leads : Leads (without v q) .find k p steps r)
    (present : without v q r = some shell) : Leads v .find k p steps r := by
  induction leads with
  | arrived met => exact .arrived (of_without met)
  | stays directory void _ ih => exact .stays (of_without directory) void (ih present)
  | climbs directory _ ih => exact .climbs (of_without directory) (ih present)
  | enters directory named met noLink _ ih =>
    exact .enters (of_without directory) named (of_without met) noLink (ih present)
  | follows directory named link through _ ih =>
    exact .follows (of_without directory) named (of_without link) through (ih present)
  | stops itself => cases itself
  | lacks _ _ absent => cases absent.symm.trans present

end

/-- Removing what one path names leaves the way of another that leads to something else. -/
theorem kept_by_removal {root : Node} {k₁ k₂ k : Nat} {p p' q n r : Place}
    {steps steps' : List String} {removed found shell : Shell}
    (itself : Leads (view root) .findItself k₁ p' steps' q) (present : view root q = some removed)
    (plain : removed ≠ .directory) (through : Leads (view root) .find k₂ p' steps' n)
    (met : view root n = some found) (noDirectory : found ≠ .directory)
    (noLink : ∀ target, found ≠ .link target) (leads : Leads (view root) .find k p steps r)
    (ended : view root r = some shell) (plainEnd : ∀ target, shell ≠ .link target)
    (apart : r ≠ n) : r ≠ q ∧ Leads (without (view root) q) .find k p steps r := by
  by_cases link : ∃ target, removed = .link target
  · obtain ⟨target, rfl⟩ := link
    have elsewhere : r ≠ q := by
      rintro rfl
      exact plainEnd target (Option.some.inj (ended.symm.trans present))
    refine ⟨elsewhere, (leads.after_removal present plain elsewhere).resolve_right ?_⟩
    -- behind the link both paths lead to the same place
    rintro ⟨_, rest, less, same, on⟩
    cases same
    obtain ⟨k₃, k₄, m, first, second⟩ := on.cut ended
    rcases itself.through_itself present through with rfl | ⟨fewer, behind⟩
    · exact noLink target (Option.some.inj (met.symm.trans present))
    · cases first.unique behind
      exact apart (second.eq_of_plain met noDirectory).2.2
  · have noLinkThere : ∀ target, removed ≠ .link target := fun target same => link ⟨target, same⟩
    cases (itself.find present noLinkThere).unique through
    refine ⟨apart, (leads.after_removal present plain apart).resolve_right ?_⟩
    rintro ⟨target, _, _, same, _⟩
    exact noLinkThere target same

end Leads

end ClassAtlas.FileSystem

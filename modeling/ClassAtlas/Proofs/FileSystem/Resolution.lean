import ClassAtlas.Proofs.FileSystem.Tree

/-!
Resolution of paths as a relation. Where steps lead depends on what stands at places only, so that
the relation is stated over such a map: it says which link each step follows, and counts them.
Main statement: the resolution of a path succeeds exactly where the relation leads, within the
number of links that are allowed.
-/

namespace ClassAtlas.FileSystem

/-- A step that names an entry of a directory. -/
structure Named (purpose : Purpose) (step : String) (rest : List String) : Prop where
  notHere : step ≠ "."
  notEmpty : step ≠ ""
  notUp : step ≠ ".."
  noSlash : purpose = .write → rest ≠ [""]
  short : step.utf8ByteSize ≤ nameLimit

/-- Where steps lead from a directory, with the number of links on the way. The place need not be
taken, but then the directory above it is there. -/
inductive Leads (v : Place → Option Shell) (purpose : Purpose) :
    Nat → Place → List String → Place → Prop
  | arrived {p : Place} {shell : Shell} (present : v p = some shell) : Leads v purpose 0 p [] p
  | stays {k : Nat} {p r : Place} {step : String} {rest : List String}
      (directory : v p = some .directory) (void : step = "." ∨ step = "")
      (on : Leads v purpose k p rest r) : Leads v purpose k p (step :: rest) r
  | climbs {k : Nat} {p r : Place} {rest : List String} (directory : v p = some .directory)
      (on : Leads v purpose k p.dropLast rest r) : Leads v purpose k p (".." :: rest) r
  | enters {k : Nat} {p r : Place} {step : String} {rest : List String} {shell : Shell}
      (directory : v p = some .directory) (named : Named purpose step rest)
      (present : v (p ++ [step]) = some shell) (noLink : ∀ target, shell ≠ .link target)
      (on : Leads v purpose k (p ++ [step]) rest r) : Leads v purpose k p (step :: rest) r
  | follows {k : Nat} {p r : Place} {step target : String} {rest : List String}
      (directory : v p = some .directory) (named : Named purpose step rest)
      (link : v (p ++ [step]) = some (.link target))
      (through : rest = [] → purpose ≠ .findItself)
      (on : Leads v purpose k (startOf p target) (stepsOf target ++ rest) r) :
      Leads v purpose (k + 1) p (step :: rest) r
  | stops {p : Place} {step target : String} (itself : purpose = .findItself)
      (directory : v p = some .directory) (named : Named purpose step [])
      (link : v (p ++ [step]) = some (.link target)) : Leads v purpose 0 p [step] (p ++ [step])
  | lacks {p : Place} {step : String} {rest : List String} (directory : v p = some .directory)
      (named : Named purpose step rest) (absent : v (p ++ [step]) = none)
      (last : rest = [] ∨ rest = [""]) : Leads v purpose 0 p (step :: rest) (p ++ [step])

namespace Resolved

/-- The outcome of a resolution that leads to a place. -/
def atPlace (root : Node) (place : Place) : Resolved :=
  match root.at? place with
  | some node => .found place node
  | none => .missing place.dropLast (place.getLast?.getD "")

def place : Resolved → Place
  | .found place _ => place
  | .missing directory name => directory ++ [name]

theorem atPlace_of_some {root node : Node} {place : Place} (present : root.at? place = some node) :
    atPlace root place = .found place node := by
  rw [atPlace, present]

theorem atPlace_concat {root : Node} {place : Place} {name : String}
    (absent : root.at? (place ++ [name]) = none) :
    atPlace root (place ++ [name]) = .missing place name := by
  rw [atPlace, absent]
  simp

@[simp] theorem place_atPlace (root : Node) (place : Place) : (atPlace root place).place = place := by
  cases present : root.at? place with
  | some node => rw [atPlace_of_some present]; rfl
  | none =>
    rcases List.eq_nil_or_concat place with rfl | ⟨above, name, rfl⟩
    · cases present
    · rw [List.concat_eq_append] at present ⊢
      rw [atPlace_concat present]
      rfl

theorem found_eq_atPlace_iff {root node : Node} {found place : Place} :
    Resolved.found found node = atPlace root place ↔ found = place ∧ root.at? place = some node := by
  constructor
  · intro same
    cases present : root.at? place with
    | some other =>
      rw [atPlace_of_some present] at same
      cases same
      exact ⟨rfl, rfl⟩
    | none =>
      rw [atPlace, present] at same
      cases same
  · rintro ⟨rfl, present⟩
    exact (atPlace_of_some present).symm

theorem missing_eq_atPlace_iff {root : Node} {directory place : Place} {name : String} :
    Resolved.missing directory name = atPlace root place ↔
      directory ++ [name] = place ∧ root.at? place = none := by
  constructor
  · intro same
    refine ⟨?_, ?_⟩
    · rw [← place_atPlace root place, ← same]
      rfl
    · cases present : root.at? place with
      | some other =>
        rw [atPlace_of_some present] at same
        cases same
      | none => rfl
  · rintro ⟨rfl, absent⟩
    exact (atPlace_concat absent).symm

end Resolved

theorem view_of_at? {root node : Node} {p : Place} (present : root.at? p = some node) :
    view root p = some node.shell := by
  rw [view, present]
  rfl

theorem view_eq_directory_iff {root : Node} {p : Place} :
    view root p = some .directory ↔ ∃ entries, root.at? p = some (.directory entries) := by
  simp only [view, Option.map_eq_some_iff, Node.shell_eq_directory_iff]
  constructor
  · rintro ⟨_, present, entries, rfl⟩
    exact ⟨entries, present⟩
  · rintro ⟨entries, present⟩
    exact ⟨_, present, entries, rfl⟩

theorem view_eq_link_iff {root : Node} {p : Place} {target : String} :
    view root p = some (.link target) ↔ root.at? p = some (.link target) := by
  simp only [view, Option.map_eq_some_iff, Node.shell_eq_link_iff, exists_eq_right]

theorem view_eq_file_iff {root : Node} {p : Place} {content : List UInt8} {executable : Bool} :
    view root p = some (.file content executable) ↔
      root.at? p = some (.file content executable) := by
  simp only [view, Option.map_eq_some_iff, Node.shell_eq_file_iff, exists_eq_right]

theorem view_eq_none_iff {root : Node} {p : Place} : view root p = none ↔ root.at? p = none :=
  Option.map_eq_none_iff

/-! One step of a walk, by what it meets. -/

section

variable {root : Node} {purpose : Purpose}
  {onLink : Place → String → List String → Except OsError Resolved}
  {p : Place} {step : String} {rest : List String}

theorem walkSteps_void (directory : view root p = some .directory) (void : step = "." ∨ step = "") :
    walkSteps root purpose onLink p (step :: rest) = walkSteps root purpose onLink p rest := by
  obtain ⟨entries, present⟩ := view_eq_directory_iff.mp directory
  have here : (step == "." || step == "") = true := by simpa using void
  rw [walkSteps, present]
  exact if_pos here

theorem walkSteps_up (directory : view root p = some .directory) :
    walkSteps root purpose onLink p (".." :: rest) =
      walkSteps root purpose onLink p.dropLast rest := by
  obtain ⟨entries, present⟩ := view_eq_directory_iff.mp directory
  rw [walkSteps, present]
  rfl

/-- What is met under a name decides on a step that names an entry. -/
theorem walkSteps_named (directory : view root p = some .directory)
    (named : Named purpose step rest) {outcome : Except OsError Resolved}
    (absent : root.at? (p ++ [step]) = none →
      (if rest.isEmpty || rest == [""] then .ok (.missing p step) else .error .notFound) = outcome)
    (link : ∀ target, root.at? (p ++ [step]) = some (.link target) →
      (if rest.isEmpty && purpose == .findItself then .ok (.found (p ++ [step]) (.link target))
        else onLink p target rest) = outcome)
    (other : ∀ node, root.at? (p ++ [step]) = some node → (∀ target, node.shell ≠ .link target) →
      walkSteps root purpose onLink (p ++ [step]) rest = outcome) :
    walkSteps root purpose onLink p (step :: rest) = outcome := by
  obtain ⟨entries, present⟩ := view_eq_directory_iff.mp directory
  have notVoid : (step == "." || step == "") = false := by
    simp [named.notHere, named.notEmpty]
  have notUp : (step == "..") = false := beq_eq_false_iff_ne.mpr named.notUp
  have noSlash : (purpose == .write && rest == [""]) = false := by
    rw [Bool.and_eq_false_iff, beq_eq_false_iff_ne, beq_eq_false_iff_ne]
    exact Classical.or_iff_not_imp_left.mpr fun writing => named.noSlash (not_not.mp writing)
  have short : ¬ step.utf8ByteSize > nameLimit := Nat.not_lt.mpr named.short
  rw [walkSteps, present]
  simp only [notVoid, notUp, noSlash, short, Bool.false_eq_true, if_false]
  rw [Node.at?_concat present] at absent link other
  split
  case h_1 found => exact absent found
  case h_2 target found => exact link target found
  case h_3 node noLink found =>
    exact other node found fun target shell => noLink target (Node.shell_eq_link_iff.mp shell)

theorem walkSteps_absent (directory : view root p = some .directory)
    (named : Named purpose step rest) (absent : root.at? (p ++ [step]) = none) :
    walkSteps root purpose onLink p (step :: rest) =
      if rest.isEmpty || rest == [""] then .ok (.missing p step) else .error .notFound :=
  walkSteps_named directory named (fun _ => rfl) (fun _ found => nomatch absent.symm.trans found)
    fun _ found _ => nomatch absent.symm.trans found

theorem walkSteps_link {target : String} (directory : view root p = some .directory)
    (named : Named purpose step rest) (link : root.at? (p ++ [step]) = some (.link target)) :
    walkSteps root purpose onLink p (step :: rest) =
      if rest.isEmpty && purpose == .findItself then .ok (.found (p ++ [step]) (.link target))
      else onLink p target rest := by
  refine walkSteps_named directory named (fun absent => nomatch absent.symm.trans link) ?_ ?_
  · intro other found
    cases link.symm.trans found
    rfl
  · intro node found noLink
    cases link.symm.trans found
    exact absurd rfl (noLink target)

theorem walkSteps_other {node : Node} (directory : view root p = some .directory)
    (named : Named purpose step rest) (present : root.at? (p ++ [step]) = some node)
    (noLink : ∀ target, node.shell ≠ .link target) :
    walkSteps root purpose onLink p (step :: rest) =
      walkSteps root purpose onLink (p ++ [step]) rest := by
  refine walkSteps_named directory named (fun absent => nomatch absent.symm.trans present) ?_ ?_
  · intro target found
    cases present.symm.trans found
    exact absurd rfl (noLink target)
  · intro _ _ _
    rfl

/-- Steps are taken from directories only, and each has one of three forms. -/
theorem walkSteps_cons_ok {out : Resolved}
    (walked : walkSteps root purpose onLink p (step :: rest) = .ok out) :
    view root p = some .directory ∧
      ((step = "." ∨ step = "") ∨ step = ".." ∨ Named purpose step rest) := by
  unfold walkSteps at walked
  split at walked
  case h_5 entries present =>
    refine ⟨view_eq_directory_iff.mpr ⟨entries, present⟩, ?_⟩
    split at walked
    case isTrue void => exact .inl (by simpa using void)
    case isFalse notVoid =>
      split at walked
      case isTrue up => exact .inr (.inl (beq_iff_eq.mp up))
      case isFalse notUp =>
        split at walked
        case isTrue => cases walked
        case isFalse noSlash =>
          split at walked
          case isTrue => cases walked
          case isFalse short =>
            simp only [Bool.or_eq_true, beq_iff_eq, not_or, Bool.and_eq_true, not_and]
              at notVoid notUp noSlash
            exact .inr (.inr ⟨notVoid.1, notVoid.2, notUp, noSlash, Nat.not_lt.mp short⟩)
  all_goals cases walked

theorem leads_of_walkSteps {links : Nat}
    (onward : ∀ {p target rest out}, onLink p target rest = .ok out →
      ∃ k r, k < links ∧ Leads (view root) purpose k (startOf p target) (stepsOf target ++ rest) r ∧
        out = .atPlace root r)
    {steps : List String} {out : Resolved}
    (walked : walkSteps root purpose onLink p steps = .ok out) :
    ∃ k r, k ≤ links ∧ Leads (view root) purpose k p steps r ∧ out = .atPlace root r := by
  induction steps generalizing p with
  | nil =>
    unfold walkSteps at walked
    split at walked
    case h_1 node present =>
      cases walked
      exact ⟨0, p, Nat.zero_le _, .arrived (view_of_at? present),
        (Resolved.atPlace_of_some present).symm⟩
    case h_2 => cases walked
  | cons step rest ih =>
    obtain ⟨directory, void | rfl | named⟩ := walkSteps_cons_ok walked
    · rw [walkSteps_void directory void] at walked
      obtain ⟨k, r, within, leads, same⟩ := ih walked
      exact ⟨k, r, within, .stays directory void leads, same⟩
    · rw [walkSteps_up directory] at walked
      obtain ⟨k, r, within, leads, same⟩ := ih walked
      exact ⟨k, r, within, .climbs directory leads, same⟩
    · cases met : root.at? (p ++ [step]) with
      | none =>
        rw [walkSteps_absent directory named met] at walked
        split at walked
        case isTrue last =>
          cases walked
          refine ⟨0, p ++ [step], Nat.zero_le _, ?_, (Resolved.atPlace_concat met).symm⟩
          exact .lacks directory named (view_eq_none_iff.mpr met) (by simpa using last)
        case isFalse => cases walked
      | some node =>
        by_cases link : ∃ target, node = .link target
        · obtain ⟨target, rfl⟩ := link
          rw [walkSteps_link directory named met] at walked
          split at walked
          case isTrue ends =>
            simp only [Bool.and_eq_true, List.isEmpty_iff, beq_iff_eq] at ends
            obtain ⟨rfl, itself⟩ := ends
            cases walked
            refine ⟨0, p ++ [step], Nat.zero_le _, ?_, (Resolved.atPlace_of_some met).symm⟩
            exact .stops itself directory named (view_of_at? met)
          case isFalse through =>
            obtain ⟨k, r, within, leads, same⟩ := onward walked
            refine ⟨k + 1, r, within, ?_, same⟩
            refine .follows directory named (view_of_at? met) (fun ends itself => through ?_) leads
            rw [ends, itself]
            rfl
        · have noLink : ∀ target, node.shell ≠ .link target :=
            fun target same => link ⟨target, Node.shell_eq_link_iff.mp same⟩
          rw [walkSteps_other directory named met noLink] at walked
          obtain ⟨k, r, within, leads, same⟩ := ih walked
          exact ⟨k, r, within, .enters directory named (view_of_at? met) noLink leads, same⟩

end

section

variable {root : Node} {purpose : Purpose} {p r : Place} {steps : List String}

theorem leads_of_follow {links : Nat} {out : Resolved}
    (followed : follow root purpose links p steps = .ok out) :
    ∃ k r, k ≤ links ∧ Leads (view root) purpose k p steps r ∧ out = .atPlace root r := by
  induction links generalizing p steps out with
  | zero =>
    refine leads_of_walkSteps (fun refused => ?_) followed
    cases refused
  | succ links ih =>
    refine leads_of_walkSteps (fun onward => ?_) followed
    obtain ⟨k, r, within, leads, same⟩ := ih onward
    exact ⟨k, r, Nat.lt_succ_of_le within, leads, same⟩

/-- What is done with a link by a walk that may follow `links` of them. -/
def beyond (root : Node) (purpose : Purpose) :
    Nat → Place → String → List String → Except OsError Resolved
  | 0, _, _, _ => .error .tooManyLinks
  | links + 1, place, target, rest =>
    follow root purpose links (startOf place target) (stepsOf target ++ rest)

theorem follow_eq (links : Nat) :
    follow root purpose links = walkSteps root purpose (beyond root purpose links) := by
  cases links <;> rfl

theorem follow_of_leads {k : Nat} (leads : Leads (view root) purpose k p steps r) {links : Nat}
    (within : k ≤ links) : follow root purpose links p steps = .ok (.atPlace root r) := by
  induction leads generalizing links with
  | @arrived p shell present =>
    obtain ⟨node, met, _⟩ := Option.map_eq_some_iff.mp present
    rw [follow_eq, walkSteps, met, Resolved.atPlace_of_some met]
  | stays directory void on ih =>
    rw [follow_eq, walkSteps_void directory void, ← follow_eq]
    exact ih within
  | climbs directory on ih =>
    rw [follow_eq, walkSteps_up directory, ← follow_eq]
    exact ih within
  | enters directory named present noLink on ih =>
    obtain ⟨node, met, rfl⟩ := Option.map_eq_some_iff.mp present
    rw [follow_eq, walkSteps_other directory named met noLink, ← follow_eq]
    exact ih within
  | @follows k p r step target rest directory named link through on ih =>
    have goesOn : ¬ (rest.isEmpty && purpose == .findItself) = true := by
      simpa using through
    obtain ⟨links, rfl⟩ := Nat.exists_eq_add_one_of_ne_zero (Nat.ne_zero_of_lt within)
    rw [follow_eq, walkSteps_link directory named (view_eq_link_iff.mp link), if_neg goesOn]
    exact ih (Nat.le_of_succ_le_succ within)
  | stops itself directory named link =>
    have met := view_eq_link_iff.mp link
    rw [follow_eq, walkSteps_link directory named met, itself, Resolved.atPlace_of_some met]
    rfl
  | lacks directory named absent last =>
    have met := view_eq_none_iff.mp absent
    rw [follow_eq, walkSteps_absent directory named met, Resolved.atPlace_concat met]
    rcases last with rfl | rfl <;> rfl

/-- Steps can be followed exactly where the relation leads within the number of links. -/
theorem follow_eq_ok_iff {links : Nat} {out : Resolved} :
    follow root purpose links p steps = .ok out ↔
      ∃ k r, k ≤ links ∧ Leads (view root) purpose k p steps r ∧ out = .atPlace root r := by
  constructor
  · exact leads_of_follow
  · rintro ⟨k, r, within, leads, rfl⟩
    exact follow_of_leads leads within

/-- Steps lead to one place only. -/
theorem Leads.unique {k k' : Nat} {r' : Place} (leads : Leads (view root) purpose k p steps r)
    (other : Leads (view root) purpose k' p steps r') : r = r' := by
  have one := follow_of_leads leads (Nat.le_max_left k k')
  have two := follow_of_leads other (Nat.le_max_right k k')
  have same := Except.ok.inj (one.symm.trans two)
  rw [← Resolved.place_atPlace root r, same, Resolved.place_atPlace]

end

end ClassAtlas.FileSystem

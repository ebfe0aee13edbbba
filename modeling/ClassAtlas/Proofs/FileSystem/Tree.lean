import ClassAtlas.FileSystem.Tree
import ClassAtlas.Proofs.NameSet
import Mathlib.Logic.Function.Basic

/-!
A tree as a map from places. What stands at a place is seen without what is below it, so that
putting a file and removing one each change the map at one place only.
-/

namespace ClassAtlas.FileSystem

/-- A node without what is below it. -/
inductive Shell where
  | file (content : List UInt8) (executable : Bool)
  | directory
  | link (target : String)
  | device (full : Bool)
  deriving DecidableEq

/-- What is read from a node: a device is empty, and a directory or a link cannot be read. -/
def Shell.content? : Shell → Option (List UInt8)
  | .file content _ => some content
  | .directory => none
  | .link _ => none
  | .device _ => some []

theorem Shell.plain_of_content? {shell : Shell} {content : List UInt8}
    (readable : shell.content? = some content) :
    shell ≠ .directory ∧ ∀ target, shell ≠ .link target := by
  refine ⟨?_, fun target => ?_⟩ <;> rintro rfl <;> cases readable

namespace Node

def shell : Node → Shell
  | .file content executable => .file content executable
  | .directory _ => .directory
  | .link target => .link target
  | .device full => .device full

theorem shell_eq_directory_iff {node : Node} :
    node.shell = .directory ↔ ∃ entries, node = .directory entries := by
  cases node <;> simp [shell]

theorem shell_eq_link_iff {node : Node} {target : String} :
    node.shell = .link target ↔ node = .link target := by
  cases node <;> simp [shell]

theorem shell_eq_file_iff {node : Node} {content : List UInt8} {executable : Bool} :
    node.shell = .file content executable ↔ node = .file content executable := by
  cases node <;> simp [shell]

@[simp] theorem entries_directory (entries : List (String × Node)) :
    (directory entries).entries = entries :=
  rfl

/-- Nothing is below what is no directory. -/
theorem entries_of_shell {node : Node} (plain : node.shell ≠ .directory) : node.entries = [] := by
  cases node with
  | directory => exact absurd rfl plain
  | _ => rfl

theorem at?_append (node : Node) (above below : Place) :
    node.at? (above ++ below) = (node.at? above).bind (·.at? below) := by
  induction above generalizing node with
  | nil => rfl
  | cons name rest ih =>
    simp only [List.cons_append, at?]
    cases node.entries.lookup name with
    | none => rfl
    | some child => exact ih child

theorem at?_concat {node : Node} {place : Place} {entries : List (String × Node)}
    (directory : node.at? place = some (.directory entries)) (name : String) :
    node.at? (place ++ [name]) = entries.lookup name := by
  rw [at?_append, directory]
  simp only [Option.bind_some, at?, Node.entries]
  cases entries.lookup name <;> rfl

end Node

/-- What stands at the places of a tree. -/
def view (root : Node) (place : Place) : Option Shell :=
  (root.at? place).map Node.shell

@[simp] theorem view_nil (root : Node) : view root [] = some root.shell :=
  rfl

theorem view_cons (root : Node) (name : String) (rest : Place) :
    view root (name :: rest) = (root.entries.lookup name).bind (view · rest) := by
  simp only [view, Node.at?]
  cases root.entries.lookup name <;> rfl

theorem view_below {node : Node} (plain : node.shell ≠ .directory) {place : Place}
    (below : place ≠ []) : view node place = none := by
  cases place with
  | nil => exact absurd rfl below
  | cons name rest => rw [view_cons, Node.entries_of_shell plain]; rfl

/-- What is below the top is below a directory. -/
theorem shell_of_view_cons {root : Node} {name : String} {rest : Place} {shell : Shell}
    (present : view root (name :: rest) = some shell) : root.shell = .directory := by
  by_contra plain
  rw [view_below plain (List.cons_ne_nil name rest)] at present
  cases present

/-- A place that a file can be written to: a file is there, or a directory lacks the name. -/
def Free (v : Place → Option Shell) (place : Place) : Prop :=
  (∃ content executable, v place = some (.file content executable)) ∨
    v place = none ∧ v place.dropLast = some .directory

theorem Free.shell {root : Node} {name : String} {rest : Place}
    (free : Free (view root) (name :: rest)) : root.shell = .directory := by
  rcases free with ⟨content, executable, present⟩ | ⟨_, above⟩
  · exact shell_of_view_cons present
  · cases rest with
    | nil => exact Option.some.inj above
    | cons next rest => exact shell_of_view_cons above

theorem Free.child {root child : Node} {name : String} {rest : Place}
    (free : Free (view root) (name :: rest)) (found : root.entries.lookup name = some child) :
    Free (view child) rest := by
  have step (place : Place) : view root (name :: place) = view child place := by
    rw [view_cons, found]
    rfl
  rcases free with ⟨content, executable, present⟩ | ⟨absent, above⟩
  · exact .inl ⟨content, executable, by rw [← step, present]⟩
  · cases rest with
    | nil => cases (step []).symm.trans absent
    | cons next rest => exact .inr ⟨by rw [← step, absent], by rw [← step]; exact above⟩

theorem Free.last {root : Node} {name : String} {rest : Place}
    (free : Free (view root) (name :: rest)) (lacking : root.entries.lookup name = none) :
    rest = [] := by
  have nothing (place : Place) : view root (name :: place) = none := by
    rw [view_cons, lacking]
    rfl
  rcases free with ⟨content, executable, present⟩ | ⟨_, above⟩
  · cases (nothing rest).symm.trans present
  · cases rest with
    | nil => rfl
    | cons next rest => cases (nothing _).symm.trans above

/-- Two maps that are the same at the top and below each name are the same. -/
theorem view_eq {root : Node} {v : Place → Option Shell} (top : some root.shell = v [])
    (below : ∀ name rest, (root.entries.lookup name).bind (view · rest) = v (name :: rest)) :
    view root = v := by
  funext place
  cases place with
  | nil => exact top
  | cons name rest => rw [view_cons, below]

theorem update_cons {v : Place → Option Shell} {name : String} {rest place : Place}
    {shell : Option Shell} :
    Function.update v (name :: rest) shell (name :: place) =
      Function.update (fun place => v (name :: place)) rest shell place := by
  by_cases same : place = rest
  · rw [same, Function.update_self, Function.update_self]
  · rw [Function.update_of_ne same, Function.update_of_ne]
    exact fun equal => same (List.cons.inj equal).2

theorem update_cons_of_ne {v : Place → Option Shell} {name other : String} {rest place : Place}
    {shell : Option Shell} (different : other ≠ name) :
    Function.update v (name :: rest) shell (other :: place) = v (other :: place) :=
  Function.update_of_ne (fun equal => different (List.cons.inj equal).1) ..

/-- A change below one name of a directory changes the map below that name. -/
theorem view_insert {root child : Node} {name : String} {rest : Place} {shell : Option Shell}
    (top : root.shell = .directory)
    (below : view child = Function.update (fun place => view root (name :: place)) rest shell) :
    view (.directory (NameMap.insert name child root.entries)) =
      Function.update (view root) (name :: rest) shell := by
  refine view_eq ?_ fun other place => ?_
  · rw [Function.update_of_ne (List.cons_ne_nil name rest).symm, view_nil, top]
    rfl
  · rw [Node.entries_directory]
    by_cases same : other = name
    · rw [same, NameMap.lookup_insert, update_cons, ← below]
      rfl
    · rw [NameMap.lookup_insert_of_ne same, update_cons_of_ne same, ← view_cons]

theorem view_child {root child : Node} {name : String}
    (found : root.entries.lookup name = some child) :
    (fun place => view root (name :: place)) = view child := by
  funext place
  rw [view_cons, found]
  rfl

/-- The map with a file at a place. -/
def withFile (v : Place → Option Shell) (place : Place) (content : List UInt8)
    (executable : Bool) : Place → Option Shell :=
  Function.update v place (some (.file content executable))

/-- The map with nothing at a place. -/
def without (v : Place → Option Shell) (place : Place) : Place → Option Shell :=
  Function.update v place none

section

variable {v : Place → Option Shell} {place other : Place} {content : List UInt8}
  {executable : Bool}

@[simp] theorem withFile_self :
    withFile v place content executable place = some (.file content executable) :=
  Function.update_self ..

theorem withFile_of_ne (different : other ≠ place) :
    withFile v place content executable other = v other :=
  Function.update_of_ne different ..

@[simp] theorem without_self : without v place place = none :=
  Function.update_self ..

theorem without_of_ne (different : other ≠ place) : without v place other = v other :=
  Function.update_of_ne different ..

end

/-- Putting a file changes what stands at its place and nothing else. -/
theorem view_put {root : Node} {place : Place} (free : Free (view root) place)
    (content : List UInt8) (executable : Bool) :
    view (root.put (.file content executable) place) =
      withFile (view root) place content executable := by
  unfold withFile
  induction place generalizing root with
  | nil =>
    obtain ⟨c, e, present⟩ | ⟨absent, _⟩ := free
    · have plain : root.shell ≠ .directory := by
        rw [Option.some.inj present]
        exact Shell.noConfusion
      refine view_eq (by rw [Function.update_self]; rfl) fun name rest => ?_
      have proper := List.cons_ne_nil name rest
      rw [Function.update_of_ne proper, view_below plain proper]
      rfl
    · cases absent
  | cons name rest ih =>
    refine view_insert free.shell ?_
    cases found : root.entries.lookup name with
    | some child =>
      rw [view_child found]
      exact ih (free.child found)
    | none =>
      have nothing : (fun place => view root (name :: place)) = fun _ => none := by
        funext place
        rw [view_cons, found]
        rfl
      rw [nothing, free.last found]
      refine view_eq (by rw [Function.update_self]; rfl) fun next deeper => ?_
      rw [Function.update_of_ne (List.cons_ne_nil next deeper)]
      rfl

/-- Removing what is no directory empties its place and changes nothing else. -/
theorem view_erase {root : Node} {place : Place} {shell : Shell} (proper : place ≠ [])
    (present : view root place = some shell) (plain : shell ≠ .directory) :
    view (root.erase place) = without (view root) place := by
  unfold without
  induction place generalizing root with
  | nil => exact absurd rfl proper
  | cons name rest ih =>
    have top := shell_of_view_cons present
    obtain ⟨child, found⟩ : ∃ child, root.entries.lookup name = some child := by
      rw [view_cons] at present
      obtain ⟨child, found, _⟩ := Option.bind_eq_some_iff.mp present
      exact ⟨child, found⟩
    have below := view_child found
    replace present : view child rest = some shell := by
      rw [← below]
      exact present
    cases rest with
    | nil =>
      refine view_eq ?_ fun other place => ?_
      · rw [Function.update_of_ne (List.cons_ne_nil name []).symm, view_nil, top]
        rfl
      · simp only [Node.erase, Node.entries_directory]
        by_cases same : other = name
        · subst same
          rw [NameMap.lookup_filter_ne, update_cons, below]
          cases place with
          | nil => rfl
          | cons next deeper =>
            have proper := List.cons_ne_nil next deeper
            rw [Function.update_of_ne proper, view_below (Option.some.inj present ▸ plain) proper]
            rfl
        · rw [NameMap.lookup_filter_of_ne same, update_cons_of_ne same, ← view_cons]
    | cons next rest =>
      have step : root.erase (name :: next :: rest) =
          .directory (NameMap.insert name (child.erase (next :: rest)) root.entries) := by
        rw [Node.erase, found]
        exact List.cons_ne_nil next rest
      rw [step]
      refine view_insert top ?_
      rw [below]
      exact ih (List.cons_ne_nil next rest) present

end ClassAtlas.FileSystem

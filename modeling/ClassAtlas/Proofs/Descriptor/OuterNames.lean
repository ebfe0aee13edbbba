import ClassAtlas.Proofs.Descriptor.Acceptance

/-!
The outer names of a signature: those of its class types as they are written, without the names that
inner classes add. Main statements: an outer name is a name of the signature, and every name of the
signature begins with an outer one. So no name is empty, and the names open with the same characters as
the outer names do.
-/

namespace ClassAtlas.Descriptor

mutual

/-- The names of the class types in a type, from left to right. -/
def TypeTree.outerNames : TypeTree → List (List Char)
  | .base _ _ => []
  | .array element => element.outerNames
  | .classType name _ parts => name.text :: outerNamesOfParts parts
  | .typeVariable _ => []

def outerNamesOfParts : List Part → List (List Char)
  | [] => []
  | .arguments args :: parts => outerNamesOfArguments args ++ outerNamesOfParts parts
  | .inner _ :: parts => outerNamesOfParts parts

def Argument.outerNames : Argument → List (List Char)
  | .wildcard => []
  | .upper type => type.outerNames
  | .lower type => type.outerNames
  | .exactly type => type.outerNames

def outerNamesOfArguments : List Argument → List (List Char)
  | [] => []
  | argument :: args => argument.outerNames ++ outerNamesOfArguments args

end

def outerNamesOfBound : Option Bound → List (List Char)
  | none => []
  | some bound => bound.type.outerNames

def Formal.outerNames (formal : Formal) : List (List Char) :=
  formal.bounds.flatMap outerNamesOfBound

def Item.outerNames : Item → List (List Char)
  | .mark _ _ => []
  | .parameters formals _ => formals.flatMap Formal.outerNames
  | .single type => type.outerNames

def Signature.outerNames (signature : Signature) : List (List Char) :=
  signature.flatMap Item.outerNames

/-- The outer names are among the names, and each name begins with one of them or with one that was
`given` before. -/
structure OpenedBy (given outer : List (List Char)) (names : List String) : Prop where
  listed : ∀ name ∈ outer, name ≠ [] ∧ String.ofList name ∈ names
  begun : ∀ name ∈ names, ∃ first ∈ given ++ outer, first <+: name.toList

namespace OpenedBy

variable {given outer more : List (List Char)} {names others : List String}

theorem nil (given : List (List Char)) : OpenedBy given [] [] :=
  ⟨nofun, nofun⟩

theorem append (first : OpenedBy given outer names) (second : OpenedBy given more others) :
    OpenedBy given (outer ++ more) (names ++ others) := by
  constructor
  · intro name member
    rcases List.mem_append.mp member with left | right
    · exact ⟨(first.listed name left).1, List.mem_append_left _ (first.listed name left).2⟩
    · exact ⟨(second.listed name right).1, List.mem_append_right _ (second.listed name right).2⟩
  · intro name member
    rcases List.mem_append.mp member with left | right
    · obtain ⟨start, among, begins⟩ := first.begun name left
      exact ⟨start, by grind, begins⟩
    · obtain ⟨start, among, begins⟩ := second.begun name right
      exact ⟨start, by grind, begins⟩

theorem flatMap {α : Type} {items : List α} {f : α → List (List Char)} {g : α → List String}
    (each : ∀ item ∈ items, OpenedBy given (f item) (g item)) :
    OpenedBy given (items.flatMap f) (items.flatMap g) := by
  induction items with
  | nil => exact nil given
  | cons item items ih =>
      rw [List.forall_mem_cons] at each
      exact each.1.append (ih each.2)

/-- What begins with a longer name begins with a shorter one. -/
theorem shorten {name longer : List Char} (begins : name <+: longer)
    (rest : OpenedBy [longer] outer names) : OpenedBy [name] outer names := by
  refine ⟨rest.listed, ?_⟩
  intro found member
  obtain ⟨start, among, starts⟩ := rest.begun found member
  rcases List.mem_cons.mp among with rfl | inside
  · exact ⟨name, List.mem_cons_self, begins.trans starts⟩
  · exact ⟨start, List.mem_cons_of_mem _ inside, starts⟩

/-- A name that is added begins with the one that was given. -/
theorem extend {name longer : List Char} (begins : name <+: longer)
    (rest : OpenedBy [longer] outer names) : OpenedBy [name] outer (String.ofList longer :: names) := by
  refine ⟨fun other member => ⟨(rest.listed other member).1,
    List.mem_cons_of_mem _ (rest.listed other member).2⟩, ?_⟩
  intro found member
  rcases List.mem_cons.mp member with rfl | inside
  · exact ⟨name, List.mem_cons_self, String.toList_ofList ▸ begins⟩
  · exact (rest.shorten begins).begun found inside

/-- A class type: its own name is the one that is given to what follows. -/
theorem named {name : List Char} (nonempty : name ≠ []) (rest : OpenedBy [name] outer names) :
    OpenedBy [] (name :: outer) (String.ofList name :: names) := by
  constructor
  · intro other member
    rcases List.mem_cons.mp member with rfl | inside
    · exact ⟨nonempty, List.mem_cons_self⟩
    · exact ⟨(rest.listed other inside).1, List.mem_cons_of_mem _ (rest.listed other inside).2⟩
  · exact (rest.extend (List.prefix_refl name)).begun

theorem mono {wider : List (List Char)} (rest : OpenedBy given outer names) (among : given ⊆ wider) :
    OpenedBy wider outer names := by
  refine ⟨rest.listed, ?_⟩
  intro name member
  obtain ⟨start, inside, begins⟩ := rest.begun name member
  refine ⟨start, ?_, begins⟩
  rcases List.mem_append.mp inside with earlier | own
  · exact List.mem_append_left _ (among earlier)
  · exact List.mem_append_right _ own

end OpenedBy

section Trees

mutual

theorem TypeTree.names_opened (type : TypeTree) : OpenedBy [] type.outerNames type.names := by
  cases type with
  | base c known => exact .nil []
  | array element => exact element.names_opened
  | classType name named parts => exact (partNames_opened name.text parts).named named
  | typeVariable name => exact .nil []

/-- The parts after a class are gone through with the running name. -/
theorem partNames_opened (name : List Char) (parts : List Part) :
    OpenedBy [name] (outerNamesOfParts parts) (partNames name parts) := by
  match parts with
  | [] => exact .nil [name]
  | .arguments args :: parts =>
      have here := (argumentNames_opened args).mono (List.nil_subset [name])
      exact here.append (partNames_opened name parts)
  | .inner suffix :: parts =>
      exact (partNames_opened (name ++ '$' :: suffix.text) parts).extend (List.prefix_append ..)

theorem Argument.names_opened (argument : Argument) : OpenedBy [] argument.outerNames argument.names := by
  cases argument with
  | wildcard => exact .nil []
  | upper type => exact type.names_opened
  | lower type => exact type.names_opened
  | exactly type => exact type.names_opened

theorem argumentNames_opened (args : List Argument) :
    OpenedBy [] (outerNamesOfArguments args) (argumentNames args) := by
  match args with
  | [] => exact .nil []
  | argument :: args => exact argument.names_opened.append (argumentNames_opened args)

end

theorem Formal.names_opened (formal : Formal) : OpenedBy [] formal.outerNames formal.names := by
  apply OpenedBy.flatMap
  intro bound member
  cases bound with
  | none => exact .nil []
  | some bound => exact bound.type.names_opened

theorem Item.names_opened (item : Item) : OpenedBy [] item.outerNames item.names := by
  cases item with
  | mark c known => exact .nil []
  | parameters formals separated => exact .flatMap fun formal _ => formal.names_opened
  | single type => exact type.names_opened

theorem Signature.names_opened (signature : Signature) :
    OpenedBy [] signature.outerNames signature.names :=
  .flatMap fun item _ => item.names_opened

end Trees

namespace Signature

variable {signature : Signature}

theorem exists_outer {name : String} (member : name ∈ signature.names) :
    ∃ outer ∈ signature.outerNames, outer ≠ [] ∧ outer <+: name.toList := by
  obtain ⟨outer, among, begins⟩ := signature.names_opened.begun name member
  exact ⟨outer, among, (signature.names_opened.listed outer among).1, begins⟩

theorem ne_empty_of_mem_names {name : String} (member : name ∈ signature.names) : name ≠ "" := by
  obtain ⟨outer, -, named, begins⟩ := exists_outer member
  rintro rfl
  exact named (List.prefix_nil.mp begins)

/-- No name opens with a character exactly if no outer name does. -/
theorem names_open_iff {c : Char} :
    (∀ name ∈ signature.names, name.toList.head? ≠ some c) ↔
      ∀ outer ∈ signature.outerNames, outer.head? ≠ some c := by
  constructor
  · intro all outer among
    have listed := all _ (signature.names_opened.listed outer among).2
    rwa [String.toList_ofList] at listed
  · intro all name member
    obtain ⟨outer, among, named, begins⟩ := exists_outer member
    obtain ⟨rest, spelled⟩ := begins
    obtain ⟨first, more, rfl⟩ := List.exists_cons_of_ne_nil named
    rw [← spelled]
    exact all (first :: more) among

end Signature

/-- A text has names exactly if a signature writes it, and then has those of the signature. -/
theorem typeNames_eq_ok_iff {text : String} {found : List String} :
    typeNames text = .ok found ↔
      ∃ signature : Signature, signature.text = text ∧ signature.names = found := by
  have scanned (rest : List Char) :
      Reads (items (text.toList.length + 1)) ⟨text.toList, 0, []⟩ rest found ↔
        rest = [] ∧ SignatureSpan text.toList [] found :=
    reads_items (text.toList.length + 1) (Nat.lt_succ_self _)
  constructor
  · intro accepted
    rw [typeNames, collect_eq] at accepted
    cases ran : outcome (items (text.toList.length + 1)) ⟨text.toList, 0, []⟩ with
    | mk answer t =>
        rw [ran] at accepted
        cases answer with
        | error e => cases accepted
        | ok done =>
            cases accepted
            obtain ⟨-, signature, written, named⟩ := (scanned t.rest).mp ⟨t.offset, ran⟩
            refine ⟨signature, ?_, named.symm⟩
            rw [Signature.text, ← written, String.ofList_toList]
  · rintro ⟨signature, rfl, rfl⟩
    obtain ⟨offset, ran⟩ := (scanned []).mpr ⟨rfl, signature, String.toList_ofList, rfl⟩
    rw [typeNames, collect_eq, ran]
    rfl

end ClassAtlas.Descriptor
